import ThreatScanner.Jobs.System
import ThreatScanner.Bulk.Determinacy

/-!
# The service as independent systems

The scan jobs and each bulk scan are systems of their own: what a run of the service does to one of
them is the run of that system with the steps that concern it, in their order, whatever is done to
the others in between.
-/

namespace ThreatScanner.Jobs

open Scan Bulk Transition

variable {lower upper : String → String} {s t : JobsState} {l : Label} {ls : List Label}

/-- The step of the scan jobs that a step of the service is. -/
def scanLabel : Label → Option Scan.Label
  | .call user (.scanAsync jobId data) => some (.scanAsync jobId data user)
  | .call user (.cancelScan jobId) => some (.cancelScan jobId user)
  | .call user (.scanStatus jobId) => some (.scanStatus jobId user)
  | .scan l => some l
  | _ => none

/-- The step of the bulk scan that a step of the service is, once the bulk scan is there. -/
def bulkLabel (bulkId : BulkId) : Label → Option Bulk.Label
  | .call user (.bulkScanCancel id) => if id = bulkId then some (.cancel user) else none
  | .bulk id l => if id = bulkId then some l else none
  | _ => none

/-- Two states of a system with the step between them, if there is one. -/
def Follows {State Label : Type} (step : State → Label → Option State) (s : State)
    (l : Option Label) (t : State) : Prop :=
  match l with
  | some l => step s l = some t
  | none => t = s

theorem Follows.exec {State Label : Type} {step : State → Label → Option State} {s₀ s t : State}
    {ls : List Label} {l : Option Label} (hrun : exec step s₀ ls = some s)
    (h : Follows step s l t) : exec step s₀ (ls ++ l.toList) = some t := by
  cases l with
  | none =>
    cases h
    rwa [Option.toList_none, List.append_nil]
  | some l => exact exec_concat_some.mpr ⟨s, hrun, h⟩

theorem filterMap_concat {α β : Type} (f : α → Option β) (as : List α) (a : α) :
    (as ++ [a]).filterMap f = as.filterMap f ++ (f a).toList := by
  rw [List.filterMap_append]
  cases h : f a <;> simp [h]

/-! ## One step of the service -/

/-- What a step of the service does: a step of the scan jobs, a new bulk scan, a step of a bulk
scan, or nothing. -/
inductive Moves (lower upper : String → String) (s : JobsState) : Label → JobsState → Prop where
  | scan {l : Label} {l' : Scan.Label} {scan : ScanState} (hl : scanLabel l = some l')
      (hbulk : ∀ id, bulkLabel id l = none) (h : Scan.step s.scan l' = some scan) :
      Moves lower upper s l { s with scan := scan }
  | start {user : UserId} {bulkId : BulkId} {data : BulkScanRequest} {effects : String → Effects}
      {targets : List String} {job : BulkJob} (fresh : bulkId ∉ s.bulkJobs.keys)
      (h : bulkScanStart lower data user = .ok (targets, job)) :
      Moves lower upper s (.call user (.bulkScanStart bulkId data effects)) { s with
        bulkJobs := s.bulkJobs.insertNew bulkId ⟨requestConfig lower upper data user
          (targets.map fun t => ⟨t, effects t⟩), .start (requestConfig lower upper data user
            (targets.map fun t => ⟨t, effects t⟩)) job⟩ fresh }
  | bulk {l : Label} {bulkId : BulkId} {l' : Bulk.Label} {r : BulkRun} (f : BulkRun → BulkRun)
      (hl : ∀ id, bulkLabel id l = if bulkId = id then some l' else none)
      (hscan : scanLabel l = none) (hr : s.bulkJobs.get? bulkId = some r)
      (hconfig : (f r).config = r.config) (h : r.state.step r.config l' = some (f r).state) :
      Moves lower upper s l { s with bulkJobs := s.bulkJobs.modify bulkId f }
  | idle {l : Label} (hscan : scanLabel l = none)
      (h : ∀ id r l', s.bulkJobs.get? id = some r → bulkLabel id l = some l' →
        r.state.step r.config l' = some r.state) : Moves lower upper s l s

/-- A step that concerns no job. -/
theorem Moves.unconcerned (hscan : scanLabel l = none) (hbulk : ∀ id, bulkLabel id l = none) :
    Moves lower upper s l s :=
  .idle hscan fun id _ _ _ hl => by rw [hbulk id] at hl; cases hl

theorem startBulk_moves {user : UserId} {bulkId : BulkId} {data : BulkScanRequest}
    {effects : String → Effects} (fresh : bulkId ∉ s.bulkJobs.keys) :
    Moves lower upper s (.call user (.bulkScanStart bulkId data effects))
      (startBulk lower upper s user bulkId fresh data effects).2 := by
  cases hstart : bulkScanStart lower data user with
  | error e =>
    simp only [startBulk, hstart]
    exact .unconcerned rfl fun _ => rfl
  | ok r =>
    simp only [startBulk, hstart]
    exact .start fresh hstart

theorem cancelBulk_moves {user : UserId} {bulkId : BulkId} {r : BulkRun}
    (hr : s.bulkJobs.get? bulkId = some r) :
    Moves lower upper s (.call user (.bulkScanCancel bulkId))
      (match Bulk.bulkScanCancel r.state.job user with
      | .error _ => s
      | .ok job => { s with bulkJobs := s.bulkJobs.modify bulkId (BulkRun.withJob job) }) := by
  split
  · rename_i hcancel
    refine .idle rfl fun id r' l' hid hl => ?_
    simp only [bulkLabel, Option.ite_none_right_eq_some, Option.some.injEq] at hl
    obtain ⟨rfl, rfl⟩ := hl
    cases hr.symm.trans hid
    simp only [BulkState.step, hcancel]
  · rename_i hcancel
    refine .bulk _ (fun _ => rfl) rfl hr rfl ?_
    simp only [BulkState.step, hcancel, BulkRun.withJob]

theorem call_moves {user : UserId} {call : Call} {answer : Except HttpError Answer}
    (h : serve lower upper s user call = some (answer, t)) :
    Moves lower upper s (.call user call) t := by
  cases call with
  | scanAsync jobId data =>
    simp only [serve, Option.dite_none_right_eq_some, Option.some.injEq, Prod.mk.injEq] at h
    obtain ⟨fresh, -, rfl⟩ := h
    have hscan : Scan.step s.scan (.scanAsync jobId data user) =
        some (Scan.scanAsync s.scan jobId fresh data user).2 := by
      rw [Scan.step, dif_pos fresh]
    exact .scan rfl (fun _ => rfl) hscan
  | cancelScan | scanStatus =>
    simp only [serve, Option.some.injEq, Prod.mk.injEq] at h
    obtain ⟨-, rfl⟩ := h
    exact .scan rfl (fun _ => rfl) rfl
  | queueStatus =>
    simp only [serve, Option.some.injEq, Prod.mk.injEq] at h
    obtain ⟨-, rfl⟩ := h
    exact .unconcerned rfl fun _ => rfl
  | bulkScanStart bulkId data effects =>
    simp only [serve, Option.dite_none_right_eq_some, Option.some.injEq] at h
    obtain ⟨fresh, h⟩ := h
    have hmoves : Moves lower upper s (.call user (.bulkScanStart bulkId data effects))
      (startBulk lower upper s user bulkId fresh data effects).2 := startBulk_moves fresh
    rw [h] at hmoves
    exact hmoves
  | bulkScanStatus bulkId | bulkScanResults bulkId =>
    simp only [serve, withBulkJob, Option.some.injEq] at h
    split at h <;> cases h <;> exact .unconcerned rfl fun _ => rfl
  | bulkScanCancel bulkId =>
    simp only [serve, withBulkJob, Option.some.injEq] at h
    split at h
    · rename_i hnone
      cases h
      refine .idle rfl fun id r l' hid hl => ?_
      simp only [bulkLabel, Option.ite_none_right_eq_some] at hl
      rw [← hl.1, hnone] at hid
      cases hid
    · rename_i r hr
      have hmoves : Moves lower upper s (.call user (.bulkScanCancel bulkId)) _ :=
        cancelBulk_moves hr
      cases hcancel : Bulk.bulkScanCancel r.state.job user with
      | error e =>
        rw [hcancel] at h hmoves
        cases h
        exact hmoves
      | ok job =>
        rw [hcancel] at h hmoves
        cases h
        exact hmoves

theorem step_moves (h : step lower upper s l = some t) : Moves lower upper s l t := by
  cases l with
  | call user call =>
    simp only [step, Option.map_eq_some_iff] at h
    obtain ⟨⟨answer, t'⟩, hserve, rfl⟩ := h
    exact call_moves hserve
  | scan l =>
    simp only [step, Option.ite_none_right_eq_some, Option.map_eq_some_iff] at h
    obtain ⟨-, scan, hscan, rfl⟩ := h
    exact .scan rfl (fun _ => rfl) hscan
  | bulk bulkId l =>
    simp only [step] at h
    split at h
    · cases h
    · rename_i r hr
      simp only [Option.ite_none_right_eq_some, Option.map_eq_some_iff] at h
      obtain ⟨-, state, hstate, rfl⟩ := h
      exact .bulk _ (fun _ => rfl) rfl hr rfl hstate

/-! ## Runs -/

theorem Moves.scan_follows (h : Moves lower upper s l t) :
    Follows Scan.step s.scan (scanLabel l) t.scan := by
  cases h with
  | scan hl _ h =>
    rw [hl]
    exact h
  | start => rfl
  | bulk _ _ hscan =>
    rw [hscan]
    rfl
  | idle hscan =>
    rw [hscan]
    rfl

/-- A bulk scan that was there before the step. -/
theorem Moves.bulk_follows {id : BulkId} {r : BulkRun} (h : Moves lower upper s l t)
    (hr : s.bulkJobs.get? id = some r) : ∃ r', t.bulkJobs.get? id = some r' ∧
      r'.config = r.config ∧
        Follows (BulkState.step r.config) r.state (bulkLabel id l) r'.state := by
  cases h with
  | scan _ hbulk =>
    refine ⟨r, hr, rfl, ?_⟩
    rw [hbulk]
    rfl
  | start fresh => exact ⟨r, Dict.get?_insertNew_of_some fresh hr, rfl, rfl⟩
  | @bulk _ bulkId l' r₀ f hl _ hr₀ hconfig h =>
    by_cases hid : bulkId = id
    · subst hid
      cases hr₀.symm.trans hr
      refine ⟨f r, Dict.get?_modify_eq_some.mpr (.inl ⟨rfl, r, hr, rfl⟩), hconfig, ?_⟩
      rw [hl, if_pos rfl]
      exact h
    · refine ⟨r, Dict.get?_modify_eq_some.mpr (.inr ⟨Ne.symm hid, hr⟩), rfl, ?_⟩
      rw [hl, if_neg hid]
      rfl
  | idle _ h =>
    refine ⟨r, hr, rfl, ?_⟩
    cases hl : bulkLabel id l with
    | none => rfl
    | some l' => exact h id r l' hr hl

/-- The bulk scan was created in the run, and is where its own steps since then lead. -/
def RunsAlone (lower upper : String → String) (ls : List Label) (id : BulkId) (r : BulkRun) :
    Prop :=
  ∃ (ls₁ ls₂ : List Label) (user : UserId) (data : BulkScanRequest) (effects : String → Effects)
    (targets : List String) (job : BulkJob),
    ls = ls₁ ++ .call user (.bulkScanStart id data effects) :: ls₂ ∧
    bulkScanStart lower data user = .ok (targets, job) ∧
    r.config = requestConfig lower upper data user (targets.map fun t => ⟨t, effects t⟩) ∧
    exec (BulkState.step r.config) (.start r.config job) (ls₂.filterMap (bulkLabel id)) =
      some r.state

theorem RunsAlone.follows {id : BulkId} {r r' : BulkRun} (h : RunsAlone lower upper ls id r)
    (hconfig : r'.config = r.config)
    (hfollows : Follows (BulkState.step r.config) r.state (bulkLabel id l) r'.state) :
    RunsAlone lower upper (ls ++ [l]) id r' := by
  obtain ⟨ls₁, ls₂, user, data, effects, targets, job, rfl, hstart, hr, hrun⟩ := h
  refine ⟨ls₁, ls₂ ++ [l], user, data, effects, targets, job, ?_, hstart, hconfig.trans hr, ?_⟩
  · rw [List.append_assoc, List.cons_append]
  · rw [hconfig, filterMap_concat]
    exact hfollows.exec hrun

theorem run_bulk_alone (hrun : run lower upper ls = some s) :
    ∀ id r, s.bulkJobs.get? id = some r → RunsAlone lower upper ls id r := by
  have hinit : ∀ id, JobsState.init.bulkJobs.get? id = none := fun _ => rfl
  refine exec_trace (fun ls s => ∀ id r, s.bulkJobs.get? id = some r →
    RunsAlone lower upper ls id r) ?_ (fun id r h => absurd h (by simp [hinit])) hrun
  intro ls s l t ih hstep id r' hr'
  have hmoves := step_moves hstep
  cases hr : s.bulkJobs.get? id with
  | some r =>
    obtain ⟨r'', hr'', hconfig, hfollows⟩ := hmoves.bulk_follows hr
    cases hr'.symm.trans hr''
    exact (ih id r hr).follows hconfig hfollows
  | none =>
    cases hmoves with
    | start fresh hstart =>
      rename_i user bulkId data effects targets job
      rw [Dict.get?_insertNew] at hr'
      split at hr'
      · rename_i hid
        subst hid
        cases hr'
        exact ⟨ls, [], user, data, effects, targets, job, rfl, hstart, rfl, rfl⟩
      · cases hr.symm.trans hr'
    | scan | idle => cases hr.symm.trans hr'
    | bulk f _ _ hr₀ =>
      rcases Dict.get?_modify_eq_some.mp hr' with ⟨rfl, r, hsome, -⟩ | ⟨-, hsome⟩
      · cases hr.symm.trans hsome
      · cases hr.symm.trans hsome

/-- In every run of the service the scan jobs are where a run of them alone leads, and so is every
bulk scan: the run of the steps that concern it, in their order. -/
theorem runs_alone (hrun : run lower upper ls = some s) :
    Scan.run (ls.filterMap scanLabel) = some s.scan ∧
      ∀ id r, s.bulkJobs.get? id = some r → RunsAlone lower upper ls id r := by
  refine ⟨?_, run_bulk_alone hrun⟩
  refine exec_trace (fun ls s => Scan.run (ls.filterMap scanLabel) = some s.scan) ?_ rfl hrun
  intro ls s l t ih hstep
  rw [filterMap_concat]
  have hfollows := (step_moves hstep).scan_follows
  exact hfollows.exec ih

/-- A bulk scan of one target, whose analysis times out. -/
def startOne (concurrency : Int) : Call :=
  .bulkScanStart 5 ⟨["c.example"], "quick", concurrency, false⟩ fun _ =>
    ⟨.error ⟨"timed out"⟩, .ok .null, .ok 1, .ok ()⟩

/-- The scan jobs of two users and a bulk scan of one of them. -/
def mixedRun : List Label :=
  [.scan .startup, .call 7 (.scanAsync 1 { target := "a.example" }), .call 7 (startOne 2),
    .call 8 (.scanAsync 2 { target := "b.example" }), .bulk 5 .launch, .scan .take,
    .bulk 5 (.pass 0), .call 8 (.bulkScanCancel 5), .bulk 5 (.analyzed 0), .scan .wake,
    .bulk 5 .finish]

theorem runs_alone_mixed : ∃ s r, run id id mixedRun = some s ∧ s.bulkJobs.get? 5 = some r ∧
    RunsAlone id id mixedRun 5 r := by
  have hthere : ((run id id mixedRun).bind fun s => s.bulkJobs.get? 5).isSome = true := by
    decide +kernel
  obtain ⟨r, h⟩ := Option.isSome_iff_exists.mp hthere
  obtain ⟨s, hs, hr⟩ := Option.bind_eq_some_iff.mp h
  exact ⟨s, r, hs, hr, (runs_alone hs).2 5 r hr⟩

/-! ## Interference -/

/-- The job a bulk scan starts from is that of its configuration. -/
theorem queuedJob_requestConfig {data : BulkScanRequest} {userId : Int} {targets : List String}
    {job : BulkJob} {effects : String → Effects}
    (h : bulkScanStart lower data userId = .ok (targets, job)) :
    job =
      (requestConfig lower upper data userId (targets.map fun t => ⟨t, effects t⟩)).queuedJob := by
  simp only [bulkScanStart] at h
  split at h
  · cases h
  · cases h
    have htargets : ((normalizeBulkTargets lower data.targets).map fun t =>
        (⟨t, effects t⟩ : Bulk.Scan)).map (·.target) = normalizeBulkTargets lower data.targets := by
      rw [List.map_map]
      exact List.map_id _
    rw [Config.queuedJob, requestConfig, htargets]
    rfl

/-- What everybody else does changes nothing for a bulk scan: in any two runs of the service, two
bulk scans that were asked for with the same targets, profile and archive option, whose scans give
the same and that were not cancelled, come to the same end. -/
theorem bulk_end_unaffected {ls' : List Label} {s' : JobsState} {id id' : BulkId} {r r' : BulkRun}
    (hrun : run lower upper ls = some s) (hrun' : run lower upper ls' = some s')
    (hr : s.bulkJobs.get? id = some r) (hr' : s'.bulkJobs.get? id' = some r')
    (hscans : r.config.scans = r'.config.scans) (hprofile : r.config.profile = r'.config.profile)
    (harchive : r.config.includeArchive = r'.config.includeArchive)
    (hfinal : Final r.config r.state) (hnever : r.state.job.cancelRequested = false)
    (hfinal' : Final r'.config r'.state) (hnever' : r'.state.job.cancelRequested = false) :
    SameEnd r.state.job r'.state.job := by
  obtain ⟨_, _, user, data, effects, targets, job, -, hstart, hconfig, hown⟩ :=
    run_bulk_alone hrun id r hr
  obtain ⟨_, _, user', data', effects', targets', job', -, hstart', hconfig', hown'⟩ :=
    run_bulk_alone hrun' id' r' hr'
  rw [queuedJob_requestConfig hstart, ← hconfig] at hown
  rw [queuedJob_requestConfig hstart', ← hconfig'] at hown'
  have htargets : r.config.scans.map (·.target) = targets := by
    rw [hconfig, requestConfig, List.map_map]
    exact List.map_id _
  have hdistinct : (r.config.scans.map (·.target)).Nodup := by
    have hqueued : Queued (requestConfig lower upper data user r.config.scans) job ∧ _ :=
      bulkScanStart_ok hstart htargets
    rw [htargets]
    exact hqueued.2.1
  have hupper : r.config.upper = r'.config.upper := by
    rw [hconfig, hconfig']
    rfl
  have hsame : SameScans r.config r'.config := ⟨hscans, fun scan => by
    simp only [outcome, resultToSave, afterAnalysis, saveAndSummarize, hprofile, harchive, hupper]⟩
  obtain ⟨S, V⟩ := run_verdict hown
  obtain ⟨S', V'⟩ := run_verdict hown'
  exact sameEnd_of_final hsame hdistinct S.toConsistent V hfinal hnever S'.toConsistent V' hfinal'
    hnever'

/-- The same bulk scan for another user, with another concurrency and nobody else there. -/
def quietRun : List Label :=
  [.call 9 (startOne 0), .bulk 5 .launch, .bulk 5 (.pass 0), .bulk 5 (.analyzed 0), .bulk 5 .finish]

/-- What a bulk scan has from the call that started it. -/
theorem config_startOne {r : BulkRun} (hrun : run lower upper ls = some s)
    (hr : s.bulkJobs.get? 5 = some r)
    (honly : ∀ user data effects, .call user (.bulkScanStart 5 data effects) ∈ ls →
      ∃ concurrency, .bulkScanStart 5 data effects = startOne concurrency) :
    r.config.scans = (normalizeBulkTargets lower ["c.example"]).map (fun t =>
      ⟨t, ⟨.error ⟨"timed out"⟩, .ok .null, .ok 1, .ok ()⟩⟩) ∧
    r.config.profile = requestProfile lower ⟨["c.example"], "quick", 0, false⟩ ∧
    r.config.includeArchive = false := by
  obtain ⟨ls₁, ls₂, user, data, effects, targets, job, hls, hstart, hconfig, -⟩ :=
    run_bulk_alone hrun 5 r hr
  have hmem : .call user (.bulkScanStart 5 data effects) ∈ ls := by
    rw [hls]
    exact List.mem_append_right _ List.mem_cons_self
  obtain ⟨concurrency, hcall⟩ := honly user data effects hmem
  cases hcall
  simp only [bulkScanStart] at hstart
  split at hstart
  · cases hstart
  · cases hstart
    rw [hconfig]
    exact ⟨rfl, rfl, rfl⟩

/-- The bulk scan is at its end and was not cancelled. -/
def atEnd (ls : List Label) : Bool :=
  ((run id id ls).bind fun s => s.bulkJobs.get? 5).any fun r =>
    r.state.runner = .finished && r.state.tasks.all Task.ended && !r.state.job.cancelRequested

theorem exists_of_atEnd (h : atEnd ls = true) : ∃ s r, run id id ls = some s ∧
    s.bulkJobs.get? 5 = some r ∧ Final r.config r.state ∧
      r.state.job.cancelRequested = false := by
  obtain ⟨r, hr, hend⟩ := (Option.any_eq_true _ _).mp h
  obtain ⟨s, hs, hr⟩ := Option.bind_eq_some_iff.mp hr
  simp only [Bool.and_eq_true, decide_eq_true_eq, Bool.not_eq_true'] at hend
  exact ⟨s, r, hs, hr, final_of_ended hend.1.1 hend.1.2, hend.2⟩

theorem bulk_end_unaffected_mixed : ∃ s s' r r', run id id mixedRun = some s ∧
    run id id quietRun = some s' ∧ s.bulkJobs.get? 5 = some r ∧ s'.bulkJobs.get? 5 = some r' ∧
    SameEnd r.state.job r'.state.job := by
  obtain ⟨s, r, hs, hr, hfinal, hnever⟩ := exists_of_atEnd (show atEnd mixedRun = true by
    decide +kernel)
  obtain ⟨s', r', hs', hr', hfinal', hnever'⟩ := exists_of_atEnd (show atEnd quietRun = true by
    decide +kernel)
  obtain ⟨hscans, hprofile, harchive⟩ := config_startOne hs hr
    fun user data effects hmem => by
      simp only [mixedRun, startOne, List.mem_cons, Label.call.injEq, reduceCtorEq, and_false,
        false_or, or_false, List.not_mem_nil, Call.bulkScanStart.injEq, true_and] at hmem
      exact ⟨2, by rw [hmem.2.1, hmem.2.2, startOne]⟩
  obtain ⟨hscans', hprofile', harchive'⟩ := config_startOne hs' hr'
    fun user data effects hmem => by
      simp only [quietRun, startOne, List.mem_cons, Label.call.injEq, reduceCtorEq, or_false,
        List.not_mem_nil, Call.bulkScanStart.injEq, true_and] at hmem
      exact ⟨0, by rw [hmem.2.1, hmem.2.2, startOne]⟩
  exact ⟨s, s', r, r', hs, hs', hr, hr', bulk_end_unaffected hs hs' hr hr'
    (hscans.trans hscans'.symm) (hprofile.trans hprofile'.symm) (harchive.trans harchive'.symm)
    hfinal hnever hfinal' hnever'⟩

end ThreatScanner.Jobs
