import ThreatScanner.Bulk.Failures
import ThreatScanner.Bulk.Phase

/-!
# The order of the steps does not matter

Two runs of the same bulk scan may interleave their tasks in any way and let different numbers of
them pass at a time. If neither is cancelled they end with the same job, up to the order in which
the results are listed.
-/

namespace ThreatScanner.Bulk

open Transition

variable {cfg : Config} {s t : BulkState} {scan : Scan} {i : Nat} {task task' : Task} {l : Label}

/-! ## How the job ends -/

/-- The exception that `summarize_bulk_result` raises for an exception without a text. -/
def noneGet : PyError := ⟨"'NoneType' object has no attribute 'get'"⟩

/-- What `run_bulk_scan_job` writes at its end, when the job was not cancelled. -/
structure Verdict (s : BulkState) : Prop where
  escaped : ∀ e, s.escaped = some e → e = noneGet
  raised : (∃ i : Nat, s.tasks[i]? = some Task.raised) → s.escaped ≠ none
  unwritten : s.runner ≠ .finished → s.job.error = none
  allEnded : s.runner = .finished → s.escaped = none → s.tasks.all Task.ended = true
  completed : s.runner = .finished → s.job.cancelRequested = false → s.escaped = none →
    s.job.status = .completed ∧ s.job.error = none ∧ s.job.progress = 100
  failed : s.runner = .finished → s.job.cancelRequested = false → s.escaped ≠ none →
    s.job.status = .failed ∧ s.job.error = some noneGet.message ∧
      s.job.progress = percent s.job.completed s.job.total

theorem verdict_start : Verdict (.start cfg cfg.queuedJob) where
  escaped := nofun
  raised := by
    rintro ⟨i, h⟩
    obtain ⟨_, _, h⟩ := List.mem_map.mp (List.mem_of_getElem? h)
    cases h
  unwritten _ := rfl
  allEnded := nofun
  completed := nofun
  failed := nofun

theorem raised_of_set {i j : Nat} (h : (s.tasks.set j task)[i]? = some Task.raised)
    (hne : task ≠ .raised) : s.tasks[i]? = some Task.raised := by
  rw [List.getElem?_set] at h
  split at h
  · split at h
    · cases h
      exact absurd rfl hne
    · cases h
  · exact h

/-- A task that has not ended moves on; it does not raise. -/
theorem Verdict.move (V : Verdict s) (htask : s.tasks[i]? = some task)
    (hopen : task.ended = false) (ht : t.tasks = s.tasks.set i task') (hne : task' ≠ .raised)
    (hrunner : t.runner = s.runner) (hescaped : t.escaped = s.escaped)
    (herror : t.job.error = s.job.error) (hstatus : t.job.status = s.job.status)
    (hcancel : t.job.cancelRequested = s.job.cancelRequested)
    (hprogress : s.job.progress = percent s.job.completed s.job.total →
      t.job.progress = percent t.job.completed t.job.total) : Verdict t := by
  have hlate : s.runner = .finished → s.escaped ≠ none := by
    intro hfinished hnone
    rw [not_ended_of_mem (V.allEnded hfinished hnone) htask] at hopen
    cases hopen
  refine ⟨?_, ?_, ?_, ?_, ?_, ?_⟩
  · rw [hescaped]
    exact V.escaped
  · rintro ⟨j, hj⟩
    rw [hescaped]
    rw [ht] at hj
    exact V.raised ⟨j, raised_of_set hj hne⟩
  · rw [hrunner, herror]
    exact V.unwritten
  · rw [hrunner, hescaped]
    exact fun hfinished hnone => (hlate hfinished hnone).elim
  · rw [hrunner, hescaped]
    exact fun hfinished _ hnone => (hlate hfinished hnone).elim
  · rw [hrunner, hescaped, hstatus, herror, hcancel]
    intro hfinished hnever hsome
    obtain ⟨hfailed, hwritten, hpercent⟩ := V.failed hfinished hnever hsome
    exact ⟨hfailed, hwritten, hprogress hpercent⟩

theorem Task.not_ended_of_holds (h : task.holds = true) : task.ended = false := by
  cases task with
  | analyzing | archiving => rfl
  | waiting | skipped | recorded | raised => cases h

theorem Turn.verdict (V : Verdict s) (C : Closing cfg s) (h : Turn cfg s l t) : Verdict t := by
  cases h with
  | launch hrunner =>
    have herror := V.unwritten (by rw [hrunner]; nofun)
    exact ⟨V.escaped, V.raised, fun _ => herror, nofun, nofun, nofun⟩
  | skip _ htask => exact V.move htask rfl rfl nofun rfl rfl rfl rfl rfl id
  | pass _ htask => exact V.move htask rfl rfl nofun rfl rfl rfl rfl rfl id
  | archive _ htask => exact V.move htask rfl rfl nofun rfl rfl rfl rfl rfl id
  | record _ hends =>
    obtain ⟨task, htask, hholds⟩ := hends.holds
    exact V.move htask (Task.not_ended_of_holds hholds) rfl nofun rfl rfl rfl rfl rfl fun _ => rfl
  | @raise l i scan hscan hends =>
    obtain ⟨task, htask, hholds⟩ := hends.holds
    have hlate : s.runner = .finished → s.escaped ≠ none := by
      intro hfinished hnone
      have hended := not_ended_of_mem (V.allEnded hfinished hnone) htask
      cases (Task.not_ended_of_holds hholds).symm.trans hended
    refine ⟨?_, fun _ => nofun, V.unwritten, fun _ => nofun, fun _ _ => nofun, ?_⟩
    · rintro e ⟨⟩
      cases hs : s.escaped with
      | none => rfl
      | some e => exact V.escaped e hs
    · intro hfinished hnever _
      obtain ⟨hfailed, hwritten, -⟩ := V.failed hfinished hnever (hlate hfinished)
      exact ⟨hfailed, hwritten, rfl⟩
  | fail hrunner hescaped =>
    have hne : s.runner ≠ .finished := by rw [hrunner]; nofun
    refine ⟨V.escaped, V.raised, fun h => (h rfl).elim, fun _ hnone => ?_, fun _ _ hnone => ?_,
      fun _ _ _ => ⟨rfl, ?_, C.progress_of_runner hne⟩⟩
    · cases hescaped.symm.trans hnone
    · cases hescaped.symm.trans hnone
    · rw [V.escaped _ hescaped]
  | stop hrunner hescaped hended hcancel =>
    refine ⟨V.escaped, V.raised, fun h => (h rfl).elim, fun _ _ => hended, fun _ hnever => ?_,
      fun _ _ hsome => (hsome hescaped).elim⟩
    cases hcancel.symm.trans hnever
  | complete hrunner hescaped hended =>
    have herror := V.unwritten (by rw [hrunner]; nofun)
    exact ⟨V.escaped, V.raised, fun h => (h rfl).elim, fun _ _ => hended,
      fun _ _ _ => ⟨rfl, herror, rfl⟩, fun _ _ hsome => (hsome hescaped).elim⟩
  | cancel | cancelEnded => exact ⟨V.escaped, V.raised, V.unwritten, V.allEnded, nofun, nofun⟩
  | refuse => exact V

/-! ## Two runs -/

/-- Two jobs that differ in the order of their results only, and in what they say about the way
there. -/
structure SameEnd (job job' : BulkJob) : Prop where
  status : job.status = job'.status
  error : job.error = job'.error
  progress : job.progress = job'.progress
  items : job.items = job'.items
  completed : job.completed = job'.completed
  failed : job.failed = job'.failed
  vulnerableTargets : job.vulnerableTargets = job'.vulnerableTargets
  results : job.results.Perm job'.results
  rawResults : ∀ target, job.rawResults.lookup target = job'.rawResults.lookup target

/-- Where a task ends that no cancellation skips. -/
theorem Consistent.task_of_ended (C : Consistent cfg s) (hended : s.tasks.all Task.ended = true)
    (hnever : s.job.cancelRequested = false) (hscan : cfg.scans[i]? = some scan) :
    Silent cfg scan ∧ s.tasks[i]? = some .raised ∨
      ¬Silent cfg scan ∧ s.tasks[i]? = some .recorded := by
  obtain ⟨task, htask⟩ := C.tracks.task_of_scan hscan
  have hjustified := C.tracks.justified i scan task hscan htask
  have hend := not_ended_of_mem hended htask
  cases task with
  | waiting | analyzing | archiving => cases hend
  | skipped => cases hjustified.symm.trans hnever
  | recorded => exact .inr ⟨hjustified, htask⟩
  | raised => exact .inl ⟨hjustified, htask⟩

/-- The entry that the job has for a target at the end. -/
theorem Consistent.item_of_ended (C : Consistent cfg s) (hended : s.tasks.all Task.ended = true)
    (hnever : s.job.cancelRequested = false) (hscan : cfg.scans[i]? = some scan) :
    Silent cfg scan ∧ s.job.items[i]? = some (some (runningItem scan)) ∨
      ¬Silent cfg scan ∧ s.job.items[i]? = some (some (recordOf cfg scan)) := by
  rcases C.task_of_ended hended hnever hscan with ⟨hsilent, htask⟩ | ⟨hspeaks, htask⟩
  · exact .inl ⟨hsilent, C.tracks.item i scan _ hscan htask⟩
  · exact .inr ⟨hspeaks, C.tracks.item i scan _ hscan htask⟩

/-- An exception escapes exactly when a scan raises one without a text. -/
theorem Consistent.escaped_iff (C : Consistent cfg s) (V : Verdict s)
    (hended : s.tasks.all Task.ended = true) (hnever : s.job.cancelRequested = false) :
    s.escaped ≠ none ↔ ∃ scan ∈ cfg.scans, Silent cfg scan := by
  constructor
  · intro h
    obtain ⟨i, scan, hscan, htask⟩ := C.closing.escaped h
    exact ⟨scan, List.mem_of_getElem? hscan, C.tracks.justified i scan _ hscan htask⟩
  · rintro ⟨scan, hmem, hsilent⟩
    obtain ⟨i, hscan⟩ := List.mem_iff_getElem?.mp hmem
    rcases C.task_of_ended hended hnever hscan with ⟨-, htask⟩ | ⟨hspeaks, -⟩
    · exact V.raised ⟨i, htask⟩
    · exact absurd hsilent hspeaks

/-- Two configurations whose scans give the same. -/
structure SameScans (cfg cfg' : Config) : Prop where
  scans : cfg.scans = cfg'.scans
  outcome : ∀ scan, outcome cfg scan = outcome cfg' scan

theorem SameScans.silent {cfg' : Config} (h : SameScans cfg cfg') :
    Silent cfg scan ↔ Silent cfg' scan := by
  rw [Silent, Silent, h.outcome]

theorem SameScans.recordOf {cfg' : Config} (h : SameScans cfg cfg') (scan : Scan) :
    recordOf cfg scan = recordOf cfg' scan := by
  rw [Bulk.recordOf, Bulk.recordOf, h.outcome]

section Two
variable {cfg' : Config} {s' : BulkState} (hsame : SameScans cfg cfg')
  (C : Consistent cfg s) (hended : s.tasks.all Task.ended = true)
  (hnever : s.job.cancelRequested = false)
  (C' : Consistent cfg' s') (hended' : s'.tasks.all Task.ended = true)
  (hnever' : s'.job.cancelRequested = false)
include hsame C hended hnever C' hended' hnever'

theorem items_eq : s.job.items = s'.job.items := by
  refine List.ext_getElem? fun i => ?_
  cases hscan : cfg.scans[i]? with
  | none =>
    have hlen := List.getElem?_eq_none_iff.mp hscan
    rw [List.getElem?_eq_none_iff.mpr (C.tracks.items ▸ hlen),
      List.getElem?_eq_none_iff.mpr (C'.tracks.items ▸ hsame.scans ▸ hlen)]
  | some scan =>
    have hscan' := hsame.scans ▸ hscan
    rcases C.item_of_ended hended hnever hscan with ⟨h, hitem⟩ | ⟨h, hitem⟩
    · rcases C'.item_of_ended hended' hnever' hscan' with ⟨-, hitem'⟩ | ⟨h', -⟩
      · rw [hitem, hitem']
      · exact absurd (hsame.silent.mp h) h'
    · rcases C'.item_of_ended hended' hnever' hscan' with ⟨h', -⟩ | ⟨-, hitem'⟩
      · exact absurd (hsame.silent.mpr h') h
      · rw [hitem, hitem', hsame.recordOf]

theorem sameResult (hdistinct : (cfg.scans.map (·.target)).Nodup) {target : String} {result : Json}
    (h : s.job.rawResults.lookup target = some result) :
    s'.job.rawResults.lookup target = some result := by
  obtain ⟨scan, hscan, rfl, summary, ho⟩ := C.ledger.rawFrom target result h
  have hkey : scan.target ∈ s'.job.rawResults.map Prod.fst := by
    rw [C'.ledger.raw, ← items_eq hsame C hended hnever C' hended' hnever', ← C.ledger.raw]
    exact List.mem_map_of_mem (Dict.mem_of_lookup_eq_some h)
  obtain ⟨e, he, htarget⟩ := List.mem_map.mp hkey
  obtain ⟨result', hresult'⟩ := Option.isSome_iff_exists.mp
    (List.lookup_isSome_iff.mpr ⟨e, he, by rw [htarget]; exact beq_self_eq_true scan.target⟩)
  obtain ⟨scan', hscan', htarget', summary', ho'⟩ := C'.ledger.rawFrom _ _ hresult'
  rw [← hsame.scans] at hscan'
  cases List.inj_on_of_nodup_map hdistinct hscan' hscan htarget'
  rw [← hsame.outcome, ho] at ho'
  cases ho'
  exact hresult'

end Two

theorem SameScans.symm {cfg' : Config} (h : SameScans cfg cfg') : SameScans cfg' cfg :=
  ⟨h.scans.symm, fun scan => (h.outcome scan).symm⟩

/-- The ends of two runs of the same scans. -/
theorem sameEnd_of_final {cfg' : Config} {s' : BulkState} (hsame : SameScans cfg cfg')
    (hdistinct : (cfg.scans.map (·.target)).Nodup)
    (C : Consistent cfg s) (V : Verdict s) (hfinal : Final cfg s)
    (hnever : s.job.cancelRequested = false)
    (C' : Consistent cfg' s') (V' : Verdict s') (hfinal' : Final cfg' s')
    (hnever' : s'.job.cancelRequested = false) : SameEnd s.job s'.job := by
  obtain ⟨hfinished, hended⟩ := hfinal.ended C.tracks
  obtain ⟨hfinished', hended'⟩ := hfinal'.ended C'.tracks
  have hitems := items_eq hsame C hended hnever C' hended' hnever'
  obtain ⟨hcompleted, hfailed, hvulnerable⟩ := C.ledger.counted
  obtain ⟨hcompleted', hfailed', hvulnerable'⟩ := C'.ledger.counted
  have hcount : s.job.completed = s'.job.completed := by rw [hcompleted, hcompleted', hitems]
  have htotal : s.job.total = s'.job.total := by
    rw [C.ledger.total, C'.ledger.total, hsame.scans]
  have hverdict : s.job.status = s'.job.status ∧ s.job.error = s'.job.error ∧
      s.job.progress = s'.job.progress := by
    have hescaped : s.escaped ≠ none ↔ s'.escaped ≠ none := by
      rw [C.escaped_iff V hended hnever, C'.escaped_iff V' hended' hnever', hsame.scans]
      simp only [hsame.silent]
    by_cases hnone : s.escaped = none
    · have hnone' := not_not.mp ((not_congr hescaped).mp (not_not.mpr hnone))
      obtain ⟨hs, he, hp⟩ := V.completed hfinished hnever hnone
      obtain ⟨hs', he', hp'⟩ := V'.completed hfinished' hnever' hnone'
      exact ⟨hs.trans hs'.symm, he.trans he'.symm, hp.trans hp'.symm⟩
    · obtain ⟨hs, he, hp⟩ := V.failed hfinished hnever hnone
      obtain ⟨hs', he', hp'⟩ := V'.failed hfinished' hnever' (hescaped.mp hnone)
      exact ⟨hs.trans hs'.symm, he.trans he'.symm, by rw [hp, hp', hcount, htotal]⟩
  refine ⟨hverdict.1, hverdict.2.1, hverdict.2.2, hitems, hcount, ?_, ?_, ?_, fun target => ?_⟩
  · rw [hfailed, hfailed', hitems]
  · rw [hvulnerable, hvulnerable', hitems]
  · exact C.ledger.results.trans ((List.Perm.of_eq (by rw [hitems])).trans C'.ledger.results.symm)
  · have hdistinct' : (cfg'.scans.map (·.target)).Nodup := hsame.scans ▸ hdistinct
    exact Option.ext fun result =>
      ⟨fun h => sameResult hsame C hended hnever C' hended' hnever' hdistinct h,
        fun h => sameResult hsame.symm C' hended' hnever' C hended hnever hdistinct' h⟩

theorem run_verdict {ls : List Label}
    (hrun : exec (BulkState.step cfg) (.start cfg cfg.queuedJob) ls = some s) :
    Sound cfg s ∧ Verdict s := by
  refine exec_invariant (fun s => Sound cfg s ∧ Verdict s) ?_ ⟨sound_start, verdict_start⟩ hrun
  rintro s l t ⟨S, V⟩ hstep
  obtain ⟨hturn, S'⟩ := S.step hstep
  exact ⟨S', hturn.verdict V S.closing⟩

/-- The same bulk scan, asked for with another concurrency. -/
def Config.withConcurrency (cfg : Config) (concurrency : Int) : Config :=
  { cfg with concurrency := concurrency }

theorem sameScans_withConcurrency {concurrency : Int} :
    SameScans cfg (cfg.withConcurrency concurrency) := ⟨rfl, fun _ => rfl⟩

/-- The end of a bulk scan that is not cancelled depends on its targets and on what their scans
give, not on the order of the steps or on how many tasks may pass at a time. -/
theorem bulk_scan_determined {lower : String → String} {rawTargets : List String}
    {concurrency : Int} {s' : BulkState} {ls ls' : List Label}
    (htargets : cfg.scans.map (·.target) = normalizeBulkTargets lower rawTargets)
    (hrun : exec (BulkState.step cfg) (.start cfg cfg.queuedJob) ls = some s)
    (hfinal : Final cfg s) (hnever : s.job.cancelRequested = false)
    (hrun' : exec (BulkState.step (cfg.withConcurrency concurrency))
      (.start (cfg.withConcurrency concurrency) (cfg.withConcurrency concurrency).queuedJob) ls' =
        some s')
    (hfinal' : Final (cfg.withConcurrency concurrency) s')
    (hnever' : s'.job.cancelRequested = false) : SameEnd s.job s'.job := by
  have hdistinct : (cfg.scans.map (·.target)).Nodup := by
    rw [htargets]
    exact normalizeBulkTargets_nodup rawTargets
  obtain ⟨S, V⟩ := run_verdict hrun
  obtain ⟨S', V'⟩ := run_verdict hrun'
  exact sameEnd_of_final sameScans_withConcurrency hdistinct S.toConsistent V hfinal hnever
    S'.toConsistent V' hfinal' hnever'

/-- The scans of `timeoutConfig`, one at a time. -/
def oneByOne : Config := (timeoutConfig "timed out").withConcurrency 1

/-- Both targets at the same time, and one after the other in the opposite order. -/
theorem bulk_scan_determined_timeout : ∃ s s', timeoutRun "timed out" = some s ∧
    exec (BulkState.step oneByOne) (.start oneByOne oneByOne.queuedJob)
      [.launch, .pass 1, .analyzed 1, .pass 0, .analyzed 0, .finish] = some s' ∧
    SameEnd s.job s'.job := by
  have hrun : (timeoutRun "timed out").map (fun s =>
      (s.runner, s.tasks.all Task.ended, s.job.cancelRequested)) =
      some (.finished, true, false) := by rfl
  have hrun' : (exec (BulkState.step oneByOne) (.start oneByOne oneByOne.queuedJob)
      [.launch, .pass 1, .analyzed 1, .pass 0, .analyzed 0, .finish]).map (fun s =>
      (s.runner, s.tasks.all Task.ended, s.job.cancelRequested)) =
      some (.finished, true, false) := by rfl
  obtain ⟨s, hs, hend⟩ := Option.map_eq_some_iff.mp hrun
  obtain ⟨s', hs', hend'⟩ := Option.map_eq_some_iff.mp hrun'
  simp only [Prod.mk.injEq] at hend hend'
  have htargets : (timeoutConfig "timed out").scans.map (·.target) =
      normalizeBulkTargets id ["example.com,example.org"] := by decide +kernel
  exact ⟨s, s', hs, hs', bulk_scan_determined htargets hs (final_of_ended hend.1 hend.2.1)
    hend.2.2 hs' (final_of_ended hend'.1 hend'.2.1) hend'.2.2⟩

end ThreatScanner.Bulk
