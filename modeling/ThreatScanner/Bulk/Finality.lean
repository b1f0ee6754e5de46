import ThreatScanner.Bulk.Failures
import ThreatScanner.Bulk.Phase
import ThreatScanner.Bulk.View

/-!
# Terminal statuses of a bulk scan

The browser polls a bulk scan until it sees a terminal status and reads the results once. The status
is written before the tasks are over in two places: `bulk_scan_cancel` writes `cancelled` while
tasks hold the semaphore, and `run_bulk_scan_job` writes `failed` when `gather` raises, which leaves
the sibling tasks running. What these tasks record comes after the terminal status.
-/

namespace ThreatScanner.Bulk

open Transition

variable {cfg : Config} {s t : BulkState} {scan : Scan} {i : Nat} {task : Task} {l : Label}

/-- The target may still be recorded: its task holds the semaphore, or may pass it. -/
structure Live (cfg : Config) (s : BulkState) (i : Nat) : Prop where
  loud : ∃ scan, cfg.scans[i]? = some scan ∧ ¬Silent cfg scan
  going : ∃ task, s.tasks[i]? = some task ∧
    (task.holds = true ∨ task = .waiting ∧ s.job.cancelRequested = false)

/-- The step ends the job in front of a target that is still in work: it accepts to cancel a running
job while a task holds the semaphore, or reports an exception while a target may still be
recorded. -/
def EndsEarly (cfg : Config) (s : BulkState) : Label → Prop
  | .cancel userId => s.job.userId = userId ∧ s.job.status = .running ∧
      ∃ i task, Live cfg s i ∧ s.tasks[i]? = some task ∧ task.holds = true
  | .finish => s.runner = .gathering ∧ s.escaped ≠ none ∧ ∃ i, Live cfg s i
  | _ => False

/-- Once a view with a terminal status was returned, every later view has the same findings. -/
def TerminalFinal (cfg : Config) (bulkId : BulkId) (ls : List Label) : Prop :=
  ∀ ls₁ ls₂ ls₃ s₁ s₂ user user' view view', ls = ls₁ ++ ls₂ ++ ls₃ →
    exec (BulkState.step cfg) (.start cfg cfg.queuedJob) ls₁ = some s₁ →
    exec (BulkState.step cfg) s₁ ls₂ = some s₂ →
    bulkScanStatus bulkId s₁.job user = .ok view → view.status.terminal = true →
    (bulkScanStatus bulkId s₂.job user' = .ok view' ∨
      bulkScanResults bulkId s₂.job user' = .ok view') →
    view'.findings = view.findings

/-- No target is left that may be recorded. -/
def Quiet (cfg : Config) (s : BulkState) : Prop := ∀ i, ¬Live cfg s i

/-- The counters and the results of the job. -/
def BulkJob.findings (job : BulkJob) : List Json × Nat × Nat × Nat :=
  (job.results, job.completed, job.failed, job.vulnerableTargets)

theorem findings_publicBulkView {bulkId : BulkId} {job job' : BulkJob}
    (h : job'.findings = job.findings) :
    (publicBulkView bulkId job').findings = (publicBulkView bulkId job).findings := by
  simp only [BulkJob.findings, Prod.mk.injEq] at h
  simp only [BulkView.findings, publicBulkView, h, if_true]

/-! ## Nothing changes in a quiet state -/

/-- Counting again gives the same counters. -/
theorem BulkJob.Counted.recount_findings {job : BulkJob} (h : job.Counted) :
    job.recount.findings = job.findings := by
  obtain ⟨hcompleted, hfailed, hvulnerable⟩ := h
  simp only [BulkJob.findings, BulkJob.recount, ← hcompleted, ← hfailed, ← hvulnerable]

/-- A task that a step moves is live only if it was live before. -/
theorem Live.of_set {j : Nat} {task' : Task} (hl : Live cfg t i)
    (htask : s.tasks[j]? = some task) (hset : t.tasks = s.tasks.set j task')
    (hcancel : t.job.cancelRequested = s.job.cancelRequested)
    (hgoing : i = j → task'.holds = true →
      task.holds = true ∨ task = .waiting ∧ s.job.cancelRequested = false)
    (hne : task' ≠ .waiting) : Live cfg s i := by
  obtain ⟨hloud, task'', htask'', hgoing'⟩ := hl
  rw [hcancel] at hgoing'
  rw [hset] at htask''
  by_cases hij : j = i
  · subst hij
    rw [List.getElem?_set_self (List.getElem?_eq_some_iff.mp htask).1] at htask''
    cases htask''
    exact ⟨hloud, task, htask, hgoing rfl (hgoing'.resolve_right fun h => hne h.1)⟩
  · rw [List.getElem?_set_ne hij] at htask''
    exact ⟨hloud, task'', htask'', hgoing'⟩

theorem Ends.live (hends : Ends cfg s i scan l) (hscan : cfg.scans[i]? = some scan)
    (hspeaks : ¬Silent cfg scan) : Live cfg s i := by
  obtain ⟨task, htask, hholds⟩ := hends.holds
  exact ⟨⟨scan, hscan, hspeaks⟩, task, htask, .inl hholds⟩

/-- A live target was live before the step, and the step asked for no cancellation. -/
theorem Turn.live (h : Turn cfg s l t) (hl : Live cfg t i) : Live cfg s i := by
  cases h with
  | launch | fail | stop | complete | refuse => exact ⟨hl.loud, hl.going⟩
  | skip _ htask => exact hl.of_set htask rfl rfl (fun _ h => by cases h) nofun
  | pass _ htask _ hcancel => exact hl.of_set htask rfl rfl (fun _ _ => .inr ⟨rfl, hcancel⟩) nofun
  | archive _ htask => exact hl.of_set htask rfl rfl (fun _ _ => .inl rfl) nofun
  | record _ hends | raise _ hends =>
    obtain ⟨task, htask, hholds⟩ := hends.holds
    exact hl.of_set htask rfl rfl (fun _ _ => .inl hholds) nofun
  | cancel | cancelEnded =>
    obtain ⟨hloud, task, htask, hgoing⟩ := hl
    exact ⟨hloud, task, htask, .inl (hgoing.resolve_right fun h => by cases h.2)⟩

theorem Turn.quiet (h : Turn cfg s l t) (hq : Quiet cfg s) : Quiet cfg t :=
  fun i hl => hq i (h.live hl)

theorem Turn.findings_quiet (S : Sound cfg s) (hq : Quiet cfg s) (h : Turn cfg s l t) :
    t.job.findings = s.job.findings := by
  cases h with
  | record hscan hends hspeaks => exact (hq _ (hends.live hscan hspeaks)).elim
  | raise => exact S.ledger.counted.recount_findings
  | _ => rfl

theorem quiet_exec {ls : List Label} (S : Sound cfg s) (hq : Quiet cfg s)
    (hrun : exec (BulkState.step cfg) s ls = some t) : t.job.findings = s.job.findings := by
  refine (exec_invariant (fun u => Sound cfg u ∧ Quiet cfg u ∧ u.job.findings = s.job.findings) ?_
    ⟨S, hq, rfl⟩ hrun).2.2
  rintro u l v ⟨S, hq, hsame⟩ hstep
  obtain ⟨hturn, S'⟩ := S.step hstep
  exact ⟨S', hturn.quiet hq, (hturn.findings_quiet S hq).trans hsame⟩

/-! ## Terminal states are quiet unless a step ends early -/

theorem quiet_of_ended (hended : s.tasks.all Task.ended = true) : Quiet cfg s := by
  rintro i ⟨-, task, htask, hgoing⟩
  have hend := not_ended_of_mem hended htask
  rcases hgoing with h | ⟨rfl, -⟩
  · cases task with
    | analyzing | archiving => cases hend
    | _ => cases h
  · cases hend

/-- A cancelled job leaves only the tasks that hold the semaphore live. -/
theorem Live.of_cancel {job : BulkJob} (hl : Live cfg { s with job := job } i)
    (hcancel : job.cancelRequested = true) :
    ∃ task, s.tasks[i]? = some task ∧ task.holds = true := by
  obtain ⟨-, task, htask, hgoing⟩ := hl
  refine ⟨task, htask, hgoing.resolve_right fun h => ?_⟩
  cases hcancel.symm.trans h.2

theorem Turn.terminal_quiet (S : Sound cfg s) (hquiet : s.job.status.terminal = true → Quiet cfg s)
    (hearly : ¬EndsEarly cfg s l) (h : Turn cfg s l t) (hterminal : t.job.status.terminal = true) :
    Quiet cfg t := by
  have hkeep : Quiet cfg s → Quiet cfg t := h.quiet
  cases h with
  | launch => cases hterminal
  | fail hrunner hescaped =>
    intro i hl
    exact hearly ⟨hrunner, by simp [hescaped], i, hl.loud, hl.going⟩
  | stop _ _ hended | complete _ _ hended => exact quiet_of_ended hended
  | cancel howner hstatus =>
    intro i hl
    obtain ⟨task, htask, hholds⟩ := hl.of_cancel rfl
    rcases hstatus with hq | hr
    · have := (S.phased.pending (S.phased.queued hq)).2 task (List.mem_of_getElem? htask)
      rw [this] at hholds
      cases hholds
    · exact hearly ⟨howner, hr, i, task, ⟨hl.loud, task, htask, .inl hholds⟩, htask, hholds⟩
  | _ => exact hkeep (hquiet hterminal)

/-! ## A live target can be recorded -/

/-- The run takes task `i` to its end. -/
structure RunsOut (cfg : Config) (s t : BulkState) (i : Nat) (scan : Scan) : Prop where
  tasks : ∃ task, task.holds = false ∧ t.tasks = s.tasks.set i task
  runner : t.runner = s.runner
  cancelRequested : t.job.cancelRequested = s.job.cancelRequested
  results : s.job.results.length ≤ t.job.results.length
  recorded : ¬Silent cfg scan → s.job.results.length < t.job.results.length

theorem recordTask_runsOut :
    RunsOut cfg s (recordTask cfg s i scan (outcome cfg scan)) i scan := by
  by_cases hsilent : Silent cfg scan
  · rw [recordTask_of_silent hsilent]
    exact ⟨⟨.raised, rfl, rfl⟩, rfl, rfl, le_rfl, fun h => (h hsilent).elim⟩
  · rw [recordTask_of_not_silent hsilent]
    have hlt : s.job.results.length < (s.recorded cfg i scan).job.results.length := by
      simp [BulkState.recorded, BulkJob.recount]
    exact ⟨⟨.recorded, rfl, rfl⟩, rfl, rfl, hlt.le, fun _ => hlt⟩

theorem exists_runsOut_archiving {result : Json} (hscan : cfg.scans[i]? = some scan)
    (htask : s.tasks[i]? = some (.archiving result))
    (hafter : afterAnalysis cfg scan = .ok (result, true)) :
    ∃ ms t, exec (BulkState.step cfg) s ms = some t ∧ RunsOut cfg s t i scan := by
  refine ⟨[.archived i], _, ?_, recordTask_runsOut⟩
  rw [exec_singleton, outcome_of_archive hafter]
  simp only [BulkState.step, hscan, htask]

/-- A task that holds the semaphore can go on to its end. -/
theorem exists_runsOut (S : Sound cfg s) (hscan : cfg.scans[i]? = some scan)
    (htask : s.tasks[i]? = some task) (hholds : task.holds = true) :
    ∃ ms t, exec (BulkState.step cfg) s ms = some t ∧ RunsOut cfg s t i scan := by
  cases task with
  | waiting | skipped | recorded | raised => cases hholds
  | archiving result =>
    exact exists_runsOut_archiving hscan htask (S.tracks.justified i scan _ hscan htask)
  | analyzing =>
    have hstep : s.step cfg (.analyzed i) = some (analyzedTask cfg s i scan) := by
      simp only [BulkState.step, hscan, htask]
    unfold analyzedTask at hstep
    rcases hafter : afterAnalysis cfg scan with e | ⟨result, archive⟩
    · rw [hafter] at hstep
      simp only [← outcome_of_error hafter] at hstep
      exact ⟨[.analyzed i], _, exec_singleton.trans hstep, recordTask_runsOut⟩
    · cases archive with
      | false =>
        rw [hafter] at hstep
        simp only [← outcome_of_not_archive hafter] at hstep
        exact ⟨[.analyzed i], _, exec_singleton.trans hstep, recordTask_runsOut⟩
      | true =>
        rw [hafter] at hstep
        have hset : (s.tasks.set i (.archiving result))[i]? = some (.archiving result) :=
          List.getElem?_set_self (List.getElem?_eq_some_iff.mp htask).1
        obtain ⟨ms, t, ht, R⟩ := exists_runsOut_archiving
          (s := { s with tasks := s.tasks.set i (.archiving result) }) hscan hset hafter
        obtain ⟨task, hnot, htasks⟩ := R.tasks
        refine ⟨.analyzed i :: ms, t, exec_cons_some.mpr ⟨_, hstep, ht⟩,
          ⟨task, hnot, ?_⟩, R.runner, R.cancelRequested, R.results, R.recorded⟩
        rw [htasks, List.set_set]

/-- A waiting task can pass the semaphore when there is room, and go on to its end. -/
theorem exists_recorded_of_room (S : Sound cfg s) (hscan : cfg.scans[i]? = some scan)
    (hspeaks : ¬Silent cfg scan) (htask : s.tasks[i]? = some .waiting)
    (hrunner : s.runner ≠ .pending) (hcancel : s.job.cancelRequested = false)
    (hroom : s.tasks.countP Task.holds < cfg.limit) :
    ∃ ms t, exec (BulkState.step cfg) s ms = some t ∧
      s.job.results.length < t.job.results.length := by
  have hstep : s.step cfg (.pass i) = some (passTask s i scan) := by
    simp only [BulkState.step, hscan, htask, if_pos (And.intro hrunner hroom)]
  have hpassed : (passTask s i scan).tasks[i]? = some .analyzing := by
    simp only [passTask, hcancel]
    exact List.getElem?_set_self (List.getElem?_eq_some_iff.mp htask).1
  obtain ⟨ms, t, ht, R⟩ := exists_runsOut (S.step hstep).2 hscan hpassed rfl
  refine ⟨.pass i :: ms, t, exec_cons_some.mpr ⟨_, hstep, ht⟩, ?_⟩
  have hsame : (passTask s i scan).job.results = s.job.results := by
    simp only [passTask, hcancel]
    rfl
  rw [← hsame]
  exact R.recorded hspeaks

theorem exists_recorded (S : Sound cfg s) (hrunner : s.runner ≠ .pending) (hl : Live cfg s i) :
    ∃ ms t, exec (BulkState.step cfg) s ms = some t ∧
      s.job.results.length < t.job.results.length := by
  obtain ⟨⟨scan, hscan, hspeaks⟩, task, htask, hgoing⟩ := hl
  rcases hgoing with hholds | ⟨rfl, hcancel⟩
  · obtain ⟨ms, t, ht, R⟩ := exists_runsOut S hscan htask hholds
    exact ⟨ms, t, ht, R.recorded hspeaks⟩
  · by_cases hroom : s.tasks.countP Task.holds < cfg.limit
    · exact exists_recorded_of_room S hscan hspeaks htask hrunner hcancel hroom
    · -- the semaphore is taken: one of its holders goes to its end first
      have hpos : 0 < s.tasks.countP Task.holds := (limit_pos cfg).trans_le (not_lt.mp hroom)
      obtain ⟨holder, hmem, hholds⟩ := List.countP_pos_iff.mp hpos
      obtain ⟨j, hj⟩ := List.mem_iff_getElem?.mp hmem
      obtain ⟨scan', hscan'⟩ := S.tracks.scan_of_task hj
      obtain ⟨ms, u, hu, R⟩ := exists_runsOut S hscan' hj hholds
      obtain ⟨task', hnot, htasks⟩ := R.tasks
      have hne : j ≠ i := by
        rintro rfl
        cases hj.symm.trans htask
        cases hholds
      obtain ⟨hlt, hget⟩ := List.getElem?_eq_some_iff.mp hj
      have hcount : s.tasks.countP Task.holds = u.tasks.countP Task.holds + 1 := by
        have hback : s.tasks = u.tasks.set j holder := by
          rw [htasks, List.set_set, ← hget, List.set_getElem_self]
        rw [hback]
        refine Slots.countP_set_add (a := task') ?_ hnot hholds
        rw [htasks]
        exact List.getElem?_set_self hlt
      have hroom' : u.tasks.countP Task.holds < cfg.limit := by
        have := S.ledger.bound
        omega
      have hwait : u.tasks[i]? = some .waiting := by
        rw [htasks, List.getElem?_set_ne hne]
        exact htask
      obtain ⟨ms', t, ht, hresults⟩ := exists_recorded_of_room (sound_exec S hu) hscan hspeaks hwait
        (by rwa [R.runner]) (by rwa [R.cancelRequested]) hroom'
      exact ⟨ms ++ ms', t, exec_append_some.mpr ⟨u, hu, ht⟩, R.results.trans_lt hresults⟩

/-! ## Terminal statuses are final unless a step ends the job early -/

/-- A step that ends the job early leaves it in a terminal state, with a target still in work. -/
theorem EndsEarly.step (S : Sound cfg s) (h : EndsEarly cfg s l) :
    ∃ t, s.step cfg l = some t ∧ t.job.status.terminal = true ∧ t.runner ≠ .pending ∧
      ∃ i, Live cfg t i := by
  cases l with
  | cancel userId =>
    obtain ⟨howner, hrunning, i, task, hl, htask, hholds⟩ := h
    refine ⟨{ s with job := s.job.cancel }, ?_, rfl, fun hp => (S.phased.pending hp).1 hrunning,
      i, hl.loud, task, htask, .inl hholds⟩
    simp only [BulkState.step, bulkScanCancel, if_neg (not_not.mpr howner), hrunning]
    rfl
  | finish =>
    obtain ⟨hrunner, hescaped, i, hl⟩ := h
    obtain ⟨e, he⟩ := Option.ne_none_iff_exists'.mp hescaped
    refine ⟨{ s with
      runner := .finished
      job := { s.job with status := .failed, error := some e.message } }, ?_, rfl, ?_, i,
      hl.loud, hl.going⟩
    · simp only [BulkState.step, if_pos hrunner, finishRun, he]
    · intro hpending
      cases hpending
  | _ => exact h.elim

/-- In every run none of whose steps ends the job early, a terminal status is final. Every run that
makes such a step can be continued so that the findings change after the terminal status. -/
theorem terminal_status_final (cfg : Config) (bulkId : BulkId) (ls : List Label) :
    (AllSteps (BulkState.step cfg) (fun s l => ¬EndsEarly cfg s l) (.start cfg cfg.queuedJob) ls →
      TerminalFinal cfg bulkId ls) ∧
    ∀ ls₁ l ls₂ s, ls = ls₁ ++ l :: ls₂ →
      exec (BulkState.step cfg) (.start cfg cfg.queuedJob) ls₁ = some s → EndsEarly cfg s l →
      ∃ ms, ¬TerminalFinal cfg bulkId (ls₁ ++ l :: ms) := by
  constructor
  · rintro hall ls₁ ls₂ ls₃ s₁ s₂ user user' view view' rfl h₁ h₂ hview hterminal hview'
    rw [AllSteps.append, AllSteps.append] at hall
    obtain rfl := eq_publicBulkView (.inl hview)
    obtain rfl := eq_publicBulkView hview'
    have hquiet : s₁.job.status.terminal = true → Quiet cfg s₁ := by
      refine (exec_invariant_of (fun s => Sound cfg s ∧
        (s.job.status.terminal = true → Quiet cfg s)) ?_ ⟨sound_start, ?_⟩ hall.1.1 h₁).2
      · rintro s l t ⟨S, hquiet⟩ hearly hstep
        obtain ⟨hturn, S'⟩ := S.step hstep
        exact ⟨S', hturn.terminal_quiet S hquiet hearly⟩
      · intro h
        cases h
    exact findings_publicBulkView (quiet_exec (sound_exec sound_start h₁) (hquiet hterminal) h₂)
  · rintro ls₁ l ls₂ s - hs hearly
    have S := sound_exec sound_start hs
    obtain ⟨t, ht, hterminal, hrunner, i, hl⟩ := hearly.step S
    obtain ⟨ms, u, hu, hlt⟩ := exists_recorded (S.step ht).2 hrunner hl
    refine ⟨ms, fun hfinal => ?_⟩
    have hsame := hfinal (ls₁ ++ [l]) ms [] t u t.job.userId u.job.userId
      (publicBulkView bulkId t.job) (publicBulkView bulkId u.job) (by simp)
      (exec_concat_some.mpr ⟨s, hs, ht⟩) hu (if_neg (not_not.mpr rfl)) hterminal
      (.inl (if_neg (not_not.mpr rfl)))
    have hresults : u.job.results = t.job.results := Option.some.inj (congrArg Prod.fst hsame)
    rw [hresults] at hlt
    exact lt_irrefl _ hlt

/-- The job is cancelled while the second target is analyzed, which then completes: the browser has
seen no results, and there is one. -/
theorem result_after_cancel : ¬TerminalFinal (timeoutConfig "timed out") 1
    [.launch, .pass 1, .cancel 1, .analyzed 1] := by
  obtain ⟨s, hs, hstatus⟩ : ∃ s, exec (BulkState.step (timeoutConfig "timed out"))
      (.start (timeoutConfig "timed out") (timeoutConfig "timed out").queuedJob)
      [.launch, .pass 1, .cancel 1] = some s ∧
      (s.job.userId = 1 ∧ s.job.status.terminal = true ∧ s.job.results.length = 0) :=
    ⟨_, rfl, rfl, rfl, rfl⟩
  obtain ⟨t, ht, huser, hresults⟩ : ∃ t, exec (BulkState.step (timeoutConfig "timed out")) s
      [.analyzed 1] = some t ∧ (t.job.userId = 1 ∧ t.job.results.length = 1) := by
    cases hs
    exact ⟨_, rfl, rfl, rfl⟩
  intro hfinal
  have hsame := hfinal _ _ [] s t 1 1 (publicBulkView 1 s.job) (publicBulkView 1 t.job) rfl hs ht
    (if_neg (not_not.mpr hstatus.1)) hstatus.2.1 (.inl (if_neg (not_not.mpr huser)))
  have hsame : t.job.results = s.job.results := Option.some.inj (congrArg Prod.fst hsame)
  rw [hsame, hstatus.2.2] at hresults
  cases hresults

end ThreatScanner.Bulk
