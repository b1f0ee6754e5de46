import ThreatScanner.Bulk.System

/-!
# What a step of a bulk scan does

`Turn` lists what a step can do, with its label and the guards that concern the order of the steps:
when a task may pass the semaphore, which cancel requests are accepted, and how
`run_bulk_scan_job` ends. A task that leaves its `try` and `except` blocks does so with the outcome
of its own scan (`outcome`), or with the exception that `summarize_bulk_result` raises when the text
of the error is empty (`Silent`). `Moves` keeps of a step what it does to the items and the
counters.
-/

namespace ThreatScanner.Bulk

variable {cfg : Config} {s t : BulkState} {scan : Scan} {i : Nat}

/-! ## The end of a scan -/

/-- What the job records of a scan. -/
def recordOf (cfg : Config) (scan : Scan) : Json :=
  match outcome cfg scan with
  | .ok (_, summary) => summary
  | .error e => failedSummary scan.target e.message

/-- The raw results with the result of the scan, if it has one. -/
def keepResult (cfg : Config) (scan : Scan) (rawResults : List (String × Json)) :
    List (String × Json) :=
  match outcome cfg scan with
  | .ok (result, _) => Json.setEntry scan.target result rawResults
  | .error _ => rawResults

/-- The scan raises an exception whose text is empty. -/
def Silent (cfg : Config) (scan : Scan) : Prop := outcome cfg scan = .error ⟨""⟩

theorem outcome_of_not_archive {result : Json} (h : afterAnalysis cfg scan = .ok (result, false)) :
    outcome cfg scan = saveAndSummarize cfg scan result := by
  simp only [outcome, resultToSave, h, bind, Except.bind]
  rfl

theorem outcome_of_archive {result : Json} (h : afterAnalysis cfg scan = .ok (result, true)) :
    outcome cfg scan = (withArchive scan result >>= saveAndSummarize cfg scan) := by
  simp only [outcome, resultToSave, h, bind, Except.bind]
  rfl

theorem outcome_of_error {e : PyError} (h : afterAnalysis cfg scan = .error e) :
    outcome cfg scan = .error e := by
  simp only [outcome, resultToSave, h, bind, Except.bind]

/-- The state after the scan is recorded. -/
def BulkState.recorded (cfg : Config) (s : BulkState) (i : Nat) (scan : Scan) : BulkState :=
  { s with
    tasks := s.tasks.set i .recorded
    job := BulkJob.recount { s.job with
      items := s.job.items.set i (some (recordOf cfg scan))
      results := s.job.results ++ [recordOf cfg scan]
      rawResults := keepResult cfg scan s.job.rawResults } }

theorem recordTask_of_not_silent (h : ¬Silent cfg scan) :
    recordTask cfg s i scan (outcome cfg scan) = s.recorded cfg i scan := by
  unfold recordTask BulkState.recorded recordOf keepResult
  cases ho : outcome cfg scan with
  | ok r => rfl
  | error e =>
    have hmessage : e.message ≠ "" := by
      intro hempty
      exact h (ho.trans (congrArg _ (congrArg PyError.mk hempty)))
    simp only [summarizeBulkResult_failed hmessage]
    rfl

/-- The state after an exception has left the task. -/
def BulkState.raised (s : BulkState) (i : Nat) : BulkState :=
  { s with
    tasks := s.tasks.set i .raised
    job := s.job.recount
    escaped := some (s.escaped.getD ⟨"'NoneType' object has no attribute 'get'"⟩) }

theorem recordTask_of_silent (h : Silent cfg scan) :
    recordTask cfg s i scan (outcome cfg scan) = s.raised i := by
  rw [h]
  simp only [recordTask, summarizeBulkResult_silent]
  rfl

/-! ## The steps with their labels and guards -/

/-- The label resumes task `i` for the rest of its `try` block. -/
inductive Ends (cfg : Config) (s : BulkState) (i : Nat) (scan : Scan) : Label → Prop where
  | analyzed (htask : s.tasks[i]? = some .analyzing)
      (hafter : ∀ result, afterAnalysis cfg scan ≠ .ok (result, true)) :
      Ends cfg s i scan (.analyzed i)
  | archived {result : Json} (htask : s.tasks[i]? = some (.archiving result))
      (hafter : afterAnalysis cfg scan = .ok (result, true)) : Ends cfg s i scan (.archived i)

/-- The job once `bulk_scan_cancel` has accepted to cancel it. -/
def BulkJob.cancel (job : BulkJob) : BulkJob :=
  { job with cancelRequested := true, status := .cancelled, step := "Cancel requested" }

inductive Turn (cfg : Config) (s : BulkState) : Label → BulkState → Prop where
  | launch (hrunner : s.runner = .pending) :
      Turn cfg s .launch { s with runner := .gathering, job := { s.job with status := .running } }
  | skip {i : Nat} {scan : Scan} (hscan : cfg.scans[i]? = some scan)
      (htask : s.tasks[i]? = some .waiting) (hrunner : s.runner ≠ .pending)
      (hcancel : s.job.cancelRequested = true) :
      Turn cfg s (.pass i) { s with tasks := s.tasks.set i .skipped }
  | pass {i : Nat} {scan : Scan} (hscan : cfg.scans[i]? = some scan)
      (htask : s.tasks[i]? = some .waiting) (hrunner : s.runner ≠ .pending)
      (hcancel : s.job.cancelRequested = false) :
      Turn cfg s (.pass i) { s with
        tasks := s.tasks.set i .analyzing
        job := { s.job with
          items := s.job.items.set i (some (runningItem scan))
          currentTarget := some scan.target } }
  | archive {i : Nat} {scan : Scan} {result : Json} (hscan : cfg.scans[i]? = some scan)
      (htask : s.tasks[i]? = some .analyzing)
      (hafter : afterAnalysis cfg scan = .ok (result, true)) :
      Turn cfg s (.analyzed i) { s with tasks := s.tasks.set i (.archiving result) }
  | record {l : Label} {i : Nat} {scan : Scan} (hscan : cfg.scans[i]? = some scan)
      (hends : Ends cfg s i scan l) (hspeaks : ¬Silent cfg scan) :
      Turn cfg s l (s.recorded cfg i scan)
  | raise {l : Label} {i : Nat} {scan : Scan} (hscan : cfg.scans[i]? = some scan)
      (hends : Ends cfg s i scan l) (hsilent : Silent cfg scan) : Turn cfg s l (s.raised i)
  | fail {e : PyError} (hrunner : s.runner = .gathering) (hescaped : s.escaped = some e) :
      Turn cfg s .finish { s with
        runner := .finished
        job := { s.job with status := .failed, error := some e.message } }
  | stop (hrunner : s.runner = .gathering) (hescaped : s.escaped = none)
      (hended : s.tasks.all Task.ended) (hcancel : s.job.cancelRequested = true) :
      Turn cfg s .finish { s with
        runner := .finished
        job := { s.job with status := .cancelled, step := "Bulk scan cancelled" } }
  | complete (hrunner : s.runner = .gathering) (hescaped : s.escaped = none)
      (hended : s.tasks.all Task.ended) (hcancel : s.job.cancelRequested = false) :
      Turn cfg s .finish { s with
        runner := .finished
        job := { s.job with
          status := .completed, step := "Bulk scan completed", progress := 100 } }
  | cancel {userId : Int} (howner : s.job.userId = userId)
      (hstatus : s.job.status = .queued ∨ s.job.status = .running) :
      Turn cfg s (.cancel userId) { s with job := s.job.cancel }
  | cancelEnded {userId : Int} (howner : s.job.userId = userId)
      (hqueued : s.job.status ≠ .queued) (hrunning : s.job.status ≠ .running) :
      Turn cfg s (.cancel userId) { s with job := { s.job with cancelRequested := true } }
  | refuse {userId : Int} (howner : s.job.userId ≠ userId) : Turn cfg s (.cancel userId) s

variable {l : Label}

theorem Ends.holds (h : Ends cfg s i scan l) : ∃ task, s.tasks[i]? = some task ∧ task.holds := by
  cases h with
  | analyzed htask => exact ⟨_, htask, rfl⟩
  | archived htask => exact ⟨_, htask, rfl⟩

/-- The end of a task is the end of its scan. -/
theorem turn_recordTask (hscan : cfg.scans[i]? = some scan) (hends : Ends cfg s i scan l) :
    Turn cfg s l (recordTask cfg s i scan (outcome cfg scan)) := by
  by_cases hsilent : Silent cfg scan
  · rw [recordTask_of_silent hsilent]
    exact .raise hscan hends hsilent
  · rw [recordTask_of_not_silent hsilent]
    exact .record hscan hends hsilent

theorem turn_analyzedTask (hscan : cfg.scans[i]? = some scan)
    (htask : s.tasks[i]? = some .analyzing) :
    Turn cfg s (.analyzed i) (analyzedTask cfg s i scan) := by
  unfold analyzedTask
  split
  · rename_i h
    rw [← outcome_of_error h]
    exact turn_recordTask hscan (.analyzed htask fun _ ho => by cases h.symm.trans ho)
  · rename_i h
    exact .archive hscan htask h
  · rename_i h
    rw [← outcome_of_not_archive h]
    exact turn_recordTask hscan (.analyzed htask fun _ ho => by cases h.symm.trans ho)

theorem turn_finishRun (hrunner : s.runner = .gathering) (h : finishRun s = some t) :
    Turn cfg s .finish t := by
  unfold finishRun at h
  split at h
  · rename_i hescaped
    cases h
    exact .fail hrunner hescaped
  · rename_i hescaped
    split at h
    · rename_i hended
      split at h
      · rename_i hcancel
        cases h
        exact .stop hrunner hescaped hended hcancel
      · rename_i hcancel
        cases h
        exact .complete hrunner hescaped hended (Bool.eq_false_iff.mpr hcancel)
    · cases h

theorem turn_cancel {userId : Int} (h : s.step cfg (.cancel userId) = some t) :
    Turn cfg s (.cancel userId) t := by
  simp only [BulkState.step, bulkScanCancel] at h
  by_cases howner : s.job.userId = userId
  · rw [if_neg (not_not.mpr howner)] at h
    by_cases hstatus : s.job.status ∈ [BulkStatus.queued, .running]
    · rw [if_pos hstatus] at h
      cases h
      exact .cancel howner (by simpa using hstatus)
    · rw [if_neg hstatus] at h
      cases h
      simp only [List.mem_cons, List.not_mem_nil, or_false, not_or] at hstatus
      exact .cancelEnded howner hstatus.1 hstatus.2
  · rw [if_pos howner] at h
    cases h
    exact .refuse howner

/-- A task that awaits the archive does so with the result of its analysis. -/
def ArchivingResults (cfg : Config) (s : BulkState) : Prop :=
  ∀ (i : Nat) scan result, cfg.scans[i]? = some scan → s.tasks[i]? = some (.archiving result) →
    afterAnalysis cfg scan = .ok (result, true)

theorem turn_of_step (hresults : ArchivingResults cfg s) (h : s.step cfg l = some t) :
    Turn cfg s l t := by
  cases l with
  | launch =>
    simp only [BulkState.step] at h
    split at h
    · rename_i hrunner
      cases h
      exact .launch hrunner
    · cases h
  | pass i =>
    simp only [BulkState.step] at h
    split at h
    · rename_i scan hscan htask
      split at h
      · rename_i hpass
        cases h
        unfold passTask
        split
        · rename_i hcancel
          exact .skip hscan htask hpass.1 hcancel
        · rename_i hcancel
          exact .pass hscan htask hpass.1 (Bool.eq_false_iff.mpr hcancel)
      · cases h
    · cases h
  | analyzed i =>
    simp only [BulkState.step] at h
    split at h
    · rename_i scan hscan htask
      cases h
      exact turn_analyzedTask hscan htask
    · cases h
  | archived i =>
    simp only [BulkState.step] at h
    split at h
    · rename_i scan result hscan htask
      cases h
      have hafter := hresults i scan result hscan htask
      rw [← outcome_of_archive hafter]
      exact turn_recordTask hscan (.archived htask hafter)
    · cases h
  | finish =>
    simp only [BulkState.step] at h
    split at h
    · rename_i hrunner
      exact turn_finishRun hrunner h
    · cases h
  | cancel userId => exact turn_cancel h

/-! ## What they do to the items and the counters -/

/-- What a step does to the items and the counters. -/
inductive Moves (cfg : Config) (s : BulkState) : BulkState → Prop where
  | launch (hrunner : s.runner = .pending) :
      Moves cfg s { s with runner := .gathering, job := { s.job with status := .running } }
  | skip {i : Nat} {scan : Scan} (hscan : cfg.scans[i]? = some scan)
      (htask : s.tasks[i]? = some .waiting) (hcancel : s.job.cancelRequested = true) :
      Moves cfg s { s with tasks := s.tasks.set i .skipped }
  | pass {i : Nat} {scan : Scan} (hscan : cfg.scans[i]? = some scan)
      (htask : s.tasks[i]? = some .waiting) (hlimit : s.tasks.countP Task.holds < cfg.limit) :
      Moves cfg s { s with
        tasks := s.tasks.set i .analyzing
        job := { s.job with
          items := s.job.items.set i (some (runningItem scan))
          currentTarget := some scan.target } }
  | archive {i : Nat} {scan : Scan} {result : Json} (hscan : cfg.scans[i]? = some scan)
      (htask : s.tasks[i]? = some .analyzing)
      (hafter : afterAnalysis cfg scan = .ok (result, true)) :
      Moves cfg s { s with tasks := s.tasks.set i (.archiving result) }
  | record {i : Nat} {scan : Scan} {task : Task} (hscan : cfg.scans[i]? = some scan)
      (htask : s.tasks[i]? = some task) (hholds : task.holds) (hspeaks : ¬Silent cfg scan) :
      Moves cfg s (s.recorded cfg i scan)
  | raise {i : Nat} {scan : Scan} {task : Task} (hscan : cfg.scans[i]? = some scan)
      (htask : s.tasks[i]? = some task) (hholds : task.holds) (hsilent : Silent cfg scan) :
      Moves cfg s (s.raised i)
  | fail {e : PyError} (hrunner : s.runner = .gathering) (hescaped : s.escaped = some e) :
      Moves cfg s { s with
        runner := .finished
        job := { s.job with status := .failed, error := some e.message } }
  | stop (hrunner : s.runner = .gathering) (hescaped : s.escaped = none)
      (hended : s.tasks.all Task.ended) (hcancel : s.job.cancelRequested = true) :
      Moves cfg s { s with
        runner := .finished
        job := { s.job with status := .cancelled, step := "Bulk scan cancelled" } }
  | complete (hrunner : s.runner = .gathering) (hescaped : s.escaped = none)
      (hended : s.tasks.all Task.ended) (hcancel : s.job.cancelRequested = false) :
      Moves cfg s { s with
        runner := .finished
        job := { s.job with
          status := .completed, step := "Bulk scan completed", progress := 100 } }
  | cancel {status : BulkStatus} {step : String} :
      Moves cfg s { s with
        job := { s.job with cancelRequested := true, status := status, step := step } }
  | refuse : Moves cfg s s

/-- A task passes the semaphore when it has room. -/
theorem limit_of_pass (h : s.step cfg (.pass i) = some t) :
    s.tasks.countP Task.holds < cfg.limit := by
  simp only [BulkState.step] at h
  split at h
  · split at h
    · next hpass => exact hpass.2
    · cases h
  · cases h

theorem moves_of_step (hresults : ArchivingResults cfg s) (h : s.step cfg l = some t) :
    Moves cfg s t := by
  cases turn_of_step hresults h with
  | launch hrunner => exact .launch hrunner
  | skip hscan htask _ hcancel => exact .skip hscan htask hcancel
  | pass hscan htask => exact .pass hscan htask (limit_of_pass h)
  | archive hscan htask hafter => exact .archive hscan htask hafter
  | record hscan hends hspeaks =>
    obtain ⟨_, htask, hholds⟩ := hends.holds
    exact .record hscan htask hholds hspeaks
  | raise hscan hends hsilent =>
    obtain ⟨_, htask, hholds⟩ := hends.holds
    exact .raise hscan htask hholds hsilent
  | fail hrunner hescaped => exact .fail hrunner hescaped
  | stop hrunner hescaped hended hcancel => exact .stop hrunner hescaped hended hcancel
  | complete hrunner hescaped hended hcancel => exact .complete hrunner hescaped hended hcancel
  | cancel | cancelEnded => exact .cancel
  | refuse => exact .refuse

end ThreatScanner.Bulk
