import ThreatScanner.Scan.System

/-!
# What one step of the scan system can do

`Move s l t` lists the state changes of the system, one constructor for each, with the guard it
is made under; `step_move` reads them off the code. The invariants of the following files are
proved by cases on `Move` and do not unfold the step function.
-/

namespace ThreatScanner.Scan

open ScanState

namespace Await

/-- The progress written when the await is reached. -/
def progress : Await → Nat
  | preparation => 10
  | dns => 20
  | ssl => 35
  | headers => 50
  | exposure => 65
  | analyze => 80

def step : Await → String
  | preparation => "Preparing target"
  | dns => "Checking DNS records and target resolution"
  | ssl => "Checking SSL / TLS certificate and cipher"
  | headers => "Checking HTTP headers, cookies, and WAF indicators"
  | exposure => "Running exposure and sensitive-path checks"
  | analyze => "Checking CVEs, subdomains, APIs, and validation engine"

def phase : Await → String
  | preparation => "Preparation"
  | dns => "DNS Analysis"
  | ssl => "SSL / TLS"
  | headers => "Headers / WAF"
  | exposure => "Exposure Engine"
  | analyze => "Deep Analysis"

/-- The await that follows in `run_scan_job`. -/
def next : Await → Option Await
  | preparation => some dns
  | dns => some ssl
  | ssl => some headers
  | headers => some exposure
  | exposure => some analyze
  | analyze => none

/-- Whether `cancel_requested` is read on the way from the await to the next one. -/
def checked : Await → Bool
  | preparation | dns | exposure => true
  | ssl | headers | analyze => false

end Await

namespace ScanJob

def announce (job : ScanJob) (await : Await) : ScanJob :=
  { job with progress := await.progress, step := await.step, phase := await.phase }

def start (job : ScanJob) : ScanJob :=
  { job with status := .running, queuePosition := none }.announce .preparation

def stop (job : ScanJob) (step : String) : ScanJob :=
  { job with status := .cancelled, step := step }

@[simp] theorem stop_status (job : ScanJob) (step : String) :
    (job.stop step).status = .cancelled := rfl

def cancelQueued (job : ScanJob) : ScanJob :=
  { job with cancelRequested := true, status := .cancelled, progress := 0,
             step := "Scan cancelled before running", queuePosition := none }

def cancelRunning (job : ScanJob) : ScanJob :=
  { job with cancelRequested := true, status := .cancelled
             step := "Cancel requested. Current scan will stop after current operation." }

def announceSaving (job : ScanJob) : ScanJob :=
  { job with progress := 95, step := "Saving report and preparing final result",
             phase := "Saving Report" }

def fail (job : ScanJob) (e : PyError) : ScanJob :=
  { job with status := .failed, error := some e.message, step := "Scan failed" }

@[simp] theorem fail_status (job : ScanJob) (e : PyError) : (job.fail e).status = .failed := rfl

def complete (job : ScanJob) (result : Json) : ScanJob :=
  { job with status := .completed, progress := 100, step := "Scan completed",
             phase := "Completed", result := some result }

@[simp] theorem complete_status (job : ScanJob) (result : Json) :
    (job.complete result).status = .completed := rfl

end ScanJob

/-- The effects of a `run_scan_job` that ends after saving its report. -/
inductive SaveEffects (jobId : JobId) (result : Json) : List Effect → Prop where
  | silent (scanId : Nat) : alertRisk result = none →
      SaveEffects jobId result [.saveScan jobId scanId]
  | alert (scanId : Nat) (risk : String) : alertRisk result = some risk →
      SaveEffects jobId result [.saveScan jobId scanId, .discordAlert jobId risk]

inductive Move (s : ScanState) : Label → ScanState → Prop where
  | same (hsubmit : ∀ jobId data user, l = .scanAsync jobId data user → s.scanQueue = none)
      (hstart : l ≠ .startup) : Move s l s
  | startup (hq : s.scanQueue = none) :
      Move s .startup { s with scanQueue := some [], worker := .waiting }
  | submit (hq : s.scanQueue = some items) (fresh : jobId ∉ s.scanJobs.keys)
      (position : Option Nat) :
      Move s (.scanAsync jobId data user) { s with
        scanJobs := s.scanJobs.insertNew jobId
          { newJob jobId data user with queuePosition := position } fresh
        scanQueue := some (items ++ [newEntry jobId data user]) }
  | refresh (position size : Option Nat) :
      Move s (.scanStatus jobId user) (s.modifyJob jobId fun job =>
        { job with queuePosition := position, queueSize := size })
  | cancelQueued (hjob : s.job? jobId = some job) (hstatus : job.status = .queued)
      (howner : job.userId = user) :
      Move s (.cancelScan jobId user) { s.modifyJob jobId ScanJob.cancelQueued with
        scanQueue := s.scanQueue.map (·.filter (·.jobId ≠ jobId)) }
  | cancelRunning (hjob : s.job? jobId = some job) (hstatus : job.status = .running)
      (howner : job.userId = user) :
      Move s (.cancelScan jobId user) (s.modifyJob jobId ScanJob.cancelRunning)
  | skip (hw : s.worker = .waiting) (hq : s.scanQueue = some (entry :: rest))
      (hskip : s.job? entry.jobId = none ∨ s.status? entry.jobId = some .cancelled) :
      Move s .take { s with scanQueue := some rest }
  | refuse (hw : s.worker = .waiting) (hq : s.scanQueue = some (entry :: rest))
      (hjob : s.job? entry.jobId = some job) (hreq : job.cancelRequested = true) :
      Move s .take { s.modifyJob entry.jobId (·.stop "Scan cancelled") with
        scanQueue := some rest
        worker := .waiting }
  | start (hw : s.worker = .waiting) (hq : s.scanQueue = some (entry :: rest))
      (hjob : s.job? entry.jobId = some job) (hreq : job.cancelRequested = false)
      (hstatus : job.status ≠ .cancelled) :
      Move s .take { s.modifyJob entry.jobId ScanJob.start with
        scanQueue := some rest
        worker := .busy entry .preparation
        effects := s.effects ++ [.started entry.jobId] }
  | advance (hw : s.worker = .busy entry await) (hnext : await.next = some await')
      (hne : await' ≠ .analyze)
      (hreq : await.checked = true → s.cancelRequested entry.jobId = false) :
      Move s .wake { s.modifyJob entry.jobId (·.announce await') with
        worker := .busy entry await' }
  | analyze (hw : s.worker = .busy entry .exposure)
      (hreq : s.cancelRequested entry.jobId = false) :
      Move s .wake { s.modifyJob entry.jobId (·.announce .analyze) with
        worker := .busy entry .analyze
        effects := s.effects ++ [.analyze entry.jobId] }
  | stop (hw : s.worker = .busy entry await) (hreq : s.cancelRequested entry.jobId = true) :
      Move s .wake { s.modifyJob entry.jobId (·.stop "Scan cancelled") with worker := .waiting }
  | stopBeforeAnalysis (hw : s.worker = .busy entry .exposure)
      (hreq : s.cancelRequested entry.jobId = true) :
      Move s .wake { s.modifyJob entry.jobId fun job =>
        (job.announce .analyze).stop "Scan cancelled before analysis" with worker := .waiting }
  | stopAfterAnalysis (hw : s.worker = .busy entry .analyze)
      (hreq : s.cancelRequested entry.jobId = true ∨ s.status? entry.jobId = some .cancelled) :
      Move s (.finish outcome saved alerted)
        { s.modifyJob entry.jobId (·.stop "Scan cancelled after analysis") with
          worker := .waiting }
  | failAnalysis (hw : s.worker = .busy entry .analyze) (e : PyError) :
      Move s (.finish (.raised e) saved alerted)
        { s.modifyJob entry.jobId (·.fail e) with worker := .waiting }
  | failReport (hw : s.worker = .busy entry .analyze)
      (hreq : s.cancelRequested entry.jobId = false)
      (hstatus : s.status? entry.jobId ≠ some .cancelled) (e : PyError) :
      Move s (.finish (.returned result) saved alerted)
        { s.modifyJob entry.jobId (·.fail e) with worker := .waiting }
  | failSave (hw : s.worker = .busy entry .analyze)
      (hreq : s.cancelRequested entry.jobId = false)
      (hstatus : s.status? entry.jobId ≠ some .cancelled) (e : PyError) :
      Move s (.finish (.returned result) (.error e) alerted)
        { s.modifyJob entry.jobId fun job => job.announceSaving.fail e with worker := .waiting }
  | failAlert (hw : s.worker = .busy entry .analyze)
      (hreq : s.cancelRequested entry.jobId = false)
      (hstatus : s.status? entry.jobId ≠ some .cancelled) (e : PyError)
      (hes : SaveEffects entry.jobId report es) :
      Move s (.finish (.returned result) saved (.error e))
        { s.modifyJob entry.jobId fun job => job.announceSaving.fail e with
          worker := .waiting
          effects := s.effects ++ es }
  | complete (hw : s.worker = .busy entry .analyze)
      (hreq : s.cancelRequested entry.jobId = false)
      (hstatus : s.status? entry.jobId ≠ some .cancelled)
      (hscan : report.get "scan_id" = .ok (.int scanId))
      (hes : SaveEffects entry.jobId report es) :
      Move s (.finish (.returned result) saved alerted)
        { s.modifyJob entry.jobId (·.complete report) with
          worker := .waiting
          effects := s.effects ++ es }

/-! ## The code makes these moves only -/

theorem cancelScan_move (s : ScanState) (jobId : JobId) (user : UserId) :
    Move s (.cancelScan jobId user) (cancelScan s jobId user).2 := by
  unfold cancelScan
  split
  · exact .same nofun nofun
  · rename_i job hjob
    split
    · exact .same nofun nofun
    · rename_i howner
      rw [ne_eq, not_not] at howner
      cases hstatus : job.status with
      | completed | failed | cancelled => exact .same nofun nofun
      | running =>
        simp only [JobStatus.terminal, modifyJob, Dict.modify_modify, Bool.false_eq_true, if_false]
        exact .cancelRunning hjob hstatus howner
      | queued =>
        have h := Move.cancelQueued hjob hstatus howner
        cases hq : s.scanQueue <;>
        · simp only [JobStatus.terminal, removeJobFromQueue, modifyJob, Dict.modify_modify, hq,
            Bool.false_eq_true, if_false, Option.map_none, Option.map_some] at h ⊢
          exact h

theorem scanAsync_move (s : ScanState) (jobId : JobId) (fresh : jobId ∉ s.scanJobs.keys)
    (data : ScanRequest) (user : UserId) :
    Move s (.scanAsync jobId data user) (scanAsync s jobId fresh data user).2 := by
  unfold scanAsync
  split
  · rename_i hq
    exact .same (fun _ _ _ _ => hq) nofun
  · rename_i items hq
    simp only [modifyJob, Dict.modify_insertNew]
    exact .submit hq fresh _

theorem scanStatus_move (s : ScanState) (jobId : JobId) (user : UserId) :
    Move s (.scanStatus jobId user) (scanStatus s jobId user).2 := by
  unfold scanStatus
  split
  · exact .same nofun nofun
  · split
    · exact .same nofun nofun
    · exact .refresh _ _

theorem take_move {s t : ScanState} (h : take s = some t) : Move s .take t := by
  unfold take at h
  split at h
  · rename_i entry rest hw hq
    simp only [startRun, status?, job?] at h
    split at h
    · rename_i hc
      cases h
      exact .skip hw hq (.inr hc)
    · rename_i hc
      cases h
      split
      · rename_i hjob
        exact .skip hw hq (.inl hjob)
      · rename_i job hjob
        rw [hjob] at hc
        by_cases hreq : job.cancelRequested = true
        · rw [if_pos hreq]
          exact .refuse hw hq hjob hreq
        · rw [if_neg hreq]
          rw [Option.map_some, Option.some.injEq] at hc
          simp only [updateJobProgress, modifyJob, Dict.modify_modify]
          exact .start hw hq hjob (Bool.eq_false_iff.mpr hreq) hc
  · cases h

/-- Writing the progress does not touch the cancellation. -/
theorem cancelRequested_updateJobProgress {s : ScanState} {jobId : JobId} {progress : Nat}
    {step : String} {phase : Option String} :
    (updateJobProgress s jobId progress step phase).cancelRequested jobId =
      s.cancelRequested jobId := by
  simp only [cancelRequested, job?, updateJobProgress, modifyJob, Dict.get?_modify_self]
  cases s.scanJobs.get? jobId <;> rfl

theorem wakeRun_move {s t : ScanState} {entry : QueueEntry} {await : Await}
    (hw : s.worker = .busy entry await) (h : wakeRun s entry await = some t) :
    Move s .wake t := by
  cases await with
  | analyze => cases h
  | preparation | dns =>
    simp only [wakeRun] at h
    split at h
    · rename_i hreq
      cases h
      exact .stop hw hreq
    · rename_i hreq
      cases h
      exact .advance hw rfl (by decide) fun _ => Bool.eq_false_iff.mpr hreq
  | ssl | headers =>
    cases h
    exact .advance hw rfl (by decide) fun h => nomatch h
  | exposure =>
    simp only [wakeRun, cancelRequested_updateJobProgress] at h
    split at h
    · rename_i hreq
      cases h
      simp only [stopRun, updateJobProgress, modifyJob, Dict.modify_modify]
      exact .stopBeforeAnalysis hw hreq
    · rename_i hreq
      cases h
      exact .analyze hw (Bool.eq_false_iff.mpr hreq)

theorem finishRun_move {s : ScanState} {entry : QueueEntry} (hw : s.worker = .busy entry .analyze)
    (outcome : AnalyzeOutcome) (saved : Except PyError Nat) (alerted : Except PyError Unit) :
    Move s (.finish outcome saved alerted) (finishRun s entry outcome saved alerted) := by
  cases outcome with
  | raised e => exact .failAnalysis hw e
  | returned result =>
    simp only [finishRun]
    split
    · rename_i hreq
      rw [Bool.or_eq_true, decide_eq_true_eq] at hreq
      exact .stopAfterAnalysis hw hreq
    · rename_i hreq
      simp only [Bool.or_eq_true, decide_eq_true_eq, not_or, Bool.not_eq_true] at hreq
      obtain ⟨hreq, hstatus⟩ := hreq
      split
      · exact .failReport hw hreq hstatus _
      · rename_i report hprofile
        split
        · simp only [failRun, updateJobProgress, modifyJob, Dict.modify_modify]
          exact .failSave hw hreq hstatus _
        · rename_i scanId
          obtain ⟨entries, -, rfl⟩ := Json.setItem_eq_obj hprofile
          split
          · rename_i hset; cases hset
          · rename_i report hset
            have hscan : report.get "scan_id" = .ok (.int scanId) := by
              cases hset
              simp [Json.get, Json.lookup_setEntry]
            split
            · rename_i hrisk
              simp only [completeRun, updateJobProgress, modifyJob, emit, Dict.modify_modify]
              exact .complete hw hreq hstatus hscan (.silent scanId hrisk)
            · rename_i hrisk
              simp only [completeRun, updateJobProgress, modifyJob, emit, Dict.modify_modify,
                List.append_assoc]
              exact .complete hw hreq hstatus hscan (.alert scanId _ hrisk)
            · rename_i hrisk
              simp only [failRun, updateJobProgress, modifyJob, emit, Dict.modify_modify,
                List.append_assoc]
              exact .failAlert hw hreq hstatus _ (.alert scanId _ hrisk)

theorem step_move {s t : ScanState} {l : Label} (h : step s l = some t) : Move s l t := by
  cases l with
  | startup =>
    simp only [step, Option.isNone_iff_eq_none] at h
    split at h
    · rename_i hq; cases h; exact .startup hq
    · cases h
  | scanAsync jobId data user =>
    simp only [step] at h
    split at h
    · cases h; exact scanAsync_move ..
    · cases h
  | cancelScan => cases h; exact cancelScan_move ..
  | scanStatus => cases h; exact scanStatus_move ..
  | take => exact take_move h
  | wake =>
    simp only [step] at h
    split at h
    · rename_i hw; exact wakeRun_move hw h
    · cases h
  | finish =>
    simp only [step] at h
    split at h
    · rename_i hw; cases h; exact finishRun_move hw ..
    · cases h

end ThreatScanner.Scan
