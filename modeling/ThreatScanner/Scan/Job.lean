import ThreatScanner.Library.Dict
import ThreatScanner.Python.Json

/-!
# Asynchronous scan jobs: the job table, the queue and the endpoints

`scan_jobs` is a dictionary from job ids to job records that is only ever added to, so its
insertion order is the order of submission. `scan_queue` is the `asyncio.Queue` the worker takes
entries from; it is `none` until `startup_event` has run. A job id is the number of a fresh uuid.

The wall-clock fields of a job (`created_at`, `updated_at`, `started_at`, `completed_at`) are
written and never read, and are left out.
-/

namespace ThreatScanner.Scan

abbrev JobId := Nat
abbrev UserId := Nat

inductive JobStatus where
  | queued | running | completed | failed | cancelled
deriving DecidableEq, Repr

def JobStatus.text : JobStatus → String
  | queued => "queued"
  | running => "running"
  | completed => "completed"
  | failed => "failed"
  | cancelled => "cancelled"

/-- `status in ["completed", "failed", "cancelled"]`. -/
def JobStatus.terminal : JobStatus → Bool
  | queued | running => false
  | completed | failed | cancelled => true

structure ScanRequest where
  target : String
  profile : String := "full"

structure ScanJob where
  jobId : JobId
  status : JobStatus
  progress : Nat
  step : String
  phase : String
  target : String
  profile : String
  result : Option Json
  error : Option String
  queuePosition : Option Nat
  cancelRequested : Bool
  queueSize : Option Nat
  userId : UserId

structure QueueEntry where
  jobId : JobId
  target : String
  profile : String
  userId : UserId
deriving DecidableEq

/-- The await at which `run_scan_job` is suspended: its five sleeps, named for the phase announced
before them, and then `analyze`. -/
inductive Await where
  | preparation | dns | ssl | headers | exposure | analyze
deriving DecidableEq, Repr

/-- Where `scan_worker` is: not created yet, in `scan_queue.get()`, or inside `run_scan_job`. -/
inductive Worker where
  | notStarted
  | waiting
  | busy (entry : QueueEntry) (await : Await)
deriving DecidableEq

/-- What the system does to the outside, and when a job starts. -/
inductive Effect where
  | started (jobId : JobId)
  | analyze (jobId : JobId)
  | saveScan (jobId : JobId) (scanId : Nat)
  | discordAlert (jobId : JobId) (risk : String)
deriving DecidableEq

structure ScanState where
  scanJobs : Dict JobId ScanJob
  scanQueue : Option (List QueueEntry)
  worker : Worker
  effects : List Effect

namespace ScanState

def init : ScanState := ⟨.empty, none, .notStarted, []⟩

/-- The entries waiting in the queue. -/
def queue (s : ScanState) : List QueueEntry := s.scanQueue.getD []

def job? (s : ScanState) (jobId : JobId) : Option ScanJob := s.scanJobs.get? jobId

def status? (s : ScanState) (jobId : JobId) : Option JobStatus := (s.job? jobId).map (·.status)

/-- The ids of the queued jobs, in order of submission. -/
def queuedIds (s : ScanState) : List JobId := s.scanJobs.keysWhere fun job => job.status = .queued

def modifyJob (s : ScanState) (jobId : JobId) (f : ScanJob → ScanJob) : ScanState :=
  { s with scanJobs := s.scanJobs.modify jobId f }

@[simp] theorem modifyJob_scanJobs (s : ScanState) (jobId : JobId) (f : ScanJob → ScanJob) :
    (s.modifyJob jobId f).scanJobs = s.scanJobs.modify jobId f := rfl

@[simp] theorem modifyJob_scanQueue (s : ScanState) (jobId : JobId) (f : ScanJob → ScanJob) :
    (s.modifyJob jobId f).scanQueue = s.scanQueue := rfl

@[simp] theorem modifyJob_effects (s : ScanState) (jobId : JobId) (f : ScanJob → ScanJob) :
    (s.modifyJob jobId f).effects = s.effects := rfl

def emit (s : ScanState) (e : Effect) : ScanState := { s with effects := s.effects ++ [e] }

/-- `scan_jobs[job_id].get("cancel_requested")`. -/
def cancelRequested (s : ScanState) (jobId : JobId) : Bool :=
  (s.job? jobId).any (·.cancelRequested)

end ScanState

open ScanState

/-- `get_queue_position`: the place of the job's entry, counted from one. -/
def getQueuePosition (s : ScanState) (jobId : JobId) : Option Nat :=
  s.scanQueue.bind fun queuedItems =>
    (queuedItems.findIdx? (·.jobId = jobId)).map (· + 1)

/-- `remove_job_from_queue`: the queue is emptied and the other entries are put back. -/
def removeJobFromQueue (s : ScanState) (jobId : JobId) : Bool × ScanState :=
  match s.scanQueue with
  | none => (false, s)
  | some oldItems =>
    (oldItems.any (·.jobId = jobId),
      { s with scanQueue := some (oldItems.filter (·.jobId ≠ jobId)) })

/-- `update_job_progress`; the phase is the step where it is not given. -/
def updateJobProgress (s : ScanState) (jobId : JobId) (progress : Nat) (step : String)
    (phase : Option String := none) : ScanState :=
  s.modifyJob jobId fun job =>
    { job with progress := progress, step := step, phase := phase.getD step }

structure ScanAsyncResponse where
  jobId : JobId
  status : JobStatus
  queuePosition : Option Nat
  queueSize : Nat
  message : String

/-- The record `scan_async` stores. -/
def newJob (jobId : JobId) (data : ScanRequest) (user : UserId) : ScanJob where
  jobId := jobId
  status := .queued
  progress := 0
  step := "Scan queued"
  phase := "Queued"
  target := data.target
  profile := data.profile
  result := none
  error := none
  queuePosition := none
  cancelRequested := false
  queueSize := none
  userId := user

def newEntry (jobId : JobId) (data : ScanRequest) (user : UserId) : QueueEntry where
  jobId := jobId
  target := data.target
  profile := data.profile
  userId := user

/-- `POST /scan-async`, with the fresh id `uuid4` draws. -/
def scanAsync (s : ScanState) (jobId : JobId) (fresh : jobId ∉ s.scanJobs.keys)
    (data : ScanRequest) (user : UserId) : Except HttpError ScanAsyncResponse × ScanState :=
  match s.scanQueue with
  | none => (.error ⟨503, "Scan queue is not ready"⟩, s)
  | some items =>
    let s := { s with
      scanJobs := s.scanJobs.insertNew jobId (newJob jobId data user) fresh
      scanQueue := some (items ++ [newEntry jobId data user]) }
    let position := getQueuePosition s jobId
    let s := s.modifyJob jobId fun job => { job with queuePosition := position }
    (.ok {
      jobId := jobId
      status := .queued
      queuePosition := position
      queueSize := s.queue.length
      message := "Scan added to queue" }, s)

structure CancelResponse where
  jobId : JobId
  status : JobStatus
  removedFromQueue : Option Bool := none
  message : String

/-- `POST /cancel-scan/{job_id}`. -/
def cancelScan (s : ScanState) (jobId : JobId) (user : UserId) :
    Except HttpError CancelResponse × ScanState :=
  match s.job? jobId with
  | none => (.error ⟨404, "Scan job not found"⟩, s)
  | some job =>
    if job.userId ≠ user then (.error ⟨403, "Not allowed"⟩, s)
    else if job.status.terminal then
      (.ok { jobId := jobId, status := job.status,
             message := "Scan already " ++ job.status.text }, s)
    else
      let s := s.modifyJob jobId fun job => { job with cancelRequested := true }
      match job.status with
      | .queued =>
        let (removed, s) := removeJobFromQueue s jobId
        (.ok { jobId := jobId, status := .cancelled, removedFromQueue := some removed,
               message := "Scan cancelled" },
          s.modifyJob jobId fun job =>
            { job with status := .cancelled, progress := 0,
                       step := "Scan cancelled before running", queuePosition := none })
      | .running =>
        (.ok { jobId := jobId, status := .cancelled, message := "Cancel requested" },
          s.modifyJob jobId fun job =>
            { job with
              status := .cancelled
              step := "Cancel requested. Current scan will stop after current operation." })
      | status =>
        (.ok { jobId := jobId, status := status, message := "Cancel request processed" }, s)

/-- `GET /scan-status/{job_id}`: the answer is the job without its `user_id`. -/
def scanStatus (s : ScanState) (jobId : JobId) (user : UserId) :
    Except HttpError ScanJob × ScanState :=
  match s.job? jobId with
  | none => (.error ⟨404, "Scan job not found"⟩, s)
  | some job =>
    if job.userId ≠ user then (.error ⟨403, "Not allowed"⟩, s)
    else
      let position := if job.status = .queued then getQueuePosition s jobId else job.queuePosition
      let view := { job with queuePosition := position, queueSize := some s.queue.length }
      (.ok view, s.modifyJob jobId fun job =>
        { job with queuePosition := position, queueSize := some s.queue.length })

end ThreatScanner.Scan
