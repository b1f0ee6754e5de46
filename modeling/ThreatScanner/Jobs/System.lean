import ThreatScanner.Bulk.Counters
import ThreatScanner.Bulk.View
import ThreatScanner.Scan.Invariant

/-!
# The job tables of the service

`scan_jobs`, `scan_queue` and `bulk_jobs` are shared by all users. The state holds them together
with the tasks that work on them; a step is a call of one of the eight endpoints by a user, or a
step of the worker or of a bulk scan in the background.
-/

namespace ThreatScanner.Jobs

open Scan Bulk

/-- A bulk scan: the arguments its `run_bulk_scan_job` was created with, its job and its tasks. -/
structure BulkRun where
  config : Config
  state : BulkState

structure JobsState where
  scan : ScanState
  bulkJobs : Dict BulkId BulkRun

def JobsState.init : JobsState := ⟨.init, .empty⟩

/-- A call of an endpoint. The ids of new jobs are those `uuid4` draws; `effects` is what the
scans of a new bulk scan will give. -/
inductive Call where
  | scanAsync (jobId : JobId) (data : ScanRequest)
  | cancelScan (jobId : JobId)
  | scanStatus (jobId : JobId)
  | queueStatus
  | bulkScanStart (bulkId : BulkId) (data : BulkScanRequest) (effects : String → Effects)
  | bulkScanStatus (bulkId : BulkId)
  | bulkScanResults (bulkId : BulkId)
  | bulkScanCancel (bulkId : BulkId)

/-- The answer of `queue_status`. -/
structure QueueStatus where
  queueSize : Nat
  running : Nat
  queued : Nat
  completed : Nat
  failed : Nat
  cancelled : Nat

inductive Answer where
  | submitted (response : ScanAsyncResponse)
  | cancelled (response : CancelResponse)
  | job (view : ScanJob)
  | queue (status : QueueStatus)
  | bulkStarted (view : BulkView) (queuedTargets : Nat)
  | bulk (view : BulkView)

/-- The jobs of a user, oldest first. -/
def userJobs (s : ScanState) (user : UserId) : List ScanJob :=
  (s.scanJobs.entries.map Prod.snd).filter (·.userId = user)

/-- `GET /queue-status`. -/
def queueStatus (s : ScanState) (user : UserId) : QueueStatus :=
  let jobs := userJobs s user
  { queueSize := s.queue.length
    running := (jobs.filter (·.status = .running)).length
    queued := (jobs.filter (·.status = .queued)).length
    completed := (jobs.filter (·.status = .completed)).length
    failed := (jobs.filter (·.status = .failed)).length
    cancelled := (jobs.filter (·.status = .cancelled)).length }

/-- The bulk scan with another job. -/
def BulkRun.withJob (job : BulkJob) (r : BulkRun) : BulkRun :=
  { r with state := { r.state with job := job } }

section Serve
variable (lower upper : String → String) (s : JobsState) (user : UserId)

/-- The handler of a bulk endpoint, on a job that exists. -/
def withBulkJob (bulkId : BulkId) (f : BulkRun → Except HttpError Answer × JobsState) :
    Except HttpError Answer × JobsState :=
  match s.bulkJobs.get? bulkId with
  | none => (.error ⟨404, "Bulk scan not found"⟩, s)
  | some r => f r

/-- `POST /bulk-scan/start`. -/
def startBulk (bulkId : BulkId) (fresh : bulkId ∉ s.bulkJobs.keys) (data : BulkScanRequest)
    (effects : String → Effects) : Except HttpError Answer × JobsState :=
  match bulkScanStart lower data user with
  | .error e => (.error e, s)
  | .ok (targets, job) =>
    let config := requestConfig lower upper data user (targets.map fun t => ⟨t, effects t⟩)
    (.ok (.bulkStarted (publicBulkView bulkId job false) targets.length),
      { s with bulkJobs := s.bulkJobs.insertNew bulkId ⟨config, .start config job⟩ fresh })

/-- The answer to a call of `user`, and the state after it. A call that draws an id that is in use
does not occur. -/
def serve : Call → Option (Except HttpError Answer × JobsState)
  | .scanAsync jobId data =>
    if fresh : jobId ∉ s.scan.scanJobs.keys then
      let (response, scan) := Scan.scanAsync s.scan jobId fresh data user
      some (response.map .submitted, { s with scan := scan })
    else none
  | .cancelScan jobId =>
    let (response, scan) := Scan.cancelScan s.scan jobId user
    some (response.map .cancelled, { s with scan := scan })
  | .scanStatus jobId =>
    let (response, scan) := Scan.scanStatus s.scan jobId user
    some (response.map .job, { s with scan := scan })
  | .queueStatus => some (.ok (.queue (queueStatus s.scan user)), s)
  | .bulkScanStart bulkId data effects =>
    if fresh : bulkId ∉ s.bulkJobs.keys then
      some (startBulk lower upper s user bulkId fresh data effects)
    else none
  | .bulkScanStatus bulkId =>
    some (withBulkJob s bulkId fun r =>
      ((Bulk.bulkScanStatus bulkId r.state.job user).map .bulk, s))
  | .bulkScanResults bulkId =>
    some (withBulkJob s bulkId fun r =>
      ((Bulk.bulkScanResults bulkId r.state.job user).map .bulk, s))
  | .bulkScanCancel bulkId =>
    some (withBulkJob s bulkId fun r =>
      match Bulk.bulkScanCancel r.state.job user with
      | .error e => (.error e, s)
      | .ok job => (.ok (.bulk (publicBulkView bulkId job false)),
          { s with bulkJobs := s.bulkJobs.modify bulkId (BulkRun.withJob job) }))

end Serve

/-- The steps of the event loop and of the worker. -/
def backgroundScan : Scan.Label → Bool
  | .startup | .take | .wake | .finish .. => true
  | .scanAsync .. | .cancelScan .. | .scanStatus .. => false

/-- The steps of `run_bulk_scan_job` and of its tasks. -/
def backgroundBulk : Bulk.Label → Bool
  | .cancel _ => false
  | _ => true

inductive Label where
  | call (user : UserId) (call : Call)
  | scan (l : Scan.Label)
  | bulk (bulkId : BulkId) (l : Bulk.Label)

/-- One atomic step. -/
def step (lower upper : String → String) (s : JobsState) : Label → Option JobsState
  | .call user call => (serve lower upper s user call).map Prod.snd
  | .scan l =>
    if backgroundScan l then (Scan.step s.scan l).map fun scan => { s with scan := scan } else none
  | .bulk bulkId l =>
    match s.bulkJobs.get? bulkId with
    | none => none
    | some r =>
      if backgroundBulk l then (r.state.step r.config l).map fun state =>
        { s with bulkJobs := s.bulkJobs.modify bulkId fun r => { r with state := state } }
      else none

/-- A run of the service from its start. -/
abbrev run (lower upper : String → String) (ls : List Label) : Option JobsState :=
  Transition.exec (step lower upper) .init ls

end ThreatScanner.Jobs
