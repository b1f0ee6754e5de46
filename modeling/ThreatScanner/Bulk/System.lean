import ThreatScanner.Bulk.Summary
import ThreatScanner.Bulk.Targets
import ThreatScanner.Library.Rounding
import ThreatScanner.Library.Transition

/-!
# Bulk scans: the job, its tasks and their interleaving

`run_bulk_scan_job` creates one task for each target and gathers them; a task passes the semaphore,
awaits `analyze`, may await the archive, and records its target. What a task does between two
awaits is one atomic step. A scan comes with what the functions it calls give (`Effects`), so a run
is determined by the scans and the order of the steps.
-/

namespace ThreatScanner.Bulk

open Rounding

/-! ## One scan by itself -/

/-- What `analyze`, the archive, `save_scan_result` and `send_discord_alert` give for a target, when
they are called. -/
structure Effects where
  analysis : Except PyError Json
  archive : Except PyError Json
  saved : Except PyError Int
  alerted : Except PyError Unit

structure Scan where
  target : String
  effects : Effects

/-- The arguments of `run_bulk_scan_job`, the targets with their scans. -/
structure Config where
  scans : List Scan
  profile : String
  concurrency : Int
  includeArchive : Bool
  userId : Int
  upper : String → String

/-- The section of an archive that cannot be reached. -/
def archiveError (e : PyError) : Json :=
  .obj [("enabled", .bool false), ("error", .str e.message), ("urls", .arr []),
    ("interesting_urls", .arr []), ("parameterized_urls", .arr [])]

/-- `result.get("risk") in ["HIGH", "CRITICAL"]`. -/
def alertDue (result : Json) : Bool :=
  match result.get "risk" with
  | .ok (.str risk) => risk ∈ ["HIGH", "CRITICAL"]
  | _ => false

section Pieces
variable (cfg : Config) (scan : Scan)

/-- From the end of `analyze` to the next await: the result, and whether the archive is asked. -/
def afterAnalysis : Except PyError (Json × Bool) := do
  let result ← scan.effects.analysis
  let result ← result.setItem "profile" (.str cfg.profile)
  if cfg.includeArchive then
    let wayback ← result.get "wayback"
    let enabled ← (wayback.orElse (.obj [])).get "enabled"
    let host ← result.get "host"
    .ok (result, !enabled.truthy && host.truthy)
  else .ok (result, false)

/-- `result["wayback"]` once the archive has answered. -/
def withArchive (result : Json) : Except PyError Json :=
  result.setItem "wayback" <| match scan.effects.archive with
    | .ok wayback => wayback
    | .error e => archiveError e

/-- `send_discord_alert`, called for a high risk only. -/
def alert (result : Json) : Except PyError Unit :=
  if alertDue result then scan.effects.alerted else .ok ()

/-- The rest of the `try` block: the result to keep and its summary. -/
def saveAndSummarize (result : Json) : Except PyError (Json × Json) := do
  let scanId ← scan.effects.saved
  let result ← result.setItem "scan_id" (.int scanId)
  alert scan result
  let summary ← summarizeBulkResult cfg.upper scan.target result
  .ok (result, summary)

/-- The result of the scan as it is saved. -/
def resultToSave : Except PyError Json := do
  let (result, archive) ← afterAnalysis cfg scan
  if archive then withArchive scan result else .ok result

/-- The `try` block of `scan_one`. -/
def outcome : Except PyError (Json × Json) := do
  let result ← resultToSave cfg scan
  saveAndSummarize cfg scan result

/-- `item_state`. -/
def runningItem : Json :=
  .obj [("target", .str scan.target), ("status", .str "running"), ("risk", .str "UNKNOWN"),
    ("score", .int 0)]

end Pieces

/-! ## The job -/

inductive BulkStatus where
  | queued | running | cancelled | completed | failed
deriving DecidableEq, Repr

/-- An entry of `bulk_jobs`. -/
structure BulkJob where
  status : BulkStatus
  step : String
  profile : String
  total : Nat
  completed : Nat
  failed : Nat
  vulnerableTargets : Nat
  progress : ℚ
  concurrency : Nat
  includeArchive : Bool
  currentTarget : Option String
  items : List (Option Json)
  results : List Json
  rawResults : List (String × Json)
  error : Option String
  cancelRequested : Bool
  userId : Int

/-- `x and x.get("status") in names`. -/
def statusIn (names : List String) : Option Json → Bool
  | none => false
  | some x => x.truthy && match x.get "status" with
    | .ok (.str status) => status ∈ names
    | _ => false

/-- `x and x.get("vulnerable")`. -/
def flagged : Option Json → Bool
  | none => false
  | some x => x.truthy && match x.get "vulnerable" with
    | .ok v => v.truthy
    | .error _ => false

/-- The nearest double. -/
def double (x : ℚ) : ℚ := roundToBits 53 x

/-- `round((completed / max(total, 1)) * 100, 2)`. -/
def percent (completed total : Nat) : ℚ :=
  double (roundTo (1 / 100) (double (double (completed / max total 1 : ℚ) * 100)))

/-- The `finally` block of `scan_one`. -/
def BulkJob.recount (job : BulkJob) : BulkJob :=
  let completed := job.items.countP (statusIn ["completed", "failed"])
  { job with
    completed := completed
    failed := job.items.countP (statusIn ["failed"])
    vulnerableTargets := job.items.countP flagged
    progress := percent completed job.total }

/-- `max(1, min(int(concurrency or 3), 5))`. -/
def clampConcurrency (concurrency : Int) : Nat :=
  (max 1 (min (if concurrency = 0 then 3 else concurrency) 5)).toNat

structure BulkScanRequest where
  targets : List String
  profile : String
  concurrency : Int
  includeArchive : Bool

/-- The profile a request is scanned with. -/
def requestProfile (lower : String → String) (data : BulkScanRequest) : String :=
  let profile := lower (if data.profile = "" then "quick" else data.profile)
  if profile ∈ ["quick", "full", "deep"] then profile else "quick"

/-- The job as `bulk_scan_start` creates it. -/
def queuedJob (profile : String) (targets : List String) (concurrency : Nat) (includeArchive : Bool)
    (userId : Int) : BulkJob where
  status := .queued
  step := "Bulk scan queued"
  profile := profile
  total := targets.length
  completed := 0
  failed := 0
  vulnerableTargets := 0
  progress := 0
  concurrency := concurrency
  includeArchive := includeArchive
  currentTarget := none
  items := targets.map fun _ => none
  results := []
  rawResults := []
  error := none
  cancelRequested := false
  userId := userId

/-- `bulk_scan_start`: the targets and the job, when the request is accepted. -/
def bulkScanStart (lower : String → String) (data : BulkScanRequest) (userId : Int) :
    Except HttpError (List String × BulkJob) :=
  let targets := normalizeBulkTargets lower data.targets
  if targets = [] then .error ⟨400, "No valid targets provided"⟩
  else .ok (targets, queuedJob (requestProfile lower data) targets
    (clampConcurrency data.concurrency) data.includeArchive userId)

/-- `bulk_scan_cancel`, on a job that exists. -/
def bulkScanCancel (job : BulkJob) (userId : Int) : Except HttpError BulkJob :=
  if job.userId ≠ userId then .error ⟨403, "Not allowed"⟩
  else if job.status ∈ [.queued, .running] then
    .ok { job with cancelRequested := true, status := .cancelled, step := "Cancel requested" }
  else .ok { job with cancelRequested := true }

/-! ## The tasks -/

/-- Where a task is: before the semaphore, in one of its awaits, or at its end. `skipped` is the
return on a cancelled job, `raised` an exception that leaves the task. -/
inductive Task where
  | waiting
  | analyzing
  | archiving (result : Json)
  | skipped
  | recorded
  | raised

/-- The task holds the semaphore. -/
def Task.holds : Task → Bool
  | analyzing | archiving _ => true
  | _ => false

def Task.ended : Task → Bool
  | skipped | recorded | raised => true
  | _ => false

/-- `run_bulk_scan_job` itself: not yet started, in `gather`, or at its end. -/
inductive Runner where
  | pending | gathering | finished
deriving DecidableEq

/-- `escaped` is the first exception that left a task. -/
structure BulkState where
  job : BulkJob
  runner : Runner
  tasks : List Task
  escaped : Option PyError

inductive Label where
  | launch
  | pass (i : Nat)
  | analyzed (i : Nat)
  | archived (i : Nat)
  | finish
  | cancel (userId : Int)

section Step
variable (cfg : Config)

/-- The state after the request, with the job it created. -/
def BulkState.start (job : BulkJob) : BulkState where
  job := job
  runner := .pending
  tasks := cfg.scans.map fun _ => .waiting
  escaped := none

/-- How many tasks the semaphore lets pass. -/
def Config.limit : Nat := clampConcurrency cfg.concurrency

/-- A task that passes the semaphore. -/
def passTask (s : BulkState) (i : Nat) (scan : Scan) : BulkState :=
  if s.job.cancelRequested then { s with tasks := s.tasks.set i .skipped }
  else
    { s with
      tasks := s.tasks.set i .analyzing
      job := { s.job with
        items := s.job.items.set i (some (runningItem scan))
        currentTarget := some scan.target } }

/-- The end of the `try` block, its handler and the `finally` block. -/
def recordTask (s : BulkState) (i : Nat) (scan : Scan)
    (outcome : Except PyError (Json × Json)) : BulkState :=
  match outcome with
  | .ok (result, summary) =>
    { s with
      tasks := s.tasks.set i .recorded
      job := BulkJob.recount { s.job with
        items := s.job.items.set i (some summary)
        results := s.job.results ++ [summary]
        rawResults := Json.setEntry scan.target result s.job.rawResults } }
  | .error e =>
    match summarizeBulkResult cfg.upper scan.target .null (some e.message) with
    | .ok failed =>
      { s with
        tasks := s.tasks.set i .recorded
        job := BulkJob.recount { s.job with
          items := s.job.items.set i (some failed)
          results := s.job.results ++ [failed]
          failed := s.job.failed + 1 } }
    | .error e' =>
      { s with
        tasks := s.tasks.set i .raised
        job := s.job.recount
        escaped := some (s.escaped.getD e') }

/-- A task whose analysis is over. -/
def analyzedTask (s : BulkState) (i : Nat) (scan : Scan) : BulkState :=
  match afterAnalysis cfg scan with
  | .error e => recordTask cfg s i scan (.error e)
  | .ok (result, true) => { s with tasks := s.tasks.set i (.archiving result) }
  | .ok (result, false) => recordTask cfg s i scan (saveAndSummarize cfg scan result)

/-- `run_bulk_scan_job` after `gather`. -/
def finishRun (s : BulkState) : Option BulkState :=
  match s.escaped with
  | some e =>
    some { s with
      runner := .finished
      job := { s.job with status := .failed, error := some e.message } }
  | none =>
    if s.tasks.all Task.ended then
      if s.job.cancelRequested then
        some { s with
          runner := .finished
          job := { s.job with status := .cancelled, step := "Bulk scan cancelled" } }
      else
        some { s with
          runner := .finished
          job := { s.job with
            status := .completed, step := "Bulk scan completed", progress := 100 } }
    else none

def BulkState.step (s : BulkState) : Label → Option BulkState
  | .launch =>
    if s.runner = .pending then
      some { s with runner := .gathering, job := { s.job with status := .running } }
    else none
  | .pass i =>
    match cfg.scans[i]?, s.tasks[i]? with
    | some scan, some .waiting =>
      if s.runner ≠ .pending ∧ s.tasks.countP Task.holds < cfg.limit then
        some (passTask s i scan)
      else none
    | _, _ => none
  | .analyzed i =>
    match cfg.scans[i]?, s.tasks[i]? with
    | some scan, some .analyzing => some (analyzedTask cfg s i scan)
    | _, _ => none
  | .archived i =>
    match cfg.scans[i]?, s.tasks[i]? with
    | some scan, some (.archiving result) =>
      some (recordTask cfg s i scan (withArchive scan result >>= saveAndSummarize cfg scan))
    | _, _ => none
  | .finish => if s.runner = .gathering then finishRun s else none
  | .cancel userId =>
    match bulkScanCancel s.job userId with
    | .ok job => some { s with job := job }
    | .error _ => some s

end Step

end ThreatScanner.Bulk
