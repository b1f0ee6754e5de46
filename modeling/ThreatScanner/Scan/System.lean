import ThreatScanner.Scan.Job
import ThreatScanner.Library.Transition

/-!
# Asynchronous scan jobs: the worker and the interleaving

`scan_worker` and the `run_scan_job` it awaits run on one event loop, so what they do between two
awaits is one atomic step. `take` goes from the return of `scan_queue.get()` to the first sleep,
`wake` from the end of a sleep to the next await, `finish` from the end of `analyze` back to
`scan_queue.get()`. What is outside (the result of `analyze`, of `save_scan_result` and of
`send_discord_alert`) is part of the label of the step.
-/

namespace ThreatScanner.Scan

open ScanState

/-- How the await of `analyze` ends. -/
inductive AnalyzeOutcome where
  | returned (result : Json)
  | raised (e : PyError)

/-- The four lines of a cancellation checkpoint of `run_scan_job`, and the return. -/
def stopRun (s : ScanState) (jobId : JobId) (step : String) : ScanState :=
  { s.modifyJob jobId fun job => { job with status := .cancelled, step := step } with
    worker := .waiting }

/-- The handler `except Exception as e` of `run_scan_job`. -/
def failRun (s : ScanState) (jobId : JobId) (e : PyError) : ScanState :=
  { s.modifyJob jobId fun job =>
      { job with status := .failed, error := some e.message, step := "Scan failed" } with
    worker := .waiting }

/-- `run_scan_job` up to its first sleep. A job that is not in the table raises `KeyError` in the
body and in the handler, and `scan_worker` then has nothing to write. -/
def startRun (s : ScanState) (entry : QueueEntry) : ScanState :=
  match s.job? entry.jobId with
  | none => s
  | some job =>
    if job.cancelRequested then stopRun s entry.jobId "Scan cancelled"
    else
      let s := s.modifyJob entry.jobId fun job =>
        { job with status := .running, queuePosition := none }
      let s := updateJobProgress s entry.jobId 10 "Preparing target" (some "Preparation")
      { s.emit (.started entry.jobId) with worker := .busy entry .preparation }

/-- `scan_worker` from the return of `scan_queue.get()`; a job cancelled meanwhile is skipped. -/
def take (s : ScanState) : Option ScanState :=
  match s.worker, s.scanQueue with
  | .waiting, some (entry :: rest) =>
    let s := { s with scanQueue := some rest }
    if s.status? entry.jobId = some .cancelled then some s else some (startRun s entry)
  | _, _ => none

/-- `run_scan_job` from the end of a sleep to its next await. The third and fourth sleeps have no
checkpoint after them; the fifth has it after the progress is written. -/
def wakeRun (s : ScanState) (entry : QueueEntry) : Await → Option ScanState
  | .preparation =>
    if s.cancelRequested entry.jobId then some (stopRun s entry.jobId "Scan cancelled")
    else
      let s := updateJobProgress s entry.jobId 20 "Checking DNS records and target resolution"
        (some "DNS Analysis")
      some { s with worker := .busy entry .dns }
  | .dns =>
    if s.cancelRequested entry.jobId then some (stopRun s entry.jobId "Scan cancelled")
    else
      let s := updateJobProgress s entry.jobId 35 "Checking SSL / TLS certificate and cipher"
        (some "SSL / TLS")
      some { s with worker := .busy entry .ssl }
  | .ssl =>
    let s := updateJobProgress s entry.jobId 50 "Checking HTTP headers, cookies, and WAF indicators"
      (some "Headers / WAF")
    some { s with worker := .busy entry .headers }
  | .headers =>
    let s := updateJobProgress s entry.jobId 65 "Running exposure and sensitive-path checks"
      (some "Exposure Engine")
    some { s with worker := .busy entry .exposure }
  | .exposure =>
    let s := updateJobProgress s entry.jobId 80
      "Checking CVEs, subdomains, APIs, and validation engine" (some "Deep Analysis")
    if s.cancelRequested entry.jobId then
      some (stopRun s entry.jobId "Scan cancelled before analysis")
    else some { s.emit (.analyze entry.jobId) with worker := .busy entry .analyze }
  | .analyze => none

/-- `result.get("risk") in ["HIGH", "CRITICAL"]`, with the risk. -/
def alertRisk (result : Json) : Option String :=
  match result.get "risk" with
  | .ok (.str risk) => if risk ∈ ["HIGH", "CRITICAL"] then some risk else none
  | _ => none

/-- `run_scan_job` once the report is saved under `scanId`. -/
def completeRun (s : ScanState) (jobId : JobId) (result : Json) : ScanState :=
  let s := s.modifyJob jobId fun job => { job with status := .completed }
  let s := updateJobProgress s jobId 100 "Scan completed" (some "Completed")
  { s.modifyJob jobId fun job => { job with result := some result } with worker := .waiting }

/-- `run_scan_job` from the end of the await of `analyze`. `saved` is what `save_scan_result` does
and `alerted` what `send_discord_alert` does, if they are reached. -/
def finishRun (s : ScanState) (entry : QueueEntry) (outcome : AnalyzeOutcome)
    (saved : Except PyError Nat) (alerted : Except PyError Unit) : ScanState :=
  match outcome with
  | .raised e => failRun s entry.jobId e
  | .returned result =>
    if s.cancelRequested entry.jobId || s.status? entry.jobId = some .cancelled then
      stopRun s entry.jobId "Scan cancelled after analysis"
    else
      match result.setItem "profile" (.str entry.profile) with
      | .error e => failRun s entry.jobId e
      | .ok result =>
        let s := updateJobProgress s entry.jobId 95 "Saving report and preparing final result"
          (some "Saving Report")
        match saved with
        | .error e => failRun s entry.jobId e
        | .ok scanId =>
          let s := s.emit (.saveScan entry.jobId scanId)
          match result.setItem "scan_id" (.int scanId) with
          | .error e => failRun s entry.jobId e
          | .ok result =>
            match alertRisk result, alerted with
            | none, _ => completeRun s entry.jobId result
            | some risk, .ok () =>
              completeRun (s.emit (.discordAlert entry.jobId risk)) entry.jobId result
            | some risk, .error e => failRun (s.emit (.discordAlert entry.jobId risk)) entry.jobId e

inductive Label where
  | startup
  | scanAsync (jobId : JobId) (data : ScanRequest) (user : UserId)
  | cancelScan (jobId : JobId) (user : UserId)
  | scanStatus (jobId : JobId) (user : UserId)
  | take
  | wake
  | finish (outcome : AnalyzeOutcome) (saved : Except PyError Nat) (alerted : Except PyError Unit)

/-- One atomic step. A `scan_async` draws an id that is not in use. -/
def step (s : ScanState) : Label → Option ScanState
  | .startup =>
    if s.scanQueue.isNone then some { s with scanQueue := some [], worker := .waiting } else none
  | .scanAsync jobId data user =>
    if fresh : jobId ∉ s.scanJobs.keys then some (scanAsync s jobId fresh data user).2 else none
  | .cancelScan jobId user => some (cancelScan s jobId user).2
  | .scanStatus jobId user => some (scanStatus s jobId user).2
  | .take => take s
  | .wake =>
    match s.worker with
    | .busy entry await => wakeRun s entry await
    | _ => none
  | .finish outcome saved alerted =>
    match s.worker with
    | .busy entry .analyze => some (finishRun s entry outcome saved alerted)
    | _ => none

/-- A run of the system from its start. -/
abbrev run (ls : List Label) : Option ScanState := Transition.exec step .init ls

end ThreatScanner.Scan
