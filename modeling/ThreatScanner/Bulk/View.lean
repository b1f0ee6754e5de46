import ThreatScanner.Bulk.System

/-!
# What the endpoints answer about a bulk scan
-/

namespace ThreatScanner.Bulk

abbrev BulkId := Nat

def BulkStatus.terminal : BulkStatus → Bool
  | queued | running => false
  | completed | failed | cancelled => true

/-- A job as `public_bulk_view` shows it: without its user, under both names of its id, and with its
results when they are asked for. -/
structure BulkView where
  bulkId : BulkId
  bulkScanId : BulkId
  status : BulkStatus
  step : String
  profile : String
  total : Nat
  completed : Nat
  failed : Nat
  vulnerableTargets : Nat
  progress : ℚ
  concurrency : Nat
  includeArchive : Bool
  currentTarget : Option String
  items : List (Option Json)
  results : Option (List Json)
  rawResults : Option (List (String × Json))
  error : Option String
  cancelRequested : Bool

def publicBulkView (bulkId : BulkId) (job : BulkJob) (includeResults : Bool := true) :
    BulkView where
  bulkId := bulkId
  bulkScanId := bulkId
  status := job.status
  step := job.step
  profile := job.profile
  total := job.total
  completed := job.completed
  failed := job.failed
  vulnerableTargets := job.vulnerableTargets
  progress := job.progress
  concurrency := job.concurrency
  includeArchive := job.includeArchive
  currentTarget := job.currentTarget
  items := job.items
  results := if includeResults then some job.results else none
  rawResults := if includeResults then some job.rawResults else none
  error := job.error
  cancelRequested := job.cancelRequested

/-- `bulk_scan_status`, on a job that exists. -/
def bulkScanStatus (bulkId : BulkId) (job : BulkJob) (userId : Int) : Except HttpError BulkView :=
  if job.userId ≠ userId then .error ⟨403, "Not allowed"⟩ else .ok (publicBulkView bulkId job)

/-- `bulk_scan_results`, on a job that exists. -/
def bulkScanResults (bulkId : BulkId) (job : BulkJob) (userId : Int) : Except HttpError BulkView :=
  if job.userId ≠ userId then .error ⟨403, "Not allowed"⟩ else .ok (publicBulkView bulkId job)

/-- The part of a view that counts what the scan has found. -/
def BulkView.findings (view : BulkView) : Option (List Json) × Nat × Nat × Nat :=
  (view.results, view.completed, view.failed, view.vulnerableTargets)

theorem eq_publicBulkView {bulkId : BulkId} {job : BulkJob} {userId : Int} {view : BulkView}
    (h : bulkScanStatus bulkId job userId = .ok view ∨
      bulkScanResults bulkId job userId = .ok view) :
    view = publicBulkView bulkId job := by
  unfold bulkScanStatus bulkScanResults at h
  rcases h with h | h
  · split at h
    · cases h
    · exact (Except.ok.inj h).symm
  · split at h
    · cases h
    · exact (Except.ok.inj h).symm

end ThreatScanner.Bulk
