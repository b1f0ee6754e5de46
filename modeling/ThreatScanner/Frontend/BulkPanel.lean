import ThreatScanner.Bulk.Counters
import ThreatScanner.Bulk.View

/-!
# The panel of a bulk scan

`renderBulkStatus` of `app.js` shows what `/bulk-scan/status` answers. It adds the two counters of
the job to say how many targets are finished; the backend has counted the failed targets in both of
them.
-/

namespace ThreatScanner.Frontend

open Bulk Rounding Transition

/-- `Number(job.a || job.b || 0)`, a field that the response lacks being `none`. -/
def numberOf (fields : List (Option Nat)) : Nat := ((fields.filterMap id).find? (· ≠ 0)).getD 0

/-- `Math.round((finished / total) * 100)`. -/
def roundedPercent (finished total : Nat) : ℚ := ⌊double (double (finished / total) * 100) + 1 / 2⌋

/-- The card that is shown while the bulk scan runs. -/
structure BulkRunningCard where
  total : Nat
  done : Nat
  vulnerable : Nat
  failed : Nat
deriving DecidableEq

/-- What `renderBulkStatus` shows. A `total` of 0 is shown as `?`, which is `none` here. -/
structure BulkPanel where
  status : BulkStatus
  progress : ℚ
  finished : Nat
  total : Option Nat
  vulnerable : Nat
  failed : Nat
  current : Option String
  width : ℚ
  running : Option BulkRunningCard

/-- `renderBulkStatus`. -/
def renderBulkStatus (job : BulkView) : BulkPanel :=
  let total := numberOf [some job.total, none]
  let completed := numberOf [some job.completed, none]
  let failed := numberOf [some job.failed]
  let vulnerable := numberOf [some job.vulnerableTargets, none]
  let progress := if job.progress ≠ 0 then job.progress
    else if total ≠ 0 then roundedPercent (completed + failed) total
    else 0
  { status := job.status
    progress := progress
    finished := completed + failed
    total := if total = 0 then none else some total
    vulnerable := vulnerable
    failed := failed
    current := job.currentTarget.filter (· ≠ "")
    width := max 0 (min 100 progress)
    running := if job.status.terminal then none else some ⟨total, completed, vulnerable, failed⟩ }

theorem numberOf_singleton (n : Nat) : numberOf [some n] = n := by
  cases n <;> rfl

theorem numberOf_absent (n : Nat) : numberOf [some n, none] = n := by
  cases n <;> rfl

theorem finished_renderBulkStatus (view : BulkView) :
    (renderBulkStatus view).finished = view.completed + view.failed := by
  simp only [renderBulkStatus, numberOf_singleton, numberOf_absent]

/-- The panel says how many targets are completed or failed, and no more than there are. -/
def ShowsFinished (view : BulkView) (job : BulkJob) : Prop :=
  (renderBulkStatus view).finished = job.items.countP (statusIn ["completed", "failed"]) ∧
    (renderBulkStatus view).finished ≤ job.total

section Reachable
variable {cfg : Config} {s : BulkState} {bulkId : BulkId} {user : Int} {view : BulkView}

/-- A failed target is counted twice. -/
theorem finished_of_consistent (C : Consistent cfg s)
    (hview : bulkScanStatus bulkId s.job user = .ok view) :
    (renderBulkStatus view).finished = s.job.items.countP (statusIn ["completed", "failed"]) +
      s.job.items.countP (statusIn ["failed"]) := by
  obtain ⟨hcompleted, hfailed, -⟩ := C.ledger.counted
  rw [finished_renderBulkStatus, eq_publicBulkView (.inl hview)]
  exact congrArg₂ (· + ·) hcompleted hfailed

theorem showsFinished_iff (C : Consistent cfg s)
    (hview : bulkScanStatus bulkId s.job user = .ok view) :
    ShowsFinished view s.job ↔ ∀ item ∈ s.job.items, statusIn ["failed"] item = false := by
  have hfinished := finished_of_consistent C hview
  have hnone : s.job.items.countP (statusIn ["failed"]) = 0 ↔
      ∀ item ∈ s.job.items, statusIn ["failed"] item = false := by
    simp only [List.countP_eq_zero, Bool.not_eq_true]
  rw [← hnone]
  constructor
  · rintro ⟨hshown, -⟩
    omega
  · intro hzero
    have hshown : (renderBulkStatus view).finished = s.job.completed := by
      rw [hfinished, hzero, C.ledger.counted.1, Nat.add_zero]
    exact ⟨by omega, hshown.trans_le C.completed_le⟩

end Reachable

/-- In every state of a bulk scan the panel shows the number of finished targets exactly when none
of them has failed. -/
theorem panel_counts_finished_iff {lower upper : String → String} {data : BulkScanRequest}
    {userId user : Int} {targets : List String} {job : BulkJob} {scans : List Bulk.Scan}
    {ls : List Label} {s : BulkState} {bulkId : BulkId} {view : BulkView}
    (hstart : bulkScanStart lower data userId = .ok (targets, job))
    (hscans : scans.map (·.target) = targets)
    (hrun : exec (BulkState.step (requestConfig lower upper data userId scans))
      (.start (requestConfig lower upper data userId scans) job) ls = some s)
    (hview : bulkScanStatus bulkId s.job user = .ok view) :
    ShowsFinished view s.job ↔ ∀ item ∈ s.job.items, statusIn ["failed"] item = false :=
  showsFinished_iff (consistent_run (bulkScanStart_ok hstart hscans).1 hrun) hview

theorem panel_counts_one_completed : ∃ s view,
    exec (BulkState.step unsetConfig) (.start unsetConfig unsetJob)
      [.launch, .pass 0, .pass 1, .analyzed 1] = some s ∧
    bulkScanStatus 0 s.job 1 = .ok view ∧ ShowsFinished view s.job := by
  obtain ⟨s, hs⟩ : ∃ s, exec (BulkState.step unsetConfig) (.start unsetConfig unsetJob)
      [.launch, .pass 0, .pass 1, .analyzed 1] = some s := ⟨_, rfl⟩
  have hstate : (exec (BulkState.step unsetConfig) (.start unsetConfig unsetJob)
      [.launch, .pass 0, .pass 1, .analyzed 1]).map (fun s =>
        (s.job.userId, s.job.items.map (statusIn ["failed"]))) = some (1, [false, false]) := rfl
  rw [hs, Option.map_some, Option.some.injEq, Prod.mk.injEq] at hstate
  have hview : bulkScanStatus 0 s.job 1 = .ok (publicBulkView 0 s.job) :=
    if_neg (not_not_intro hstate.1)
  refine ⟨s, _, hs, hview, ?_⟩
  refine (panel_counts_finished_iff bulkScanStart_unset rfl hs hview).mpr fun item hitem => ?_
  have hmem := List.mem_map_of_mem (f := statusIn ["failed"]) hitem
  simpa [hstate.2] using hmem

/-- One of two targets has failed, and the panel shows two of two. -/
theorem failed_target_shown_twice : ¬ ∀ (lower upper : String → String) (data : BulkScanRequest)
    (userId user : Int) (targets : List String) (job : BulkJob) (scans : List Bulk.Scan)
    (ls : List Label) (s : BulkState) (bulkId : BulkId) (view : BulkView),
    bulkScanStart lower data userId = .ok (targets, job) → scans.map (·.target) = targets →
    exec (BulkState.step (requestConfig lower upper data userId scans))
      (.start (requestConfig lower upper data userId scans) job) ls = some s →
    bulkScanStatus bulkId s.job user = .ok view → ShowsFinished view s.job := by
  intro h
  obtain ⟨s, hs⟩ : ∃ s, exec (BulkState.step unsetConfig) (.start unsetConfig unsetJob)
      [.launch, .pass 0, .analyzed 0] = some s := ⟨_, rfl⟩
  have hstate : (exec (BulkState.step unsetConfig) (.start unsetConfig unsetJob)
      [.launch, .pass 0, .analyzed 0]).map (fun s =>
        (s.job.userId, s.job.items.map (statusIn ["failed"]))) = some (1, [true, false]) := rfl
  rw [hs, Option.map_some, Option.some.injEq, Prod.mk.injEq] at hstate
  have hview : bulkScanStatus 0 s.job 1 = .ok (publicBulkView 0 s.job) :=
    if_neg (not_not_intro hstate.1)
  have hshown := h id id unsetRequest 1 1 _ _ unsetScans _ s 0 _ bulkScanStart_unset rfl hs hview
  have hnone := (showsFinished_iff (consistent_run (bulkScanStart_ok bulkScanStart_unset rfl).1 hs)
    hview).mp hshown
  have hfailed : true ∈ s.job.items.map (statusIn ["failed"]) := hstate.2 ▸ List.mem_cons_self
  obtain ⟨item, hitem, htrue⟩ := List.mem_map.mp hfailed
  exact Bool.false_ne_true ((hnone item hitem).symm.trans htrue)

end ThreatScanner.Frontend
