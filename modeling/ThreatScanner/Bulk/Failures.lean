import ThreatScanner.Bulk.Invariant

/-!
# Failing targets of a bulk scan

A target whose scan raises is meant to be recorded as failed, and nothing else. This is what happens
exactly when no scan raises an exception with an empty text: such an exception leaves its task, its
item stays on running and the job fails.
-/

namespace ThreatScanner.Bulk

open Transition

variable {cfg : Config} {s : BulkState} {scan : Scan} {i : Nat} {task : Task}

/-! ## Exceptions without a text -/

/-- One of the calls that are made for a target raises an exception whose text is empty. -/
inductive RaisesSilently (cfg : Config) (scan : Scan) : Prop where
  | analysis (h : scan.effects.analysis = .error ⟨""⟩)
  | saved {result : Json} (hresult : resultToSave cfg scan = .ok result)
      (h : scan.effects.saved = .error ⟨""⟩)
  | alerted {result kept : Json} {scanId : Int} (hresult : resultToSave cfg scan = .ok result)
      (hsaved : scan.effects.saved = .ok scanId)
      (hkept : result.setItem "scan_id" (.int scanId) = .ok kept) (hdue : alertDue kept = true)
      (h : scan.effects.alerted = .error ⟨""⟩)

theorem afterAnalysis_silent (h : afterAnalysis cfg scan = .error ⟨""⟩) :
    scan.effects.analysis = .error ⟨""⟩ := by
  rcases bind_eq_error.mp h with h | ⟨result, -, h⟩
  · exact h
  · refine absurd h (Speaks.ne ((Json.speaks_setItem _ _ _).bind fun result => ?_))
    split
    · exact (Json.speaks_get _ _ _).bind fun _ => (Json.speaks_get _ _ _).bind fun _ =>
        (Json.speaks_get _ _ _).bind fun _ => speaks_ok _
    · exact speaks_ok _

theorem resultToSave_silent (h : resultToSave cfg scan = .error ⟨""⟩) :
    scan.effects.analysis = .error ⟨""⟩ := by
  rcases bind_eq_error.mp h with h | ⟨⟨result, archive⟩, -, h⟩
  · exact afterAnalysis_silent h
  · cases archive with
    | true => exact absurd h (Json.speaks_setItem _ _ _).ne
    | false => cases h

theorem silent_iff : Silent cfg scan ↔ RaisesSilently cfg scan := by
  constructor
  · intro h
    rcases bind_eq_error.mp h with h | ⟨result, hresult, h⟩
    · exact .analysis (resultToSave_silent h)
    rcases bind_eq_error.mp h with h | ⟨scanId, hsaved, h⟩
    · exact .saved hresult h
    rcases bind_eq_error.mp h with h | ⟨kept, hkept, h⟩
    · exact absurd h (Json.speaks_setItem _ _ _).ne
    rcases bind_eq_error.mp h with h | ⟨_, -, h⟩
    · unfold alert at h
      split at h
      · rename_i hdue
        exact .alerted hresult hsaved hkept hdue h
      · cases h
    · exact absurd h (speaks_summarizeBulkResult.bind fun _ => speaks_ok _).ne
  · intro h
    cases h with
    | analysis h =>
      simp only [Silent, outcome, resultToSave, afterAnalysis, h, bind, Except.bind]
    | saved hresult h =>
      simp only [Silent, outcome, hresult, saveAndSummarize, h, bind, Except.bind]
    | alerted hresult hsaved hkept hdue h =>
      simp only [Silent, outcome, hresult, saveAndSummarize, hsaved, hkept, alert, if_pos hdue, h,
        bind, Except.bind]

/-! ## The end of a run -/

/-- Only a cancellation can still happen. -/
def Final (cfg : Config) (s : BulkState) : Prop :=
  ∀ l, (∀ userId, l ≠ .cancel userId) → s.step cfg l = none

theorem limit_pos (cfg : Config) : 0 < cfg.limit := by
  unfold Config.limit clampConcurrency
  omega

theorem Tracks.scan_of_task (T : Tracks cfg s) (htask : s.tasks[i]? = some task) :
    ∃ scan, cfg.scans[i]? = some scan := by
  obtain ⟨hlt, -⟩ := List.getElem?_eq_some_iff.mp htask
  exact ⟨_, List.getElem?_eq_getElem (T.tasks ▸ hlt)⟩

theorem Tracks.task_of_scan (T : Tracks cfg s) (hscan : cfg.scans[i]? = some scan) :
    ∃ task, s.tasks[i]? = some task := by
  obtain ⟨hlt, -⟩ := List.getElem?_eq_some_iff.mp hscan
  exact ⟨_, List.getElem?_eq_getElem (T.tasks ▸ hlt)⟩

/-- A task that has passed the semaphore can always go on. -/
theorem Final.not_holds (hfinal : Final cfg s) (T : Tracks cfg s)
    (htask : s.tasks[i]? = some task) : task.holds = false := by
  obtain ⟨scan, hscan⟩ := T.scan_of_task htask
  cases task with
  | analyzing =>
    have h := hfinal (.analyzed i) (by simp)
    simp only [BulkState.step, hscan, htask] at h
    cases h
  | archiving result =>
    have h := hfinal (.archived i) (by simp)
    simp only [BulkState.step, hscan, htask] at h
    cases h
  | _ => rfl

/-- At the end of a run every task has ended, and so has the job. -/
theorem Final.ended (hfinal : Final cfg s) (T : Tracks cfg s) :
    s.runner = .finished ∧ s.tasks.all Task.ended = true := by
  have hlaunched : s.runner ≠ .pending := by
    intro hpending
    have h := hfinal .launch (by simp)
    simp only [BulkState.step, if_pos hpending] at h
    cases h
  have hfree : s.tasks.countP Task.holds < cfg.limit := by
    rw [List.countP_eq_zero.mpr fun task hmem => ?_]
    · exact limit_pos cfg
    · obtain ⟨i, htask⟩ := List.mem_iff_getElem?.mp hmem
      exact Bool.eq_false_iff.mp (hfinal.not_holds T htask)
  have hended : s.tasks.all Task.ended = true := by
    rw [List.all_eq_true]
    intro task hmem
    obtain ⟨i, htask⟩ := List.mem_iff_getElem?.mp hmem
    obtain ⟨scan, hscan⟩ := T.scan_of_task htask
    have hholds := hfinal.not_holds T htask
    cases task with
    | waiting =>
      have h := hfinal (.pass i) (by simp)
      simp only [BulkState.step, hscan, htask, if_pos (And.intro hlaunched hfree)] at h
      cases h
    | analyzing | archiving => cases hholds
    | skipped | recorded | raised => rfl
  refine ⟨?_, hended⟩
  cases hrunner : s.runner with
  | pending => exact absurd hrunner hlaunched
  | finished => rfl
  | gathering =>
    have h := hfinal .finish (by simp)
    simp only [BulkState.step, if_pos hrunner, finishRun, if_pos hended] at h
    split at h
    · cases h
    · split at h <;> cases h

theorem final_of_ended (hrunner : s.runner = .finished) (hended : s.tasks.all Task.ended = true) :
    Final cfg s := by
  intro l hl
  cases l with
  | launch => simp only [BulkState.step, hrunner]; rfl
  | finish => simp only [BulkState.step, hrunner]; rfl
  | cancel userId => exact absurd rfl (hl userId)
  | pass i | analyzed i | archived i =>
    simp only [BulkState.step]
    split
    · rename_i htask
      cases not_ended_of_mem hended htask
    · rfl

/-! ## Failures and the other targets -/

/-- The scans are recorded one by one, each as its own calls give it: a scan that raised as failed,
any other one with its summary and its result. Only a cancellation skips a target, and a job that is
not cancelled is completed. -/
structure Unspoiled (cfg : Config) (s : BulkState) : Prop where
  item : ∀ (i : Nat) scan, cfg.scans[i]? = some scan → s.tasks[i]? ≠ some .skipped →
    s.job.items[i]? = some (some (recordOf cfg scan))
  skipped : ∀ (i : Nat) scan, cfg.scans[i]? = some scan → s.tasks[i]? = some .skipped →
    s.job.items[i]? = some none ∧ s.job.cancelRequested = true
  results : s.job.results.Perm (s.job.items.filterMap id)
  raw : ∀ (i : Nat) scan r, cfg.scans[i]? = some scan → s.tasks[i]? ≠ some .skipped →
    outcome cfg scan = .ok r → ∃ result, s.job.rawResults.lookup scan.target = some result ∧
      ∃ scan' ∈ cfg.scans, scan'.target = scan.target ∧
        ∃ summary, outcome cfg scan' = .ok (result, summary)
  completed : s.job.cancelRequested = false →
    s.job.status = .completed ∧ s.job.completed = s.job.total

/-- Where the tasks are at the end of a run, when none has raised. -/
theorem Consistent.recorded_or_skipped (C : Consistent cfg s)
    (hended : s.tasks.all Task.ended = true)
    (hloud : ∀ (i : Nat) scan, cfg.scans[i]? = some scan → s.tasks[i]? ≠ some .raised)
    (hscan : cfg.scans[i]? = some scan) :
    s.tasks[i]? = some .recorded ∧ s.job.items[i]? = some (some (recordOf cfg scan)) ∨
    s.tasks[i]? = some .skipped ∧ s.job.items[i]? = some none ∧ s.job.cancelRequested = true := by
  obtain ⟨task, htask⟩ := C.tracks.task_of_scan hscan
  have hitem := C.tracks.item i scan task hscan htask
  have hjustified := C.tracks.justified i scan task hscan htask
  have hend := not_ended_of_mem hended htask
  cases task with
  | waiting | analyzing | archiving => cases hend
  | recorded => exact .inl ⟨htask, hitem⟩
  | skipped => exact .inr ⟨htask, hitem, hjustified⟩
  | raised => exact absurd htask (hloud i scan hscan)

section Ended
variable (C : Consistent cfg s) (hended : s.tasks.all Task.ended = true)
  (hloud : ∀ (i : Nat) scan, cfg.scans[i]? = some scan → s.tasks[i]? ≠ some .raised)
include C hended hloud

/-- An item is what its scan gives, or it is empty and the job was cancelled. -/
theorem Consistent.item_cases {x : Option Json} (hx : x ∈ s.job.items) :
    (∃ scan, x = some (recordOf cfg scan)) ∨ x = none ∧ s.job.cancelRequested = true := by
  obtain ⟨i, hi⟩ := List.mem_iff_getElem?.mp hx
  obtain ⟨hlt, -⟩ := List.getElem?_eq_some_iff.mp hi
  have hscan : cfg.scans[i]? = some _ := List.getElem?_eq_getElem (C.tracks.items ▸ hlt)
  rcases C.recorded_or_skipped hended hloud hscan with ⟨-, h⟩ | ⟨-, h, hcancel⟩
  · exact .inl ⟨_, Option.some.inj (hi.symm.trans h)⟩
  · exact .inr ⟨Option.some.inj (hi.symm.trans h), hcancel⟩

theorem Consistent.results_perm : s.job.results.Perm (s.job.items.filterMap id) := by
  refine C.ledger.results.trans (.of_eq (List.filterMap_congr fun x hx => ?_))
  rcases C.item_cases hended hloud hx with ⟨scan, rfl⟩ | ⟨rfl, -⟩
  · exact finishedItem_recordOf cfg scan
  · rfl

theorem Consistent.completed_eq_total (hnever : s.job.cancelRequested = false) :
    s.job.completed = s.job.total := by
  rw [C.ledger.counted.1, C.ledger.total, ← C.tracks.items, List.countP_eq_length]
  intro x hx
  rcases C.item_cases hended hloud hx with ⟨scan, rfl⟩ | ⟨-, hcancel⟩
  · exact recordOf_finished cfg scan
  · rw [hcancel] at hnever
    cases hnever

end Ended

/-- The result of a completed item is kept under its target. -/
theorem Consistent.lookup_rawResults (C : Consistent cfg s) {r : Json × Json}
    (hitem : s.job.items[i]? = some (some (recordOf cfg scan))) (ho : outcome cfg scan = .ok r) :
    ∃ result, s.job.rawResults.lookup scan.target = some result := by
  have htarget : completedTarget (some (recordOf cfg scan)) = some scan.target := by
    rcases recordOf_hasStatus cfg scan with ⟨hstatus, -⟩ | ⟨-, e, he⟩
    · rw [completedTarget_of_hasStatus hstatus, if_pos rfl]
    · cases he.symm.trans ho
  have hkey := (C.ledger.raw scan.target).mpr
    (List.mem_filterMap.mpr ⟨_, List.mem_of_getElem? hitem, htarget⟩)
  obtain ⟨e, he, htarget⟩ := List.mem_map.mp hkey
  exact Option.isSome_iff_exists.mp
    (List.lookup_isSome_iff.mpr ⟨e, he, by rw [htarget]; exact beq_self_eq_true _⟩)

theorem Consistent.unspoiled (C : Consistent cfg s) (hfinal : Final cfg s)
    (hloud : ∀ (i : Nat) scan, cfg.scans[i]? = some scan → s.tasks[i]? ≠ some .raised) :
    Unspoiled cfg s := by
  obtain ⟨hfinished, hended⟩ := hfinal.ended C.tracks
  have hitem : ∀ (i : Nat) scan, cfg.scans[i]? = some scan → s.tasks[i]? ≠ some .skipped →
      s.job.items[i]? = some (some (recordOf cfg scan)) := by
    intro i scan hscan hbegun
    rcases C.recorded_or_skipped hended hloud hscan with ⟨-, h⟩ | ⟨hskipped, -⟩
    · exact h
    · exact absurd hskipped hbegun
  refine ⟨hitem, fun i scan hscan hskipped => ?_, C.results_perm hended hloud,
    fun i scan r hscan hbegun ho => ?_,
    fun hnever => ⟨?_, C.completed_eq_total hended hloud hnever⟩⟩
  · rcases C.recorded_or_skipped hended hloud hscan with ⟨hrecorded, -⟩ | ⟨-, h⟩
    · cases hrecorded.symm.trans hskipped
    · exact h
  · obtain ⟨result, hresult⟩ := C.lookup_rawResults (hitem i scan hscan hbegun) ho
    exact ⟨result, hresult, C.ledger.rawFrom _ _ hresult⟩
  · refine C.closing.closed hfinished ?_ hnever
    by_contra hescaped
    obtain ⟨i, scan, hscan, hraised⟩ := C.closing.escaped hescaped
    exact hloud i scan hscan hraised

/-- The scans of a run do not spoil each other exactly when no scan that was begun raises an
exception with an empty text. -/
theorem unspoiled_iff {job : BulkJob} {ls : List Label} (hjob : Queued cfg job)
    (hrun : exec (BulkState.step cfg) (.start cfg job) ls = some s) (hfinal : Final cfg s) :
    Unspoiled cfg s ↔ ∀ (i : Nat) scan, cfg.scans[i]? = some scan →
      s.tasks[i]? ≠ some .skipped → ¬RaisesSilently cfg scan := by
  have C := consistent_run hjob hrun
  constructor
  · intro U i scan hscan hbegun hraises
    obtain ⟨task, htask⟩ := C.tracks.task_of_scan hscan
    have hjustified := C.tracks.justified i scan task hscan htask
    have hitem := C.tracks.item i scan task hscan htask
    have hend := not_ended_of_mem (hfinal.ended C.tracks).2 htask
    cases task with
    | waiting | analyzing | archiving => cases hend
    | skipped => exact hbegun htask
    | recorded => exact hjustified (silent_iff.mpr hraises)
    | raised =>
      have hsame := hitem.symm.trans (U.item i scan hscan hbegun)
      have hfinished := recordOf_finished cfg scan
      rw [← Option.some.inj hsame] at hfinished
      cases hfinished
  · intro hloud
    refine C.unspoiled hfinal fun i scan hscan hraised => ?_
    have hbegun : s.tasks[i]? ≠ some .skipped := by
      rw [hraised]
      nofun
    exact hloud i scan hscan hbegun (silent_iff.mp (C.tracks.justified i scan _ hscan hraised))

/-- Two targets; the analysis of the first one raises an exception with the text `message`. -/
def timeoutConfig (message : String) : Config where
  scans := [⟨"example.com", ⟨.error ⟨message⟩, .ok .null, .ok 1, .ok ()⟩⟩,
    ⟨"example.org", ⟨.ok (.obj [("risk", .str "LOW")]), .ok .null, .ok 2, .ok ()⟩⟩]
  profile := "quick"
  concurrency := 3
  includeArchive := false
  userId := 1
  upper := id

def timeoutJob : BulkJob := queuedJob "quick" ["example.com", "example.org"] 3 false 1

/-- The end of the run in which both targets are analyzed at the same time. -/
def timeoutRun (message : String) : Option BulkState :=
  exec (BulkState.step (timeoutConfig message)) (.start (timeoutConfig message) timeoutJob)
    [.launch, .pass 0, .pass 1, .analyzed 0, .analyzed 1, .finish]

/-- A failure with a text is recorded, and the other target is scanned. -/
theorem unspoiled_iff_timeout : ∃ s, timeoutRun "timed out" = some s ∧
    Final (timeoutConfig "timed out") s ∧ Unspoiled (timeoutConfig "timed out") s := by
  obtain ⟨s, hs⟩ : ∃ s, timeoutRun "timed out" = some s := ⟨_, rfl⟩
  have hend : (timeoutRun "timed out").map (fun s => (s.runner, s.tasks.all Task.ended)) =
      some (.finished, true) := by rfl
  rw [hs, Option.map_some, Option.some.injEq, Prod.mk.injEq] at hend
  have hfinal : Final (timeoutConfig "timed out") s := final_of_ended hend.1 hend.2
  refine ⟨s, hs, hfinal, (unspoiled_iff queued_queuedJob hs hfinal).mpr ?_⟩
  intro i scan hscan _ hraises
  have hmem := List.mem_of_getElem? hscan
  rcases List.mem_cons.mp hmem with rfl | hmem
  · cases hraises with
    | analysis h => exact absurd (PyError.mk.inj (Except.error.inj h)) (by decide)
    | saved _ h | alerted _ _ _ _ h => cases h
  · rw [List.mem_singleton.mp hmem] at hraises
    cases hraises with
    | analysis h | saved _ h | alerted _ _ _ _ h => cases h

/-- The same run when the text is empty, as with `asyncio.TimeoutError()`: the item of the first
target is left running, nothing is recorded for it, and the job fails. -/
theorem silent_timeout_spoils : ∃ s, timeoutRun "" = some s ∧ Final (timeoutConfig "") s ∧
    s.job.cancelRequested = false ∧ s.job.status = .failed ∧ s.job.completed = 1 ∧
    s.job.items.map (statusIn ["running"]) = [true, false] ∧ s.job.results.length = 1 ∧
    ¬Unspoiled (timeoutConfig "") s := by
  obtain ⟨s, hs⟩ : ∃ s, timeoutRun "" = some s := ⟨_, rfl⟩
  have hend : (timeoutRun "").map (fun s => ((s.runner, s.tasks.all Task.ended),
      s.job.cancelRequested, s.job.status, s.job.completed,
      s.job.items.map (statusIn ["running"]), s.job.results.length)) =
      some ((.finished, true), false, .failed, 1, [true, false], 1) := by rfl
  rw [hs, Option.map_some] at hend
  simp only [Option.some.injEq, Prod.mk.injEq] at hend
  obtain ⟨⟨hrunner, hended⟩, hcancel, hstatus, hcompleted, hitems, hresults⟩ := hend
  refine ⟨s, hs, final_of_ended hrunner hended, hcancel, hstatus, hcompleted, hitems, hresults,
    fun U => ?_⟩
  have hcompletedStatus := (U.completed hcancel).1
  rw [hstatus] at hcompletedStatus
  cases hcompletedStatus

end ThreatScanner.Bulk
