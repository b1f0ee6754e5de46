import ThreatScanner.Bulk.Failures

/-!
# The counters of a bulk scan

In every state of a run whose scans raise no exception with an empty text, the counters of the job
are the counts of its items, `results` and `raw_results` have one entry for each item they stand
for, no more tasks run than the semaphore admits, and the progress never goes back.
-/

namespace ThreatScanner.Bulk

open Transition Slots

variable {cfg : Config} {s t : BulkState}

/-! ## Requests -/

/-- The arguments `bulk_scan_start` passes on, for the scans of its targets. -/
def requestConfig (lower upper : String → String) (data : BulkScanRequest) (userId : Int)
    (scans : List Scan) : Config where
  scans := scans
  profile := requestProfile lower data
  concurrency := clampConcurrency data.concurrency
  includeArchive := data.includeArchive
  userId := userId
  upper := upper

section Request
variable {lower upper : String → String} {data : BulkScanRequest} {userId : Int}
  {targets : List String} {job : BulkJob} {scans : List Scan}

/-- The concurrency of a request: 3 in place of 0, and between 1 and 5. -/
theorem limit_requestConfig : ((requestConfig lower upper data userId scans).limit : Int) =
    max 1 (min (if data.concurrency = 0 then 3 else data.concurrency) 5) := by
  unfold Config.limit requestConfig clampConcurrency
  simp only
  omega

theorem bulkScanStart_ok (h : bulkScanStart lower data userId = .ok (targets, job))
    (hscans : scans.map (·.target) = targets) :
    Queued (requestConfig lower upper data userId scans) job ∧ targets.Nodup ∧
      0 < scans.length := by
  simp only [bulkScanStart] at h
  split at h
  · cases h
  · rename_i hne
    obtain ⟨htargets, hjob⟩ := Prod.mk.inj (Except.ok.inj h)
    rw [htargets] at hne hjob
    refine ⟨?_, htargets ▸ normalizeBulkTargets_nodup _, ?_⟩
    · rw [← hjob, ← hscans]
      exact queued_queuedJob
    · rw [← scans.length_map (·.target), hscans]
      exact List.length_pos_iff.mpr hne

end Request

/-! ## Every state -/

/-- The job agrees with its items, at most `bound` of which are running. -/
structure Agrees (bound : Int) (s : BulkState) : Prop where
  completed : s.job.completed = s.job.items.countP (statusIn ["completed", "failed"])
  failed : s.job.failed = s.job.items.countP (statusIn ["failed"])
  vulnerable : s.job.vulnerableTargets = s.job.items.countP flagged
  results : s.job.results.Perm (s.job.items.filterMap finishedItem)
  rawResults : (s.job.rawResults.map Prod.fst).Perm (s.job.items.filterMap completedTarget)
  running : (s.job.items.countP (statusIn ["running"]) : Int) ≤ bound
  progress : s.runner ≠ .finished → s.job.progress = percent s.job.completed s.job.total ∧
    |s.job.progress - 100 * (s.job.completed / s.job.total)| ≤ 1 / 200 + 300 / 2 ^ 53

/-- The running items are those of the tasks that hold the semaphore. -/
theorem Tracks.countP_running (T : Tracks cfg s)
    (hloud : ∀ (i : Nat) scan, cfg.scans[i]? = some scan → s.tasks[i]? ≠ some .raised) :
    s.job.items.countP (statusIn ["running"]) = s.tasks.countP Task.holds := by
  refine countP_eq_of_slots (T.items.trans T.tasks.symm) fun i item task hitem htask => ?_
  obtain ⟨scan, hscan⟩ := T.scan_of_task htask
  have hitem' := (T.item i scan task hscan htask).symm.trans hitem
  rw [← Option.some.inj hitem']
  cases task with
  | waiting | skipped | analyzing | archiving => rfl
  | recorded => exact recordOf_not_running cfg scan
  | raised => exact absurd htask (hloud i scan hscan)

/-- The targets of the completed items are among the targets of the scans, in their order. -/
theorem Tracks.completedTargets (T : Tracks cfg s) :
    (s.job.items.filterMap completedTarget).Sublist (cfg.scans.map (·.target)) := by
  refine filterMap_sublist_map T.items fun i item scan target hitem hscan htarget => ?_
  obtain ⟨task, htask⟩ := T.task_of_scan hscan
  have hitem' := (T.item i scan task hscan htask).symm.trans hitem
  rw [← Option.some.inj hitem'] at htarget
  cases task with
  | waiting | skipped | analyzing | archiving | raised => cases htarget
  | recorded =>
    rcases recordOf_hasStatus cfg scan with ⟨hstatus, -⟩ | ⟨hstatus, -⟩
    · simp only [itemOf, completedTarget_of_hasStatus hstatus, if_true] at htarget
      exact Option.some.inj htarget
    · simp only [itemOf, completedTarget_of_hasStatus hstatus] at htarget
      cases htarget

theorem Consistent.completed_le (C : Consistent cfg s) : s.job.completed ≤ s.job.total := by
  rw [C.ledger.counted.1, C.ledger.total, ← C.tracks.items]
  exact List.countP_le_length

theorem Consistent.agrees (C : Consistent cfg s) (hnodup : (cfg.scans.map (·.target)).Nodup)
    (hpos : 0 < cfg.scans.length)
    (hloud : ∀ (i : Nat) scan, cfg.scans[i]? = some scan → s.tasks[i]? ≠ some .raised) :
    Agrees cfg.limit s where
  completed := C.ledger.counted.1
  failed := C.ledger.counted.2.1
  vulnerable := C.ledger.counted.2.2
  results := C.ledger.results
  rawResults := (List.perm_ext_iff_of_nodup C.ledger.rawNodup
    (hnodup.sublist C.tracks.completedTargets)).mpr C.ledger.raw
  running := by
    rw [C.tracks.countP_running hloud]
    exact Int.ofNat_le.mpr C.ledger.bound
  progress hrunner := by
    have hprogress := C.closing.progress_of_runner hrunner
    refine ⟨hprogress, ?_⟩
    rw [hprogress]
    exact abs_percent_sub_le (C.ledger.total ▸ hpos) C.completed_le

/-! ## Every step -/

theorem Moves.finished_le (h : Moves cfg s t) (T : Tracks cfg s) :
    s.job.items.countP (statusIn ["completed", "failed"]) ≤
      t.job.items.countP (statusIn ["completed", "failed"]) := by
  cases h with
  | launch | skip | archive | raise | fail | stop | complete | cancel | refuse =>
    exact Nat.le_refl _
  | @pass i scan hscan htask =>
    have hitem := T.item i scan _ hscan htask
    have hcount : (s.job.items.set i (some (runningItem scan))).countP
        (statusIn ["completed", "failed"]) =
        s.job.items.countP (statusIn ["completed", "failed"]) := countP_set_eq hitem rfl
    exact hcount.ge
  | @record i scan task hscan htask hholds =>
    have hitem := T.item i scan task hscan htask
    rw [itemOf_of_holds hholds] at hitem
    have hcount : (s.job.items.set i (some (recordOf cfg scan))).countP
        (statusIn ["completed", "failed"]) =
        s.job.items.countP (statusIn ["completed", "failed"]) + 1 :=
      countP_set_add hitem rfl (recordOf_finished cfg scan)
    exact (Nat.le_succ _).trans hcount.ge

/-- A step recounts the items, or leaves the progress, or ends the run. -/
theorem Moves.progress_le (h : Moves cfg s t) (C : Consistent cfg s) :
    s.job.progress ≤ t.job.progress := by
  have hfinished := h.finished_le C.tracks
  rw [← C.ledger.counted.1] at hfinished
  have hnot : ∀ {task : Task}, task.holds = true → task.ended = false := by
    intro task h
    cases task <;> first | rfl | cases h
  cases h with
  | launch | skip | pass | archive | fail | stop | cancel | refuse => exact le_refl _
  | record _ htask hholds =>
    rw [C.closing.progress_of_task htask (hnot hholds)]
    exact percent_mono hfinished
  | raise _ htask hholds =>
    rw [C.closing.progress_of_task htask (hnot hholds)]
    exact percent_mono hfinished
  | complete hrunner =>
    rw [C.closing.progress_of_runner (by rw [hrunner]; decide)]
    exact percent_le_hundred C.completed_le

theorem progress_le_run {ls : List Label} (C : Consistent cfg s)
    (hrun : exec (BulkState.step cfg) s ls = some t) : s.job.progress ≤ t.job.progress := by
  refine exec_rel (Consistent cfg) (fun s t => s.job.progress ≤ t.job.progress) (fun _ => le_refl _)
    (fun _ _ _ => le_trans) ?_ ?_ C hrun
  · exact fun s l t C h => (C.step h).2
  · exact fun s l t C h => (C.step h).1.progress_le C

/-- In every state of a run that an accepted request starts, the job agrees with its items; from
there on the progress does not go back. -/
theorem counters_agree {lower upper : String → String} {data : BulkScanRequest} {userId : Int}
    {targets : List String} {job : BulkJob} {scans : List Scan} {ls ls' : List Label}
    (hstart : bulkScanStart lower data userId = .ok (targets, job))
    (hscans : scans.map (·.target) = targets)
    (hloud : ∀ scan ∈ scans, ¬RaisesSilently (requestConfig lower upper data userId scans) scan)
    (hrun : exec (BulkState.step (requestConfig lower upper data userId scans))
      (.start (requestConfig lower upper data userId scans) job) ls = some s)
    (hlater : exec (BulkState.step (requestConfig lower upper data userId scans)) s ls' = some t) :
    Agrees (max 1 (min (if data.concurrency = 0 then 3 else data.concurrency) 5)) s ∧
      s.job.progress ≤ t.job.progress := by
  obtain ⟨hjob, hnodup, hpos⟩ := bulkScanStart_ok hstart hscans
  have C := consistent_run hjob hrun
  refine ⟨?_, progress_le_run C hlater⟩
  rw [← limit_requestConfig]
  refine C.agrees (hscans ▸ hnodup) hpos fun i scan hscan hraised => ?_
  exact hloud scan (List.mem_of_getElem? hscan)
    (silent_iff.mp (C.tracks.justified i scan _ hscan hraised))

/-- A request for two targets that asks for no tasks at a time. -/
def unsetRequest : BulkScanRequest := ⟨["example.com,example.org"], "quick", 0, false⟩

def unsetScans : List Scan :=
  [⟨"example.com", ⟨.error ⟨"timed out"⟩, .ok .null, .ok 1, .ok ()⟩⟩,
   ⟨"example.org", ⟨.ok (.obj [("risk", .str "LOW")]), .ok .null, .ok 2, .ok ()⟩⟩]

def unsetConfig : Config := requestConfig id id unsetRequest 1 unsetScans

def unsetJob : BulkJob := queuedJob "quick" ["example.com", "example.org"] 3 false 1

theorem bulkScanStart_unset :
    bulkScanStart id unsetRequest 1 = .ok (["example.com", "example.org"], unsetJob) := by
  have htargets : normalizeBulkTargets id unsetRequest.targets =
      ["example.com", "example.org"] := by decide
  simp only [bulkScanStart, htargets, if_neg (List.cons_ne_nil _ _)]
  rfl

theorem unsetScans_loud : ∀ scan ∈ unsetScans, ¬RaisesSilently unsetConfig scan := by
  intro scan hmem hraises
  rcases List.mem_cons.mp hmem with rfl | hmem
  · cases hraises with
    | analysis h => exact absurd (PyError.mk.inj (Except.error.inj h)) (by decide)
    | saved _ h | alerted _ _ _ _ h => cases h
  · rw [List.mem_singleton.mp hmem] at hraises
    cases hraises with
    | analysis h | saved _ h | alerted _ _ _ _ h => cases h

theorem counters_agree_unset : ∃ s t,
    exec (BulkState.step unsetConfig) (.start unsetConfig unsetJob)
      [.launch, .pass 0, .pass 1, .analyzed 1] = some s ∧
    exec (BulkState.step unsetConfig) s [.cancel 1, .analyzed 0, .finish] = some t ∧
    Agrees 3 s ∧ s.job.progress ≤ t.job.progress := by
  obtain ⟨s, hs⟩ : ∃ s, exec (BulkState.step unsetConfig) (.start unsetConfig unsetJob)
      [.launch, .pass 0, .pass 1, .analyzed 1] = some s := ⟨_, rfl⟩
  obtain ⟨t, ht⟩ : ∃ t, exec (BulkState.step unsetConfig) (.start unsetConfig unsetJob)
      ([.launch, .pass 0, .pass 1, .analyzed 1] ++ [.cancel 1, .analyzed 0, .finish]) = some t :=
    ⟨_, rfl⟩
  obtain ⟨s', hs', ht'⟩ := exec_append_some.mp ht
  cases hs.symm.trans hs'
  exact ⟨s, t, hs, ht', counters_agree bulkScanStart_unset rfl unsetScans_loud hs ht'⟩

/-- No tasks at a time are taken for the default of three, and two targets run at once. -/
theorem unset_concurrency_runs_two :
    bulkScanStart id unsetRequest 1 = .ok (unsetScans.map (·.target), unsetJob) ∧
    (∀ scan ∈ unsetScans, ¬RaisesSilently unsetConfig scan) ∧
    ∃ s, exec (BulkState.step unsetConfig) (.start unsetConfig unsetJob)
      [.launch, .pass 0, .pass 1] = some s ∧
      ¬Agrees (max 1 (min unsetRequest.concurrency 5)) s := by
  refine ⟨bulkScanStart_unset, unsetScans_loud, ?_⟩
  obtain ⟨s, hs⟩ : ∃ s, exec (BulkState.step unsetConfig) (.start unsetConfig unsetJob)
      [.launch, .pass 0, .pass 1] = some s := ⟨_, rfl⟩
  have hcount : (exec (BulkState.step unsetConfig) (.start unsetConfig unsetJob)
      [.launch, .pass 0, .pass 1]).map (fun s => s.job.items.countP (statusIn ["running"])) =
      some 2 := by rfl
  rw [hs, Option.map_some, Option.some.injEq] at hcount
  refine ⟨s, hs, fun h => ?_⟩
  have hrunning := h.running
  rw [hcount] at hrunning
  exact absurd hrunning (by decide)

end ThreatScanner.Bulk
