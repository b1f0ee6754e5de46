import ThreatScanner.Bulk.Counters

/-!
# The progress in exact arithmetic

The percentage is rounded to two decimals, so it is 100 before the end as soon as what is left is
no more than half a hundredth of it: one target in 20000. To say so of the runs, the progress is
computed beside the job wherever the job computes it (`Measured`), by a function that is a
parameter. With the one on doubles it is the progress of the job (`measured_percent`); here the one
on rationals (`exactPercent`) is put in its place.
-/

namespace ThreatScanner.Bulk

open Rounding Transition

/-- `round((completed / max(total, 1)) * 100, 2)` on rationals. -/
def exactPercent (completed total : Nat) : ℚ :=
  roundTo (1 / 100) (completed / max total 1 * 100)

/-- The item is completed or failed. -/
def finished (item : Option Json) : Bool := statusIn ["completed", "failed"] item

/-! ## Runs with the progress beside them -/

/-- The task has left its `finally` block. -/
def Task.counted : Task → Bool
  | recorded | raised => true
  | waiting | analyzing | archiving _ | skipped => false

/-- `job["progress"]` after a step to `t`. Two statements write it: one in the `finally` block, and
one at the end of a run that was not cancelled. -/
def progressAfter (toPercent : Nat → Nat → ℚ) (progress : ℚ) (t : BulkState) : Label → ℚ
  | .analyzed i | .archived i =>
    if t.tasks[i]?.any Task.counted then toPercent t.job.completed t.job.total else progress
  | .finish => if t.job.status = .completed then 100 else progress
  | .launch | .pass _ | .cancel _ => progress

/-- A state with the progress that was computed on the way. -/
structure Measured where
  state : BulkState
  progress : ℚ

def Measured.start (cfg : Config) (job : BulkJob) : Measured := ⟨.start cfg job, job.progress⟩

def Measured.step (toPercent : Nat → Nat → ℚ) (cfg : Config) (m : Measured) (l : Label) :
    Option Measured :=
  (m.state.step cfg l).map fun t => ⟨t, progressAfter toPercent m.progress t l⟩

variable {toPercent : Nat → Nat → ℚ} {cfg : Config} {s t : BulkState} {m n : Measured}
  {l : Label} {scan : Scan} {i : Nat} {job : BulkJob} {ls : List Label}

theorem Measured.step_eq_some : m.step toPercent cfg l = some n ↔
    m.state.step cfg l = some n.state ∧
      n.progress = progressAfter toPercent m.progress n.state l := by
  rw [Measured.step, Option.map_eq_some_iff]
  constructor
  · rintro ⟨t, ht, rfl⟩
    exact ⟨ht, rfl⟩
  · rintro ⟨ht, hprogress⟩
    exact ⟨n.state, ht, hprogress ▸ rfl⟩

/-- A run of the job is a run with its progress. -/
theorem exists_measured (toPercent : Nat → Nat → ℚ) (p : ℚ)
    (h : exec (BulkState.step cfg) s ls = some t) :
    ∃ q, exec (Measured.step toPercent cfg) ⟨s, p⟩ ls = some ⟨t, q⟩ := by
  induction ls generalizing s p with
  | nil => exact ⟨p, by rw [Option.some.inj h]; rfl⟩
  | cons l ls ih =>
    obtain ⟨u, hu, hrest⟩ := exec_cons_some.mp h
    obtain ⟨q, hq⟩ := ih (progressAfter toPercent p u l) hrest
    exact ⟨q, exec_cons_some.mpr ⟨_, Measured.step_eq_some.mpr ⟨hu, rfl⟩, hq⟩⟩

/-- A task that ends its `try` block is counted. -/
theorem progressAfter_ends {task : Task} {p : ℚ} (h : Ends cfg s i scan l)
    (ht : t.tasks = s.tasks.set i task) (hcounted : task.counted = true) :
    progressAfter toPercent p t l = toPercent t.job.completed t.job.total := by
  obtain ⟨old, hold, -⟩ := h.holds
  have hnew : t.tasks[i]? = some task := by
    rw [ht, List.getElem?_set_self (List.getElem?_eq_some_iff.mp hold).1]
  cases h with
  | analyzed => rw [progressAfter, hnew, Option.any_some, if_pos hcounted]
  | archived => rw [progressAfter, hnew, Option.any_some, if_pos hcounted]

/-- The progress of the job is what is computed in doubles. -/
theorem Turn.progress_eq (h : Turn cfg s l t) :
    t.job.progress = progressAfter percent s.job.progress t l := by
  cases h with
  | launch | skip | pass | cancel | cancelEnded | refuse => rfl
  | archive hscan htask =>
    rw [progressAfter, List.getElem?_set_self (List.getElem?_eq_some_iff.mp htask).1]
    rfl
  | record _ hends => rw [progressAfter_ends hends rfl rfl]; rfl
  | raise _ hends => rw [progressAfter_ends hends rfl rfl]; rfl
  | fail | stop | complete => rfl

theorem measured_percent (hjob : Queued cfg job)
    (hrun : exec (Measured.step percent cfg) (.start cfg job) ls = some m) :
    m.progress = m.state.job.progress := by
  have hinvariant : Consistent cfg m.state ∧ m.progress = m.state.job.progress := by
    refine exec_invariant
      (fun m : Measured => Consistent cfg m.state ∧ m.progress = m.state.job.progress)
      (fun m l n hm hstep => ?_) ⟨consistent_start hjob, rfl⟩ hrun
    obtain ⟨hstate, hprogress⟩ := Measured.step_eq_some.mp hstep
    have hturn := turn_of_step hm.1.tracks.archivingResults hstate
    exact ⟨(hm.1.step hstate).2, by rw [hprogress, hm.2, hturn.progress_eq]⟩
  exact hinvariant.2

/-! ## What the progress says of the items -/

/-- The progress is the percentage of the finished items, unless all of them are. -/
structure Shown (toPercent : Nat → Nat → ℚ) (cfg : Config) (m : Measured) : Prop where
  consistent : Consistent cfg m.state
  escaped : Task.raised ∈ m.state.tasks → m.state.escaped ≠ none
  progress : m.progress = toPercent m.state.job.completed m.state.job.total ∨
    ∀ item ∈ m.state.job.items, finished item = true

/-- A task that a step moves elsewhere was not the one that raised. -/
theorem Shown.escaped_set {task : Task} (S : Shown toPercent cfg m) (hne : Task.raised ≠ task)
    (hmem : Task.raised ∈ m.state.tasks.set i task) : m.state.escaped ≠ none :=
  S.escaped ((List.mem_or_eq_of_mem_set hmem).resolve_right hne)

/-- At the end of a run that is not cancelled every item is finished. -/
theorem finished_of_complete (C : Consistent cfg s) (hended : s.tasks.all Task.ended = true)
    (hescaped : Task.raised ∉ s.tasks) (hcancel : s.job.cancelRequested = false) :
    ∀ item ∈ s.job.items, finished item = true := by
  intro item hitem
  have hloud : ∀ (i : Nat) scan, cfg.scans[i]? = some scan → s.tasks[i]? ≠ some .raised :=
    fun _ _ _ htask => hescaped (List.mem_of_getElem? htask)
  rcases C.item_cases hended hloud hitem with ⟨scan, rfl⟩ | ⟨-, hrequested⟩
  · exact recordOf_finished cfg scan
  · rw [hcancel] at hrequested
    cases hrequested

theorem Shown.turn (S : Shown toPercent cfg m) (C : Consistent cfg t) (h : Turn cfg m.state l t) :
    Shown toPercent cfg ⟨t, progressAfter toPercent m.progress t l⟩ := by
  cases h with
  | launch | cancel | cancelEnded | refuse => exact ⟨C, S.escaped, S.progress⟩
  | skip hscan htask =>
    exact ⟨C, S.escaped_set nofun, S.progress⟩
  | pass hscan htask =>
    refine ⟨C, S.escaped_set nofun, S.progress.imp_right fun hall => ?_⟩
    -- the item of a waiting task is not finished
    have hitem := S.consistent.tracks.item _ _ _ hscan htask
    cases hall _ (List.mem_of_getElem? hitem)
  | archive hscan htask =>
    refine ⟨C, S.escaped_set nofun, ?_⟩
    rw [progressAfter, List.getElem?_set_self (List.getElem?_eq_some_iff.mp htask).1]
    exact S.progress
  | record hscan hends =>
    refine ⟨C, S.escaped_set nofun, .inl ?_⟩
    exact progressAfter_ends hends rfl rfl
  | raise hscan hends =>
    refine ⟨C, fun _ => nofun, .inl ?_⟩
    exact progressAfter_ends hends rfl rfl
  | fail => exact ⟨C, S.escaped, S.progress⟩
  | stop => exact ⟨C, S.escaped, S.progress⟩
  | complete hrunner hescaped hended hcancel =>
    refine ⟨C, S.escaped, .inr ?_⟩
    exact finished_of_complete C hended (fun hmem => S.escaped hmem hescaped) hcancel

theorem shown_start (hzero : ∀ total, toPercent 0 total = 0) (hjob : Queued cfg job) :
    Shown toPercent cfg (.start cfg job) where
  consistent := consistent_start hjob
  escaped hmem := by
    obtain ⟨_, _, heq⟩ := List.mem_map.mp hmem
    cases heq
  progress := .inl (by
    rw [Measured.start, BulkState.start, hjob.progress, hjob.counters.1, hzero])

theorem shown_run (hzero : ∀ total, toPercent 0 total = 0) (hjob : Queued cfg job)
    (hrun : exec (Measured.step toPercent cfg) (.start cfg job) ls = some m) :
    Shown toPercent cfg m := by
  refine exec_invariant (Shown toPercent cfg) (fun m l n S hstep => ?_)
    (shown_start hzero hjob) hrun
  obtain ⟨hstate, hprogress⟩ := Measured.step_eq_some.mp hstep
  have hnext := S.turn (S.consistent.step hstate).2
    (turn_of_step S.consistent.tracks.archivingResults hstate)
  rwa [← hprogress] at hnext

/-! ## When it is 100 -/

theorem exactPercent_zero (total : Nat) : exactPercent 0 total = 0 := by
  simp [exactPercent, roundTo, roundHalfEven]

/-- The percentage rounds to 100 from 99.995 on, the tie included. -/
theorem exactPercent_lt_hundred {completed left : Nat} (h : 0 < left) :
    exactPercent completed (completed + left) < 100 ↔ completed + left < 20000 * left := by
  have hmax : max (completed + left) 1 = completed + left := Nat.max_eq_left (by omega)
  have htotal : (0 : ℚ) < (completed + left : ℕ) := Nat.cast_pos.mpr (by omega)
  have hround : exactPercent completed (completed + left) < 100 ↔
      roundHalfEven ((completed : ℚ) / (completed + left : ℕ) * 100 / (1 / 100)) < 10000 := by
    rw [exactPercent, hmax, roundTo, ← lt_div_iff₀ (by norm_num)]
    norm_num
    exact_mod_cast Iff.rfl
  have heven : (10000 : ℤ) % 2 = 0 := by decide
  rw [hround, ← not_le, le_roundHalfEven_iff heven, not_le]
  push_cast at htotal ⊢
  have hrational : (completed : ℚ) / (completed + left) * 100 / (1 / 100) < 10000 - 1 / 2 ↔
      (completed + left : ℚ) < 20000 * left := by
    rw [div_lt_iff₀ (by norm_num), div_mul_eq_mul_div, div_lt_iff₀ htotal]
    constructor <;> intro h <;> linarith
  rw [hrational]
  exact_mod_cast Iff.rfl

-- the doubles of the job give the same at the first such number of targets
example : exactPercent 19999 20000 = 100 ∧ percent 19999 20000 = 100 := by decide +kernel

/-- How many items are not finished. -/
def unfinished (job : BulkJob) : Nat := job.items.countP fun item => !finished item

/-- The progress is below 100 as long as more than one item in 20000 is left. -/
theorem Shown.lt_hundred_iff (S : Shown exactPercent cfg m) (h : 0 < unfinished m.state.job) :
    m.progress < 100 ↔ cfg.scans.length < 20000 * unfinished m.state.job := by
  obtain ⟨item, hitem, hleft⟩ := List.countP_pos_iff.mp h
  have hprogress : m.progress = exactPercent m.state.job.completed m.state.job.total := by
    refine S.progress.resolve_right fun hall => ?_
    rw [hall item hitem] at hleft
    cases hleft
  have hcompleted : m.state.job.completed = m.state.job.items.countP finished :=
    S.consistent.ledger.counted.1
  have hcounts : cfg.scans.length = m.state.job.completed + unfinished m.state.job := by
    rw [hcompleted, ← S.consistent.tracks.items]
    simpa only [unfinished, decide_not, Bool.decide_eq_true] using
      List.length_eq_countP_add_countP finished
  rw [hprogress, S.consistent.ledger.total, hcounts, exactPercent_lt_hundred h]

/-! ## A run that leaves any number of items -/

/-- The first tasks are recorded, the rest wait. -/
structure Swept (recorded left : Nat) (s : BulkState) : Prop where
  runner : s.runner = .gathering
  uncancelled : s.job.cancelRequested = false
  tasks : s.tasks = List.replicate recorded .recorded ++ List.replicate left .waiting

/-- The labels that let the tasks pass one after the other. -/
def sweep (count : Nat) : List Label :=
  .launch :: (List.range count).flatMap fun i => [.pass i, .analyzed i]

section Sweep
variable {done left : Nat}

theorem Swept.launch (cfg : Config) (huncancelled : job.cancelRequested = false) :
    ∃ t, (BulkState.start cfg job).step cfg .launch = some t ∧ Swept 0 cfg.scans.length t := by
  refine ⟨_, rfl, rfl, huncancelled, ?_⟩
  rw [List.replicate_zero, List.nil_append]
  exact List.map_const' ..

theorem passTask_of_uncancelled (i : Nat) (scan : Scan) (h : s.job.cancelRequested = false) :
    (passTask s i scan).runner = s.runner ∧ (passTask s i scan).job.cancelRequested = false ∧
      (passTask s i scan).tasks = s.tasks.set i .analyzing := by
  rw [passTask, h]
  exact ⟨rfl, h, rfl⟩

/-- The next task passes the semaphore, its analysis fails and the failure is recorded. -/
theorem Swept.next (S : Swept done (left + 1) s) (hscan : cfg.scans[done]? = some scan)
    (hfails : afterAnalysis cfg scan = .error ⟨"timed out"⟩) :
    ∃ t, exec (BulkState.step cfg) s [.pass done, .analyzed done] = some t ∧
      Swept (done + 1) left t := by
  have hloud : ¬Silent cfg scan := by
    rw [Silent, outcome_of_error hfails]
    intro h
    exact absurd (PyError.mk.inj (Except.error.inj h)) (by decide)
  have hget (task : Task) : (List.replicate done Task.recorded ++
      task :: List.replicate left .waiting)[done]? = some task := by
    simp
  have hset (task task' : Task) : (List.replicate done Task.recorded ++
      task :: List.replicate left .waiting).set done task' =
      List.replicate done Task.recorded ++ task' :: List.replicate left .waiting := by
    simp
  have htasks := S.tasks
  rw [List.replicate_succ] at htasks
  have hpass : s.step cfg (.pass done) = some (passTask s done scan) := by
    have hfree : s.tasks.countP Task.holds = 0 := by
      simp [htasks, List.countP_append, List.countP_replicate, Task.holds]
    have hlimit : 0 < cfg.limit := by
      unfold Config.limit clampConcurrency
      omega
    rw [BulkState.step, hscan, htasks, hget, ← htasks]
    exact if_pos ⟨by rw [S.runner]; decide, by rwa [hfree]⟩
  obtain ⟨hrunner, huncancelled, hanalyzing⟩ :=
    passTask_of_uncancelled done scan S.uncancelled
  rw [htasks, hset] at hanalyzing
  have hrecord : (passTask s done scan).step cfg (.analyzed done) =
      some ((passTask s done scan).recorded cfg done scan) := by
    rw [BulkState.step, hscan, hanalyzing, hget]
    simp only [analyzedTask, hfails]
    rw [← outcome_of_error hfails, recordTask_of_not_silent hloud]
  refine ⟨_, exec_cons_some.mpr ⟨_, hpass, exec_singleton.trans hrecord⟩, hrunner.trans S.runner,
    huncancelled, ?_⟩
  rw [BulkState.recorded, hanalyzing, hset, List.replicate_succ', List.append_assoc,
    List.singleton_append]

/-- When every analysis fails, a run can leave any number of items. -/
theorem exists_swept (huncancelled : job.cancelRequested = false)
    (hfails : ∀ scan ∈ cfg.scans, afterAnalysis cfg scan = .error ⟨"timed out"⟩)
    (htotal : done + left = cfg.scans.length) :
    ∃ t, exec (BulkState.step cfg) (.start cfg job) (sweep done) = some t ∧ Swept done left t := by
  induction done generalizing left with
  | zero =>
    obtain ⟨t, ht, S⟩ := Swept.launch cfg huncancelled
    rw [Nat.zero_add] at htotal
    exact ⟨t, exec_singleton.trans ht, htotal ▸ S⟩
  | succ done ih =>
    have hrest : done + (left + 1) = cfg.scans.length := by omega
    obtain ⟨u, hu, S⟩ := ih hrest
    have hlt : done < cfg.scans.length := by omega
    have hscan : cfg.scans[done]? = some cfg.scans[done] := List.getElem?_eq_getElem hlt
    obtain ⟨t, ht, S⟩ := S.next hscan (hfails _ (List.getElem_mem hlt))
    have hsweep : sweep (done + 1) = sweep done ++ [.pass done, .analyzed done] := by
      rw [sweep, List.range_succ, List.flatMap_append, List.flatMap_singleton]
      rfl
    exact ⟨t, by rw [hsweep]; exact exec_append_some.mpr ⟨u, hu, ht⟩, S⟩

/-- What is left are the items of the tasks that wait. -/
theorem Swept.unfinished_eq (S : Swept done left s) (T : Tracks cfg s) :
    unfinished s.job = left := by
  have hslots : unfinished s.job = s.tasks.countP fun task => !task.counted := by
    refine Slots.countP_eq_of_slots (T.items.trans T.tasks.symm) fun i item task hitem htask => ?_
    obtain ⟨scan, hscan⟩ := T.scan_of_task htask
    rw [← Option.some.inj ((T.item i scan task hscan htask).symm.trans hitem)]
    have hmem := List.mem_of_getElem? htask
    rw [S.tasks, List.mem_append, List.mem_replicate, List.mem_replicate] at hmem
    obtain ⟨-, rfl⟩ | ⟨-, rfl⟩ := hmem
    · exact congrArg (!·) (recordOf_finished cfg scan)
    · rfl
  rw [hslots, S.tasks, List.countP_append, List.countP_replicate, List.countP_replicate]
  simp [Task.counted]

/-- From 20000 targets on, a run shows 100 with an item left. -/
theorem exists_hundred (hjob : Queued cfg job) (huncancelled : job.cancelRequested = false)
    (hfails : ∀ scan ∈ cfg.scans, afterAnalysis cfg scan = .error ⟨"timed out"⟩)
    (hmany : 20000 ≤ cfg.scans.length) :
    ∃ ls m, exec (Measured.step exactPercent cfg) (.start cfg job) ls = some m ∧
      (∃ item ∈ m.state.job.items, finished item = false) ∧ 100 ≤ m.progress := by
  have htotal : cfg.scans.length - 1 + 1 = cfg.scans.length := by omega
  obtain ⟨t, ht, S⟩ := exists_swept huncancelled hfails htotal
  obtain ⟨q, hq⟩ := exists_measured exactPercent job.progress ht
  have hleft : unfinished t.job = 1 := S.unfinished_eq (consistent_run hjob ht).tracks
  have hpos : 0 < unfinished t.job := by omega
  refine ⟨_, _, hq, ?_, ?_⟩
  · obtain ⟨item, hitem, hnot⟩ := List.countP_pos_iff.mp hpos
    exact ⟨item, hitem, by simpa using hnot⟩
  · rw [← not_lt, (shown_run exactPercent_zero hjob hq).lt_hundred_iff hpos, hleft]
    omega

end Sweep

/-! ## Requests -/

section Request
variable {lower upper : String → String} {data : BulkScanRequest} {userId : Int}
  {targets : List String}

/-- A state with an item left that a run of the job reaches, whatever the scans of its targets
give. -/
def LeavesItem (lower upper : String → String) (data : BulkScanRequest) (userId : Int)
    (targets : List String) (job : BulkJob) (m : Measured) : Prop :=
  ∃ scans ls, scans.map (·.target) = targets ∧
    exec (Measured.step exactPercent (requestConfig lower upper data userId scans))
      (.start (requestConfig lower upper data userId scans) job) ls = some m ∧
    ∃ item ∈ m.state.job.items, finished item = false

theorem LeavesItem.unfinished_pos (h : LeavesItem lower upper data userId targets job m) :
    0 < unfinished m.state.job := by
  obtain ⟨_, _, _, _, item, hitem, hleft⟩ := h
  exact List.countP_pos_iff.mpr ⟨item, hitem, congrArg (!·) hleft⟩

theorem LeavesItem.lt_hundred_iff (hstart : bulkScanStart lower data userId = .ok (targets, job))
    (h : LeavesItem lower upper data userId targets job m) :
    m.progress < 100 ↔ targets.length < 20000 * unfinished m.state.job := by
  have hpos := h.unfinished_pos
  obtain ⟨scans, ls, hscans, hrun, -⟩ := h
  have S := shown_run exactPercent_zero (bulkScanStart_ok hstart hscans).1 hrun
  rw [S.lt_hundred_iff hpos, ← hscans, List.length_map]
  rfl

/-- A scan whose analysis times out. -/
def timedOut (target : String) : Scan :=
  ⟨target, ⟨.error ⟨"timed out"⟩, .ok .null, .ok 1, .ok ()⟩⟩

theorem exists_leavesItem_hundred (upper : String → String)
    (hstart : bulkScanStart lower data userId = .ok (targets, job))
    (hmany : 20000 ≤ targets.length) :
    ∃ m, LeavesItem lower upper data userId targets job m ∧ 100 ≤ m.progress := by
  have hscans : (targets.map timedOut).map (·.target) = targets := by
    rw [List.map_map]
    exact List.map_id _
  have huncancelled : job.cancelRequested = false := by
    simp only [bulkScanStart] at hstart
    split at hstart
    · cases hstart
    · rw [← (Prod.mk.inj (Except.ok.inj hstart)).2]
      rfl
  have hfails : ∀ scan ∈ targets.map timedOut,
      afterAnalysis (requestConfig lower upper data userId (targets.map timedOut)) scan =
        .error ⟨"timed out"⟩ := by
    intro scan hscan
    obtain ⟨target, -, rfl⟩ := List.mem_map.mp hscan
    rfl
  obtain ⟨ls, m, hrun, hleft, hprogress⟩ := exists_hundred (bulkScanStart_ok hstart hscans).1
    huncancelled hfails (by rwa [requestConfig, List.length_map])
  exact ⟨m, ⟨_, ls, hscans, hrun, hleft⟩, hprogress⟩

/-- With an item left the progress is below 100 when more than one in 20000 is, so in every run of a
request exactly when the request is for fewer than 20000 targets. -/
theorem progress_below_iff (hstart : bulkScanStart lower data userId = .ok (targets, job)) :
    (∀ m, LeavesItem lower upper data userId targets job m →
      (m.progress < 100 ↔ targets.length < 20000 * unfinished m.state.job)) ∧
    ((∀ m, LeavesItem lower upper data userId targets job m → m.progress < 100) ↔
      targets.length < 20000) := by
  refine ⟨fun m hm => hm.lt_hundred_iff hstart, fun hall => ?_, fun hfew m hm => ?_⟩
  · by_contra hmany
    obtain ⟨m, hm, hprogress⟩ := exists_leavesItem_hundred upper hstart (Nat.not_lt.mp hmany)
    exact absurd (hall m hm) (not_lt.mpr hprogress)
  · have hpos := hm.unfinished_pos
    rw [hm.lt_hundred_iff hstart]
    omega

end Request

theorem progress_below_unset : ∃ m, exec (Measured.step exactPercent unsetConfig)
    (.start unsetConfig unsetJob) [.launch, .pass 0, .pass 1, .analyzed 1] = some m ∧
    unfinished m.state.job = 1 ∧ m.progress < 100 := by
  obtain ⟨m, hm⟩ : ∃ m, exec (Measured.step exactPercent unsetConfig)
      (.start unsetConfig unsetJob) [.launch, .pass 0, .pass 1, .analyzed 1] = some m := ⟨_, rfl⟩
  have hleft : unfinished m.state.job = 1 :=
    (Option.some.inj (congrArg (Option.map fun m : Measured => unfinished m.state.job) hm)).symm
  have hpos : 0 < unfinished m.state.job := by omega
  obtain ⟨item, hitem, hnot⟩ := List.countP_pos_iff.mp hpos
  have hleaves : LeavesItem id id unsetRequest 1 ["example.com", "example.org"] unsetJob m :=
    ⟨unsetScans, _, rfl, hm, item, hitem, by simpa using hnot⟩
  exact ⟨m, hm, hleft, (progress_below_iff bulkScanStart_unset).2.mpr (by decide) m hleaves⟩

/-! ## A request for 20000 targets -/

def numberedTargets (count : Nat) : List String :=
  (List.range count).map fun i => i.repr ++ ".example"

def numberedRequest (count : Nat) : BulkScanRequest := ⟨numberedTargets count, "quick", 3, false⟩

theorem toNat_of_mem_numbered {i : Nat} {c : Char} (hc : c ∈ (i.repr ++ ".example").toList) :
    46 ≤ c.toNat ∧ c.toNat ≤ 122 ∧ c ≠ '/' := by
  have hname : ∀ c ∈ ".example".toList, (46 ≤ c.toNat ∧ c.toNat ≤ 122 ∧ c ≠ '/' : Bool) :=
    List.all_eq_true.mp (by decide)
  rw [String.toList_append, List.mem_append, Nat.toList_repr] at hc
  rcases hc with hdigit | hmem
  · have hbounds := toNat_of_isDigit (Nat.isDigit_of_mem_toDigits (by decide) (by decide) hdigit)
    refine ⟨by omega, by omega, ?_⟩
    rintro rfl
    exact absurd hbounds.1 (by decide)
  · exact of_decide_eq_true (hname c hmem)

theorem numbered_injective : Function.Injective fun i : Nat => i.repr ++ ".example" := by
  intro i j h
  have hlists := congrArg String.toList h
  simp only [String.toList_append, Nat.toList_repr] at hlists
  have hdigits := congrArg (Nat.ofDigitChars 10 · 0) (List.append_cancel_right hlists)
  simpa only [Nat.ofDigitChars_ten_toDigits] using hdigits

theorem normalizeBulkTargets_numbered (count : Nat) :
    normalizeBulkTargets id (numberedTargets count) = numberedTargets count := by
  have hplain : ∀ target ∈ numberedTargets count,
      PlainTarget target ∧ targetKey id target = target := by
    intro target htarget
    obtain ⟨i, -, rfl⟩ := List.mem_map.mp htarget
    refine ⟨⟨by simp, fun c hc => ?_⟩, ?_⟩
    · obtain ⟨hlow, hhigh, -⟩ := toNat_of_mem_numbered hc
      exact ⟨hlow, hhigh⟩
    · rw [targetKey, id, List.rdropWhile_eq_self_iff.mpr, String.ofList_toList]
      intro hne
      rw [decide_eq_true_iff]
      exact (toNat_of_mem_numbered (List.getLast_mem hne)).2.2
  refine normalizeBulkTargets_of_plain (fun target htarget => (hplain target htarget).1) ?_
  rw [List.map_congr_left fun target htarget => (hplain target htarget).2, List.map_id']
  exact List.nodup_range.map numbered_injective

theorem bulkScanStart_numbered (count : Nat) (h : 0 < count) :
    bulkScanStart id (numberedRequest count) 1 =
      .ok (numberedTargets count, queuedJob "quick" (numberedTargets count) 3 false 1) := by
  have htargets : normalizeBulkTargets id (numberedRequest count).targets = numberedTargets count :=
    normalizeBulkTargets_numbered count
  have hne : numberedTargets count ≠ [] := by
    simpa [numberedTargets] using h.ne'
  simp only [bulkScanStart, htargets, if_neg hne]
  rfl

/-- After 19999 of 20000 targets have timed out the progress is 100, and one has not begun. -/
theorem progress_hundred_unfinished :
    bulkScanStart id (numberedRequest 20000) 1 = .ok (numberedTargets 20000,
      queuedJob "quick" (numberedTargets 20000) 3 false 1) ∧
    ∃ m, LeavesItem id id (numberedRequest 20000) 1 (numberedTargets 20000)
      (queuedJob "quick" (numberedTargets 20000) 3 false 1) m ∧ ¬m.progress < 100 := by
  have hstart := bulkScanStart_numbered 20000 (by decide)
  obtain ⟨m, hm, hprogress⟩ := exists_leavesItem_hundred id hstart (by simp [numberedTargets])
  exact ⟨hstart, m, hm, not_lt.mpr hprogress⟩

end ThreatScanner.Bulk
