import ThreatScanner.Bulk.Move
import ThreatScanner.Bulk.Progress
import ThreatScanner.Library.Slots

/-!
# The invariant of a bulk scan

The items of the job follow the tasks (`Tracks`), the counters, the results and the raw results
follow the items (`Ledger`), and the status and the progress follow the end of the run (`Closing`).
All three hold in every state of every run, whatever is cancelled or raised (`consistent_run`).
-/

namespace ThreatScanner.Bulk

open Transition Slots

variable {cfg : Config} {s t : BulkState} {scan : Scan} {i : Nat} {task task' : Task}

/-! ## Items and tasks -/

/-- The item of a task. An exception that leaves a task leaves its item as it was. -/
def itemOf (cfg : Config) (scan : Scan) : Task → Option Json
  | .waiting | .skipped => none
  | .analyzing | .archiving _ | .raised => some (runningItem scan)
  | .recorded => some (recordOf cfg scan)

/-- Why a task is where it is. -/
def Justified (cfg : Config) (cancelled : Bool) (scan : Scan) : Task → Prop
  | .waiting | .analyzing => True
  | .archiving result => afterAnalysis cfg scan = .ok (result, true)
  | .skipped => cancelled = true
  | .recorded => ¬Silent cfg scan
  | .raised => Silent cfg scan

structure Tracks (cfg : Config) (s : BulkState) : Prop where
  tasks : s.tasks.length = cfg.scans.length
  items : s.job.items.length = cfg.scans.length
  item : ∀ (i : Nat) scan task, cfg.scans[i]? = some scan → s.tasks[i]? = some task →
    s.job.items[i]? = some (itemOf cfg scan task)
  justified : ∀ (i : Nat) scan task, cfg.scans[i]? = some scan → s.tasks[i]? = some task →
    Justified cfg s.job.cancelRequested scan task

theorem Justified.mono {cancelled cancelled' : Bool} (h : Justified cfg cancelled scan task)
    (himp : cancelled = true → cancelled' = true) : Justified cfg cancelled' scan task := by
  cases task with
  | skipped => exact himp h
  | _ => exact h

theorem Tracks.archivingResults (T : Tracks cfg s) : ArchivingResults cfg s :=
  fun i scan _ hscan htask => T.justified i scan _ hscan htask

/-- A step that leaves the tasks and the items. -/
theorem Tracks.same (T : Tracks cfg s) (htasks : t.tasks = s.tasks)
    (hitems : t.job.items = s.job.items)
    (hcancel : s.job.cancelRequested = true → t.job.cancelRequested = true) : Tracks cfg t where
  tasks := htasks ▸ T.tasks
  items := hitems ▸ T.items
  item i scan task hscan htask := by
    rw [htasks] at htask
    rw [hitems]
    exact T.item i scan task hscan htask
  justified i scan task hscan htask := by
    rw [htasks] at htask
    exact (T.justified i scan task hscan htask).mono hcancel

/-- A step that moves one task, with its item. -/
theorem Tracks.update (T : Tracks cfg s) (hscan : cfg.scans[i]? = some scan)
    (htasks : t.tasks = s.tasks.set i task')
    (hitems : t.job.items = s.job.items.set i (itemOf cfg scan task'))
    (hcancel : t.job.cancelRequested = s.job.cancelRequested)
    (hjustified : Justified cfg s.job.cancelRequested scan task') : Tracks cfg t where
  tasks := by rw [htasks, List.length_set, T.tasks]
  items := by rw [hitems, List.length_set, T.items]
  item j scan' task hscan' htask := by
    rw [htasks, List.getElem?_set] at htask
    rw [hitems, List.getElem?_set]
    split at htask
    · rename_i hij
      subst hij
      cases hscan.symm.trans hscan'
      split at htask
      · cases htask
        rw [if_pos rfl, if_pos (by rw [T.items, ← T.tasks]; assumption)]
      · cases htask
    · rename_i hij
      rw [if_neg hij]
      exact T.item j scan' task hscan' htask
  justified j scan' task hscan' htask := by
    rw [hcancel]
    rw [htasks, List.getElem?_set] at htask
    split at htask
    · rename_i hij
      subst hij
      cases hscan.symm.trans hscan'
      split at htask
      · cases htask
        exact hjustified
      · cases htask
    · exact T.justified j scan' task hscan' htask

/-- Writing the item that is there already. -/
theorem Tracks.items_set (T : Tracks cfg s) (hscan : cfg.scans[i]? = some scan)
    (htask : s.tasks[i]? = some task) (h : itemOf cfg scan task' = itemOf cfg scan task) :
    s.job.items = s.job.items.set i (itemOf cfg scan task') := by
  have hitem := T.item i scan task hscan htask
  rw [h]
  obtain ⟨hlt, hget⟩ := List.getElem?_eq_some_iff.mp hitem
  rw [← hget, List.set_getElem_self]

/-- A task that holds the semaphore has a running item. -/
theorem itemOf_of_holds (h : task.holds) : itemOf cfg scan task = some (runningItem scan) := by
  cases task with
  | analyzing | archiving => rfl
  | _ => cases h

theorem Tracks.moves (T : Tracks cfg s) (h : Moves cfg s t) : Tracks cfg t := by
  cases h with
  | launch | fail | stop | complete | refuse => exact T.same rfl rfl id
  | cancel => exact T.same rfl rfl fun _ => rfl
  | skip hscan htask hcancel =>
    exact T.update hscan rfl (T.items_set hscan htask rfl) rfl hcancel
  | pass hscan htask => exact T.update hscan rfl rfl rfl trivial
  | archive hscan htask hafter =>
    exact T.update hscan rfl (T.items_set hscan htask rfl) rfl hafter
  | record hscan htask hholds hspeaks => exact T.update hscan rfl rfl rfl hspeaks
  | raise hscan htask hholds hsilent =>
    exact T.update hscan rfl (T.items_set hscan htask (itemOf_of_holds hholds).symm) rfl hsilent

/-! ## What an item says -/

theorem statusIn_of_hasStatus {target status : String} {item : Json}
    (h : HasStatus target status item) (names : List String) :
    statusIn names (some item) = decide (status ∈ names) := by
  cases item with
  | obj entries =>
    have htruthy : (Json.obj entries).truthy = true := by
      cases entries with
      | nil => cases h.2
      | cons => rfl
    simp only [statusIn, htruthy, h.2, Bool.true_and]
  | _ => cases h.2

theorem recordOf_hasStatus (cfg : Config) (scan : Scan) :
    HasStatus scan.target "completed" (recordOf cfg scan) ∧ (∃ r, outcome cfg scan = .ok r) ∨
    HasStatus scan.target "failed" (recordOf cfg scan) ∧ ∃ e, outcome cfg scan = .error e := by
  unfold recordOf
  cases ho : outcome cfg scan with
  | ok r =>
    refine .inl ⟨?_, r, rfl⟩
    simp only [outcome, saveAndSummarize, bind_eq_ok] at ho
    obtain ⟨_, _, _, _, _, _, _, _, summary, hsummary, hr⟩ := ho
    cases hr
    exact summarizeBulkResult_completed _ hsummary
  | error e => exact .inr ⟨failedSummary_hasStatus _ _, e, rfl⟩

/-- The item is finished: the entry that `results` has for it. -/
def finishedItem (x : Option Json) : Option Json :=
  if statusIn ["completed", "failed"] x then x else none

/-- The item is completed: its target, the key that `raw_results` has for it. -/
def completedTarget (x : Option Json) : Option String :=
  if statusIn ["completed"] x then
    match x.getD .null |>.get "target" with
    | .ok (.str target) => some target
    | _ => none
  else none

theorem recordOf_finished (cfg : Config) (scan : Scan) :
    statusIn ["completed", "failed"] (some (recordOf cfg scan)) = true := by
  rcases recordOf_hasStatus cfg scan with ⟨h, -⟩ | ⟨h, -⟩
  · rw [statusIn_of_hasStatus h]; rfl
  · rw [statusIn_of_hasStatus h]; rfl

theorem recordOf_not_running (cfg : Config) (scan : Scan) :
    statusIn ["running"] (some (recordOf cfg scan)) = false := by
  rcases recordOf_hasStatus cfg scan with ⟨h, -⟩ | ⟨h, -⟩
  · rw [statusIn_of_hasStatus h]; rfl
  · rw [statusIn_of_hasStatus h]; rfl

/-! ## Counters and lists -/

/-- The counters are the counts of the items. -/
def BulkJob.Counted (job : BulkJob) : Prop :=
  job.completed = job.items.countP (statusIn ["completed", "failed"]) ∧
  job.failed = job.items.countP (statusIn ["failed"]) ∧
  job.vulnerableTargets = job.items.countP flagged

theorem BulkJob.counted_recount (job : BulkJob) : job.recount.Counted := ⟨rfl, rfl, rfl⟩

/-- The results are those of the finished items, and the raw results are kept under the targets of
the completed items. -/
structure Ledger (cfg : Config) (s : BulkState) : Prop where
  total : s.job.total = cfg.scans.length
  counted : s.job.Counted
  results : s.job.results.Perm (s.job.items.filterMap finishedItem)
  raw : ∀ target, target ∈ s.job.rawResults.map Prod.fst ↔
    target ∈ s.job.items.filterMap completedTarget
  rawNodup : (s.job.rawResults.map Prod.fst).Nodup
  rawFrom : ∀ target result, s.job.rawResults.lookup target = some result →
    ∃ scan ∈ cfg.scans, scan.target = target ∧ ∃ summary, outcome cfg scan = .ok (result, summary)
  bound : s.tasks.countP Task.holds ≤ cfg.limit

theorem Ledger.same (L : Ledger cfg s) (htasks : t.tasks = s.tasks)
    (htotal : t.job.total = s.job.total) (hitems : t.job.items = s.job.items)
    (hcounted : t.job.Counted) (hresults : t.job.results = s.job.results)
    (hraw : t.job.rawResults = s.job.rawResults) : Ledger cfg t where
  total := htotal.trans L.total
  counted := hcounted
  results := by rw [hresults, hitems]; exact L.results
  raw := by rw [hraw, hitems]; exact L.raw
  rawNodup := by rw [hraw]; exact L.rawNodup
  rawFrom := by rw [hraw]; exact L.rawFrom
  bound := by rw [htasks]; exact L.bound

theorem completedTarget_of_hasStatus {target status : String} {item : Json}
    (h : HasStatus target status item) :
    completedTarget (some item) = if status = "completed" then some target else none := by
  simp only [completedTarget, statusIn_of_hasStatus h, Option.getD_some, h.1, List.mem_singleton,
    decide_eq_true_eq]

theorem finishedItem_recordOf (cfg : Config) (scan : Scan) :
    finishedItem (some (recordOf cfg scan)) = some (recordOf cfg scan) :=
  if_pos (recordOf_finished cfg scan)

/-- The raw results of a scan are kept exactly when its item is completed. -/
theorem mem_keepResult {rawResults : List (String × Json)} {target : String} :
    target ∈ (keepResult cfg scan rawResults).map Prod.fst ↔ target ∈ rawResults.map Prod.fst ∨
      completedTarget (some (recordOf cfg scan)) = some target := by
  unfold keepResult
  rcases recordOf_hasStatus cfg scan with ⟨hstatus, r, ho⟩ | ⟨hstatus, e, ho⟩
  · rw [ho, completedTarget_of_hasStatus hstatus, if_pos rfl, Option.some.injEq, eq_comm]
    exact Json.mem_keys_setEntry
  · rw [ho, completedTarget_of_hasStatus hstatus, if_neg (by decide)]
    simp

theorem nodup_keepResult {rawResults : List (String × Json)}
    (h : (rawResults.map Prod.fst).Nodup) :
    ((keepResult cfg scan rawResults).map Prod.fst).Nodup := by
  unfold keepResult
  split
  · exact Json.nodup_keys_setEntry h
  · exact h

theorem lookup_keepResult {rawResults : List (String × Json)} {target : String} {result : Json}
    (h : (keepResult cfg scan rawResults).lookup target = some result) :
    rawResults.lookup target = some result ∨
      scan.target = target ∧ ∃ summary, outcome cfg scan = .ok (result, summary) := by
  unfold keepResult at h
  split at h
  · rename_i kept summary ho
    rw [Json.lookup_setEntry] at h
    split at h
    · rename_i htarget
      cases h
      exact .inr ⟨htarget.symm, summary, ho⟩
    · exact .inl h
  · exact .inl h

theorem Ledger.record (L : Ledger cfg s) (T : Tracks cfg s) (hscan : cfg.scans[i]? = some scan)
    (htask : s.tasks[i]? = some task) (hholds : task.holds) :
    Ledger cfg (s.recorded cfg i scan) := by
  have hitem := T.item i scan task hscan htask
  rw [itemOf_of_holds hholds] at hitem
  have hresults : ((s.job.items.set i (some (recordOf cfg scan))).filterMap finishedItem).Perm
      (s.job.items.filterMap finishedItem ++ [recordOf cfg scan]) :=
    filterMap_set_perm hitem rfl (finishedItem_recordOf cfg scan)
  have hraw : ∀ target, target ∈
      (s.job.items.set i (some (recordOf cfg scan))).filterMap completedTarget ↔
        target ∈ s.job.items.filterMap completedTarget ∨
          completedTarget (some (recordOf cfg scan)) = some target := by
    intro target
    cases hc : completedTarget (some (recordOf cfg scan)) with
    | none => rw [filterMap_set_eq hitem hc]; simp
    | some c =>
      rw [(filterMap_set_perm hitem rfl hc).mem_iff, List.mem_append, List.mem_singleton,
        Option.some.injEq, @eq_comm _ c]
  refine ⟨L.total, BulkJob.counted_recount _, ?_, fun target => ?_, nodup_keepResult L.rawNodup,
    fun target result h => ?_, (countP_set_le rfl).trans L.bound⟩
  · exact (L.results.append_right _).trans hresults.symm
  · exact mem_keepResult.trans (((L.raw target).or Iff.rfl).trans (hraw target).symm)
  · rcases lookup_keepResult h with h | h
    · exact L.rawFrom target result h
    · exact ⟨scan, List.mem_of_getElem? hscan, h⟩

/-- A running item in place of none counts for nothing. -/
theorem Ledger.pass (L : Ledger cfg s) (hitem : s.job.items[i]? = some none)
    (htask : s.tasks[i]? = some .waiting) (hlimit : s.tasks.countP Task.holds < cfg.limit) :
    Ledger cfg { s with
      tasks := s.tasks.set i .analyzing
      job := { s.job with
        items := s.job.items.set i (some (runningItem scan))
        currentTarget := some scan.target } } := by
  obtain ⟨hcompleted, hfailed, hvulnerable⟩ := L.counted
  have hcount : ∀ p : Option Json → Bool, p (some (runningItem scan)) = p none →
      (s.job.items.set i (some (runningItem scan))).countP p = s.job.items.countP p :=
    fun p hp => countP_set_eq hitem hp
  have hresults : (s.job.items.set i (some (runningItem scan))).filterMap finishedItem =
      s.job.items.filterMap finishedItem := filterMap_set_eq hitem rfl
  have hraw : (s.job.items.set i (some (runningItem scan))).filterMap completedTarget =
      s.job.items.filterMap completedTarget := filterMap_set_eq hitem rfl
  have hbound : (s.tasks.set i .analyzing).countP Task.holds = s.tasks.countP Task.holds + 1 :=
    countP_set_add htask rfl rfl
  refine ⟨L.total, ⟨?_, ?_, ?_⟩, ?_, fun target => ?_, L.rawNodup, L.rawFrom, ?_⟩
  · exact hcompleted.trans (hcount _ rfl).symm
  · exact hfailed.trans (hcount _ rfl).symm
  · exact hvulnerable.trans (hcount _ rfl).symm
  · exact L.results.trans (.of_eq hresults.symm)
  · exact (L.raw target).trans (.of_eq (congrArg (target ∈ ·) hraw.symm))
  · exact hbound.trans_le hlimit

theorem Ledger.moves (L : Ledger cfg s) (T : Tracks cfg s) (h : Moves cfg s t) : Ledger cfg t := by
  cases h with
  | launch | fail | stop | complete | refuse | cancel =>
    exact L.same rfl rfl rfl L.counted rfl rfl
  | skip =>
    exact ⟨L.total, L.counted, L.results, L.raw, L.rawNodup, L.rawFrom,
      (countP_set_le rfl).trans L.bound⟩
  | pass hscan htask hlimit => exact L.pass (T.item _ _ _ hscan htask) htask hlimit
  | @archive i scan result hscan htask =>
    have hbound : (s.tasks.set i (.archiving result)).countP Task.holds =
        s.tasks.countP Task.holds := countP_set_eq htask rfl
    exact ⟨L.total, L.counted, L.results, L.raw, L.rawNodup, L.rawFrom, hbound.trans_le L.bound⟩
  | record hscan htask hholds => exact L.record T hscan htask hholds
  | raise =>
    exact ⟨L.total, s.job.counted_recount, L.results, L.raw, L.rawNodup, L.rawFrom,
      (countP_set_le rfl).trans L.bound⟩

/-! ## The end of the run -/

/-- A task that has ended stays where it is. -/
theorem Moves.ended_stays (h : Moves cfg s t) (htask : s.tasks[i]? = some task)
    (hended : task.ended = true) : t.tasks[i]? = some task := by
  have hset : ∀ {j : Nat} {old new : Task}, s.tasks[j]? = some old → old.ended = false →
      (s.tasks.set j new)[i]? = some task := by
    intro j old new hold hnot
    have hne : j ≠ i := by
      rintro rfl
      cases hold.symm.trans htask
      rw [hended] at hnot
      cases hnot
    rw [List.getElem?_set_ne hne]
    exact htask
  have hholds : ∀ {old : Task}, old.holds = true → old.ended = false := by
    intro old h
    cases old <;> first | rfl | cases h
  cases h with
  | launch | fail | stop | complete | cancel | refuse => exact htask
  | skip _ hwaiting => exact hset hwaiting rfl
  | pass _ hwaiting => exact hset hwaiting rfl
  | archive _ hanalyzing => exact hset hanalyzing rfl
  | record _ hold hold' => exact hset hold (hholds hold')
  | raise _ hold hold' => exact hset hold (hholds hold')

structure Closing (cfg : Config) (s : BulkState) : Prop where
  escaped : s.escaped ≠ none →
    ∃ (i : Nat) (scan : Scan), cfg.scans[i]? = some scan ∧ s.tasks[i]? = some .raised
  closed : s.runner = .finished → s.escaped = none → s.job.cancelRequested = false →
    s.job.status = .completed
  progress : s.job.progress = percent s.job.completed s.job.total ∨
    s.runner = .finished ∧ s.tasks.all Task.ended = true ∧ s.job.progress = 100

/-- When every task has ended, no task has a step left. -/
theorem not_ended_of_mem (hall : s.tasks.all Task.ended = true) (htask : s.tasks[i]? = some task) :
    task.ended = true :=
  List.all_eq_true.mp hall task (List.mem_of_getElem? htask)

theorem Closing.progress_of_task (C : Closing cfg s) (htask : s.tasks[i]? = some task)
    (hnot : task.ended = false) : s.job.progress = percent s.job.completed s.job.total := by
  rcases C.progress with h | ⟨-, hall, -⟩
  · exact h
  · rw [not_ended_of_mem hall htask] at hnot
    cases hnot

theorem Closing.progress_of_runner (C : Closing cfg s) (hrunner : s.runner ≠ .finished) :
    s.job.progress = percent s.job.completed s.job.total :=
  C.progress.resolve_right fun h => hrunner h.1

theorem Closing.moves (C : Closing cfg s) (h : Moves cfg s t) : Closing cfg t := by
  have hescaped : t.escaped = s.escaped → t.escaped ≠ none →
      ∃ (i : Nat) (scan : Scan), cfg.scans[i]? = some scan ∧ t.tasks[i]? = some .raised := by
    intro heq hne
    obtain ⟨i, scan, hscan, htask⟩ := C.escaped (heq ▸ hne)
    exact ⟨i, scan, hscan, h.ended_stays htask rfl⟩
  cases h with
  | launch hrunner =>
    exact ⟨hescaped rfl, nofun, .inl (C.progress_of_runner (by rw [hrunner]; decide))⟩
  | skip _ htask => exact ⟨hescaped rfl, C.closed, .inl (C.progress_of_task htask rfl)⟩
  | pass _ htask => exact ⟨hescaped rfl, C.closed, .inl (C.progress_of_task htask rfl)⟩
  | archive _ htask => exact ⟨hescaped rfl, C.closed, .inl (C.progress_of_task htask rfl)⟩
  | record => exact ⟨hescaped rfl, C.closed, .inl rfl⟩
  | @raise i scan _ hscan htask =>
    refine ⟨fun _ => ⟨i, scan, hscan, ?_⟩, nofun, .inl rfl⟩
    exact List.getElem?_set_self (List.getElem?_eq_some_iff.mp htask).1
  | fail hrunner hsome =>
    refine ⟨hescaped rfl, fun _ hnone => ?_,
      .inl (C.progress_of_runner (by rw [hrunner]; decide))⟩
    cases hsome.symm.trans hnone
  | stop hrunner _ _ hcancel =>
    refine ⟨hescaped rfl, fun _ _ hnot => ?_,
      .inl (C.progress_of_runner (by rw [hrunner]; decide))⟩
    cases hcancel.symm.trans hnot
  | complete _ _ hended => exact ⟨hescaped rfl, fun _ _ _ => rfl, .inr ⟨rfl, hended, rfl⟩⟩
  | cancel => exact ⟨hescaped rfl, nofun, C.progress⟩
  | refuse => exact C

/-! ## Runs -/

structure Consistent (cfg : Config) (s : BulkState) : Prop where
  tracks : Tracks cfg s
  ledger : Ledger cfg s
  closing : Closing cfg s

theorem Consistent.step {l : Label} (C : Consistent cfg s) (h : s.step cfg l = some t) :
    Moves cfg s t ∧ Consistent cfg t := by
  have hmoves := moves_of_step C.tracks.archivingResults h
  exact ⟨hmoves, C.tracks.moves hmoves, C.ledger.moves C.tracks hmoves, C.closing.moves hmoves⟩

/-- The job that is created for the targets of the scans. -/
structure Queued (cfg : Config) (job : BulkJob) : Prop where
  total : job.total = cfg.scans.length
  items : job.items = cfg.scans.map fun _ => none
  counters : job.completed = 0 ∧ job.failed = 0 ∧ job.vulnerableTargets = 0
  progress : job.progress = 0
  results : job.results = []
  rawResults : job.rawResults = []

theorem queued_queuedJob {profile : String} {concurrency : Nat} {includeArchive : Bool}
    {userId : Int} : Queued cfg (queuedJob profile (cfg.scans.map (·.target)) concurrency
      includeArchive userId) where
  total := List.length_map _
  items := List.map_map
  counters := ⟨rfl, rfl, rfl⟩
  progress := rfl
  results := rfl
  rawResults := rfl

theorem tracks_start {job : BulkJob} (hjob : Queued cfg job) : Tracks cfg (.start cfg job) := by
  have htask : ∀ {i : Nat} {task : Task}, (cfg.scans.map fun _ => Task.waiting)[i]? = some task →
      task = .waiting := by
    intro i task h
    obtain ⟨_, _, rfl⟩ := List.mem_map.mp (List.mem_of_getElem? h)
    rfl
  refine ⟨List.length_map _, ?_, fun i scan task hscan h => ?_, fun i scan task hscan h => ?_⟩
  · rw [BulkState.start, hjob.items, List.length_map]
  · rw [htask h, BulkState.start, hjob.items, List.getElem?_map, hscan]
    rfl
  · rw [htask h]
    trivial

theorem ledger_start {job : BulkJob} (hjob : Queued cfg job) : Ledger cfg (.start cfg job) := by
  have hcount : ∀ p : Option Json → Bool, p none = false → job.items.countP p = 0 := by
    intro p hp
    rw [hjob.items, List.countP_eq_zero]
    intro x hx
    obtain ⟨_, _, rfl⟩ := List.mem_map.mp hx
    exact Bool.eq_false_iff.mp hp
  have hselect : ∀ {β : Type} (f : Option Json → Option β), f none = none →
      job.items.filterMap f = [] := by
    intro β f hf
    rw [hjob.items, List.filterMap_eq_nil_iff]
    intro x hx
    obtain ⟨_, _, rfl⟩ := List.mem_map.mp hx
    exact hf
  obtain ⟨hcompleted, hfailed, hvulnerable⟩ := hjob.counters
  refine ⟨hjob.total, ⟨?_, ?_, ?_⟩, ?_, fun target => ?_, ?_, fun target result h => ?_, ?_⟩
  · exact hcompleted.trans (hcount _ rfl).symm
  · exact hfailed.trans (hcount _ rfl).symm
  · exact hvulnerable.trans (hcount _ rfl).symm
  · rw [BulkState.start, hjob.results, hselect finishedItem rfl]
  · rw [BulkState.start, hjob.rawResults, hselect completedTarget rfl]
    rfl
  · rw [BulkState.start, hjob.rawResults]
    exact List.nodup_nil
  · rw [BulkState.start, hjob.rawResults] at h
    cases h
  · rw [BulkState.start, List.countP_eq_zero.mpr fun task h => ?_]
    · exact Nat.zero_le _
    · obtain ⟨_, _, rfl⟩ := List.mem_map.mp h
      decide

theorem consistent_start {job : BulkJob} (hjob : Queued cfg job) :
    Consistent cfg (.start cfg job) where
  tracks := tracks_start hjob
  ledger := ledger_start hjob
  closing := by
    refine ⟨fun h => absurd rfl h, nofun, .inl ?_⟩
    rw [BulkState.start, hjob.progress, hjob.counters.1, percent_zero]

theorem consistent_run {job : BulkJob} {ls : List Label} (hjob : Queued cfg job)
    (hrun : exec (BulkState.step cfg) (.start cfg job) ls = some s) : Consistent cfg s := by
  refine exec_invariant (Consistent cfg) ?_ (consistent_start hjob) hrun
  exact fun s l t C h => (C.step h).2

end ThreatScanner.Bulk
