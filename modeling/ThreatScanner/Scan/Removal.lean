import ThreatScanner.Scan.System

/-!
# Removal from the queue, one queue operation at a time

`cancel_scan` is a plain `def`, so it runs on a thread of its own and the event loop goes on while
`remove_job_from_queue` reads the entries, clears the queue and appends the kept ones. Here each of
these is a step of its own, and `put` (of `scan_async`) and `get` (of `scan_worker`) may fall
between any two of them.

Every operation but the clearing keeps the number of entries of each job in step with the number
of its puts (`step_balance`). So nothing is lost or repeated exactly when the kept entries are
still those of the queue at the moment it is cleared (`SnapshotCurrent`).
-/

namespace ThreatScanner.Scan

open Transition

/-- How far the call of `remove_job_from_queue` is, with its local variable `new_items`. -/
inductive Removal where
  | notCalled
  | snapshotted (newItems : List QueueEntry)
  | appending (newItems : List QueueEntry)
  | returned
deriving DecidableEq

def Removal.inProgress : Removal → Bool
  | notCalled | returned => false
  | snapshotted _ | appending _ => true

/-- The queue was cleared. -/
def Removal.cleared : Removal → Bool
  | notCalled | snapshotted _ => false
  | appending _ | returned => true

/-- The queue, the removal, the jobs put into the queue so far and the entries the worker was
handed so far. -/
structure RemovalState where
  queue : List QueueEntry
  removal : Removal
  puts : List JobId
  handed : List QueueEntry
deriving DecidableEq

inductive RemovalLabel where
  | put (entry : QueueEntry)
  | get
  | snapshot
  | clear
  | append
  | ret

namespace RemovalState

def init : RemovalState := ⟨[], .notCalled, [], []⟩

/-- The removal of `jobId`, interleaved with the event loop. A job is put once: its id is fresh. -/
def step (jobId : JobId) (s : RemovalState) : RemovalLabel → Option RemovalState
  | .put entry =>
    if entry.jobId ∈ s.puts then none
    else some { s with queue := s.queue ++ [entry], puts := s.puts ++ [entry.jobId] }
  | .get =>
    match s.queue with
    | [] => none
    | entry :: rest => some { s with queue := rest, handed := s.handed ++ [entry] }
  | .snapshot =>
    match s.removal with
    | .notCalled => some { s with removal := .snapshotted (s.queue.filter (·.jobId ≠ jobId)) }
    | _ => none
  | .clear =>
    match s.removal with
    | .snapshotted newItems => some { s with queue := [], removal := .appending newItems }
    | _ => none
  | .append =>
    match s.removal with
    | .appending (entry :: rest) =>
      some { s with queue := s.queue ++ [entry], removal := .appending rest }
    | _ => none
  | .ret =>
    match s.removal with
    | .appending [] => some { s with removal := .returned }
    | _ => none

abbrev run (jobId : JobId) (ls : List RemovalLabel) : Option RemovalState :=
  exec (step jobId) init ls

/-- The number of entries of a job in a list. -/
def countOf (id : JobId) (items : List QueueEntry) : Nat := items.countP (·.jobId = id)

/-- The kept entries that the removal has still to put back. -/
def pending (s : RemovalState) : List QueueEntry :=
  match s.removal with
  | .appending newItems => newItems
  | _ => []

/-- The number of entries of a job, wherever they are. -/
def entries (s : RemovalState) (id : JobId) : Nat :=
  countOf id s.handed + countOf id s.queue + countOf id s.pending

/-- The job was handed to the worker once, or it is in the queue once. -/
def HandedOrQueued (s : RemovalState) (id : JobId) : Prop :=
  (countOf id s.handed = 1 ∧ countOf id s.queue = 0) ∨
    (countOf id s.handed = 0 ∧ countOf id s.queue = 1)

/-- No job but the cancelled one was lost or repeated. -/
def NoneLost (jobId : JobId) (s : RemovalState) : Prop :=
  ∀ id ∈ s.puts, id ≠ jobId → s.HandedOrQueued id

/-- Every other job has one entry: handed, in the queue, or kept and still to be put back. -/
def NoneMissing (jobId : JobId) (s : RemovalState) : Prop :=
  ∀ id ∈ s.puts, id ≠ jobId → s.entries id = 1

/-- When the queue is cleared, the jobs in it, but for the cancelled one, are those of the kept
entries. -/
def SnapshotCurrent (jobId : JobId) (s : RemovalState) : RemovalLabel → Prop
  | .clear => ∀ newItems, s.removal = .snapshotted newItems →
      ∀ id, id ≠ jobId → (id ∈ newItems.map (·.jobId) ↔ id ∈ s.queue.map (·.jobId))
  | _ => True

variable {id jobId : JobId} {s t : RemovalState} {l : RemovalLabel} {ls : List RemovalLabel}

/-! ## An uninterrupted removal -/

theorem exec_append_all (newItems : List QueueEntry) (s : RemovalState)
    (hs : s.removal = .appending newItems) :
    exec (step jobId) s (newItems.map (fun _ => .append) ++ [.ret]) =
      some { s with queue := s.queue ++ newItems, removal := .returned } := by
  induction newItems generalizing s with
  | nil => simp [exec_cons, step, hs]
  | cons entry rest ih =>
    simp only [List.map_cons, List.cons_append, exec_cons, step, hs, Option.bind_some]
    rw [ih _ rfl]
    simp only [List.append_assoc, List.cons_append, List.nil_append]

/-- With nothing in between, the operations do what `removeJobFromQueue` does in one step. -/
theorem exec_removal (u : ScanState) (hs : s.removal = .notCalled)
    (hu : u.scanQueue = some s.queue) :
    ∃ appends, (exec (step jobId) s (.snapshot :: .clear :: (appends ++ [.ret]))).map (·.queue) =
      (removeJobFromQueue u jobId).2.scanQueue := by
  refine ⟨(s.queue.filter (·.jobId ≠ jobId)).map fun _ => .append, ?_⟩
  simp only [exec_cons, step, hs, Option.bind_some]
  rw [exec_append_all _ _ rfl]
  simp [removeJobFromQueue, hu]

/-! ## The balance of entries and puts -/

@[simp] theorem countOf_nil : countOf id [] = 0 := rfl

@[simp] theorem countOf_cons (entry : QueueEntry) (items : List QueueEntry) :
    countOf id (entry :: items) = countOf id items + if entry.jobId = id then 1 else 0 := by
  simp [countOf, List.countP_cons]

@[simp] theorem countOf_append (items items' : List QueueEntry) :
    countOf id (items ++ items') = countOf id items + countOf id items' :=
  List.countP_append

theorem countOf_pos (items : List QueueEntry) :
    0 < countOf id items ↔ id ∈ items.map (·.jobId) := by
  simp [countOf, List.countP_pos_iff]

theorem countOf_filter_ne (items : List QueueEntry) :
    countOf id (items.filter (·.jobId ≠ jobId)) = if id = jobId then 0 else countOf id items := by
  induction items with
  | nil => simp
  | cons entry rest ih =>
    by_cases he : entry.jobId = jobId
    · rw [List.filter_cons_of_neg (by simpa using he), ih, countOf_cons]
      by_cases hid : id = jobId
      · simp only [if_pos hid]
      · rw [if_neg hid, if_neg hid, if_neg fun h => hid (h.symm.trans he), Nat.add_zero]
    · rw [List.filter_cons_of_pos (by simpa using he), countOf_cons, countOf_cons, ih]
      by_cases hid : id = jobId
      · rw [if_pos hid, if_pos hid, if_neg fun h => he (h.trans hid)]
      · simp only [if_neg hid]

/-- Every operation but the clearing keeps entries and puts of a job in balance. -/
theorem step_balance (h : step jobId s l = some t) (hl : l ≠ .clear) (id : JobId) :
    t.entries id + s.puts.count id = s.entries id + t.puts.count id := by
  cases l with
  | put entry =>
    simp only [step] at h
    split at h
    · cases h
    · cases h
      simp only [entries, pending, countOf_append, countOf_cons, countOf_nil, List.count_append,
        List.count_singleton, beq_iff_eq]
      omega
  | get =>
    simp only [step] at h
    split at h
    · cases h
    · rename_i hq
      cases h
      simp only [entries, pending, hq, countOf_append, countOf_cons, countOf_nil]
      omega
  | snapshot =>
    simp only [step] at h
    split at h
    · rename_i hr
      cases h
      simp only [entries, pending, hr]
    · cases h
  | clear => exact (hl rfl).elim
  | append =>
    simp only [step] at h
    split at h
    · rename_i hr
      cases h
      simp only [entries, pending, hr, countOf_append, countOf_cons, countOf_nil]
      omega
    · cases h
  | ret =>
    simp only [step] at h
    split at h
    · rename_i hr
      cases h
      simp only [entries, pending, hr]
    · cases h

theorem clear_eq (h : step jobId s .clear = some t) :
    ∃ newItems, s.removal = .snapshotted newItems ∧
      t = { s with queue := [], removal := .appending newItems } := by
  simp only [step] at h
  split at h
  · rename_i newItems hr
    cases h
    exact ⟨newItems, hr, rfl⟩
  · cases h

theorem step_cleared (h : step jobId s l = some t) (ht : t.removal.cleared = false) :
    s.removal.cleared = false ∧ l ≠ .clear := by
  cases l with
  | put | get =>
    simp only [step] at h
    split at h
    · cases h
    · cases h; exact ⟨ht, nofun⟩
  | snapshot =>
    simp only [step] at h
    split at h
    · rename_i hr; cases h; exact ⟨by rw [hr]; rfl, nofun⟩
    · cases h
  | clear | append | ret =>
    simp only [step] at h
    split at h <;> cases h
    cases ht

theorem step_puts (h : step jobId s l = some t) (hs : s.puts.Nodup) :
    t.puts.Nodup ∧ s.puts ⊆ t.puts := by
  cases l with
  | put entry =>
    simp only [step] at h
    split at h
    · cases h
    · rename_i hfresh
      cases h
      refine ⟨?_, List.subset_append_left _ _⟩
      rw [List.nodup_append_comm]
      exact List.nodup_cons.mpr ⟨hfresh, hs⟩
  | _ =>
    simp only [step] at h
    split at h <;> cases h
    exact ⟨hs, List.Subset.refl _⟩

/-- A job is put once, only the jobs put have entries, kept entries are not of the cancelled job,
and until the queue is cleared every job has as many entries as puts. -/
structure RemovalInv (jobId : JobId) (s : RemovalState) : Prop where
  nodup_puts : s.puts.Nodup
  known : ∀ id, id ∉ s.puts → s.entries id = 0
  kept : ∀ newItems, s.removal = .snapshotted newItems →
    ∀ id, countOf id newItems ≤ if id = jobId then 0 else s.puts.count id
  balanced : s.removal.cleared = false → ∀ id, s.entries id = s.puts.count id

theorem init_removalInv : RemovalInv jobId init where
  nodup_puts := .nil
  known _ _ := rfl
  kept _ h := nomatch h
  balanced _ _ := rfl

/-- Clearing the queue exchanges the entries in it for the kept ones. -/
theorem clear_entries (H : RemovalInv jobId s) (h : step jobId s .clear = some t) :
    ∃ newItems, s.removal = .snapshotted newItems ∧ t.puts = s.puts ∧
      ∀ id, t.entries id + countOf id s.queue = s.puts.count id + countOf id newItems := by
  obtain ⟨newItems, hr, rfl⟩ := clear_eq h
  refine ⟨newItems, hr, rfl, fun id => ?_⟩
  have hbal := H.balanced (by rw [hr]; rfl) id
  simp only [entries, pending, hr, countOf_nil] at hbal ⊢
  omega

theorem step_known (H : RemovalInv jobId s) (h : step jobId s l = some t) (hid : id ∉ t.puts) :
    t.entries id = 0 := by
  have hs : id ∉ s.puts := fun hmem => hid ((step_puts h H.nodup_puts).2 hmem)
  have hcount := List.count_eq_zero_of_not_mem hs
  by_cases hl : l = .clear
  · subst hl
    obtain ⟨newItems, hr, _, hentries⟩ := clear_entries H h
    have hkept := H.kept newItems hr id
    have := hentries id
    split at hkept <;> omega
  · have hbal := step_balance h hl id
    have hzero := H.known id hs
    have := List.count_eq_zero_of_not_mem hid
    omega

theorem step_kept (H : RemovalInv jobId s) (h : step jobId s l = some t)
    (newItems : List QueueEntry) (ht : t.removal = .snapshotted newItems) (id : JobId) :
    countOf id newItems ≤ if id = jobId then 0 else t.puts.count id := by
  cases l with
  | snapshot =>
    simp only [step] at h
    split at h
    · rename_i hr
      cases h
      cases ht
      have hbal := H.balanced (by rw [hr]; rfl) id
      simp only [entries] at hbal
      rw [countOf_filter_ne]
      split
      · exact Nat.le_refl 0
      · show _ ≤ s.puts.count id
        omega
    · cases h
  | put entry =>
    simp only [step] at h
    split at h
    · cases h
    · cases h
      refine (H.kept newItems ht id).trans ?_
      split
      · exact Nat.le_refl 0
      · exact (List.sublist_append_left _ _).count_le _
  | get =>
    simp only [step] at h
    split at h
    · cases h
    · cases h
      exact H.kept newItems ht id
  | clear | append | ret =>
    simp only [step] at h
    split at h <;> cases h
    cases ht

theorem step_removalInv (H : RemovalInv jobId s) (h : step jobId s l = some t) :
    RemovalInv jobId t where
  nodup_puts := (step_puts h H.nodup_puts).1
  known _ := step_known H h
  kept := step_kept H h
  balanced := by
    intro ht id
    obtain ⟨hs, hl⟩ := step_cleared h ht
    have hbal := step_balance h hl id
    have := H.balanced hs id
    omega

/-! ## When nothing is lost -/

/-- Every job but the cancelled one has as many entries as puts. -/
def Balanced (jobId : JobId) (s : RemovalState) : Prop :=
  ∀ id, id ≠ jobId → s.entries id = s.puts.count id

theorem noneMissing_iff_balanced (H : RemovalInv jobId s) :
    NoneMissing jobId s ↔ Balanced jobId s := by
  constructor
  · intro hnone id hid
    by_cases hmem : id ∈ s.puts
    · rw [hnone id hmem hid, List.count_eq_one_of_mem H.nodup_puts hmem]
    · rw [H.known id hmem, List.count_eq_zero_of_not_mem hmem]
  · intro hbal id hmem hid
    rw [hbal id hid, List.count_eq_one_of_mem H.nodup_puts hmem]

/-- Nothing is still to be put back when the removal is over. -/
theorem noneLost_iff_noneMissing (hover : s.removal.inProgress = false) :
    NoneLost jobId s ↔ NoneMissing jobId s := by
  have hpending : s.pending = [] := by
    cases hr : s.removal with
    | notCalled | returned => simp [pending, hr]
    | snapshotted | appending => rw [hr] at hover; cases hover
  refine forall_congr' fun id => forall_congr' fun _ => forall_congr' fun _ => ?_
  simp only [HandedOrQueued, entries, hpending, countOf_nil]
  omega

theorem balanced_step (h : step jobId s l = some t) (hl : l ≠ .clear) :
    Balanced jobId t ↔ Balanced jobId s := by
  refine forall_congr' fun id => forall_congr' fun _ => ?_
  have := step_balance h hl id
  omega

/-- Clearing keeps the balance exactly when the kept entries are those of the queue. -/
theorem balanced_clear (H : RemovalInv jobId s) (h : step jobId s .clear = some t) :
    Balanced jobId t ↔ SnapshotCurrent jobId s .clear := by
  obtain ⟨newItems, hr, hputs, hentries⟩ := clear_entries H h
  have hsnap : SnapshotCurrent jobId s .clear ↔ ∀ id, id ≠ jobId →
      (id ∈ newItems.map (·.jobId) ↔ id ∈ s.queue.map (·.jobId)) := by
    constructor
    · intro hcur
      exact hcur newItems hr
    · intro hcur newItems' hr'
      cases hr.symm.trans hr'
      exact hcur
  rw [hsnap]
  refine forall_congr' fun id => forall_congr' fun hid => ?_
  have hone := List.nodup_iff_count_le_one.mp H.nodup_puts id
  have hkept := H.kept newItems hr id
  have hbal := H.balanced (by rw [hr]; rfl) id
  have := hentries id
  rw [if_neg hid] at hkept
  rw [← countOf_pos, ← countOf_pos, hputs]
  simp only [entries] at hbal
  omega

theorem run_balanced (h : run jobId ls = some s) : RemovalInv jobId s ∧
    (Balanced jobId s ↔ AllSteps (step jobId) (SnapshotCurrent jobId) init ls) := by
  refine (exec_trace (fun ls s => run jobId ls = some s ∧ RemovalInv jobId s ∧
    (Balanced jobId s ↔ AllSteps (step jobId) (SnapshotCurrent jobId) init ls)) ?_
    ⟨rfl, init_removalInv, ?_⟩ h).2
  · rintro ls s l t ⟨hrun, H, hiff⟩ hstep
    refine ⟨exec_concat_some.mpr ⟨s, hrun, hstep⟩, step_removalInv H hstep, ?_⟩
    have hlast : AllSteps (step jobId) (SnapshotCurrent jobId) init (ls ++ [l]) ↔
        Balanced jobId s ∧ SnapshotCurrent jobId s l := by
      rw [AllSteps.append, hiff]
      refine and_congr_right fun _ => ⟨fun hl => (hl s hrun).1, fun hl u hu => ?_⟩
      cases hrun.symm.trans hu
      exact ⟨hl, fun _ _ => AllSteps.nil⟩
    rw [hlast]
    by_cases hl : l = .clear
    · subst hl
      obtain ⟨newItems, hr, _⟩ := clear_eq hstep
      have hbal : Balanced jobId s := fun id _ => H.balanced (by rw [hr]; rfl) id
      rw [balanced_clear H hstep, and_iff_right hbal]
    · have htriv : SnapshotCurrent jobId s l := by cases l <;> first | exact (hl rfl).elim | trivial
      rw [balanced_step hstep hl, and_iff_left htriv]
  · exact ⟨fun _ => AllSteps.nil, fun _ _ _ => rfl⟩

/-- In every state each other job has one entry, and once the removal is over each is handed once or
queued once, exactly when the kept entries were still those of the queue at the moment it was
cleared. -/
theorem noneLost_iff (hrun : run jobId ls = some s) :
    (NoneMissing jobId s ↔ AllSteps (step jobId) (SnapshotCurrent jobId) init ls) ∧
      (s.removal.inProgress = false →
        (NoneLost jobId s ↔ AllSteps (step jobId) (SnapshotCurrent jobId) init ls)) := by
  obtain ⟨H, hiff⟩ := run_balanced hrun
  have hmissing := (noneMissing_iff_balanced H).trans hiff
  exact ⟨hmissing, fun hover => (noneLost_iff_noneMissing hover).trans hmissing⟩

def entryOf (jobId : JobId) : QueueEntry := ⟨jobId, "example.com", "full", 7⟩

/-- The job that is being removed is handed to the worker after the snapshot. -/
def getAfterSnapshot : List RemovalLabel :=
  [.put (entryOf 1), .put (entryOf 2), .snapshot, .get]

theorem noneLost_iff_two : ∃ s, run 1 (getAfterSnapshot ++ [.clear, .append, .ret]) = some s ∧
    NoneLost 1 s ∧ s.queue = [entryOf 2] := by
  have hrun : run 1 (getAfterSnapshot ++ [.clear, .append, .ret]) =
      some ⟨[entryOf 2], .returned, [1, 2], [entryOf 1]⟩ := by decide
  refine ⟨_, hrun, ((noneLost_iff hrun).2 rfl).mpr (AllSteps.append.mpr ⟨?_, fun t ht => ?_⟩), rfl⟩
  · exact ⟨trivial, fun _ _ => ⟨trivial, fun _ _ => ⟨trivial, fun _ _ => ⟨trivial, fun _ _ =>
      trivial⟩⟩⟩⟩
  · cases ht
    refine ⟨fun newItems h id _ => ?_, fun _ _ => ⟨trivial, fun _ _ => ⟨trivial, fun _ _ =>
      trivial⟩⟩⟩
    cases h
    exact Iff.rfl

/-- A job put between the snapshot and the clearing is lost. -/
theorem put_after_snapshot_lost :
    ¬∀ jobId ls s, run jobId ls = some s → s.removal.inProgress = false → NoneLost jobId s := by
  intro hall
  have hlost := hall 1 [.put (entryOf 1), .snapshot, .put (entryOf 2), .clear, .ret] _ rfl rfl 2
    (by decide) (by decide)
  rcases hlost with ⟨h, _⟩ | ⟨_, h⟩
  · exact absurd h (by decide)
  · exact absurd h (by decide)

end RemovalState

end ThreatScanner.Scan
