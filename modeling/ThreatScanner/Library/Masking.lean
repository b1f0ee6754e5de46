import Mathlib.Data.List.Infix

/-!
# Replacing a word by a mask

`replace` puts one word in the place of another wherever that occurs, from left to right. When the
new word is a filler between a head and a tail, what comes out is a row of stretches with the
filler between them. If the filler is a run of dots, a word that neither begins nor ends with a dot
and has no two of them in a row can be read there exactly when it stands in one of the stretches.
-/

namespace ThreatScanner

variable {α : Type*} [DecidableEq α]

/-- What is left of replacing `old` by `new`, the next `skip` symbols being those of an occurrence
of `old` that has been replaced. -/
def replaceFrom (old new : List α) : Nat → List α → List α
  | _, [] => []
  | skip + 1, _ :: s => replaceFrom old new skip s
  | 0, c :: s =>
    if old <+: c :: s then new ++ replaceFrom old new (old.length - 1) s
    else c :: replaceFrom old new 0 s

/-- `s.replace(old, new)` for an `old` that is not empty. -/
def replace (s old new : List α) : List α := replaceFrom old new 0 s

/-- The stretches of a text between the occurrences of `old`, each with `tail` before it and `head`
after it where such an occurrence was. -/
def stretchesFrom (old head tail : List α) : Nat → List α → List (List α)
  | _, [] => [[]]
  | skip + 1, _ :: s => stretchesFrom old head tail skip s
  | 0, c :: s =>
    if old <+: c :: s then
      head :: (stretchesFrom old head tail (old.length - 1) s).modifyHead (tail ++ ·)
    else (stretchesFrom old head tail 0 s).modifyHead (c :: ·)

def stretches (s old head tail : List α) : List (List α) := stretchesFrom old head tail 0 s

section Stretches
variable {old head tail : List α}

omit [DecidableEq α] in
theorem modifyHead_ne_nil {f : List α → List α} {rows : List (List α)} (h : rows ≠ []) :
    rows.modifyHead f ≠ [] := by
  cases rows with
  | nil => exact absurd rfl h
  | cons row rows => exact List.cons_ne_nil _ _

theorem stretchesFrom_ne_nil (skip : Nat) (s : List α) :
    stretchesFrom old head tail skip s ≠ [] := by
  induction s generalizing skip with
  | nil => cases skip <;> exact List.cons_ne_nil _ _
  | cons c s ih =>
    cases skip with
    | succ skip => exact ih skip
    | zero =>
      rw [stretchesFrom]
      split
      · exact List.cons_ne_nil _ _
      · exact modifyHead_ne_nil (ih 0)

omit [DecidableEq α] in
/-- What the first row begins with, the whole text begins with. -/
theorem intercalate_modifyHead {filler w : List α} {rows : List (List α)} (h : rows ≠ []) :
    filler.intercalate (rows.modifyHead (w ++ ·)) = w ++ filler.intercalate rows := by
  cases rows with
  | nil => exact absurd rfl h
  | cons row rows =>
    cases rows with
    | nil => simp
    | cons row' rows => simp [List.intercalate_cons_cons]

theorem replaceFrom_eq (filler : List α) (skip : Nat) (s : List α) :
    replaceFrom old (head ++ filler ++ tail) skip s =
      filler.intercalate (stretchesFrom old head tail skip s) := by
  induction s generalizing skip with
  | nil => cases skip <;> simp [replaceFrom, stretchesFrom]
  | cons c s ih =>
    cases skip with
    | succ skip => exact ih skip
    | zero =>
      rw [replaceFrom, stretchesFrom]
      split
      · have hne : stretchesFrom old head tail (old.length - 1) s ≠ [] := stretchesFrom_ne_nil _ s
        rw [List.intercalate_cons_of_ne_nil (modifyHead_ne_nil hne), intercalate_modifyHead hne,
          ih]
        simp only [List.append_assoc]
      · have hne : stretchesFrom old head tail 0 s ≠ [] := stretchesFrom_ne_nil 0 s
        have hcons : (fun row : List α => c :: row) = ([c] ++ ·) := rfl
        rw [hcons, intercalate_modifyHead hne, ih]
        rfl

/-- Masking leaves the stretches with the filler between them. -/
theorem replace_eq (s old head filler tail : List α) :
    replace s old (head ++ filler ++ tail) = filler.intercalate (stretches s old head tail) :=
  replaceFrom_eq filler 0 s

end Stretches

/-! ## What can be read across the filler -/

/-- The word cannot have part of a run of dots in it. -/
structure Clear (dot : α) (word : List α) : Prop where
  head : word.head? ≠ some dot
  last : word.getLast? ≠ some dot
  run : ¬ [dot, dot] <:+: word

/-- The word stands in one of the rows and ends within the first `n` symbols, when there are `gap`
symbols between one row and the next. -/
def StandsWithin (gap : Nat) (word : List α) : Nat → List (List α) → Prop
  | _, [] => False
  | n, row :: rows => word <:+: row.take n ∨ StandsWithin gap word (n - (row.length + gap)) rows

section Clear
variable {dot : α} {word : List α} {n : Nat}

omit [DecidableEq α]

/-- Whatever word stands in one of the rows can be read when a filler is put between them. -/
theorem infix_of_standsWithin {filler : List α} {rows : List (List α)}
    (h : StandsWithin filler.length word n rows) :
    word <:+: (filler.intercalate rows).take n := by
  induction rows generalizing n with
  | nil => cases h
  | cons row rows ih =>
    by_cases hrows : rows = []
    · subst hrows
      exact List.intercalate_singleton ▸ h.resolve_right id
    · rw [List.intercalate_cons_of_ne_nil hrows, List.append_assoc, List.take_append,
        List.take_append]
      rcases h with h | h
      · exact List.infix_append_of_infix_left h
      · rw [Nat.sub_add_eq] at h
        exact List.infix_append_of_infix_right (List.infix_append_of_infix_right (ih h))

theorem Clear.exists_ne_right {w v : List α} (h : Clear dot (w ++ v)) (hv : v ≠ []) :
    ∃ a ∈ v, a ≠ dot := by
  refine ⟨v.getLast hv, List.getLast_mem hv, fun heq => h.last ?_⟩
  rw [List.getLast?_append_of_ne_nil w hv, List.getLast?_eq_some_getLast hv, heq]

theorem Clear.exists_ne_left {w v : List α} (h : Clear dot (w ++ v)) (hw : w ≠ []) :
    ∃ a ∈ w, a ≠ dot := by
  refine ⟨w.head hw, List.head_mem hw, fun heq => h.head ?_⟩
  rw [List.head?_append_of_ne_nil w hw, List.head?_eq_some_head hw, heq]

/-- A clear word does not reach into a run of dots. -/
theorem Clear.ne_dots_append {k : Nat} {w z y after : List α} (h : Clear dot (w ++ z))
    (hz : z ≠ []) (hk : k < 2 → after = []) : List.replicate k dot ++ after ≠ z ++ y := by
  intro hdots
  rcases List.append_eq_append_iff.mp hdots with ⟨u, rfl, hafter⟩ | ⟨u, hu, -⟩
  · by_cases hlt : k < 2
    · have hu : u = [] := (List.append_eq_nil_iff.mp (hafter ▸ hk hlt)).1
      obtain ⟨a, ha, hadot⟩ := h.exists_ne_right hz
      rw [hu, List.append_nil] at ha
      exact hadot (List.eq_of_mem_replicate ha)
    · obtain ⟨j, rfl⟩ := Nat.exists_eq_add_of_le (Nat.not_lt.mp hlt)
      refine h.run ⟨w, List.replicate j dot ++ u, ?_⟩
      rw [← List.replicate_append_replicate]
      simp [List.replicate_succ]
  · obtain ⟨a, ha, hadot⟩ := h.exists_ne_right hz
    exact hadot (List.eq_of_mem_replicate (hu ▸ List.mem_append_left u ha))

/-- A run of dots between two texts hides nothing of a clear word and adds nothing to it, if it is
long enough or nothing comes after it. -/
theorem infix_dots_iff {k : Nat} {before after : List α} (h : Clear dot word) (hne : word ≠ [])
    (hk : k < 2 → after = []) :
    word <:+: before ++ (List.replicate k dot ++ after) ↔ word <:+: before ∨ word <:+: after := by
  constructor
  · rintro ⟨x, y, hxy⟩
    rw [List.append_assoc] at hxy
    rcases List.append_eq_append_iff.mp hxy with ⟨w, hbefore, hw⟩ | ⟨w, -, hw⟩
    · -- the word begins in `before`
      rcases List.append_eq_append_iff.mp hw with ⟨z, hz, -⟩ | ⟨z, rfl, hz⟩
      · exact .inl ⟨x, z, by rw [hbefore, hz, List.append_assoc]⟩
      · by_cases hnil : z = []
        · exact .inl ⟨x, [], by rw [hbefore, hnil, List.append_nil, List.append_nil]⟩
        · exact absurd hz (h.ne_dots_append hnil hk)
    · rcases List.append_eq_append_iff.mp hw with ⟨z, -, hafter⟩ | ⟨z, hdots, hz⟩
      · exact .inr ⟨z, y, by rw [hafter, List.append_assoc]⟩
      · -- the word begins in the run
        have hz' : ∀ a ∈ z, a = dot := fun a ha =>
          List.eq_of_mem_replicate (hdots ▸ List.mem_append_right w ha)
        rcases List.append_eq_append_iff.mp hz with ⟨u, rfl, -⟩ | ⟨u, rfl, hu⟩
        · obtain ⟨a, ha, hadot⟩ := (List.append_nil word ▸ h).exists_ne_left hne
          exact absurd (hz' a (List.mem_append_left u ha)) hadot
        · by_cases hnil : z = []
          · exact .inr ⟨[], y, by rw [hu, hnil, List.nil_append, List.nil_append]⟩
          · obtain ⟨a, ha, hadot⟩ := h.exists_ne_left hnil
            exact absurd (hz' a ha) hadot
  · rintro (h | h)
    · exact List.infix_append_of_infix_left h
    · exact List.infix_append_of_infix_right (List.infix_append_of_infix_right h)

/-- With dots between them, a clear word is read where it stands in one of the rows. -/
theorem infix_take_intercalate_iff {gap : Nat} (hgap : 2 ≤ gap) (h : Clear dot word)
    (hne : word ≠ []) (n : Nat) (rows : List (List α)) :
    word <:+: ((List.replicate gap dot).intercalate rows).take n ↔
      StandsWithin gap word n rows := by
  induction rows generalizing n with
  | nil => simp [StandsWithin, hne]
  | cons row rows ih =>
    by_cases hrows : rows = []
    · simp [StandsWithin, hrows]
    · have hk : min (n - row.length) gap < 2 →
          ((List.replicate gap dot).intercalate rows).take (n - row.length - gap) = [] := by
        intro hlt
        have hzero : n - row.length - gap = 0 := by omega
        rw [hzero, List.take_zero]
      rw [List.intercalate_cons_of_ne_nil hrows, List.append_assoc, List.take_append,
        List.take_append, List.take_replicate, List.length_replicate, infix_dots_iff h hne hk, ih,
        Nat.sub_sub]
      rfl

end Clear

end ThreatScanner
