import Mathlib.Data.List.Induction

/-!
# The first item of largest score

A loop that replaces its candidate when an item scores strictly more ends with the first item of
largest score. When the loop compares scores that are cut off at a cap, it ends with that item
still, unless an item of a larger score comes after the first one that reaches the cap.
-/

namespace ThreatScanner

variable {α γ : Type*} {score : α → Nat} {items : List α} {a b : α} {cap : Nat}

/-- The items before score less, and the items after it no more. -/
def IsFirstMax (score : α → Nat) (items : List α) (a : α) : Prop :=
  ∃ before after, items = before ++ a :: after ∧ (∀ b ∈ before, score b < score a) ∧
    ∀ b ∈ after, score b ≤ score a

theorem IsFirstMax.mem (h : IsFirstMax score items a) : a ∈ items := by
  obtain ⟨before, after, rfl, -, -⟩ := h
  exact List.mem_append_right _ List.mem_cons_self

theorem IsFirstMax.le (h : IsFirstMax score items a) (hb : b ∈ items) : score b ≤ score a := by
  obtain ⟨before, after, rfl, hbefore, hafter⟩ := h
  rcases List.mem_append.mp hb with hb | hb
  · exact Nat.le_of_lt (hbefore b hb)
  · rcases List.mem_cons.mp hb with rfl | hb
    · exact Nat.le_refl _
    · exact hafter b hb

/-- The body of the loop: the value and the score of the candidate. -/
def keepBest (score : α → Nat) (value : α → γ) (best : γ × Nat) (a : α) : γ × Nat :=
  if best.2 < score a then (value a, score a) else best

/-- The loop leaves its start alone when no item scores, and otherwise ends with the first item of
largest score. -/
theorem foldl_keepBest (score : α → Nat) (value : α → γ) (start : γ) (items : List α) :
    (items.foldl (keepBest score value) (start, 0) = (start, 0) ∧ ∀ a ∈ items, score a = 0) ∨
      ∃ a, IsFirstMax score items a ∧ 0 < score a ∧
        items.foldl (keepBest score value) (start, 0) = (value a, score a) := by
  induction items using List.reverseRecOn with
  | nil => exact .inl ⟨rfl, nofun⟩
  | append_singleton items b ih =>
    rw [List.foldl_append, List.foldl_cons, List.foldl_nil]
    rcases ih with ⟨hstart, hzero⟩ | ⟨a, hmax, hpos, hbest⟩
    · rw [hstart, keepBest]
      split
      · next hlt =>
        refine .inr ⟨b, ⟨items, [], rfl, fun c hc => ?_, nofun⟩, hlt, rfl⟩
        rw [hzero c hc]
        exact hlt
      · next hnot =>
        refine .inl ⟨rfl, fun c hc => ?_⟩
        rcases List.mem_append.mp hc with hc | hc
        · exact hzero c hc
        · rw [List.mem_singleton.mp hc]
          exact Nat.le_zero.mp (Nat.not_lt.mp hnot)
    · rw [hbest, keepBest]
      split
      · next hlt =>
        refine .inr ⟨b, ⟨items, [], rfl, fun c hc => ?_, nofun⟩, Nat.lt_trans hpos hlt, rfl⟩
        exact Nat.lt_of_le_of_lt (hmax.le hc) hlt
      · next hnot =>
        obtain ⟨before, after, rfl, hbefore, hafter⟩ := hmax
        refine .inr ⟨a, ⟨before, after ++ [b], by simp, hbefore, fun c hc => ?_⟩, hpos, rfl⟩
        rcases List.mem_append.mp hc with hc | hc
        · exact hafter c hc
        · rw [List.mem_singleton.mp hc]
          exact Nat.not_lt.mp hnot

/-- The first item of largest score among scores that are cut off at a cap is the first item of
largest score exactly when the first item that reaches the cap is not surpassed. -/
theorem isFirstMax_of_cap (h : IsFirstMax (fun b => min (score b) cap) items a) :
    IsFirstMax score items a ↔ ∀ c, items.find? (fun b => cap ≤ score b) = some c →
      ∀ b ∈ items, score b ≤ score c := by
  obtain ⟨before, after, rfl, hbefore, hafter⟩ := h
  have hlow : ∀ b ∈ before, score b < cap ∧ score b < score a := by
    intro b hb
    have hlt : min (score b) cap < min (score a) cap := hbefore b hb
    omega
  by_cases hcap : cap ≤ score a
  · have hfind : (before ++ a :: after).find? (fun b => cap ≤ score b) = some a := by
      refine List.find?_eq_some_iff_append.mpr ⟨by simpa using hcap, before, after, rfl, ?_⟩
      intro b hb
      simpa using (hlow b hb).1
    refine ⟨fun hmax c hc b hb => ?_, fun hall => ⟨before, after, rfl, fun b hb => (hlow b hb).2,
      fun b hb => ?_⟩⟩
    · cases hfind.symm.trans hc
      exact hmax.le hb
    · exact hall a hfind b (List.mem_append_right _ (List.mem_cons_of_mem _ hb))
  · have hrest : ∀ b ∈ after, score b ≤ score a := by
      intro b hb
      have hle : min (score b) cap ≤ min (score a) cap := hafter b hb
      omega
    refine iff_of_true ⟨before, after, rfl, fun b hb => (hlow b hb).2, hrest⟩ fun c hc => ?_
    have hreach : cap ≤ score c := by simpa using List.find?_some hc
    rcases List.mem_append.mp (List.mem_of_find?_eq_some hc) with hmem | hmem
    · exact absurd hreach (Nat.not_le.mpr (hlow c hmem).1)
    · rcases List.mem_cons.mp hmem with rfl | hmem
      · exact absurd hreach hcap
      · exact absurd (Nat.le_trans hreach (hrest c hmem)) hcap

end ThreatScanner
