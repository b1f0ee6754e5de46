import Mathlib.Data.List.Basic

/-!
# A stable sort by a rank

`sortBy rank items` is a stable sort by a number. It keeps the order of the items of each rank
(`filter_sortBy`), and so it puts the items of the ranks that occur one rank behind the other
(`sortBy_eq_flatMap`).
-/

namespace ThreatScanner.Buckets

variable {α : Type*}

/-- `sorted(items, key=rank)`. -/
def sortBy (rank : α → ℕ) (items : List α) : List α :=
  items.mergeSort fun a b => decide (rank a ≤ rank b)

variable {rank : α → ℕ} {items : List α} {a : α} {k : ℕ}

theorem rank_trans (a b c : α) : decide (rank a ≤ rank b) = true →
    decide (rank b ≤ rank c) = true → decide (rank a ≤ rank c) = true := by
  simp only [decide_eq_true_eq]
  exact Nat.le_trans

theorem rank_total (a b : α) : (decide (rank a ≤ rank b) || decide (rank b ≤ rank a)) = true := by
  simp only [Bool.or_eq_true, decide_eq_true_eq]
  exact Nat.le_total _ _

theorem pairwise_sortBy : (sortBy rank items).Pairwise fun a b => rank a ≤ rank b :=
  (List.pairwise_mergeSort rank_trans rank_total items).imp of_decide_eq_true

theorem mem_sortBy : a ∈ sortBy rank items ↔ a ∈ items := List.mem_mergeSort

/-- A new first item comes before those of its rank. -/
theorem sortBy_cons (a : α) (items : List α) : ∃ l₁ l₂, sortBy rank (a :: items) = l₁ ++ a :: l₂ ∧
    sortBy rank items = l₁ ++ l₂ ∧ ∀ b ∈ l₁, rank b < rank a := by
  obtain ⟨l₁, l₂, hcons, hitems, hbefore⟩ := List.mergeSort_cons rank_trans rank_total a items
  refine ⟨l₁, l₂, hcons, hitems, fun b hb => ?_⟩
  simpa using hbefore b hb

/-- The items of one rank stay in their order. -/
theorem filter_sortBy (k : ℕ) :
    (sortBy rank items).filter (rank · = k) = items.filter (rank · = k) := by
  induction items with
  | nil => simp [sortBy]
  | cons a items ih =>
    obtain ⟨l₁, l₂, hcons, hitems, hbefore⟩ := @sortBy_cons _ rank a items
    rw [hitems, List.filter_append] at ih
    rw [hcons, List.filter_append]
    by_cases hk : rank a = k
    · have hnone : l₁.filter (rank · = k) = [] := by
        refine List.filter_eq_nil_iff.mpr fun b hb => ?_
        have hlt := hbefore b hb
        simp only [decide_eq_true_eq]
        omega
      rw [hnone, List.nil_append] at ih ⊢
      rw [List.filter_cons, List.filter_cons, ih]
    · simp only [List.filter_cons, hk, decide_false, Bool.false_eq_true, if_false, ih]

/-- A list that is in order by rank is its ranks one behind the other. -/
theorem eq_flatMap_of_pairwise {ranks : List ℕ} (hitems : items.Pairwise fun a b => rank a ≤ rank b)
    (hranks : ranks.Pairwise (· < ·)) (hall : ∀ a ∈ items, rank a ∈ ranks) :
    items = ranks.flatMap fun k => items.filter (rank · = k) := by
  induction items with
  | nil => simp
  | cons a items ih =>
    obtain ⟨hfirst, hitems⟩ := List.pairwise_cons.mp hitems
    have ih := ih hitems fun b hb => hall b (List.mem_cons_of_mem a hb)
    obtain ⟨low, high, rfl⟩ := List.append_of_mem (hall a List.mem_cons_self)
    obtain ⟨-, hhigh, hlow⟩ := List.pairwise_append.mp hranks
    have hbelow : ∀ k ∈ low, ∀ b ∈ a :: items, ¬ decide (rank b = k) = true := by
      intro k hk b hb
      have hlt : k < rank a := hlow k hk (rank a) List.mem_cons_self
      have hle : rank a ≤ rank b := by
        rcases List.mem_cons.mp hb with rfl | hb
        · exact Nat.le_refl _
        · exact hfirst b hb
      simp only [decide_eq_true_eq]
      omega
    have hnone : ∀ bs ⊆ a :: items,
        (low.flatMap fun k => bs.filter (rank · = k)) = [] := fun bs hbs =>
      List.flatMap_eq_nil_iff.mpr fun k hk =>
        List.filter_eq_nil_iff.mpr fun b hb => hbelow k hk b (hbs hb)
    have habove : (high.flatMap fun k => (a :: items).filter (rank · = k)) =
        high.flatMap fun k => items.filter (rank · = k) := by
      refine List.flatMap_congr fun k hk => ?_
      have hne : rank a ≠ k := Nat.ne_of_lt ((List.pairwise_cons.mp hhigh).1 k hk)
      rw [List.filter_cons, if_neg (by simpa using hne)]
    rw [List.flatMap_append, List.flatMap_cons, hnone _ (List.subset_cons_self _ _),
      List.nil_append] at ih
    rw [List.flatMap_append, List.flatMap_cons, hnone _ (List.Subset.refl _), List.nil_append,
      habove, List.filter_cons, if_pos (decide_eq_true rfl), List.cons_append, ← ih]

/-- A stable sort collects the items of each rank. -/
theorem sortBy_eq_flatMap {ranks : List ℕ} (hranks : ranks.Pairwise (· < ·))
    (hall : ∀ a ∈ items, rank a ∈ ranks) :
    sortBy rank items = ranks.flatMap fun k => items.filter (rank · = k) := by
  have hsorted := eq_flatMap_of_pairwise pairwise_sortBy hranks
    fun a ha => hall a (mem_sortBy.mp ha)
  rw [hsorted]
  exact List.flatMap_congr fun k _ => filter_sortBy k

end ThreatScanner.Buckets
