import Mathlib.Algebra.GroupWithZero.Nat
import Mathlib.Data.List.Forall2
import Mathlib.Data.List.Perm.Basic

/-!
# Lists updated at one place

A list of slots is updated at one index at a time. The rules say what an update does to a count
(`countP_set_eq`, `countP_set_add`), to a sum of weights (`sum_map_set`), to the entries that a
partial function selects (`filterMap_set_eq`, `filterMap_set_perm`) and how two lists that agree
slot by slot compare (`countP_eq_of_slots`, `filterMap_sublist_map`, `exists_of_mem_left`).
-/

namespace ThreatScanner.Slots

variable {α β γ : Type*} {l : List α} {i : Nat} {a b : α}

/-! ## One update -/

theorem countP_set_eq {p : α → Bool} (h : l[i]? = some a) (hab : p b = p a) :
    (l.set i b).countP p = l.countP p := by
  induction l generalizing i with
  | nil => rfl
  | cons x xs ih =>
    cases i with
    | zero =>
      cases h
      simp only [List.set_cons_zero, List.countP_cons, hab]
    | succ i =>
      rw [List.getElem?_cons_succ] at h
      rw [List.set_cons_succ, List.countP_cons, List.countP_cons, ih h]

theorem countP_set_add {p : α → Bool} (h : l[i]? = some a) (ha : p a = false) (hb : p b) :
    (l.set i b).countP p = l.countP p + 1 := by
  induction l generalizing i with
  | nil => cases h
  | cons x xs ih =>
    cases i with
    | zero =>
      cases h
      simp [ha, hb]
    | succ i =>
      rw [List.getElem?_cons_succ] at h
      rw [List.set_cons_succ, List.countP_cons, List.countP_cons, ih h]
      omega

/-- A slot is taken out. -/
theorem countP_eraseIdx {p : α → Bool} (h : l[i]? = some a) :
    (l.eraseIdx i).countP p = l.countP p - if p a then 1 else 0 := by
  obtain ⟨hi, rfl⟩ := List.getElem?_eq_some_iff.mp h
  rw [← (List.getElem_cons_eraseIdx_perm hi).countP_eq, List.countP_cons, Nat.add_sub_cancel]

/-- An update that does not newly satisfy the predicate does not raise the count. -/
theorem countP_set_le {p : α → Bool} (hb : p b = false) :
    (l.set i b).countP p ≤ l.countP p := by
  induction l generalizing i with
  | nil => exact Nat.le_refl 0
  | cons x xs ih =>
    cases i with
    | zero =>
      rw [List.set_cons_zero, List.countP_cons, List.countP_cons, hb]
      simp
    | succ i =>
      have := ih (i := i)
      rw [List.set_cons_succ, List.countP_cons, List.countP_cons]
      omega

theorem filterMap_set_eq {f : α → Option β} (h : l[i]? = some a) (hab : f b = f a) :
    (l.set i b).filterMap f = l.filterMap f := by
  induction l generalizing i with
  | nil => rfl
  | cons x xs ih =>
    cases i with
    | zero =>
      cases h
      simp only [List.set_cons_zero, List.filterMap_cons, hab]
    | succ i =>
      rw [List.getElem?_cons_succ] at h
      rw [List.set_cons_succ, List.filterMap_cons, List.filterMap_cons, ih h]

/-- An update of a slot that was not selected selects one more entry. -/
theorem filterMap_set_perm {f : α → Option β} {y : β} (h : l[i]? = some a) (ha : f a = none)
    (hb : f b = some y) : ((l.set i b).filterMap f).Perm (l.filterMap f ++ [y]) := by
  induction l generalizing i with
  | nil => cases h
  | cons x xs ih =>
    cases i with
    | zero =>
      cases h
      rw [List.set_cons_zero, List.filterMap_cons, hb, List.filterMap_cons, ha]
      exact (List.perm_append_singleton y _).symm
    | succ i =>
      rw [List.getElem?_cons_succ] at h
      rw [List.set_cons_succ, List.filterMap_cons, List.filterMap_cons]
      cases f x with
      | none => exact ih h
      | some z => exact (ih h).cons z

/-- An update exchanges the weight of its slot. -/
theorem sum_map_set {f : α → Nat} (h : l[i]? = some a) :
    ((l.set i b).map f).sum + f a = (l.map f).sum + f b := by
  induction l generalizing i with
  | nil => cases h
  | cons x xs ih =>
    cases i with
    | zero =>
      cases h
      simp only [List.set_cons_zero, List.map_cons, List.sum_cons]
      omega
    | succ i =>
      rw [List.getElem?_cons_succ] at h
      simp only [List.set_cons_succ, List.map_cons, List.sum_cons]
      have := ih h
      omega

/-! ## Two lists of slots -/

theorem countP_eq_of_slots {m : List β} {p : α → Bool} {q : β → Bool}
    (hlength : l.length = m.length)
    (h : ∀ (i : Nat) a b, l[i]? = some a → m[i]? = some b → p a = q b) :
    l.countP p = m.countP q := by
  induction l generalizing m with
  | nil =>
    cases m with
    | nil => rfl
    | cons => cases hlength
  | cons x xs ih =>
    cases m with
    | nil => cases hlength
    | cons y ys =>
      have hhead : p x = q y := h 0 x y rfl rfl
      have htail : xs.countP p = ys.countP q :=
        ih (Nat.succ.inj hlength) fun i a b ha hb => h (i + 1) a b ha hb
      rw [List.countP_cons, List.countP_cons, hhead, htail]

/-- Entries selected slot by slot from another list come in the order of that list. -/
theorem filterMap_sublist_map {m : List β} {f : α → Option γ} {g : β → γ}
    (hlength : l.length = m.length)
    (h : ∀ (i : Nat) a b c, l[i]? = some a → m[i]? = some b → f a = some c → g b = c) :
    (l.filterMap f).Sublist (m.map g) := by
  induction l generalizing m with
  | nil => exact List.nil_sublist _
  | cons x xs ih =>
    cases m with
    | nil => cases hlength
    | cons y ys =>
      have htail := ih (Nat.succ.inj hlength) fun i a b c ha hb hc => h (i + 1) a b c ha hb hc
      rw [List.filterMap_cons, List.map_cons]
      cases hx : f x with
      | none => exact htail.cons _
      | some c =>
        rw [h 0 x y c rfl rfl hx]
        exact htail.cons_cons c

/-- What is related to an entry of the one list or of the other. -/
theorem exists_of_mem_left {m : List β} {R : α → β → Prop} (h : List.Forall₂ R l m) (ha : a ∈ l) :
    ∃ b ∈ m, R a b := by
  induction h with
  | nil => cases ha
  | cons hab _ ih =>
    rcases List.mem_cons.mp ha with rfl | ha
    · exact ⟨_, List.mem_cons_self, hab⟩
    · obtain ⟨b, hb, hab⟩ := ih ha
      exact ⟨b, List.mem_cons_of_mem _ hb, hab⟩

theorem exists_of_mem_right {m : List β} {R : α → β → Prop} {b : β} (h : List.Forall₂ R l m)
    (hb : b ∈ m) : ∃ a ∈ l, R a b :=
  exists_of_mem_left h.flip hb

end ThreatScanner.Slots
