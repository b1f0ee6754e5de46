import Mathlib.Algebra.BigOperators.Group.List.Basic
import Mathlib.Data.List.Nodup
import Mathlib.Data.List.Sublists

/-!
# Keeping the first item of each key

`distinctBy key items` walks a list once, remembers the keys it has seen and keeps an item when its
key is new. A filter commutes with it as soon as the filter cannot tell two items of one key apart,
so what survives of one kind of items does not depend on the items of other kinds.
-/

namespace ThreatScanner

variable {α κ : Type*} [DecidableEq κ] {key : α → κ} {seen : List κ} {items : List α} {a : α}

/-- The walk, with the keys seen so far. -/
def distinctFrom (key : α → κ) : List κ → List α → List α
  | _, [] => []
  | seen, a :: items =>
    if key a ∈ seen then distinctFrom key seen items
    else a :: distinctFrom key (key a :: seen) items

/-- The items whose key no earlier item has. -/
def distinctBy (key : α → κ) (items : List α) : List α := distinctFrom key [] items

theorem distinctFrom_sublist : (distinctFrom key seen items).Sublist items := by
  induction items generalizing seen with
  | nil => exact .slnil
  | cons a items ih =>
    simp only [distinctFrom]
    split
    · exact ih.cons a
    · exact ih.cons_cons a

theorem distinctBy_sublist : (distinctBy key items).Sublist items := distinctFrom_sublist

theorem mem_of_mem_distinctBy (h : a ∈ distinctBy key items) : a ∈ items :=
  distinctBy_sublist.subset h

/-- Every key is that of a kept item, unless it was seen before the walk. -/
theorem exists_mem_distinctFrom (h : a ∈ items) (hseen : key a ∉ seen) :
    ∃ b ∈ distinctFrom key seen items, key b = key a := by
  induction items generalizing seen with
  | nil => cases h
  | cons c items ih =>
    simp only [distinctFrom]
    split
    · next hc =>
      rcases List.mem_cons.mp h with rfl | h
      · exact absurd hc hseen
      · exact ih h hseen
    · next hc =>
      by_cases heq : key a = key c
      · exact ⟨c, List.mem_cons_self, heq.symm⟩
      · have hmem : a ∈ items := by
          rcases List.mem_cons.mp h with rfl | h
          · exact absurd rfl heq
          · exact h
        have hnew : key a ∉ key c :: seen := by simp [heq, hseen]
        obtain ⟨b, hb, hkey⟩ := ih hmem hnew
        exact ⟨b, List.mem_cons_of_mem _ hb, hkey⟩

theorem exists_mem_distinctBy (h : a ∈ items) : ∃ b ∈ distinctBy key items, key b = key a :=
  exists_mem_distinctFrom h List.not_mem_nil

theorem distinctBy_eq_nil : distinctBy key items = [] ↔ items = [] := by
  constructor
  · intro h
    refine List.eq_nil_iff_forall_not_mem.mpr fun a ha => ?_
    have hkept : ∃ b ∈ distinctBy key items, key b = key a := exists_mem_distinctBy ha
    rw [h] at hkept
    obtain ⟨b, hb, _⟩ := hkept
    cases hb
  · rintro rfl
    rfl

/-- The same keys occur before and after. -/
theorem exists_key_distinctBy {k : κ} :
    (∃ b ∈ distinctBy key items, key b = k) ↔ ∃ b ∈ items, key b = k := by
  constructor
  · rintro ⟨b, hb, hkey⟩
    exact ⟨b, mem_of_mem_distinctBy hb, hkey⟩
  · rintro ⟨b, hb, rfl⟩
    exact exists_mem_distinctBy hb

/-- The kept items have new and pairwise different keys. -/
theorem distinctFrom_keys (seen : List κ) (items : List α) :
    (∀ a ∈ distinctFrom key seen items, key a ∉ seen) ∧
      ((distinctFrom key seen items).map key).Nodup := by
  induction items generalizing seen with
  | nil => exact ⟨nofun, List.nodup_nil⟩
  | cons a items ih =>
    simp only [distinctFrom]
    split
    · exact ih seen
    · next hnew =>
      obtain ⟨hseen, hnodup⟩ := ih (key a :: seen)
      refine ⟨List.forall_mem_cons.mpr ⟨hnew, fun b hb => ?_⟩, List.nodup_cons.mpr ⟨?_, hnodup⟩⟩
      · exact fun hmem => hseen b hb (List.mem_cons_of_mem _ hmem)
      · intro hmem
        obtain ⟨b, hb, hkey⟩ := List.mem_map.mp hmem
        exact hseen b hb (hkey ▸ List.mem_cons_self)

theorem distinctBy_keys_nodup : ((distinctBy key items).map key).Nodup :=
  (distinctFrom_keys [] items).2

/-- What is kept of a key is its first item. -/
theorem mem_distinctFrom : a ∈ distinctFrom key seen items ↔
    key a ∉ seen ∧ (items.find? fun b => key b = key a) = some a := by
  induction items generalizing seen with
  | nil => simp [distinctFrom]
  | cons c items ih =>
    simp only [distinctFrom, List.find?_cons]
    by_cases hkey : key c = key a
    · simp only [hkey, decide_true, Option.some.injEq]
      split
      · next hmem => simp [ih, hmem]
      · next hmem => simp [ih, hmem, eq_comm]
    · simp only [hkey, decide_false]
      split
      · exact ih
      · have hne : a ≠ c := fun heq => hkey (heq ▸ rfl)
        have hkey' : key a ≠ key c := fun heq => hkey heq.symm
        simp [ih, hne, hkey']

/-- Items with pairwise different keys, none of them seen, are all kept. -/
theorem distinctFrom_eq_self (h : (items.map key).Nodup) (hseen : ∀ a ∈ items, key a ∉ seen) :
    distinctFrom key seen items = items := by
  induction items generalizing seen with
  | nil => rfl
  | cons a items ih =>
    rw [List.map_cons, List.nodup_cons] at h
    rw [distinctFrom, if_neg (hseen a List.mem_cons_self), ih h.2]
    intro b hb hmem
    rcases List.mem_cons.mp hmem with heq | hmem
    · exact h.1 (heq ▸ List.mem_map_of_mem hb)
    · exact hseen b (List.mem_cons_of_mem _ hb) hmem

theorem distinctBy_eq_self (h : (items.map key).Nodup) : distinctBy key items = items :=
  distinctFrom_eq_self h fun _ _ => List.not_mem_nil

theorem distinctFrom_congr {key' : α → κ} (h : ∀ a ∈ items, key a = key' a) :
    distinctFrom key seen items = distinctFrom key' seen items := by
  induction items generalizing seen with
  | nil => rfl
  | cons a items ih =>
    obtain ⟨ha, hitems⟩ := List.forall_mem_cons.mp h
    simp only [distinctFrom, ha, ih hitems]

/-- A key that tells fewer items apart keeps fewer. -/
theorem distinctFrom_sublist_of_finer {μ : Type*} [DecidableEq μ] {key' : α → μ} {seen' : List μ}
    (hfiner : ∀ a ∈ items, ∀ b ∈ items, key a = key b → key' a = key' b)
    (hseen : ∀ a ∈ items, key a ∈ seen → key' a ∈ seen') :
    (distinctFrom key' seen' items).Sublist (distinctFrom key seen items) := by
  induction items generalizing seen seen' with
  | nil => exact .slnil
  | cons c items ih =>
    have hrest : ∀ a ∈ items, ∀ b ∈ items, key a = key b → key' a = key' b := fun a ha b hb =>
      hfiner a (List.mem_cons_of_mem _ ha) b (List.mem_cons_of_mem _ hb)
    have hhead : ∀ a ∈ items, key a = key c → key' a = key' c := fun a ha =>
      hfiner a (List.mem_cons_of_mem _ ha) c List.mem_cons_self
    have hold : ∀ a ∈ items, key a ∈ seen → key' a ∈ seen' := fun a ha =>
      hseen a (List.mem_cons_of_mem _ ha)
    simp only [distinctFrom]
    by_cases hc : key c ∈ seen
    · rw [if_pos hc, if_pos (hseen c List.mem_cons_self hc)]
      exact ih hrest hold
    rw [if_neg hc]
    by_cases hc' : key' c ∈ seen'
    · rw [if_pos hc']
      refine (ih hrest fun a ha hmem => ?_).cons c
      rcases List.mem_cons.mp hmem with hkey | hmem
      · exact hhead a ha hkey ▸ hc'
      · exact hold a ha hmem
    · rw [if_neg hc']
      refine (ih hrest fun a ha hmem => ?_).cons_cons c
      rcases List.mem_cons.mp hmem with hkey | hmem
      · exact List.mem_cons.mpr (.inl (hhead a ha hkey))
      · exact List.mem_cons_of_mem _ (hold a ha hmem)

theorem distinctBy_sublist_of_finer {μ : Type*} [DecidableEq μ] {key' : α → μ}
    (hfiner : ∀ a ∈ items, ∀ b ∈ items, key a = key b → key' a = key' b) :
    (distinctBy key' items).Sublist (distinctBy key items) :=
  distinctFrom_sublist_of_finer hfiner fun _ _ hmem => absurd hmem List.not_mem_nil

/-- Keys that tell the same items apart keep the same. -/
theorem distinctBy_congr {μ : Type*} [DecidableEq μ] {key' : α → μ}
    (h : ∀ a ∈ items, ∀ b ∈ items, key a = key b ↔ key' a = key' b) :
    distinctBy key items = distinctBy key' items :=
  (distinctBy_sublist_of_finer fun a ha b hb => (h a ha b hb).mpr).antisymm
    (distinctBy_sublist_of_finer fun a ha b hb => (h a ha b hb).mp)

theorem distinctFrom_map {β : Type*} {f : β → α} {items : List β} :
    distinctFrom key seen (items.map f) = (distinctFrom (key ∘ f) seen items).map f := by
  induction items generalizing seen with
  | nil => rfl
  | cons b items ih =>
    simp only [List.map_cons, distinctFrom, Function.comp_apply]
    split
    · exact ih
    · rw [List.map_cons, ih]

theorem distinctBy_map {β : Type*} {f : β → α} {items : List β} :
    distinctBy key (items.map f) = (distinctBy (key ∘ f) items).map f :=
  distinctFrom_map

/-- Keys may be encoded. -/
theorem distinctFrom_comp {μ : Type*} [DecidableEq μ] {enc : κ → μ} (h : Function.Injective enc) :
    distinctFrom (enc ∘ key) (seen.map enc) items = distinctFrom key seen items := by
  induction items generalizing seen with
  | nil => rfl
  | cons a items ih =>
    have hseen : enc (key a) ∈ seen.map enc ↔ key a ∈ seen := List.mem_map_of_injective h
    simp only [distinctFrom, Function.comp_apply, hseen, ← List.map_cons, ih]

theorem distinctBy_comp {μ : Type*} [DecidableEq μ] {enc : κ → μ} (h : Function.Injective enc) :
    distinctBy (enc ∘ key) items = distinctBy key items := by
  have hseen : distinctFrom (enc ∘ key) (([] : List κ).map enc) items = distinctFrom key [] items :=
    distinctFrom_comp h
  exact hseen

theorem distinctBy_distinctBy : distinctBy key (distinctBy key items) = distinctBy key items :=
  distinctBy_eq_self distinctBy_keys_nodup

/-- The kept items are those at some positions, in order, and every item is of the same kind as the
item at one of these positions, which does not come after it. -/
def FirstOfEach (same : α → α → Prop) (items kept : List α) : Prop :=
  ∃ positions : List ℕ, positions.Pairwise (· < ·) ∧
    positions.map (items[·]?) = kept.map some ∧
    ∀ (i : ℕ) (a : α), items[i]? = some a →
      ∃ j ∈ positions, j ≤ i ∧ ∃ b, items[j]? = some b ∧ same b a

theorem FirstOfEach.imp {same same' : α → α → Prop} {kept : List α}
    (h : FirstOfEach same items kept)
    (himp : ∀ a ∈ items, ∀ b ∈ items, same b a → same' b a) : FirstOfEach same' items kept := by
  obtain ⟨positions, hsorted, hkept, hfirst⟩ := h
  refine ⟨positions, hsorted, hkept, fun i a hi => ?_⟩
  obtain ⟨j, hj, hle, b, hb, hsame⟩ := hfirst i a hi
  exact ⟨j, hj, hle, b, hb, himp a (List.mem_of_getElem? hi) b (List.mem_of_getElem? hb) hsame⟩

theorem firstOfEach_distinctBy (key : α → κ) (items : List α) :
    FirstOfEach (fun b a => key b = key a) items (distinctBy key items) := by
  have hat : ∀ e ∈ items.zipIdx, items[e.2]? = some e.1 := fun e he =>
    List.mem_zipIdx_iff_getElem?.mp he
  refine ⟨(distinctBy (key ∘ Prod.fst) items.zipIdx).map Prod.snd, ?_, ?_, fun i a hi => ?_⟩
  · refine List.Pairwise.sublist (distinctBy_sublist.map _) ?_
    rw [List.zipIdx_map_snd]
    exact List.pairwise_lt_range'
  · conv_rhs => rw [← List.zipIdx_map_fst 0 items, distinctBy_map]
    rw [List.map_map, List.map_map]
    exact List.map_congr_left fun e he => hat e (mem_of_mem_distinctBy he)
  · -- the first item of the key, with its position
    have hmem : (a, i) ∈ items.zipIdx := List.mem_zipIdx_iff_getElem?.mpr hi
    obtain ⟨e, he⟩ := Option.isSome_iff_exists.mp
      (List.find?_isSome (p := fun e => decide (key e.1 = key a)).mpr
        ⟨(a, i), hmem, decide_eq_true rfl⟩)
    have hkey : key e.1 = key a := by simpa using List.find?_some he
    have hkept : e ∈ distinctBy (key ∘ Prod.fst) items.zipIdx := by
      refine mem_distinctFrom.mpr ⟨List.not_mem_nil, ?_⟩
      simpa only [Function.comp_apply, hkey] using he
    refine ⟨e.2, List.mem_map_of_mem hkept, ?_, e.1, hat e (List.mem_of_find?_eq_some he), hkey⟩
    obtain ⟨-, j, hj, hej, hbefore⟩ := List.find?_eq_some_iff_getElem.mp he
    have hsnd : e.2 = j := by rw [← hej, List.getElem_zipIdx, Nat.zero_add]
    by_contra hlt
    have hi' : i < items.zipIdx.length := (List.length_zipIdx (l := items)).symm ▸
      (List.getElem?_eq_some_iff.mp hi).1
    have hnot := hbefore i (by omega)
    rw [List.getElem_zipIdx, (List.getElem?_eq_some_iff.mp hi).2] at hnot
    simp at hnot

/-! ## Filters that read the key -/

/-- Seen keys that no kept item can have make no difference. -/
theorem distinctFrom_filter {p : α → Bool} {q : κ → Bool} (hp : ∀ a, p a = q (key a)) :
    (distinctFrom key seen items).filter p = distinctFrom key (seen.filter q) (items.filter p) := by
  induction items generalizing seen with
  | nil => rfl
  | cons a items ih =>
    by_cases ha : p a
    · have hq : q (key a) = true := hp a ▸ ha
      have hmem : key a ∈ seen.filter q ↔ key a ∈ seen := by simp [List.mem_filter, hq]
      simp only [List.filter_cons, ha, if_true, distinctFrom, hmem]
      split
      · exact ih
      · rw [List.filter_cons, if_pos ha, ih, List.filter_cons, if_pos hq]
    · have hq : ¬ q (key a) = true := hp a ▸ ha
      simp only [List.filter_cons, ha, distinctFrom]
      split
      · exact ih
      · simp only [List.filter_cons, ha, if_neg hq, ih, Bool.false_eq_true, if_false]

/-- A filter that reads an item's key only may be taken before or after. -/
theorem filter_distinctBy {p : α → Bool} {q : κ → Bool} (hp : ∀ a, p a = q (key a)) :
    (distinctBy key items).filter p = distinctBy key (items.filter p) :=
  distinctFrom_filter hp

/-! ## The item kept of one key -/

/-- What is kept of one key. -/
theorem filter_key_distinctFrom (k : κ) (hk : k ∉ seen) :
    (distinctFrom key seen items).filter (fun b => key b = k) =
      (items.find? fun b => key b = k).toList := by
  induction items generalizing seen with
  | nil => rfl
  | cons a items ih =>
    by_cases ha : key a = k
    · subst ha
      have hrest : (distinctFrom key (key a :: seen) items).filter
          (fun b => key b = key a) = [] := by
        refine List.filter_eq_nil_iff.mpr fun b hb => ?_
        have hnew := (distinctFrom_keys (key a :: seen) items).1 b hb
        simp only [List.mem_cons, not_or] at hnew
        simpa using hnew.1
      simp [distinctFrom, hk, hrest]
    · have hk' : k ∉ key a :: seen := by simp [hk, Ne.symm ha]
      simp only [distinctFrom, List.find?_cons, decide_eq_false ha]
      split
      · exact ih hk
      · rw [List.filter_cons, if_neg (by simp [ha]), ih hk']

theorem filter_key_distinctBy (k : κ) :
    (distinctBy key items).filter (fun b => key b = k) =
      (items.find? fun b => key b = k).toList :=
  filter_key_distinctFrom k List.not_mem_nil

/-- To have seen a key is to drop what is kept of it. -/
theorem distinctFrom_cons_seen (k : κ) :
    distinctFrom key (k :: seen) items =
      (distinctFrom key seen items).filter fun b => key b ≠ k := by
  have hself : (distinctFrom key (k :: seen) items).filter (fun b => key b ≠ k) =
      distinctFrom key (k :: seen) items := by
    refine List.filter_eq_self.mpr fun b hb => ?_
    have hnew := (distinctFrom_keys (k :: seen) items).1 b hb
    simp only [List.mem_cons, not_or] at hnew
    simpa using hnew.1
  let other : κ → Bool := fun k' => k' ≠ k
  have hother : ∀ b, decide (key b ≠ k) = other (key b) := fun _ => rfl
  rw [← hself, distinctFrom_filter hother, distinctFrom_filter hother]
  simp [other]

/-! ## One item more -/

/-- An item whose key came before is dropped. -/
theorem distinctFrom_insert_old (pre post : List α)
    (h : key a ∈ seen ∨ ∃ b ∈ pre, key b = key a) :
    distinctFrom key seen (pre ++ a :: post) = distinctFrom key seen (pre ++ post) := by
  induction pre generalizing seen with
  | nil =>
    have hseen : key a ∈ seen := by simpa using h
    rw [List.nil_append, distinctFrom, if_pos hseen, List.nil_append]
  | cons b pre ih =>
    simp only [List.cons_append, distinctFrom]
    split
    · next hb =>
      refine ih ?_
      rcases h with h | ⟨c, hc, hkey⟩
      · exact .inl h
      · rcases List.mem_cons.mp hc with rfl | hc
        · exact .inl (hkey ▸ hb)
        · exact .inr ⟨c, hc, hkey⟩
    · rw [ih]
      rcases h with h | ⟨c, hc, hkey⟩
      · exact .inl (List.mem_cons_of_mem _ h)
      · rcases List.mem_cons.mp hc with rfl | hc
        · exact .inl (hkey ▸ List.mem_cons_self)
        · exact .inr ⟨c, hc, hkey⟩

/-- An item with a new key takes the place of the item of its key that came after it. -/
theorem distinctFrom_insert_new (pre post : List α) (hseen : key a ∉ seen)
    (hpre : ∀ b ∈ pre, key b ≠ key a) :
    (distinctFrom key seen (pre ++ a :: post)).Perm
      (a :: (distinctFrom key seen (pre ++ post)).filter fun b => key b ≠ key a) := by
  induction pre generalizing seen with
  | nil =>
    rw [List.nil_append, distinctFrom, if_neg hseen, List.nil_append]
    exact List.Perm.cons a (List.Perm.of_eq (distinctFrom_cons_seen (key a)))
  | cons b pre ih =>
    have hb : key b ≠ key a := hpre b List.mem_cons_self
    have hrest : ∀ c ∈ pre, key c ≠ key a := fun c hc => hpre c (List.mem_cons_of_mem _ hc)
    simp only [List.cons_append, distinctFrom]
    split
    · exact ih hseen hrest
    · have hseen' : key a ∉ key b :: seen := by simp [hseen, hb.symm]
      rw [List.filter_cons, if_pos (by simpa using hb)]
      exact ((ih hseen' hrest).cons b).trans (List.Perm.swap _ _ _)

/-! ## Sums over the kept items -/

section Sums
variable {M : Type*} [AddCommMonoid M]

/-- The kept item of a key and the rest. -/
theorem sum_distinctBy_split (weight : α → M) (k : κ) :
    ((distinctBy key items).map weight).sum =
      ((items.find? fun b => key b = k).map weight).getD 0 +
        (((distinctBy key items).filter fun b => key b ≠ k).map weight).sum := by
  have hperm := List.filter_append_perm (fun b => decide (key b = k)) (distinctBy key items)
  rw [← (hperm.map weight).sum_eq, List.map_append, List.sum_append, filter_key_distinctBy]
  congr 1
  · cases items.find? fun b => key b = k <;> simp
  · simp

end Sums

/-! ## Sorting into classes -/

/-- The classes of a labelling, one after the other, have each item once. -/
theorem flatMap_filter_perm {label : α → κ} {labels : List κ} (hnodup : labels.Nodup)
    (hall : ∀ a ∈ items, label a ∈ labels) :
    (labels.flatMap fun k => items.filter fun a => label a = k).Perm items := by
  induction labels generalizing items with
  | nil => rw [List.eq_nil_iff_forall_not_mem.mpr fun a ha => List.not_mem_nil (hall a ha)]; rfl
  | cons k labels ih =>
    obtain ⟨hk, hnodup⟩ := List.nodup_cons.mp hnodup
    have hrest : (labels.flatMap fun k' => items.filter fun a => label a = k') =
        labels.flatMap fun k' => (items.filter fun a => !decide (label a = k)).filter fun a =>
          label a = k' := by
      refine List.flatMap_congr fun k' hk' => ?_
      rw [List.filter_filter]
      refine List.filter_congr fun a _ => ?_
      by_cases ha : label a = k'
      · have hne : k' ≠ k := fun heq => hk (heq ▸ hk')
        simp [ha, hne]
      · simp [ha]
    rw [List.flatMap_cons, hrest]
    refine (List.Perm.append_left _ (ih hnodup fun a ha => ?_)).trans
      (List.filter_append_perm _ items)
    obtain ⟨ha, hne⟩ := List.mem_filter.mp ha
    exact (List.mem_cons.mp (hall a ha)).resolve_left (by simpa using hne)

/-! ## Comparing two selections -/

/-- A selection from another one that is as long has everything that is in the other one. -/
theorem of_length_filter_eq {p q : α → Prop} [DecidablePred p] [DecidablePred q]
    (himp : ∀ a ∈ items, p a → q a)
    (hlength : (items.filter fun a => p a).length = (items.filter fun a => q a).length) :
    ∀ a ∈ items, q a → p a := by
  have hsub : (items.filter fun a => p a).Sublist (items.filter fun a => q a) := by
    have heq : (items.filter fun a => p a) = (items.filter fun a => q a).filter fun a => p a := by
      rw [List.filter_filter]
      refine List.filter_congr fun a ha => ?_
      by_cases hp : p a <;> simp [hp, himp a ha]
    rw [heq]
    exact List.filter_sublist
  intro a ha hq
  have hmem : a ∈ items.filter fun a => q a := List.mem_filter.mpr ⟨ha, decide_eq_true hq⟩
  rw [← hsub.eq_of_length hlength, List.mem_filter, decide_eq_true_eq] at hmem
  exact hmem.2

/-! ## The first distinct items -/

section FirstItems
variable [DecidableEq α] {a : α} {as : List α}

theorem eraseDups_concat (as : List α) (a : α) :
    (as ++ [a]).eraseDups = if a ∈ as then as.eraseDups else as.eraseDups ++ [a] := by
  rw [List.eraseDups_append]
  by_cases ha : a ∈ as <;> simp [List.removeAll, ha, List.eraseDups_cons]

/-- The distinct items stand in the order of their first occurrences. -/
theorem pairwise_idxOf_eraseDups (as : List α) :
    as.eraseDups.Pairwise fun a b => as.idxOf a < as.idxOf b := by
  induction as using List.reverseRecOn with
  | nil => exact .nil
  | append_singleton as a ih =>
    have hkeep : as.eraseDups.Pairwise fun b c => (as ++ [a]).idxOf b < (as ++ [a]).idxOf c := by
      refine ih.imp_of_mem fun hb hc hlt => ?_
      rwa [List.idxOf_append_of_mem (List.mem_eraseDups.mp hb),
        List.idxOf_append_of_mem (List.mem_eraseDups.mp hc)]
    rw [eraseDups_concat]
    split
    · exact hkeep
    · next hnew =>
      refine List.pairwise_append.mpr ⟨hkeep, List.pairwise_singleton _ _, fun b hb c hc => ?_⟩
      rw [List.mem_eraseDups] at hb
      rw [List.mem_singleton.mp hc, List.idxOf_append_of_mem hb,
        List.idxOf_append_of_notMem hnew]
      exact Nat.lt_add_right _ (List.idxOf_lt_length_of_mem hb)

theorem takeWhile_ne_append_cons {bs : List α} (h : a ∉ as) :
    (as ++ a :: bs).takeWhile (· ≠ a) = as := by
  have hall : ∀ b ∈ as, decide (b ≠ a) = true := fun b hb =>
    decide_eq_true fun heq => h (heq ▸ hb)
  rw [List.takeWhile_append_of_pos hall, List.takeWhile_cons_of_neg (by simp), List.append_nil]

/-- An item is among the first `n` distinct ones unless `n` others come before it. -/
theorem mem_take_eraseDups_iff {n : ℕ} : a ∈ as.eraseDups.take n ↔
    a ∈ as ∧ (as.takeWhile (· ≠ a)).eraseDups.length < n := by
  by_cases hmem : a ∈ as
  · obtain ⟨before, rest, rfl, hnot⟩ := List.eq_append_cons_of_mem hmem
    have hbefore : a ∉ before.eraseDups := fun h => hnot (List.mem_eraseDups.mp h)
    have hrest : ((a :: rest).removeAll before).eraseDups.head? = some a := by
      rw [List.removeAll, List.filter_cons_of_pos (by simpa using hnot), List.eraseDups_cons,
        List.head?_cons]
    obtain ⟨tail, htail⟩ := List.head?_eq_some_iff.mp hrest
    rw [takeWhile_ne_append_cons hnot, List.eraseDups_append, htail, List.take_append,
      List.mem_append, and_iff_right hmem]
    constructor
    · rintro (h | h)
      · exact absurd (List.mem_of_mem_take h) hbefore
      · by_contra hle
        rw [Nat.sub_eq_zero_of_le (not_lt.mp hle)] at h
        cases h
    · intro hlt
      obtain ⟨k, hk⟩ := Nat.exists_eq_add_of_lt hlt
      refine .inr ?_
      rw [hk, Nat.add_assoc, Nat.add_sub_cancel_left, List.take_succ_cons]
      exact List.mem_cons_self
  · exact iff_of_false (fun h => hmem (List.mem_eraseDups.mp (List.mem_of_mem_take h)))
      fun h => hmem h.1

end FirstItems

/-! ## One more item -/

theorem distinctFrom_concat : distinctFrom key seen (items ++ [a]) =
    distinctFrom key seen items ++ if key a ∈ seen ++ items.map key then [] else [a] := by
  induction items generalizing seen with
  | nil =>
    by_cases hseen : key a ∈ seen <;> simp [distinctFrom, hseen]
  | cons b items ih =>
    rw [List.cons_append, distinctFrom, distinctFrom, List.map_cons]
    split
    · next hb =>
      have hmem : key a ∈ seen ++ key b :: items.map key ↔ key a ∈ seen ++ items.map key := by
        simp only [List.mem_append, List.mem_cons]
        constructor
        · rintro (h | h | h)
          · exact .inl h
          · exact .inl (h ▸ hb)
          · exact .inr h
        · exact Or.imp_right .inr
      rw [ih, if_congr hmem rfl rfl]
    · have hmem : key a ∈ key b :: (seen ++ items.map key) ↔
          key a ∈ seen ++ key b :: items.map key := by
        simp only [List.mem_append, List.mem_cons]
        exact or_left_comm
      rw [ih, List.cons_append, List.cons_append, if_congr hmem rfl rfl]

/-- The last item is kept if its key is new. -/
theorem distinctBy_concat : distinctBy key (items ++ [a]) =
    if key a ∈ items.map key then distinctBy key items else distinctBy key items ++ [a] := by
  rw [distinctBy, distinctFrom_concat, List.nil_append]
  split
  · exact List.append_nil _
  · rfl

end ThreatScanner
