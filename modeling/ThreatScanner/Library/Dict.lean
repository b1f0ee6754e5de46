import Mathlib.Data.List.Nodup
import Mathlib.Data.List.Sublists

/-!
# Dictionaries in insertion order

`Dict κ α` is an association list with distinct keys: the order of its entries is the order in
which the keys were first set. Writing to a key that is present keeps its place
(`Dict.modify`), writing to a new one puts it last (`Dict.insertNew`).

`Dict.keysWhere p` lists, in that order, the keys whose value satisfies `p`. How it changes under
the two writes is all that an invariant about "the entries with property `p`, oldest first" needs.
-/

namespace ThreatScanner

structure Dict (κ α : Type*) where
  entries : List (κ × α)
  nodupKeys : (entries.map Prod.fst).Nodup

namespace Dict

variable {κ α : Type*} {k k' : κ} {v : α} {f g : α → α} {p : α → Bool}

/-! ## Entry lists -/

section Entries
variable {es : List (κ × α)}

/-- The keys of the entries whose value satisfies `p`. -/
def selectKeys (p : α → Bool) (es : List (κ × α)) : List κ :=
  (es.filter fun e => p e.2).map Prod.fst

theorem selectKeys_cons (e : κ × α) :
    selectKeys p (e :: es) = if p e.2 then e.1 :: selectKeys p es else selectKeys p es := by
  simp only [selectKeys, List.filter_cons]
  split <;> rfl

variable [DecidableEq κ]

/-- Rewrites the value of every entry with the given key. -/
def modifyEntries (k : κ) (f : α → α) (es : List (κ × α)) : List (κ × α) :=
  es.map fun e => if e.1 = k then (e.1, f e.2) else e

theorem map_fst_modifyEntries : (modifyEntries k f es).map Prod.fst = es.map Prod.fst := by
  induction es with
  | nil => rfl
  | cons e es ih =>
    simp only [modifyEntries, List.map_cons, List.cons.injEq] at ih ⊢
    exact ⟨by split <;> rfl, ih⟩

theorem modifyEntries_modifyEntries :
    modifyEntries k g (modifyEntries k f es) = modifyEntries k (g ∘ f) es := by
  simp only [modifyEntries, List.map_map]
  refine List.map_congr_left fun e _ => ?_
  by_cases he : e.1 = k <;> simp [he]

theorem lookup_modifyEntries :
    (modifyEntries k f es).lookup k' = if k' = k then (es.lookup k).map f else es.lookup k' := by
  induction es with
  | nil => simp [modifyEntries]
  | cons e es ih =>
    obtain ⟨a, b⟩ := e
    simp only [modifyEntries, List.map_cons] at ih ⊢
    by_cases ha : a = k
    · subst ha
      by_cases hk : k' = a
      · subst hk; simp
      · have hne : (k' == a) = false := beq_eq_false_iff_ne.mpr hk
        simpa [List.lookup_cons, hk, hne] using ih
    · by_cases hk : k' = k
      · subst hk
        have hne : (k' == a) = false := beq_eq_false_iff_ne.mpr (Ne.symm ha)
        simpa [List.lookup_cons, ha, hne] using ih
      · simp only [if_neg ha, if_neg hk, List.lookup_cons] at ih ⊢
        split <;> simp [ih]

theorem mem_of_lookup_eq_some (h : es.lookup k = some v) : (k, v) ∈ es := by
  obtain ⟨_, _, rfl, _⟩ := List.lookup_eq_some_iff.mp h
  simp

theorem lookup_eq_some_of_mem (hnodup : (es.map Prod.fst).Nodup) (h : (k, v) ∈ es) :
    es.lookup k = some v := by
  induction es with
  | nil => cases h
  | cons e es ih =>
    rw [List.map_cons, List.nodup_cons] at hnodup
    rcases List.mem_cons.mp h with rfl | h
    · simp
    · have hne : (k == e.1) = false := by
        rw [beq_eq_false_iff_ne]
        rintro rfl
        exact hnodup.1 (List.mem_map.mpr ⟨_, h, rfl⟩)
      rw [List.lookup_cons, hne]
      exact ih hnodup.2 h

theorem selectKeys_modifyEntries_of_eq (h : ∀ v, (k, v) ∈ es → p (f v) = p v) :
    selectKeys p (modifyEntries k f es) = selectKeys p es := by
  induction es with
  | nil => rfl
  | cons e es ih =>
    have ih := ih fun v hv => h v (List.mem_cons_of_mem _ hv)
    simp only [modifyEntries, List.map_cons, selectKeys_cons] at ih ⊢
    by_cases hk : e.1 = k
    · have he : p (f e.2) = p e.2 := h e.2 (by rw [← hk]; exact List.mem_cons_self)
      simp [hk, he, ih]
    · simp [hk, ih]

theorem selectKeys_modifyEntries_of_false (h : ∀ v, (k, v) ∈ es → p (f v) = false) :
    selectKeys p (modifyEntries k f es) = (selectKeys p es).filter (· ≠ k) := by
  induction es with
  | nil => rfl
  | cons e es ih =>
    have ih := ih fun v hv => h v (List.mem_cons_of_mem _ hv)
    simp only [modifyEntries, List.map_cons, selectKeys_cons] at ih ⊢
    by_cases hk : e.1 = k
    · have he : p (f e.2) = false := h e.2 (by rw [← hk]; exact List.mem_cons_self)
      simp only [hk, he, if_true, Bool.false_eq_true, if_false, ih]
      split <;> simp
    · simp only [if_neg hk, ih]
      split <;> simp [hk]

end Entries

/-! ## Dictionaries -/

def empty : Dict κ α := ⟨[], .nil⟩

def keys (d : Dict κ α) : List κ := d.entries.map Prod.fst

/-- `d[k] = v` for a key that is not in the dictionary. -/
def insertNew (d : Dict κ α) (k : κ) (v : α) (h : k ∉ d.keys) : Dict κ α where
  entries := d.entries ++ [(k, v)]
  nodupKeys := by
    rw [List.map_append]
    refine List.nodup_append.mpr ⟨d.nodupKeys, List.nodup_singleton k, ?_⟩
    rintro a ha b hb rfl
    rw [List.map_singleton, List.mem_singleton] at hb
    rw [hb] at ha
    exact h ha

/-- The keys whose value satisfies `p`, oldest first. -/
def keysWhere (d : Dict κ α) (p : α → Bool) : List κ := selectKeys p d.entries

variable {d : Dict κ α}

theorem keysWhere_sublist_keys : (d.keysWhere p).Sublist d.keys :=
  List.filter_sublist.map _

theorem nodup_keysWhere : (d.keysWhere p).Nodup :=
  d.nodupKeys.sublist keysWhere_sublist_keys

@[simp] theorem keys_insertNew (h : k ∉ d.keys) : (d.insertNew k v h).keys = d.keys ++ [k] := by
  simp [keys, insertNew]

theorem keysWhere_insertNew (h : k ∉ d.keys) :
    (d.insertNew k v h).keysWhere p = d.keysWhere p ++ if p v then [k] else [] := by
  simp only [keysWhere, selectKeys, insertNew, List.filter_append, List.map_append]
  cases hp : p v <;> simp [hp]

variable [DecidableEq κ]

/-- `d.get(k)`. -/
def get? (d : Dict κ α) (k : κ) : Option α := d.entries.lookup k

/-- Rewrites the value at a key, and nothing when the key is absent. -/
def modify (d : Dict κ α) (k : κ) (f : α → α) : Dict κ α where
  entries := modifyEntries k f d.entries
  nodupKeys := by rw [map_fst_modifyEntries]; exact d.nodupKeys

theorem get?_eq_some : d.get? k = some v ↔ (k, v) ∈ d.entries :=
  ⟨mem_of_lookup_eq_some, lookup_eq_some_of_mem d.nodupKeys⟩

theorem mem_keys : k ∈ d.keys ↔ ∃ v, d.get? k = some v := by
  simp only [keys, List.mem_map, get?_eq_some]
  constructor
  · rintro ⟨⟨k, v⟩, h, rfl⟩; exact ⟨v, h⟩
  · rintro ⟨v, h⟩; exact ⟨(k, v), h, rfl⟩

theorem get?_eq_none : d.get? k = none ↔ k ∉ d.keys := by
  rw [mem_keys, not_exists, Option.eq_none_iff_forall_ne_some]

theorem mem_keysWhere : k ∈ d.keysWhere p ↔ ∃ v, d.get? k = some v ∧ p v := by
  simp only [keysWhere, selectKeys, List.mem_map, List.mem_filter, get?_eq_some]
  constructor
  · rintro ⟨⟨k, v⟩, ⟨h, hp⟩, rfl⟩; exact ⟨v, h, hp⟩
  · rintro ⟨v, h, hp⟩; exact ⟨(k, v), ⟨h, hp⟩, rfl⟩

@[simp] theorem keys_modify : (d.modify k f).keys = d.keys := map_fst_modifyEntries

theorem get?_modify : (d.modify k f).get? k' = if k' = k then (d.get? k).map f else d.get? k' :=
  lookup_modifyEntries

@[simp] theorem get?_modify_self : (d.modify k f).get? k = (d.get? k).map f := by
  rw [get?_modify, if_pos rfl]

theorem get?_modify_of_ne (h : k' ≠ k) : (d.modify k f).get? k' = d.get? k' := by
  rw [get?_modify, if_neg h]

theorem get?_modify_eq_some :
    (d.modify k f).get? k' = some v ↔
      (k' = k ∧ ∃ w, d.get? k = some w ∧ f w = v) ∨ (k' ≠ k ∧ d.get? k' = some v) := by
  rw [get?_modify]
  by_cases h : k' = k <;> simp [h]

@[simp] theorem modify_modify : (d.modify k f).modify k g = d.modify k (g ∘ f) := by
  simp only [modify, modifyEntries_modifyEntries]

/-- A write that leaves the value in its class leaves the class as it is. -/
theorem keysWhere_modify_of_eq (h : ∀ v, d.get? k = some v → p (f v) = p v) :
    (d.modify k f).keysWhere p = d.keysWhere p :=
  selectKeys_modifyEntries_of_eq fun v hv => h v (get?_eq_some.mpr hv)

/-- A write that takes the value out of the class takes its key out. -/
theorem keysWhere_modify_of_false (h : ∀ v, d.get? k = some v → p (f v) = false) :
    (d.modify k f).keysWhere p = (d.keysWhere p).filter (· ≠ k) :=
  selectKeys_modifyEntries_of_false fun v hv => h v (get?_eq_some.mpr hv)

theorem get?_insertNew (h : k ∉ d.keys) :
    (d.insertNew k v h).get? k' = if k' = k then some v else d.get? k' := by
  refine Option.ext fun w => ?_
  rw [get?_eq_some, insertNew, List.mem_append, List.mem_singleton, Prod.mk.injEq]
  by_cases hk : k' = k
  · subst hk
    have hnot : (k', w) ∉ d.entries := fun hw => h (List.mem_map.mpr ⟨_, hw, rfl⟩)
    simp [hnot, eq_comm]
  · simp [hk, get?_eq_some]

/-- A new key leaves the values of the others. -/
theorem get?_insertNew_of_some (h : k ∉ d.keys) (hv : d.get? k' = some w) :
    (d.insertNew k v h).get? k' = some w := by
  rw [get?_insertNew, if_neg]
  · exact hv
  · rintro rfl
    exact h (mem_keys.mpr ⟨w, hv⟩)

/-- Rewriting a value outside a class, to one outside it, leaves the values in the class. -/
theorem get?_modify_iff_of_not {p : α → Prop} (h : ∀ v, d.get? k = some v → ¬p v ∧ ¬p (f v))
    (hw : p w) : (d.modify k f).get? k' = some w ↔ d.get? k' = some w := by
  rw [get?_modify_eq_some]
  constructor
  · rintro (⟨rfl, v, hv, rfl⟩ | ⟨-, hv⟩)
    · exact ((h v hv).2 hw).elim
    · exact hv
  · intro hv
    refine .inr ⟨?_, hv⟩
    rintro rfl
    exact (h w hv).1 hw

/-- A new value outside a class leaves the values in the class. -/
theorem get?_insertNew_iff_of_not {p : α → Prop} (h : k ∉ d.keys) (hv : ¬p v) (hw : p w) :
    (d.insertNew k v h).get? k' = some w ↔ d.get? k' = some w := by
  refine ⟨fun hget => ?_, get?_insertNew_of_some h⟩
  rw [get?_insertNew] at hget
  split at hget
  · cases hget
    exact (hv hw).elim
  · exact hget

/-- Rewriting the value just set at a new key. -/
theorem modify_insertNew (h : k ∉ d.keys) :
    (d.insertNew k v h).modify k f = d.insertNew k (f v) h := by
  have hold : ∀ e ∈ d.entries, (if e.1 = k then (e.1, f e.2) else e) = e := by
    intro e he
    rw [if_neg]
    rintro rfl
    exact h (List.mem_map_of_mem he)
  simp only [insertNew, modify, modifyEntries, List.map_append, List.map_singleton,
    if_true, List.map_congr_left hold, List.map_id']

end Dict

end ThreatScanner
