import ThreatScanner.Library.Dict

/-!
# Several values to a key

Pairs collected into a dictionary from each key to its values, in the order in which they come, and
such a dictionary taken apart again. Taking apart what is collected may move pairs of one key
together; collecting what is taken apart gives the dictionary back, if no key is without a value.
-/

namespace ThreatScanner.Dict

variable {κ α : Type*} [DecidableEq κ] {d : Dict κ α} {k k' : κ} {v w : α}

/-- `d[k] = v`. -/
def set (d : Dict κ α) (k : κ) (v : α) : Dict κ α :=
  if h : k ∈ d.keys then d.modify k fun _ => v else d.insertNew k v h

theorem get?_set : (d.set k v).get? k' = if k' = k then some v else d.get? k' := by
  unfold set
  split
  · next h =>
    obtain ⟨w, hw⟩ := mem_keys.mp h
    rw [get?_modify, hw, Option.map_some]
  · next h => rw [get?_insertNew]

/-- Whatever holds of the old values and the new one. -/
theorem forall_set {P : α → Prop} (hd : ∀ k v, d.get? k = some v → P v) (hv : P v) :
    ∀ k' w, (d.set k v).get? k' = some w → P w := by
  intro k' w hw
  rw [get?_set] at hw
  split at hw
  · cases hw
    exact hv
  · exact hd k' w hw

/-! ## Collecting -/

/-- One more value of a key, behind those it has. -/
def add (d : Dict κ (List α)) (e : κ × α) : Dict κ (List α) :=
  if h : e.1 ∈ d.keys then d.modify e.1 (· ++ [e.2]) else d.insertNew e.1 [e.2] h

def collect (es : List (κ × α)) : Dict κ (List α) := es.foldl add empty

/-- The pairs of a dictionary, key by key. -/
def pairs (d : Dict κ (List α)) : List (κ × α) := d.entries.flatMap fun e => e.2.map (e.1, ·)

/-- No key is without a value. -/
def Filled (d : Dict κ (List α)) : Prop := ∀ k vs, d.get? k = some vs → vs ≠ []

variable {m : Dict κ (List α)} {es : List (κ × α)} {vs : List α}

theorem get?_add {e : κ × α} :
    (m.add e).get? k = if k = e.1 then some ((m.get? k).getD [] ++ [e.2]) else m.get? k := by
  unfold add
  split
  · next h =>
    obtain ⟨w, hw⟩ := mem_keys.mp h
    rw [get?_modify]
    split
    · next hk => rw [hk, hw, Option.map_some, Option.getD_some]
    · rfl
  · next h =>
    rw [get?_insertNew]
    split
    · next hk => rw [hk, get?_eq_none.mpr h, Option.getD_none, List.nil_append]
    · rfl

theorem Filled.add {e : κ × α} (h : m.Filled) : (m.add e).Filled := by
  intro k vs hget
  rw [get?_add] at hget
  split at hget
  · cases hget
    exact List.append_ne_nil_of_right_ne_nil _ (List.cons_ne_nil _ _)
  · exact h k vs hget

theorem filled_collect (es : List (κ × α)) : (collect es).Filled := by
  have hfold (es : List (κ × α)) (m : Dict κ (List α)) (h : m.Filled) :
      (es.foldl Dict.add m).Filled := by
    induction es generalizing m with
    | nil => exact h
    | cons e es ih => exact ih _ h.add
  exact hfold es empty fun k vs h => by cases h

theorem mem_keys_add {e : κ × α} : k ∈ (m.add e).keys ↔ k = e.1 ∨ k ∈ m.keys := by
  simp only [mem_keys, get?_add]
  by_cases h : k = e.1 <;> simp [h]

theorem mem_keys_foldl_add : k ∈ (es.foldl add m).keys ↔ k ∈ m.keys ∨ k ∈ es.map Prod.fst := by
  induction es generalizing m with
  | nil => simp
  | cons e es ih => rw [List.foldl_cons, ih, mem_keys_add, List.map_cons, List.mem_cons, or_assoc,
      or_left_comm]

theorem mem_keys_collect : k ∈ (collect es).keys ↔ k ∈ es.map Prod.fst := by
  rw [collect, mem_keys_foldl_add]
  exact or_iff_right List.not_mem_nil

theorem keys_collect_eq_nil : (collect es).keys = [] ↔ es = [] := by
  rw [List.eq_nil_iff_forall_not_mem, ← List.map_eq_nil_iff (f := Prod.fst),
    List.eq_nil_iff_forall_not_mem]
  exact forall_congr' fun k => not_congr mem_keys_collect

theorem Filled.set (h : m.Filled) (hvs : vs ≠ []) : (m.set k vs).Filled := forall_set h hvs

omit [DecidableEq κ] in
theorem ext_entries {d d' : Dict κ α} (h : d.entries = d'.entries) : d = d' := by
  cases d
  cases d'
  cases h
  rfl

theorem entries_modify {f : α → α} : (d.modify k f).entries = modifyEntries k f d.entries := rfl

omit [DecidableEq κ] in
theorem entries_insertNew (h : k ∉ d.keys) : (d.insertNew k v h).entries = d.entries ++ [(k, v)] :=
  rfl

theorem entries_modify_last {pre : List (κ × α)} {f : α → α} (h : d.entries = pre ++ [(k, v)]) :
    (d.modify k f).entries = pre ++ [(k, f v)] := by
  have hnodup := d.nodupKeys
  rw [h, List.map_append, List.map_singleton, List.nodup_append] at hnodup
  have hpre : ∀ e ∈ pre, (if e.1 = k then (e.1, f e.2) else e) = e := by
    intro e he
    exact if_neg (hnodup.2.2 e.1 (List.mem_map_of_mem he) k List.mem_cons_self)
  rw [entries_modify, h, modifyEntries, List.map_append, List.map_congr_left hpre, List.map_id',
    List.map_singleton, if_pos rfl]

/-- The values of the last key, collected one by one. -/
theorem entries_foldl_add {pre : List (κ × List α)} {us : List α}
    (h : m.entries = pre ++ [(k, us)]) :
    ((vs.map (k, ·)).foldl add m).entries = pre ++ [(k, us ++ vs)] := by
  induction vs generalizing m us with
  | nil => rw [List.map_nil, List.foldl_nil, h, List.append_nil]
  | cons v vs ih =>
    have hmem : k ∈ m.keys := by
      rw [keys, h, List.map_append]
      exact List.mem_append_right _ List.mem_cons_self
    have hadd : (m.add (k, v)).entries = pre ++ [(k, us ++ [v])] := by
      rw [add, dif_pos hmem, entries_modify_last h]
    rw [List.map_cons, List.foldl_cons, ih hadd, List.append_assoc, List.singleton_append]

theorem entries_foldl_pairs {pre rest : List (κ × List α)} (h : m.entries = pre)
    (hnodup : ((pre ++ rest).map Prod.fst).Nodup) (hfilled : ∀ e ∈ rest, e.2 ≠ []) :
    ((rest.flatMap fun e => e.2.map (e.1, ·)).foldl add m).entries = pre ++ rest := by
  induction rest generalizing m pre with
  | nil => rw [List.flatMap_nil, List.foldl_nil, h, List.append_nil]
  | cons e rest ih =>
    obtain ⟨k, vs⟩ := e
    obtain ⟨v, vs, rfl⟩ := List.exists_cons_of_ne_nil (hfilled _ List.mem_cons_self)
    have hnew : k ∉ m.keys := by
      rw [List.map_append, List.map_cons, List.nodup_append] at hnodup
      rw [keys, h]
      exact fun hk => hnodup.2.2 k hk k List.mem_cons_self rfl
    have hadd : (m.add (k, v)).entries = pre ++ [(k, [v])] := by
      rw [add, dif_neg hnew, entries_insertNew, h]
    have hkey : ((vs.map (k, ·)).foldl add (m.add (k, v))).entries = pre ++ [(k, [v] ++ vs)] :=
      entries_foldl_add hadd
    rw [List.append_cons] at hnodup ⊢
    rw [List.flatMap_cons, List.map_cons, List.foldl_append, List.foldl_cons]
    exact ih hkey hnodup fun e he => hfilled e (List.mem_cons_of_mem _ he)

theorem collect_pairs (h : m.Filled) : collect m.pairs = m := by
  have hstart : (empty : Dict κ (List α)).entries = [] := rfl
  refine ext_entries (entries_foldl_pairs hstart m.nodupKeys fun e he => ?_)
  exact h e.1 e.2 (get?_eq_some.mpr he)

end ThreatScanner.Dict
