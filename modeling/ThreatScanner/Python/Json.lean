import ThreatScanner.Library.Dict
import Mathlib.Data.Rat.Defs

/-!
# JSON values and exceptions as Python handles them

The reports that `analyze` returns, the rows they are stored in and the summaries built from them
are JSON values. A number keeps the difference between `int` and `float`; a finite `float` is the
rational it stands for. The operations that raise in Python return the exception, with the text
`str(e)` gives for it.
-/

namespace ThreatScanner

/-- An exception, by the text `str(e)` gives. -/
structure PyError where
  message : String
deriving DecidableEq, Repr

/-- A computation that may raise returns when both its parts do. -/
theorem bind_eq_ok {ε α β : Type} {x : Except ε α} {f : α → Except ε β} {b : β} :
    (x >>= f) = .ok b ↔ ∃ a, x = .ok a ∧ f a = .ok b := by
  cases x with
  | error e => simp [bind, Except.bind]
  | ok a => simp [bind, Except.bind]

theorem bind_eq_error {ε α β : Type} {x : Except ε α} {f : α → Except ε β} {e : ε} :
    (x >>= f) = .error e ↔ x = .error e ∨ ∃ a, x = .ok a ∧ f a = .error e := by
  cases x with
  | error e' => simp [bind, Except.bind]
  | ok a => simp [bind, Except.bind]

/-- A loop that pairs each item with a value that may not be computed. -/
theorem mapM_pair_eq_ok {ε α β : Type} {f : α → Except ε β} {as : List α} {bs : List (α × β)} :
    (as.mapM fun a => do let b ← f a; .ok (a, b)) = .ok bs ↔
      bs.map Prod.fst = as ∧ ∀ e ∈ bs, f e.1 = .ok e.2 := by
  induction as generalizing bs with
  | nil =>
    simp only [List.mapM_nil, pure, Except.pure, Except.ok.injEq, List.map_eq_nil_iff]
    constructor
    · rintro rfl
      exact ⟨rfl, nofun⟩
    · exact fun h => h.1.symm
  | cons a as ih =>
    simp only [List.mapM_cons, bind_eq_ok, ih]
    constructor
    · rintro ⟨e, ⟨b, hb, he⟩, bs', ⟨hfst, hall⟩, hbs⟩
      cases he
      cases hbs
      refine ⟨by rw [List.map_cons, hfst], fun e he => ?_⟩
      rcases List.mem_cons.mp he with rfl | he
      · exact hb
      · exact hall e he
    · rintro ⟨hfst, hall⟩
      cases bs with
      | nil => cases hfst
      | cons e bs =>
        rw [List.map_cons, List.cons.injEq] at hfst
        obtain ⟨rfl, hfst⟩ := hfst
        exact ⟨e, ⟨e.2, hall e List.mem_cons_self, rfl⟩, bs,
          ⟨hfst, fun e he => hall e (List.mem_cons_of_mem _ he)⟩, rfl⟩

/-- What is raised, if anything, has a message. -/
def Speaks {α : Type} (x : Except PyError α) : Prop := ∀ e, x = .error e → e.message ≠ ""

theorem Speaks.ne {α : Type} {x : Except PyError α} (h : Speaks x) : x ≠ .error ⟨""⟩ :=
  fun he => h _ he rfl

theorem speaks_ok {α : Type} (a : α) : Speaks (.ok a) := nofun

theorem Speaks.bind {α β : Type} {x : Except PyError α} {f : α → Except PyError β} (hx : Speaks x)
    (hf : ∀ a, Speaks (f a)) : Speaks (x >>= f) := by
  intro e he
  cases x with
  | error e' => cases he; exact hx _ rfl
  | ok a => exact hf a e he

theorem speaks_mapM {α β : Type} {f : α → Except PyError β} (hf : ∀ a, Speaks (f a))
    (as : List α) : Speaks (as.mapM f) := by
  induction as with
  | nil => exact speaks_ok []
  | cons a as ih =>
    rw [List.mapM_cons]
    exact (hf a).bind fun b => ih.bind fun bs => speaks_ok _

/-- What is returned, if anything, satisfies `P`. -/
def Returns {α : Type} (P : α → Prop) (x : Except PyError α) : Prop := ∀ a, x = .ok a → P a

theorem returns_ok {α : Type} {P : α → Prop} {a : α} (h : P a) : Returns P (.ok a) := by
  rintro _ ⟨⟩
  exact h

theorem Returns.bind {α β : Type} {P : β → Prop} {x : Except PyError α} {f : α → Except PyError β}
    (hf : ∀ a, Returns P (f a)) : Returns P (x >>= f) := by
  intro b hb
  cases x with
  | error e => cases hb
  | ok a => exact hf a b hb

/-- A loop whose steps all return. -/
theorem mapM_eq_ok_map {ε α β : Type} {f : α → Except ε β} {g : α → β} {as : List α}
    (h : ∀ a ∈ as, f a = .ok (g a)) : as.mapM f = .ok (as.map g) := by
  induction as with
  | nil => rfl
  | cons a as ih =>
    rw [List.mapM_cons, h a List.mem_cons_self, ih fun a ha => h a (List.mem_cons_of_mem _ ha)]
    rfl

/-- A loop returns when each of its steps does. -/
theorem exists_mapM_eq_ok {ε α β : Type} {f : α → Except ε β} {as : List α} :
    (∃ bs, as.mapM f = .ok bs) ↔ ∀ a ∈ as, ∃ b, f a = .ok b := by
  induction as with
  | nil => exact iff_of_true ⟨[], rfl⟩ nofun
  | cons a as ih =>
    rw [List.forall_mem_cons, ← ih]
    simp only [List.mapM_cons, bind_eq_ok]
    constructor
    · rintro ⟨_, b, hb, bs, hbs, -⟩
      exact ⟨⟨b, hb⟩, bs, hbs⟩
    · rintro ⟨⟨b, hb⟩, bs, hbs⟩
      exact ⟨_, b, hb, bs, hbs, rfl⟩

/-- What a loop returns comes from its steps. -/
theorem exists_of_mem_mapM {ε α β : Type} {f : α → Except ε β} {as : List α} {bs : List β}
    (h : as.mapM f = .ok bs) {b : β} (hb : b ∈ bs) : ∃ a ∈ as, f a = .ok b := by
  induction as generalizing bs with
  | nil =>
    cases h
    cases hb
  | cons a as ih =>
    simp only [List.mapM_cons, bind_eq_ok] at h
    obtain ⟨b', hb', bs', hbs', hret⟩ := h
    cases hret
    rcases List.mem_cons.mp hb with rfl | hb
    · exact ⟨a, List.mem_cons_self, hb'⟩
    · obtain ⟨a', ha', heq⟩ := ih hbs' hb
      exact ⟨a', List.mem_cons_of_mem _ ha', heq⟩

/-- An `HTTPException` of an endpoint. -/
structure HttpError where
  statusCode : Nat
  detail : String
deriving DecidableEq

inductive Json where
  | null
  | bool (b : Bool)
  | int (n : Int)
  | real (q : ℚ)
  | str (s : String)
  | arr (items : List Json)
  | obj (entries : List (String × Json))

namespace Json

/-- `type(x).__name__`. -/
def typeName : Json → String
  | null => "NoneType"
  | bool _ => "bool"
  | int _ => "int"
  | real _ => "float"
  | str _ => "str"
  | arr _ => "list"
  | obj _ => "dict"

/-- `bool(x)`. -/
def truthy : Json → Bool
  | null => false
  | bool b => b
  | int n => n != 0
  | real q => q != 0
  | str s => s != ""
  | arr items => !items.isEmpty
  | obj entries => !entries.isEmpty

/-- `x or y`. -/
def orElse (x y : Json) : Json := if x.truthy then x else y

/-- `x.get(key, default)`. -/
def get (x : Json) (key : String) (default : Json := null) : Except PyError Json :=
  match x with
  | obj entries => .ok ((entries.lookup key).getD default)
  | _ => .error ⟨"'" ++ x.typeName ++ "' object has no attribute 'get'"⟩

/-- The entries after `d[key] = value`. -/
def setEntry (key : String) (value : Json) (entries : List (String × Json)) :
    List (String × Json) :=
  if key ∈ entries.map Prod.fst then Dict.modifyEntries key (fun _ => value) entries
  else entries ++ [(key, value)]

/-- The items of `for item in x`. -/
def iterate (x : Json) : Except PyError (List Json) :=
  match x with
  | arr items => .ok items
  | obj entries => .ok (entries.map fun e => str e.1)
  | str s => .ok (s.toList.map fun c => str (String.singleton c))
  | _ => .error ⟨"'" ++ x.typeName ++ "' object is not iterable"⟩

/-- `len(x)`. -/
def len (x : Json) : Except PyError Nat :=
  match x with
  | str s => .ok s.length
  | arr items => .ok items.length
  | obj entries => .ok entries.length
  | _ => .error ⟨"object of type '" ++ x.typeName ++ "' has no len()"⟩

/-- `x[:n]`. -/
def take (n : Nat) (x : Json) : Except PyError Json :=
  match x with
  | str s => .ok (str (String.ofList (s.toList.take n)))
  | arr items => .ok (arr (items.take n))
  | obj _ => .error ⟨"unhashable type: 'slice'"⟩
  | _ => .error ⟨"'" ++ x.typeName ++ "' object is not subscriptable"⟩

/-- What two keys of a dictionary are compared by: numbers and booleans by their value. -/
inductive HashKey where
  | none
  | number (q : ℚ)
  | text (s : String)
deriving DecidableEq

def hashKey (x : Json) : Except PyError HashKey :=
  match x with
  | null => .ok .none
  | bool b => .ok (.number (if b then 1 else 0))
  | int n => .ok (.number n)
  | real q => .ok (.number q)
  | str s => .ok (.text s)
  | arr _ | obj _ => .error ⟨"unhashable type: '" ++ x.typeName ++ "'"⟩

/-- `list(dict.fromkeys(xs))`. -/
def fromKeys (xs : List Json) : Except PyError (List Json) := do
  let keyed ← xs.mapM fun x => do
    let key ← x.hashKey
    .ok (key, x)
  .ok ((keyed.eraseDupsBy fun a b => a.1 = b.1).map Prod.snd)

/-- `x[key] = value`. -/
def setItem (x : Json) (key : String) (value : Json) : Except PyError Json :=
  match x with
  | obj entries => .ok (obj (setEntry key value entries))
  | arr _ => .error ⟨"list indices must be integers or slices, not str"⟩
  | _ => .error ⟨"'" ++ x.typeName ++ "' object does not support item assignment"⟩

/-- A dictionary stays a dictionary when an item is set. -/
theorem setItem_eq_obj {x y : Json} {key : String} {value : Json}
    (h : x.setItem key value = .ok y) :
    ∃ entries, x = .obj entries ∧ y = .obj (setEntry key value entries) := by
  cases x <;> cases h
  exact ⟨_, rfl, rfl⟩

section Speaks
variable (x : Json)

theorem speaks_get (key : String) (default : Json) : Speaks (x.get key default) := by
  intro e he
  cases x <;> cases he <;> simp [typeName]

theorem speaks_iterate : Speaks x.iterate := by
  intro e he
  cases x <;> cases he <;> simp [typeName]

theorem speaks_len : Speaks x.len := by
  intro e he
  cases x <;> cases he <;> simp [typeName]

theorem speaks_take (n : Nat) : Speaks (x.take n) := by
  intro e he
  cases x <;> cases he <;> simp [typeName]

theorem speaks_hashKey : Speaks x.hashKey := by
  intro e he
  cases x <;> cases he <;> simp [typeName]

theorem speaks_setItem (key : String) (value : Json) : Speaks (x.setItem key value) := by
  intro e he
  cases x <;> cases he <;> simp [typeName]

theorem speaks_fromKeys (xs : List Json) : Speaks (fromKeys xs) :=
  (speaks_mapM (fun x => (speaks_hashKey x).bind fun _ => speaks_ok _) xs).bind fun _ => speaks_ok _

end Speaks

theorem lookup_setEntry (key k : String) (value : Json) (entries : List (String × Json)) :
    (setEntry key value entries).lookup k = if k = key then some value else entries.lookup k := by
  unfold setEntry
  split
  · rename_i hmem
    rw [Dict.lookup_modifyEntries]
    split
    · obtain ⟨e, he, rfl⟩ := List.mem_map.mp hmem
      have hsome : (entries.lookup e.1).isSome :=
        List.lookup_isSome_iff.mpr ⟨e, he, beq_self_eq_true _⟩
      obtain ⟨v, hv⟩ := Option.isSome_iff_exists.mp hsome
      rw [hv]; rfl
    · rfl
  · rename_i hmem
    rw [List.lookup_append]
    by_cases hk : k = key
    · subst hk
      have hnone : entries.lookup k = none := by
        rw [List.lookup_eq_none_iff]
        intro e he
        rw [bne_iff_ne]
        rintro rfl
        exact hmem (List.mem_map_of_mem he)
      simp [hnone]
    · have hne : (k == key) = false := beq_eq_false_iff_ne.mpr hk
      simp [List.lookup_cons, hk, hne]

theorem mem_keys_setEntry {key k : String} {value : Json} {entries : List (String × Json)} :
    k ∈ (setEntry key value entries).map Prod.fst ↔ k ∈ entries.map Prod.fst ∨ k = key := by
  unfold setEntry
  split
  · rename_i hmem
    rw [Dict.map_fst_modifyEntries]
    constructor
    · exact .inl
    · rintro (h | rfl)
      · exact h
      · exact hmem
  · rw [List.map_append, List.mem_append, List.map_singleton, List.mem_singleton]

theorem nodup_keys_setEntry {key : String} {value : Json} {entries : List (String × Json)}
    (h : (entries.map Prod.fst).Nodup) : ((setEntry key value entries).map Prod.fst).Nodup := by
  unfold setEntry
  split
  · rwa [Dict.map_fst_modifyEntries]
  · rename_i hnew
    rw [List.map_append, List.map_singleton, List.nodup_append_comm]
    exact List.nodup_cons.mpr ⟨hnew, h⟩

theorem get_setItem_of_ne {x y value default : Json} {key k : String}
    (h : x.setItem key value = .ok y) (hne : k ≠ key) : y.get k default = x.get k default := by
  obtain ⟨entries, rfl, rfl⟩ := setItem_eq_obj h
  rw [get, get, lookup_setEntry, if_neg hne]

/-- What has a length is true when it is not empty. -/
theorem truthy_of_len {x : Json} {n : Nat} (h : x.len = .ok n) : x.truthy = decide (0 < n) := by
  cases x with
  | str s =>
    cases h
    rw [truthy, bne, beq_eq_decide, ← decide_not, decide_eq_decide, Nat.pos_iff_ne_zero, Ne,
      String.length_eq_zero_iff]
  | arr items | obj items =>
    cases h
    cases items <;> rfl
  | _ => cases h

theorem truthy_setEntry {key : String} {value : Json} {entries : List (String × Json)} :
    (obj (setEntry key value entries)).truthy := by
  have hlookup := lookup_setEntry key key value entries
  rw [if_pos rfl] at hlookup
  cases h : setEntry key value entries with
  | nil => rw [h] at hlookup; cases hlookup
  | cons => rfl

end Json

end ThreatScanner
