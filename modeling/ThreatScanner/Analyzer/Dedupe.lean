import ThreatScanner.Library.Distinct
import ThreatScanner.Python.Json

/-!
# Deduplication of dictionaries

`dedupe_dicts` walks a list of dictionaries and remembers the keys it has seen: the tuples of the
values of some fields, a missing field counting as `None`. A tuple is compared by what its values
are hashed by, and a value that cannot be hashed raises. On hashable values the loop is
`distinctBy` (`dedupeDicts_eq`).
-/

namespace ThreatScanner.Analyzer

/-- Values that may stand in a set: `None` among them, and what a hashable one is compared by. -/
class HashValue (ν : Type) (κ : outParam Type) where
  none : ν
  hashKey : ν → Except PyError κ

instance : HashValue Json Json.HashKey where
  none := .null
  hashKey := Json.hashKey

section Dedupe
variable {ν κ : Type} [HashValue ν κ]

/-- `item.get(field)`. -/
def getField (item : Dict String ν) (field : String) : ν :=
  (item.get? field).getD HashValue.none

/-- `tuple(item.get(k) for k in key_fields)`, as a set compares it. -/
def fieldsKey (keyFields : List String) (item : Dict String ν) : Except PyError (List κ) :=
  keyFields.mapM fun field => HashValue.hashKey (getField item field)

/-- The values of the fields can be hashed. -/
def Hashable (keyFields : List String) (item : Dict String ν) : Prop :=
  ∀ field ∈ keyFields, ∃ key, HashValue.hashKey (getField item field) = .ok key

/-- The values of the fields are the same. -/
def Agree (keyFields : List String) (a b : Dict String ν) : Prop :=
  ∀ field ∈ keyFields, HashValue.hashKey (getField a field) = HashValue.hashKey (getField b field)

/-- The key of hashable values. -/
def knownKey (keyFields : List String) (item : Dict String ν) : List κ :=
  match fieldsKey keyFields item with
  | .ok key => key
  | .error _ => []

variable [DecidableEq κ]

/-- The loop of `dedupe_dicts`. -/
def dedupeLoop (keyFields : List String) (seen : List (List κ)) (output : List (Dict String ν)) :
    List (Dict String ν) → Except PyError (List (Dict String ν))
  | [] => .ok output
  | item :: items => do
    let key ← fieldsKey keyFields item
    if key ∈ seen then dedupeLoop keyFields seen output items
    else dedupeLoop keyFields (key :: seen) (output ++ [item]) items

/-- `dedupe_dicts`. -/
def dedupeDicts (items : List (Dict String ν)) (keyFields : List String) :
    Except PyError (List (Dict String ν)) :=
  dedupeLoop keyFields [] [] items

/-! ## Keys -/

variable {keyFields : List String} {item a b : Dict String ν} {items rest : List (Dict String ν)}

omit [DecidableEq κ] in
theorem fieldsKey_eq (h : Hashable keyFields item) :
    fieldsKey keyFields item = .ok (knownKey keyFields item) := by
  obtain ⟨key, hkey⟩ := exists_mapM_eq_ok.mpr h
  rw [knownKey, show fieldsKey keyFields item = .ok key from hkey]

omit [DecidableEq κ] in
theorem knownKey_cons {field : String} {key : κ} (h : Hashable keyFields item)
    (hkey : HashValue.hashKey (getField item field) = .ok key) :
    knownKey (field :: keyFields) item = key :: knownKey keyFields item := by
  have hcons : fieldsKey (field :: keyFields) item = .ok (key :: knownKey keyFields item) := by
    rw [fieldsKey, List.mapM_cons, hkey, ← fieldsKey, fieldsKey_eq h]
    rfl
  rw [knownKey, hcons]

omit [DecidableEq κ] in
/-- Two keys are equal when the values are the same field by field. -/
theorem knownKey_eq_iff (ha : Hashable keyFields a) (hb : Hashable keyFields b) :
    knownKey keyFields a = knownKey keyFields b ↔ Agree keyFields a b := by
  induction keyFields with
  | nil => exact iff_of_true rfl nofun
  | cons field keyFields ih =>
    obtain ⟨⟨ka, hka⟩, ha⟩ := List.forall_mem_cons.mp ha
    obtain ⟨⟨kb, hkb⟩, hb⟩ := List.forall_mem_cons.mp hb
    rw [knownKey_cons ha hka, knownKey_cons hb hkb, List.cons.injEq, ih ha hb, Agree, Agree,
      List.forall_mem_cons, hka, hkb, Except.ok.injEq]

/-! ## The loop -/

/-- The loop over hashable items, and what it goes on with. -/
theorem dedupeLoop_append (h : ∀ item ∈ items, Hashable keyFields item) (seen : List (List κ))
    (output : List (Dict String ν)) :
    dedupeLoop keyFields seen output (items ++ rest) =
      dedupeLoop keyFields
        (((distinctFrom (knownKey keyFields) seen items).map (knownKey keyFields)).reverse ++ seen)
        (output ++ distinctFrom (knownKey keyFields) seen items) rest := by
  induction items generalizing seen output with
  | nil => simp [distinctFrom]
  | cons item items ih =>
    obtain ⟨hitem, hitems⟩ := List.forall_mem_cons.mp h
    rw [List.cons_append, dedupeLoop, fieldsKey_eq hitem, distinctFrom]
    simp only [bind, Except.bind]
    split
    · exact ih hitems seen output
    · rw [ih hitems, List.map_cons, List.reverse_cons, List.append_assoc, List.append_assoc]
      rfl

theorem dedupeDicts_append (h : ∀ item ∈ items, Hashable keyFields item) :
    dedupeDicts (items ++ rest) keyFields =
      dedupeLoop keyFields
        (((distinctBy (knownKey keyFields) items).map (knownKey keyFields)).reverse)
        (distinctBy (knownKey keyFields) items) rest := by
  rw [dedupeDicts, dedupeLoop_append h, List.append_nil, List.nil_append]
  rfl

theorem dedupeDicts_eq (h : ∀ item ∈ items, Hashable keyFields item) :
    dedupeDicts items keyFields = .ok (distinctBy (knownKey keyFields) items) := by
  have happend : dedupeDicts (items ++ []) keyFields = _ := dedupeDicts_append h
  rwa [List.append_nil] at happend

/-- Records with a key of their own, which their dictionaries have in the fields. -/
theorem dedupeDicts_map {α μ : Type} [DecidableEq μ] {dict : α → Dict String ν} {key : α → μ}
    {enc : μ → List κ} (henc : Function.Injective enc)
    (hkey : ∀ a, fieldsKey keyFields (dict a) = .ok (enc (key a))) (records : List α) :
    dedupeDicts (records.map dict) keyFields = .ok ((distinctBy key records).map dict) := by
  have hhashable : ∀ item ∈ records.map dict, Hashable keyFields item := by
    intro item hitem
    obtain ⟨a, -, rfl⟩ := List.mem_map.mp hitem
    exact exists_mapM_eq_ok.mp ⟨_, hkey a⟩
  have hknown : knownKey keyFields ∘ dict = enc ∘ key := by
    funext a
    rw [Function.comp_apply, knownKey, hkey, Function.comp_apply]
  rw [dedupeDicts_eq hhashable, distinctBy_map, hknown, distinctBy_comp henc]

/-- Only the first item of each key is left, and the items that are gone make no difference to what
comes after them. -/
structure Deduplicated (keyFields : List String) (items output : List (Dict String ν)) : Prop where
  sublist : output.Sublist items
  distinct : output.Pairwise fun a b => ¬Agree keyFields a b
  first : FirstOfEach (Agree keyFields) items output
  again : dedupeDicts output keyFields = .ok output
  append : ∀ rest, dedupeDicts (items ++ rest) keyFields = dedupeDicts (output ++ rest) keyFields

theorem dedupeDicts_first (items : List (Dict String ν)) (keyFields : List String)
    (h : ∀ item ∈ items, Hashable keyFields item) :
    ∃ output, dedupeDicts items keyFields = .ok output ∧ Deduplicated keyFields items output := by
  have hkept : ∀ item ∈ distinctBy (knownKey keyFields) items, Hashable keyFields item :=
    fun item hitem => h item (mem_of_mem_distinctBy hitem)
  refine ⟨_, dedupeDicts_eq h, distinctBy_sublist, ?_, ?_, ?_, fun rest => ?_⟩
  · have hnodup : ((distinctBy (knownKey keyFields) items).map (knownKey keyFields)).Nodup :=
      distinctBy_keys_nodup
    refine (List.pairwise_map.mp hnodup).imp_of_mem fun ha hb hne hagree => hne ?_
    exact (knownKey_eq_iff (hkept _ ha) (hkept _ hb)).mpr hagree
  · refine (firstOfEach_distinctBy (knownKey keyFields) items).imp fun a ha b hb hkey => ?_
    exact (knownKey_eq_iff (h b hb) (h a ha)).mp hkey
  · rw [dedupeDicts_eq hkept, distinctBy_distinctBy]
  · rw [dedupeDicts_append h, dedupeDicts_append hkept, distinctBy_distinctBy]

end Dedupe

/-- Findings with the severity missing, `None` and set. -/
def severities : List (Dict String Json) :=
  [⟨[("title", .str "Open port")], by decide⟩,
   ⟨[("title", .str "Open port"), ("severity", .null)], by decide⟩,
   ⟨[("severity", .str "LOW"), ("title", .str "Open port")], by decide⟩]

/-- A missing field is one that is `None`. -/
theorem dedupeDicts_first_severities :
    (dedupeDicts severities ["title", "severity"]).map List.length = .ok 2 ∧
    ∃ output, dedupeDicts severities ["title", "severity"] = .ok output ∧
      Deduplicated ["title", "severity"] severities output := by
  refine ⟨rfl, dedupeDicts_first severities ["title", "severity"] fun item hitem => ?_⟩
  simp only [severities, List.mem_cons, List.not_mem_nil, or_false] at hitem
  obtain rfl | rfl | rfl := hitem
  · exact List.forall_mem_cons.mpr ⟨⟨_, rfl⟩, List.forall_mem_singleton.mpr ⟨_, rfl⟩⟩
  · exact List.forall_mem_cons.mpr ⟨⟨_, rfl⟩, List.forall_mem_singleton.mpr ⟨_, rfl⟩⟩
  · exact List.forall_mem_cons.mpr ⟨⟨_, rfl⟩, List.forall_mem_singleton.mpr ⟨_, rfl⟩⟩

end ThreatScanner.Analyzer
