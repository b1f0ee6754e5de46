import Mathlib.Data.List.DropRight
import Mathlib.Data.List.Infix

/-!
# Strings as Python handles them

The case mappings and the class of letters and digits come from the Unicode tables of the
interpreter. Only their values on ASCII text are used, so they are the fields of a class whose laws
say what they are there.
-/

namespace ThreatScanner

/-- The tables behind `str.upper`, `str.lower` and `str.isalnum`. -/
class UnicodeTables where
  upper : String → String
  lower : String → String
  isAlnum : Char → Bool
  upper_ascii : ∀ s : String, (∀ c ∈ s.toList, c.toNat < 128) →
    upper s = String.ofList (s.toList.map Char.toUpper)
  lower_ascii : ∀ s : String, (∀ c ∈ s.toList, c.toNat < 128) →
    lower s = String.ofList (s.toList.map Char.toLower)
  isAlnum_ascii : ∀ c : Char, c.toNat < 128 → isAlnum c = c.isAlphanum

export UnicodeTables (upper lower isAlnum)

/-- The tables cut down to ASCII: every other character is left as it is. -/
@[reducible] def asciiTables : UnicodeTables where
  upper s := String.ofList (s.toList.map Char.toUpper)
  lower s := String.ofList (s.toList.map Char.toLower)
  isAlnum := Char.isAlphanum
  upper_ascii _ _ := rfl
  lower_ascii _ _ := rfl
  isAlnum_ascii _ _ := rfl

/-- ASCII text without lower-case letters. -/
def isUpperAscii (s : String) : Bool := s.toList.all fun c => c.toNat < 128 && c.toUpper == c

/-- ASCII text without upper-case letters. -/
def isLowerAscii (s : String) : Bool := s.toList.all fun c => c.toNat < 128 && c.toLower == c

section Tables
variable [UnicodeTables] {s : String}

theorem upper_eq_self (h : isUpperAscii s) : upper s = s := by
  simp only [isUpperAscii, List.all_eq_true, Bool.and_eq_true, decide_eq_true_eq, beq_iff_eq] at h
  rw [UnicodeTables.upper_ascii s fun c hc => (h c hc).1,
    List.map_congr_left fun c hc => (h c hc).2, List.map_id', String.ofList_toList]

theorem lower_eq_self (h : isLowerAscii s) : lower s = s := by
  simp only [isLowerAscii, List.all_eq_true, Bool.and_eq_true, decide_eq_true_eq, beq_iff_eq] at h
  rw [UnicodeTables.lower_ascii s fun c hc => (h c hc).1,
    List.map_congr_left fun c hc => (h c hc).2, List.map_id', String.ofList_toList]

theorem lower_eq_map (h : (s.toList.all fun c => decide (c.toNat < 128)) = true) :
    lower s = String.ofList (s.toList.map Char.toLower) :=
  UnicodeTables.lower_ascii s fun c hc => of_decide_eq_true (List.all_eq_true.mp h c hc)

end Tables

section Ascii
variable {c : Char}

theorem isUpper_iff : c.isUpper = true ↔ 'A'.val ≤ c.val ∧ c.val ≤ 'Z'.val :=
  decide_eq_true_iff

theorem isLower_iff : c.isLower = true ↔ 'a'.val ≤ c.val ∧ c.val ≤ 'z'.val :=
  Bool.and_eq_true_iff.trans (and_congr decide_eq_true_iff decide_eq_true_iff)

theorem isAlpha_iff : c.isAlpha = true ↔ c.isUpper = true ∨ c.isLower = true :=
  Bool.or_eq_true_iff

theorem toLower_eq_self (h : c.isUpper = false) : c.toLower = c :=
  dif_neg fun hupper => Bool.false_ne_true (h.symm.trans (isUpper_iff.mpr hupper))

/-- An upper-case letter becomes a letter that is not one. -/
theorem isAlpha_toLower (h : c.isUpper = true) :
    c.toLower.isAlpha = true ∧ c.toLower.isUpper = false := by
  have hval : c.toLower.val = c.val + 32 := congrArg Char.val (dif_pos (isUpper_iff.mp h))
  obtain ⟨hlow, hhigh⟩ := isUpper_iff.mp h
  constructor
  · refine isAlpha_iff.mpr (.inr (isLower_iff.mpr ?_))
    rw [hval]
    grind [UInt32.toNat_add, UInt32.le_iff_toNat_le]
  · rw [← Bool.not_eq_true, isUpper_iff, hval]
    grind [UInt32.toNat_add, UInt32.le_iff_toNat_le]

theorem toLower_toLower (c : Char) : c.toLower.toLower = c.toLower := by
  cases h : c.isUpper with
  | false => rw [toLower_eq_self h, toLower_eq_self h]
  | true => exact toLower_eq_self (isAlpha_toLower h).2

theorem mem_map_toLower {s : List Char} (hc : c.isAlpha = false) :
    c ∈ s.map Char.toLower ↔ c ∈ s := by
  have hself : c.toLower = c := toLower_eq_self (Bool.or_eq_false_iff.mp hc).1
  refine ⟨fun h => ?_, fun h => List.mem_map.mpr ⟨c, h, hself⟩⟩
  obtain ⟨x, hx, heq⟩ := List.mem_map.mp h
  cases hupper : x.isUpper with
  | false => rwa [← heq, toLower_eq_self hupper]
  | true =>
    have halpha := (isAlpha_toLower hupper).1
    rw [heq, hc] at halpha
    cases halpha

theorem toNat_of_isAlpha (h : c.isAlpha = true) : 65 ≤ c.toNat ∧ c.toNat ≤ 122 := by
  rcases isAlpha_iff.mp h with h | h
  · obtain ⟨hlow, hhigh⟩ := isUpper_iff.mp h
    exact ⟨hlow, Nat.le_trans hhigh (by decide)⟩
  · obtain ⟨hlow, hhigh⟩ := isLower_iff.mp h
    exact ⟨Nat.le_trans (by decide) hlow, hhigh⟩

theorem toNat_of_isDigit (h : c.isDigit = true) : 48 ≤ c.toNat ∧ c.toNat ≤ 57 := by
  simp only [Char.isDigit, Bool.and_eq_true, decide_eq_true_eq, ge_iff_le,
    UInt32.le_iff_toNat_le] at h
  exact h

end Ascii

/-- `str.isspace` on a character. -/
def isSpace (c : Char) : Bool :=
  c.toNat ∈ [0x09, 0x0a, 0x0b, 0x0c, 0x0d, 0x1c, 0x1d, 0x1e, 0x1f, 0x20, 0x85, 0xa0, 0x1680,
    0x2000, 0x2001, 0x2002, 0x2003, 0x2004, 0x2005, 0x2006, 0x2007, 0x2008, 0x2009, 0x200a,
    0x2028, 0x2029, 0x202f, 0x205f, 0x3000]

theorem isSpace_of_toNat {c : Char} (hlow : 33 ≤ c.toNat) (hhigh : c.toNat ≤ 122) :
    isSpace c = false := by
  simp only [isSpace, decide_eq_false_iff_not, List.mem_cons, List.not_mem_nil, or_false]
  omega

/-- `str.strip`. -/
def strip (cs : List Char) : List Char := (cs.dropWhile isSpace).rdropWhile isSpace

theorem countP_dropWhile {α : Type*} (p : α → Bool) (cs : List α) :
    (cs.dropWhile p).countP (!p ·) = cs.countP (!p ·) := by
  conv_rhs => rw [← List.takeWhile_append_dropWhile (p := p) (l := cs), List.countP_append]
  have hzero : (cs.takeWhile p).countP (!p ·) = 0 :=
    List.countP_eq_zero.mpr fun a ha => by simp [List.mem_takeWhile_imp ha]
  rw [hzero, Nat.zero_add]

/-- Only spaces are stripped. -/
theorem countP_strip (cs : List Char) :
    (strip cs).countP (!isSpace ·) = cs.countP (!isSpace ·) := by
  rw [strip, List.rdropWhile, List.countP_reverse, countP_dropWhile, List.countP_reverse,
    countP_dropWhile]

theorem length_strip_le (cs : List Char) : (strip cs).length ≤ cs.length :=
  Nat.le_trans (List.rdropWhile_prefix _ _).length_le (List.dropWhile_suffix _).length_le

theorem rdropWhile_strip (cs : List Char) : (strip cs).rdropWhile isSpace = strip cs :=
  List.rdropWhile_idempotent _ _

theorem strip_strip (cs : List Char) : strip (strip cs) = strip cs := by
  have hdrop : (strip cs).dropWhile isSpace = strip cs := by
    obtain ⟨behind, hprefix⟩ := List.rdropWhile_prefix isSpace (cs.dropWhile isSpace)
    have hhead := List.head?_dropWhile_not isSpace cs
    rw [← hprefix, ← strip] at hhead
    cases hstrip : strip cs with
    | nil => rfl
    | cons c rest =>
      rw [hstrip] at hhead
      exact List.dropWhile_cons_of_neg (by simpa using hhead)
  conv_lhs => rw [strip, hdrop]
  exact rdropWhile_strip cs

section Strip
variable {lead head : List Char} (tail : List Char)

theorem rdropWhile_append (hhead : ∀ c ∈ head, isSpace c = false) :
    (head ++ tail).rdropWhile isSpace = head ++ tail.rdropWhile isSpace := by
  induction tail using List.reverseRecOn with
  | nil =>
    rw [List.rdropWhile_nil, List.append_nil]
    exact List.rdropWhile_eq_self_iff.mpr fun hne => by simp [hhead _ (List.getLast_mem hne)]
  | append_singleton tail c ih =>
    rw [← List.append_assoc, List.rdropWhile_concat, List.rdropWhile_concat]
    split
    · exact ih
    · rw [List.append_assoc]

/-- The spaces around a text are stripped, and none in front of what is no space. -/
theorem strip_append (hlead : ∀ c ∈ lead, isSpace c = true)
    (hhead : ∀ c ∈ head, isSpace c = false) (hne : head ≠ []) :
    strip (lead ++ (head ++ tail)) = head ++ tail.rdropWhile isSpace := by
  have hdrop : (head ++ tail).dropWhile isSpace = head ++ tail := by
    cases head with
    | nil => exact absurd rfl hne
    | cons c head => exact List.dropWhile_cons_of_neg (by simp [hhead c List.mem_cons_self])
  rw [strip, List.dropWhile_append_of_pos hlead, hdrop, rdropWhile_append tail hhead]

end Strip

/-- `sub in s`. -/
def contains (s sub : String) : Bool := decide (sub.toList <:+: s.toList)

/-- `s.startswith(start)`. -/
def startsWith (s start : String) : Bool := decide (start.toList <+: s.toList)

theorem startsWith_append (start rest : String) : startsWith (start ++ rest) start = true :=
  decide_eq_true ⟨rest.toList, by rw [String.toList_append]⟩

/-- `s.endswith(stop)`. -/
def endsWith (s stop : String) : Bool := decide (stop.toList <:+ s.toList)

/-- `", ".join(items)`. -/
def joinComma (items : List String) : String := String.intercalate ", " items

/-- `str(x)` of a string or `None`, as an f-string shows it. -/
def showOption (x : Option String) : String := x.getD "None"

/-- `x or y` on strings, `None` and the empty string being false. -/
def orElse (x y : Option String) : Option String := if x.getD "" = "" then y else x

/-- `s.find(sub)`, `none` when there is no occurrence. -/
def find (sub : List Char) : List Char → Option Nat
  | [] => if sub = [] then some 0 else none
  | c :: s => if sub <+: c :: s then some 0 else (find sub s).map (· + 1)

/-- A text with an occurrence has a first one. -/
theorem exists_find {sub s : List Char} {i : Nat} (h : sub <+: s.drop i) :
    ∃ first, find sub s = some first := by
  induction s generalizing i with
  | nil =>
    rw [List.drop_nil] at h
    exact ⟨0, if_pos (List.prefix_nil.mp h)⟩
  | cons c s ih =>
    rw [find]
    split
    · exact ⟨0, rfl⟩
    · next hnot =>
      cases i with
      | zero => exact absurd h hnot
      | succ i =>
        obtain ⟨first, hfirst⟩ := ih h
        exact ⟨first + 1, by rw [hfirst]; rfl⟩

theorem infix_of_find {sub s : List Char} {i : Nat} (h : find sub s = some i) : sub <:+: s := by
  induction s generalizing i with
  | nil =>
    unfold find at h
    split at h
    · next hsub => exact hsub ▸ List.infix_rfl
    · cases h
  | cons c s ih =>
    unfold find at h
    split at h
    · next hstart => exact hstart.isInfix
    · obtain ⟨j, hj, -⟩ := Option.map_eq_some_iff.mp h
      exact (ih hj).trans (List.suffix_cons c s).isInfix

/-- `sub in s`. -/
theorem exists_find_iff {sub s : List Char} : (∃ i, find sub s = some i) ↔ sub <:+: s := by
  constructor
  · rintro ⟨i, hi⟩
    exact infix_of_find hi
  · rintro ⟨start, stop, rfl⟩
    refine exists_find (i := start.length) ?_
    rw [List.append_assoc, List.drop_left]
    exact List.prefix_append sub stop

end ThreatScanner
