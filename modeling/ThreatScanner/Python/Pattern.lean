import ThreatScanner.Library.Matching
import ThreatScanner.Python.Text

/-!
# Patterns as Python writes them

The classes of characters in the patterns of the repository, which consist of ASCII characters and
of `\s`, with and without `re.IGNORECASE`, and the pieces from which the patterns are put together.
-/

namespace ThreatScanner

/-- A character class of a pattern. -/
inductive CharClass where
  | space
  | set (negated : Bool) (ranges : List (Char × Char))
deriving DecidableEq

/-- The character that `re.IGNORECASE` compares, for patterns of ASCII characters: besides the
ASCII letters these four have an ASCII letter as their other case. -/
def foldCase (c : Char) : Char :=
  if c.toNat = 0x130 ∨ c.toNat = 0x131 then 'i'
  else if c.toNat = 0x17f then 's'
  else if c.toNat = 0x212a then 'k'
  else c.toLower

def inRange (c : Char) (range : Char × Char) : Bool :=
  range.1.toNat ≤ c.toNat && c.toNat ≤ range.2.toNat

/-- Membership in a class as it is written. -/
def CharClass.memExact : CharClass → Char → Bool
  | space, c => isSpace c
  | set negated ranges, c => negated != ranges.any (inRange c)

/-- Membership in a class under `re.IGNORECASE`. -/
def CharClass.mem : CharClass → Char → Bool
  | space, c => isSpace c
  | set negated ranges, c =>
    let folded := foldCase c
    negated != ranges.any fun range => inRange folded range || inRange folded.toUpper range

/-- A class of printable ASCII characters, none of them a space. -/
def CharClass.solid : CharClass → Bool
  | space => false
  | set negated ranges =>
    !negated && ranges.all fun range => 0x21 ≤ range.1.toNat && range.2.toNat ≤ 0x7e

theorem foldCase_space {c : Char} (h : isSpace c = true) :
    foldCase c = c ∧ c.toUpper = c ∧ (c.toNat < 0x21 ∨ 0x7e < c.toNat) := by
  simp only [isSpace, decide_eq_true_eq, List.mem_cons, List.not_mem_nil, or_false] at h
  have hspecial : c.toNat ≠ 0x130 ∧ c.toNat ≠ 0x131 ∧ c.toNat ≠ 0x17f ∧ c.toNat ≠ 0x212a := by
    omega
  have hrange : c.toNat < 0x21 ∨ 0x7e < c.toNat := by omega
  have hlower : c.toLower = c := by
    refine dif_neg fun hletter => ?_
    have hlo : 0x41 ≤ c.toNat := UInt32.le_iff_toNat_le.mp hletter.1
    have hhi : c.toNat ≤ 0x5a := UInt32.le_iff_toNat_le.mp hletter.2
    omega
  have hupper : c.toUpper = c := by
    refine dif_neg fun hletter => ?_
    have hlo : 0x61 ≤ c.toNat := UInt32.le_iff_toNat_le.mp hletter.1
    have hhi : c.toNat ≤ 0x7a := UInt32.le_iff_toNat_le.mp hletter.2
    omega
  refine ⟨?_, hupper, hrange⟩
  rw [foldCase, if_neg (by omega), if_neg (by omega), if_neg (by omega), hlower]

theorem CharClass.not_isSpace_of_mem {cls : CharClass} {c : Char} (h : cls.solid = true)
    (hmem : cls.mem c = true) : isSpace c = false := by
  cases cls with
  | space => cases h
  | set negated ranges =>
    simp only [solid, Bool.and_eq_true, Bool.not_eq_true', List.all_eq_true,
      decide_eq_true_eq] at h
    obtain ⟨rfl, hranges⟩ := h
    rw [Bool.eq_false_iff]
    intro hspace
    obtain ⟨hfold, hupper, hcode⟩ := foldCase_space hspace
    simp only [mem, hfold, hupper, Bool.or_self, Bool.false_bne, List.any_eq_true, inRange,
      Bool.and_eq_true, decide_eq_true_eq] at hmem
    obtain ⟨range, hrange, hlo, hhi⟩ := hmem
    have hbounds := hranges range hrange
    omega

/-- Among the ASCII characters that `p` selects, case makes no difference to the class. -/
def CharClass.agreesOn (p : Char → Bool) (cls : CharClass) : Bool :=
  (List.range 128).all fun n =>
    !p (Char.ofNat n) || cls.mem (Char.ofNat n) == cls.memExact (Char.ofNat n)

/-- The ASCII characters of the class are among those that `p` selects. -/
def CharClass.within (p : Char → Bool) (cls : CharClass) : Bool :=
  (List.range 128).all fun n => !cls.memExact (Char.ofNat n) || p (Char.ofNat n)

/-- A class of ASCII characters, or that of the spaces. -/
def CharClass.plain (cls : CharClass) : Bool := cls == space || cls.solid

/-- Each range of the class is a single character. -/
def CharClass.single : CharClass → Bool
  | space => false
  | set negated ranges => !negated && ranges.all fun range => range.1 == range.2

def CharClass.singles : CharClass → List Char
  | space => []
  | set _ ranges => ranges.map Prod.fst

section Exact
variable {p : Char → Bool} {cls : CharClass} {c : Char}

/-- What a plain class has as its members. -/
def isPlain (c : Char) : Bool := c.toNat < 128 || isSpace c

theorem isPlain_of_memExact (h : cls.plain = true) (hmem : cls.memExact c = true) :
    isPlain c = true := by
  cases cls with
  | space => exact Bool.or_eq_true_iff.mpr (.inr hmem)
  | set negated ranges =>
    obtain ⟨hnegated, hranges⟩ := Bool.and_eq_true_iff.mp h
    cases negated with
    | true => cases hnegated
    | false =>
      rw [CharClass.memExact, Bool.false_bne] at hmem
      obtain ⟨range, hrange, hin⟩ := List.any_eq_true.mp hmem
      obtain ⟨-, hlast⟩ := Bool.and_eq_true_iff.mp (List.all_eq_true.mp hranges range hrange)
      obtain ⟨-, hle⟩ := Bool.and_eq_true_iff.mp hin
      have hlast := of_decide_eq_true hlast
      have hle := of_decide_eq_true hle
      refine Bool.or_eq_true_iff.mpr (.inl (decide_eq_true ?_))
      omega

theorem memExact_of_mem (h : cls.agreesOn p = true) (hplain : isPlain c = true)
    (hp : p c = true) (hmem : cls.mem c = true) : cls.memExact c = true := by
  rcases Bool.or_eq_true_iff.mp hplain with hascii | hspace
  · have hagrees := List.all_eq_true.mp h c.toNat (List.mem_range.mpr (of_decide_eq_true hascii))
    rw [Char.ofNat_toNat, hp, hmem, Bool.not_true, Bool.false_or, beq_iff_eq] at hagrees
    exact hagrees.symm
  · cases cls with
    | space => exact hmem
    | set negated ranges =>
      obtain ⟨hfold, hupper, -⟩ := foldCase_space hspace
      simp only [CharClass.mem, hfold, hupper, Bool.or_self] at hmem
      exact hmem

theorem pred_of_memExact (h : cls.within p = true) (hascii : c.toNat < 128)
    (hmem : cls.memExact c = true) : p c = true := by
  have hwithin := List.all_eq_true.mp h c.toNat (List.mem_range.mpr hascii)
  rwa [Char.ofNat_toNat, hmem, Bool.not_true, Bool.false_or] at hwithin

theorem CharClass.memExact_iff_singles (h : cls.single = true) :
    cls.memExact c = true ↔ c ∈ cls.singles := by
  cases cls with
  | space => cases h
  | set negated ranges =>
    obtain ⟨hnegated, hranges⟩ := Bool.and_eq_true_iff.mp h
    have hnegated : negated = false := Bool.not_eq_true' negated ▸ hnegated
    rw [hnegated, memExact, Bool.false_bne, List.any_eq_true, singles, List.mem_map]
    refine exists_congr fun range => and_congr_right fun hrange => ?_
    have heq : range.1 = range.2 := beq_iff_eq.mp (List.all_eq_true.mp hranges range hrange)
    rw [inRange, ← heq, Bool.and_eq_true_iff, decide_eq_true_iff, decide_eq_true_iff,
      ← Char.toNat_inj]
    omega

end Exact

abbrev Pattern := Regex CharClass

namespace Pattern

def chars (ranges : List (Char × Char)) : CharClass := .set false ranges

/-- The characters of a text, one after the other. -/
def lit (s : String) : Pattern :=
  s.toList.foldr (fun c r => .seq (.one (chars [(c, c)])) r) .empty

def cat (rs : List Pattern) : Pattern := rs.foldr .seq .empty

def opt (r : Pattern) : Pattern := .alt r .empty

/-- `\s+`. -/
def spaces1 : Pattern := .rep .space 1 none

/-- `\s*`. -/
def spaces : Pattern := .rep .space 0 none

def alnum : List (Char × Char) := [('A', 'Z'), ('a', 'z'), ('0', '9')]

/-- `["']`. -/
def quote : Pattern := .one (chars [('"', '"'), ('\'', '\'')])

/-- `([^"']{lo,})`. -/
def quoted (lo : Nat) : Pattern :=
  .group (.rep (.set true [('"', '"'), ('\'', '\'')]) lo none)

/-- `[:=]`. -/
def assign : Pattern := .one (chars [(':', ':'), ('=', '=')])

/-- `[_-]?`. -/
def joiner : Pattern := opt (.one (chars [('_', '_'), ('-', '-')]))

end Pattern

/-- The characters of `\w`. -/
def isWord [UnicodeTables] (c : Char) : Bool := isAlnum c || c = '_'

/-- `re.search(pattern, text)`. -/
def searches [UnicodeTables] (pattern : Pattern) (text : String) : Bool :=
  !(pattern.finditer CharClass.memExact isWord text.toList).isEmpty

/-! ## Everything but spaces -/

end ThreatScanner
