import ThreatScanner.Python.Text

/-!
# Strings as JavaScript handles them

As in Python, the case mappings come from the Unicode tables of the engine, and only their values on
ASCII text are used. The white space of `String.prototype.trim` is not that of `str.strip`.
-/

namespace ThreatScanner.Frontend

/-- The tables behind `toUpperCase` and `toLowerCase`. -/
class JsTables where
  toUpperCase : String → String
  toLowerCase : String → String
  toUpperCase_ascii : ∀ s : String, (∀ c ∈ s.toList, c.toNat < 128) →
    toUpperCase s = String.ofList (s.toList.map Char.toUpper)
  toLowerCase_ascii : ∀ s : String, (∀ c ∈ s.toList, c.toNat < 128) →
    toLowerCase s = String.ofList (s.toList.map Char.toLower)

export JsTables (toUpperCase toLowerCase)

/-- The tables cut down to ASCII, where the two languages agree. -/
@[reducible] def asciiJsTables : JsTables where
  toUpperCase := @upper asciiTables
  toLowerCase := @lower asciiTables
  toUpperCase_ascii := @UnicodeTables.upper_ascii asciiTables
  toLowerCase_ascii := @UnicodeTables.lower_ascii asciiTables

section Tables
variable [JsTables] {s : String}

theorem toUpperCase_eq_map (h : (s.toList.all fun c => decide (c.toNat < 128)) = true) :
    toUpperCase s = String.ofList (s.toList.map Char.toUpper) :=
  JsTables.toUpperCase_ascii s fun c hc => of_decide_eq_true (List.all_eq_true.mp h c hc)

theorem toLowerCase_eq_map (h : (s.toList.all fun c => decide (c.toNat < 128)) = true) :
    toLowerCase s = String.ofList (s.toList.map Char.toLower) :=
  JsTables.toLowerCase_ascii s fun c hc => of_decide_eq_true (List.all_eq_true.mp h c hc)

end Tables

/-- White space and line terminators. -/
def isJsSpace (c : Char) : Bool :=
  c.toNat ∈ [0x09, 0x0a, 0x0b, 0x0c, 0x0d, 0x20, 0xa0, 0x1680, 0x2000, 0x2001, 0x2002, 0x2003,
    0x2004, 0x2005, 0x2006, 0x2007, 0x2008, 0x2009, 0x200a, 0x2028, 0x2029, 0x202f, 0x205f, 0x3000,
    0xfeff]

/-- `trim`. -/
def trim (cs : List Char) : List Char := (cs.dropWhile isJsSpace).rdropWhile isJsSpace

end ThreatScanner.Frontend
