import Mathlib.Data.List.Basic
import Mathlib.Data.List.Count

/-!
# Attribute values of HTML

How a parser of HTML reads the value of a double-quoted attribute: newlines are normalized, the
value ends at the next quotation mark, and its character references are decoded. A string is a
list of UTF-16 code units, as it is in the DOM. The table of the named references is a parameter.

Decoding never makes a string longer, whatever the table is, and leaves it as long only where it
has no reference (`weight_decode`). The rules count the code units but for the apostrophes, which
is what the reader of a quoted string has to account for.
-/

namespace ThreatScanner.Html

abbrev CodeUnit := UInt16
abbrev DomString := List CodeUnit

def unit (c : Char) : CodeUnit := c.toNat.toUInt16

def nul : CodeUnit := 0
def lineFeed : CodeUnit := 10
def carriageReturn : CodeUnit := 13
def quotationMark : CodeUnit := 34
def numberSign : CodeUnit := 35
def ampersand : CodeUnit := 38
def apostrophe : CodeUnit := 39
def semicolon : CodeUnit := 59
def equalsSign : CodeUnit := 61
def replacement : CodeUnit := 0xFFFD

def isDigit (c : CodeUnit) : Bool := 48 ≤ c && c ≤ 57

def isHexDigit (c : CodeUnit) : Bool := isDigit c || (65 ≤ c && c ≤ 70) || (97 ≤ c && c ≤ 102)

def isAlphanumeric (c : CodeUnit) : Bool :=
  isDigit c || (65 ≤ c && c ≤ 90) || (97 ≤ c && c ≤ 122)

def digitValue (c : CodeUnit) : Nat :=
  if c ≤ 57 then c.toNat - 48 else if c ≤ 70 then c.toNat - 55 else c.toNat - 87

/-- The number that digits stand for. -/
def digitsValue (base : Nat) (digits : DomString) : Nat :=
  digits.foldl (fun n c => base * n + digitValue c) 0

/-- A code point in UTF-16. -/
def utf16 (n : Nat) : DomString :=
  if n < 0x10000 then [n.toUInt16]
  else [(0xD800 + (n - 0x10000) / 0x400).toUInt16, (0xDC00 + (n - 0x10000) % 0x400).toUInt16]

def units (s : String) : DomString := s.toList.flatMap fun c => utf16 c.toNat

theorem units_append (s t : String) : units (s ++ t) = units s ++ units t := by
  rw [units, String.toList_append, List.flatMap_append]
  rfl

/-- Every occurrence of a code unit replaced by a text. -/
def replaceAll (c : CodeUnit) (text cs : DomString) : DomString :=
  cs.flatMap fun d => if d = c then text else [d]

/-! ## Reading the value -/

/-- The preprocessing of the input: a carriage return is a line feed, together with a line feed
after it. -/
def normalizeNewlines (afterReturn : Bool) : DomString → DomString
  | [] => []
  | c :: cs =>
    if c = carriageReturn then lineFeed :: normalizeNewlines true cs
    else if c = lineFeed ∧ afterReturn then normalizeNewlines false cs
    else c :: normalizeNewlines false cs

/-- The value of the attribute whose opening quotation mark has been read. -/
def attributeValue (markup : DomString) : Option DomString :=
  if quotationMark ∈ markup then some (markup.takeWhile (· ≠ quotationMark)) else none

/-! ## Character references -/

/-- The table of the named character references, by their names: letters and digits, with or
without a semicolon at the end. -/
structure NamedReferences where
  expansion : DomString → Option DomString
  short : ∀ name chars, expansion name = some chars → chars.length ≤ name.length
  amp : expansion (units "amp;") = some [ampersand]
  lt : expansion (units "lt;") = some [60]
  gt : expansion (units "gt;") = some [62]
  quot : expansion (units "quot;") = some [quotationMark]

/-- The numbers of control characters that stand for other characters. -/
def controlReferences : List (Nat × CodeUnit) :=
  [(0x80, 0x20AC), (0x82, 0x201A), (0x83, 0x0192), (0x84, 0x201E), (0x85, 0x2026),
   (0x86, 0x2020), (0x87, 0x2021), (0x88, 0x02C6), (0x89, 0x2030), (0x8A, 0x0160),
   (0x8B, 0x2039), (0x8C, 0x0152), (0x8E, 0x017D), (0x91, 0x2018), (0x92, 0x2019),
   (0x93, 0x201C), (0x94, 0x201D), (0x95, 0x2022), (0x96, 0x2013), (0x97, 0x2014),
   (0x98, 0x02DC), (0x99, 0x2122), (0x9A, 0x0161), (0x9B, 0x203A), (0x9C, 0x0153),
   (0x9E, 0x017E), (0x9F, 0x0178)]

def numericValue (n : Nat) : DomString :=
  if n = 0 ∨ 0x10FFFF < n ∨ (0xD800 ≤ n ∧ n ≤ 0xDFFF) then [replacement]
  else
    match controlReferences.lookup n with
    | some c => [c]
    | none => utf16 n

/-- A numeric reference whose digits come next; `read` code units of it have been read. -/
def numericReference (base : Nat) (isDigit : CodeUnit → Bool) (read : Nat) (cs : DomString) :
    Option (DomString × Nat) :=
  let digits := cs.takeWhile isDigit
  let closing := if (cs.drop digits.length).head? = some semicolon then 1 else 0
  if digits = [] then none
  else some (numericValue (digitsValue base digits), read + digits.length + closing)

section References
variable (refs : NamedReferences)

/-- The longest name that `name` and the string after it start with. -/
def longestName (name : DomString) : DomString → Option (DomString × DomString)
  | [] => (refs.expansion name).map (name, ·)
  | c :: cs =>
    if isAlphanumeric c then
      (longestName (name ++ [c]) cs).or ((refs.expansion name).map (name, ·))
    else if c = semicolon then
      ((refs.expansion (name ++ [c])).map (name ++ [c], ·)).or
        ((refs.expansion name).map (name, ·))
    else (refs.expansion name).map (name, ·)

/-- A named reference. In an attribute a name without its semicolon is text where it could go
on. -/
def namedReference (cs : DomString) : Option (DomString × Nat) :=
  match longestName refs [] cs with
  | none => none
  | some (name, chars) =>
    if name.getLast? = some semicolon ∨
        (cs.drop name.length).head?.all fun c => c ≠ equalsSign && !isAlphanumeric c then
      some (chars, name.length)
    else none

/-- The reference after an ampersand: what it stands for, and its length. -/
def reference (cs : DomString) : Option (DomString × Nat) :=
  match cs with
  | c :: cs' =>
    if c = numberSign then
      match cs' with
      | x :: digits =>
        if x = unit 'x' ∨ x = unit 'X' then numericReference 16 isHexDigit 2 digits
        else numericReference 10 isDigit 1 cs'
      | [] => none
    else namedReference refs cs
  | [] => namedReference refs cs

/-- Decodes a value of which the first code units are already accounted for. -/
def decodeFrom : Nat → DomString → DomString
  | _, [] => []
  | n + 1, _ :: cs => decodeFrom n cs
  | 0, c :: cs =>
    if c = ampersand then
      match reference refs cs with
      | some (chars, n) => chars ++ decodeFrom n cs
      | none => c :: decodeFrom 0 cs
    else (if c = nul then replacement else c) :: decodeFrom 0 cs

/-- Decodes the character references of an attribute value. -/
def decode (cs : DomString) : DomString := decodeFrom refs 0 cs

/-- No ampersand of the string begins a character reference. -/
def NoReference (cs : DomString) : Prop :=
  ∀ before after, cs = before ++ ampersand :: after → reference refs after = none

end References

/-! ## Replacing -/

theorem replaceAll_append (c : CodeUnit) (text cs ds : DomString) :
    replaceAll c text (cs ++ ds) = replaceAll c text cs ++ replaceAll c text ds :=
  List.flatMap_append

theorem replaceAll_of_not_mem {c : CodeUnit} {cs : DomString} (h : c ∉ cs) (text : DomString) :
    replaceAll c text cs = cs := by
  induction cs with
  | nil => rfl
  | cons d cs ih =>
    rw [List.mem_cons, not_or] at h
    rw [replaceAll, List.flatMap_cons, if_neg (Ne.symm h.1), ← replaceAll, ih h.2,
      List.singleton_append]

/-! ## Newlines and the end of the value -/

theorem normalizeNewlines_cons_of_ne {c : CodeUnit} (hreturn : c ≠ carriageReturn)
    (hfeed : c ≠ lineFeed) (after : Bool) (cs : DomString) :
    normalizeNewlines after (c :: cs) = c :: normalizeNewlines false cs := by
  rw [normalizeNewlines, if_neg hreturn, if_neg fun h => hfeed h.1]

/-- A text without newlines stays as it is, and the newlines after it are read from anew. -/
theorem normalizeNewlines_text {text : DomString} (hne : text ≠ [])
    (hreturn : carriageReturn ∉ text) (hfeed : lineFeed ∉ text) (after : Bool) (cs : DomString) :
    normalizeNewlines after (text ++ cs) = text ++ normalizeNewlines false cs := by
  induction text generalizing after with
  | nil => exact (hne rfl).elim
  | cons c text ih =>
    rw [List.mem_cons, not_or] at hreturn hfeed
    rw [List.cons_append, normalizeNewlines_cons_of_ne (Ne.symm hreturn.1) (Ne.symm hfeed.1)]
    cases text with
    | nil => rfl
    | cons d text =>
      rw [ih (List.cons_ne_nil d text) hreturn.2 hfeed.2]
      rfl

theorem normalizeNewlines_of_not_mem {cs : DomString} (h : carriageReturn ∉ cs) :
    normalizeNewlines false cs = cs := by
  induction cs with
  | nil => rfl
  | cons c cs ih =>
    rw [List.mem_cons, not_or] at h
    rw [normalizeNewlines, if_neg (Ne.symm h.1), if_neg (by simp), ih h.2]

theorem mem_of_mem_normalize {c : CodeUnit} {cs : DomString} (hfeed : c ≠ lineFeed)
    {after : Bool} (h : c ∈ normalizeNewlines after cs) : c ∈ cs := by
  induction cs generalizing after with
  | nil => cases h
  | cons d cs ih =>
    rw [normalizeNewlines] at h
    split at h
    · exact List.mem_cons_of_mem d (ih ((List.mem_cons.mp h).resolve_left hfeed))
    · split at h
      · exact List.mem_cons_of_mem d (ih h)
      · rw [List.mem_cons] at h ⊢
        exact h.imp_right ih

theorem length_normalize_le (after : Bool) (cs : DomString) :
    (normalizeNewlines after cs).length ≤ cs.length := by
  induction cs generalizing after with
  | nil => exact Nat.le_refl 0
  | cons c cs ih =>
    rw [normalizeNewlines]
    split
    · exact Nat.succ_le_succ (ih true)
    · split
      · exact Nat.le_succ_of_le (ih false)
      · exact Nat.succ_le_succ (ih false)

theorem normalizeNewlines_append {b : CodeUnit} (hreturn : b ≠ carriageReturn)
    (hfeed : b ≠ lineFeed) (after : Bool) (cs ds : DomString) :
    normalizeNewlines after (cs ++ b :: ds) =
      normalizeNewlines after cs ++ b :: normalizeNewlines false ds := by
  induction cs generalizing after with
  | nil =>
    exact normalizeNewlines_cons_of_ne hreturn hfeed after ds
  | cons c cs ih =>
    rw [List.cons_append, normalizeNewlines, normalizeNewlines]
    split
    · rw [ih, List.cons_append]
    · split
      · exact ih false
      · rw [ih, List.cons_append]

/-- The value ends at the first quotation mark. -/
theorem attributeValue_eq {value : DomString} (h : quotationMark ∉ value) (rest : DomString) :
    attributeValue (value ++ quotationMark :: rest) = some value := by
  rw [attributeValue, if_pos (List.mem_append_right _ List.mem_cons_self),
    List.takeWhile_append_of_pos fun c hc => decide_eq_true (ne_of_mem_of_not_mem hc h),
    List.takeWhile_cons_of_neg (by simp), List.append_nil]

theorem attributeValue_append {text : DomString} (h : quotationMark ∉ text) (cs : DomString) :
    attributeValue (text ++ cs) = (attributeValue cs).map (text ++ ·) := by
  simp only [attributeValue, List.mem_append, or_iff_right h]
  rw [List.takeWhile_append_of_pos fun c hc => decide_eq_true (ne_of_mem_of_not_mem hc h)]
  split <;> rfl

/-- A text that the value of an attribute holds as it is written. -/
structure KeptText (text : DomString) : Prop where
  ampersand : ampersand ∉ text
  nul : nul ∉ text
  carriageReturn : carriageReturn ∉ text
  lineFeed : lineFeed ∉ text
  quotationMark : quotationMark ∉ text

/-! ## How long a decoded string is -/

/-- The length of a string without its apostrophes. -/
def weight (cs : DomString) : Nat := cs.countP (· ≠ apostrophe)

@[simp] theorem weight_nil : weight [] = 0 := rfl

theorem weight_cons (c : CodeUnit) (cs : DomString) :
    weight (c :: cs) = weight cs + if c = apostrophe then 0 else 1 := by
  rw [weight, List.countP_cons, ← weight]
  by_cases hc : c = apostrophe <;> simp [hc]

@[simp] theorem weight_append (cs ds : DomString) : weight (cs ++ ds) = weight cs + weight ds :=
  List.countP_append

theorem weight_le_length (cs : DomString) : weight cs ≤ cs.length := List.countP_le_length

theorem weight_eq_length_iff {cs : DomString} : weight cs = cs.length ↔ apostrophe ∉ cs := by
  rw [weight, List.countP_eq_length]
  simp only [decide_eq_true_eq]
  exact ⟨fun h hmem => h apostrophe hmem rfl, fun h c hc => ne_of_mem_of_not_mem hc h⟩

theorem weight_normalize_le (after : Bool) (cs : DomString) :
    weight (normalizeNewlines after cs) ≤ weight cs := by
  induction cs generalizing after with
  | nil => exact Nat.le_refl 0
  | cons c cs ih =>
    rw [normalizeNewlines]
    split
    · rename_i hc
      rw [hc, weight_cons, weight_cons]
      exact Nat.add_le_add_right (ih true) 1
    · split
      · rw [weight_cons]
        exact Nat.le_add_right_of_le (ih false)
      · rw [weight_cons, weight_cons]
        exact Nat.add_le_add_right (ih false) _

section Decoding
variable {refs : NamedReferences}

theorem length_utf16_le (n : Nat) : (utf16 n).length ≤ 2 := by
  unfold utf16
  split
  · exact Nat.le_succ 1
  · exact Nat.le_refl 2

theorem length_numericValue_le (n : Nat) : (numericValue n).length ≤ 2 := by
  unfold numericValue
  split
  · exact Nat.le_succ 1
  · split
    · exact Nat.le_succ 1
    · exact length_utf16_le n

theorem head_of_takeWhile {p : CodeUnit → Bool} {cs : DomString} (h : cs.takeWhile p ≠ []) :
    ∃ d ds, cs = d :: ds ∧ p d = true := by
  cases cs with
  | nil => exact (h rfl).elim
  | cons d ds =>
    refine ⟨d, ds, rfl, ?_⟩
    by_contra hd
    exact h (List.takeWhile_cons_of_neg hd)

theorem numericReference_eq_some {base read n : Nat} {isDigit : CodeUnit → Bool}
    {cs chars : DomString} (h : numericReference base isDigit read cs = some (chars, n)) :
    chars.length ≤ 2 ∧ (∃ d ds, cs = d :: ds ∧ isDigit d = true) ∧ read < n ∧
      n ≤ read + cs.length := by
  simp only [numericReference] at h
  split at h
  · cases h
  · rename_i hdigits
    simp only [Option.some.injEq, Prod.mk.injEq] at h
    obtain ⟨rfl, rfl⟩ := h
    have hlength : 0 < (cs.takeWhile isDigit).length := List.length_pos_iff.mpr hdigits
    have hstart := (List.takeWhile_prefix (l := cs) isDigit).length_le
    refine ⟨length_numericValue_le _, head_of_takeWhile hdigits, by omega, ?_⟩
    split
    · rename_i hclosing
      have hdrop : 0 < (cs.drop (cs.takeWhile isDigit).length).length := by
        rw [List.length_pos_iff]
        intro hnil
        rw [hnil] at hclosing
        cases hclosing
      rw [List.length_drop] at hdrop
      omega
    · omega

/-- A name that the table holds, read from the start of the string `cs` after `name`. -/
def ReadsName (refs : NamedReferences) (name cs read chars : DomString) : Prop :=
  refs.expansion read = some chars ∧ ∃ more, read = name ++ more ∧ more <+: cs ∧ apostrophe ∉ more

theorem readsName_here {name read chars cs : DomString}
    (h : (refs.expansion name).map (name, ·) = some (read, chars)) :
    ReadsName refs name cs read chars := by
  rw [Option.map_eq_some_iff] at h
  obtain ⟨_, hchars, heq⟩ := h
  cases heq
  exact ⟨hchars, [], (List.append_nil _).symm, List.nil_prefix, List.not_mem_nil⟩

theorem ReadsName.cons {name read chars cs : DomString} {c : CodeUnit}
    (h : ReadsName refs (name ++ [c]) cs read chars) (hc : c ≠ apostrophe) :
    ReadsName refs name (c :: cs) read chars := by
  obtain ⟨hchars, more, rfl, hstart, hmore⟩ := h
  refine ⟨hchars, c :: more, by simp, List.cons_prefix_cons.mpr ⟨rfl, hstart⟩, ?_⟩
  exact List.not_mem_cons_of_ne_of_not_mem hc.symm hmore

theorem readsName_longestName {name read chars cs : DomString}
    (h : longestName refs name cs = some (read, chars)) : ReadsName refs name cs read chars := by
  induction cs generalizing name with
  | nil => exact readsName_here h
  | cons c cs ih =>
    rw [longestName] at h
    split at h
    · rename_i hc
      have hne : c ≠ apostrophe := by
        rintro rfl
        exact absurd hc (by decide)
      obtain h | ⟨-, h⟩ := Option.or_eq_some_iff.mp h
      · exact (ih h).cons hne
      · exact readsName_here h
    · split at h
      · rename_i hc
        subst hc
        obtain h | ⟨-, h⟩ := Option.or_eq_some_iff.mp h
        · exact (readsName_here h).cons (by decide)
        · exact readsName_here h
      · exact readsName_here h

theorem namedReference_eq_some {cs chars : DomString} {n : Nat}
    (h : namedReference refs cs = some (chars, n)) :
    n ≤ cs.length ∧ chars.length ≤ weight (cs.take n) := by
  simp only [namedReference] at h
  split at h
  · cases h
  · rename_i name chars' hname
    split at h
    · cases h
      obtain ⟨hchars, more, hmore, hstart, hnot⟩ := readsName_longestName hname
      rw [List.nil_append] at hmore
      subst hmore
      rw [← List.prefix_iff_eq_take.mp hstart, weight_eq_length_iff.mpr hnot]
      exact ⟨hstart.length_le, refs.short _ _ hchars⟩
    · cases h

theorem two_le_weight_take {c d : CodeUnit} (cs : DomString) {n : Nat} (hc : c ≠ apostrophe)
    (hd : d ≠ apostrophe) (hn : 2 ≤ n) : 2 ≤ weight ((c :: d :: cs).take n) := by
  obtain ⟨m, rfl⟩ := Nat.exists_eq_add_of_le' hn
  rw [List.take_succ_cons, List.take_succ_cons, weight_cons, weight_cons, if_neg hc, if_neg hd]
  omega

/-- A reference stands for no more code units than it has, even without its apostrophes. -/
theorem reference_eq_some {cs chars : DomString} {n : Nat}
    (h : reference refs cs = some (chars, n)) :
    n ≤ cs.length ∧ chars.length ≤ weight (cs.take n) := by
  have hmark : numberSign ≠ apostrophe := by decide
  unfold reference at h
  split at h
  · rename_i c cs'
    split at h
    · rename_i hc
      subst hc
      split at h
      · rename_i x digits
        split at h
        · rename_i hx
          obtain ⟨hchars, -, hread, hn⟩ := numericReference_eq_some h
          have hne : x ≠ apostrophe := by
            rintro rfl
            exact absurd hx (by decide)
          have := two_le_weight_take digits hmark hne (show 2 ≤ n by omega)
          simp only [List.length_cons]
          omega
        · obtain ⟨hchars, ⟨d, ds, hcs, hd⟩, hread, hn⟩ := numericReference_eq_some h
          cases hcs
          have hne : x ≠ apostrophe := by
            rintro rfl
            exact absurd hd (by decide)
          have := two_le_weight_take digits hmark hne (show 2 ≤ n by omega)
          simp only [List.length_cons] at hn ⊢
          omega
      · cases h
    · exact namedReference_eq_some h
  · exact namedReference_eq_some h

theorem decodeFrom_eq (n : Nat) (cs : DomString) :
    decodeFrom refs n cs = decode refs (cs.drop n) := by
  induction cs generalizing n with
  | nil =>
    rw [List.drop_nil]
    cases n <;> rfl
  | cons c cs ih =>
    cases n with
    | zero => rfl
    | succ n => exact ih n

theorem decode_cons_of_ne {c : CodeUnit} (h : c ≠ ampersand) (cs : DomString) :
    decode refs (c :: cs) = (if c = nul then replacement else c) :: decode refs cs := by
  rw [decode, decodeFrom, if_neg h]
  rfl

theorem decode_text {text : DomString} (hampersand : ampersand ∉ text) (hnul : nul ∉ text)
    (cs : DomString) : decode refs (text ++ cs) = text ++ decode refs cs := by
  induction text with
  | nil => rfl
  | cons c text ih =>
    rw [List.mem_cons, not_or] at hampersand hnul
    rw [List.cons_append, decode_cons_of_ne (Ne.symm hampersand.1), if_neg (Ne.symm hnul.1),
      ih hampersand.2 hnul.2, List.cons_append]

theorem KeptText.decode {text : DomString} (h : KeptText text) : decode refs text = text := by
  have happend : Html.decode refs (text ++ []) = text ++ Html.decode refs [] :=
    decode_text h.ampersand h.nul []
  rwa [List.append_nil, show Html.decode refs [] = [] from rfl, List.append_nil] at happend

theorem decode_ampersand_none {cs : DomString} (h : reference refs cs = none) :
    decode refs (ampersand :: cs) = ampersand :: decode refs cs := by
  rw [decode, decodeFrom, if_pos rfl, h]
  rfl

theorem decode_ampersand_some {cs chars : DomString} {n : Nat}
    (h : reference refs cs = some (chars, n)) :
    decode refs (ampersand :: cs) = chars ++ decode refs (cs.drop n) := by
  rw [decode, decodeFrom, if_pos rfl, h]
  show chars ++ decodeFrom refs n cs = _
  rw [decodeFrom_eq]

/-! ## References with a semicolon -/

theorem longestName_semicolon {before name chars : DomString}
    (hname : name.all isAlphanumeric = true)
    (hexpansion : refs.expansion (before ++ name ++ [semicolon]) = some chars) (cs : DomString) :
    longestName refs before (name ++ semicolon :: cs) =
      some (before ++ name ++ [semicolon], chars) := by
  induction name generalizing before with
  | nil =>
    rw [List.append_nil] at hexpansion
    simp [longestName, hexpansion, show isAlphanumeric semicolon = false by decide]
  | cons c name ih =>
    rw [List.all_cons, Bool.and_eq_true] at hname
    obtain ⟨hc, hname⟩ := hname
    have hstep : longestName refs (before ++ [c]) (name ++ semicolon :: cs) =
        some (before ++ [c] ++ name ++ [semicolon], chars) :=
      ih hname (by simpa using hexpansion)
    rw [List.cons_append, longestName, if_pos hc, hstep]
    simp

theorem reference_named {name chars : DomString} (hname : name.all isAlphanumeric = true)
    (hexpansion : refs.expansion (name ++ [semicolon]) = some chars) (cs : DomString) :
    reference refs (name ++ semicolon :: cs) = some (chars, name.length + 1) := by
  have hlongest : longestName refs [] (name ++ semicolon :: cs) =
      some ([] ++ name ++ [semicolon], chars) := longestName_semicolon hname hexpansion cs
  have hnamed : namedReference refs (name ++ semicolon :: cs) =
      some (chars, name.length + 1) := by
    simp [namedReference, hlongest]
  cases name with
  | nil => simpa [reference, show semicolon ≠ numberSign by decide] using hnamed
  | cons c name =>
    have hc : c ≠ numberSign := by
      rintro rfl
      exact absurd (List.all_eq_true.mp hname _ List.mem_cons_self) (by decide)
    simpa [reference, hc] using hnamed

theorem reference_decimal {digits : DomString} (hdigits : digits.all isDigit = true)
    (hne : digits ≠ []) (cs : DomString) :
    reference refs (numberSign :: (digits ++ semicolon :: cs)) =
      some (numericValue (digitsValue 10 digits), digits.length + 2) := by
  have htake : (digits ++ semicolon :: cs).takeWhile isDigit = digits := by
    rw [List.takeWhile_append_of_pos (List.all_eq_true.mp hdigits),
      List.takeWhile_cons_of_neg (by decide),
      List.append_nil]
  have hnumeric : numericReference 10 isDigit 1 (digits ++ semicolon :: cs) =
      some (numericValue (digitsValue 10 digits), digits.length + 2) := by
    simp only [numericReference, htake, if_neg hne, List.drop_left, List.head?_cons, if_true]
    rw [Nat.add_comm 1, Nat.add_assoc]
  cases digits with
  | nil => exact (hne rfl).elim
  | cons d digits =>
    have hd : ¬(d = unit 'x' ∨ d = unit 'X') := by
      rintro (rfl | rfl) <;>
        exact absurd (List.all_eq_true.mp hdigits _ List.mem_cons_self) (by decide)
    simpa [reference, hd] using hnumeric

/-! ## How much is left after decoding -/

/-- What decoding makes of a code unit that is no part of a reference. -/
def decodeUnit (c : CodeUnit) : CodeUnit := if c = nul then replacement else c

theorem map_decodeUnit_eq_iff {cs : DomString} : cs.map decodeUnit = cs ↔ nul ∉ cs := by
  have hunit (c : CodeUnit) : decodeUnit c = c ↔ c ≠ nul := by
    by_cases hc : c = nul
    · subst hc
      decide
    · simp [decodeUnit, hc]
  conv_lhs => rhs; rw [← List.map_id cs]
  rw [List.map_inj_left]
  simp only [id, hunit]
  exact ⟨fun h hnul => h nul hnul rfl, fun h c hc => ne_of_mem_of_not_mem hc h⟩

theorem weight_decodeUnit (c : CodeUnit) (cs : DomString) :
    weight (decodeUnit c :: cs) = weight cs + weight [c] := by
  rw [weight_cons, weight_cons, weight_nil, Nat.zero_add, decodeUnit]
  by_cases hc : c = nul
  · rw [if_pos hc, hc]
    rfl
  · rw [if_neg hc]

theorem noReference_nil : NoReference refs [] := by
  intro before after h
  cases before <;> cases h

theorem noReference_cons {c : CodeUnit} {cs : DomString} : NoReference refs (c :: cs) ↔
    (c = ampersand → reference refs cs = none) ∧ NoReference refs cs := by
  constructor
  · intro h
    refine ⟨?_, fun before after hcs => h (c :: before) after (by rw [hcs, List.cons_append])⟩
    rintro rfl
    exact h [] cs rfl
  · rintro ⟨hhead, htail⟩ before after hcs
    cases before with
    | nil =>
      cases hcs
      exact hhead rfl
    | cons b before =>
      rw [List.cons_append, List.cons.injEq] at hcs
      exact htail before after hcs.2

theorem decode_of_noReference {cs : DomString} (h : NoReference refs cs) :
    decode refs cs = cs.map decodeUnit := by
  induction cs with
  | nil => rfl
  | cons c cs ih =>
    obtain ⟨hhead, htail⟩ := noReference_cons.mp h
    by_cases hc : c = ampersand
    · subst hc
      rw [decode_ampersand_none (hhead rfl), ih htail]
      rfl
    · rw [decode_cons_of_ne hc, ih htail]
      rfl

/-- Decoding makes a string no longer, and leaves it as long only where it has no reference. -/
theorem weight_decode (refs : NamedReferences) (cs : DomString) :
    weight (decode refs cs) ≤ weight cs ∧
      (weight (decode refs cs) = weight cs → NoReference refs cs) := by
  induction hlength : cs.length using Nat.strongRecOn generalizing cs with
  | ind k ih =>
    cases cs with
    | nil => exact ⟨Nat.le_refl 0, fun _ => noReference_nil⟩
    | cons c cs =>
      obtain rfl := hlength
      have hkeep : decode refs (c :: cs) = decodeUnit c :: decode refs cs →
          (c = ampersand → reference refs cs = none) →
          weight (decode refs (c :: cs)) ≤ weight (c :: cs) ∧
            (weight (decode refs (c :: cs)) = weight (c :: cs) → NoReference refs (c :: cs)) := by
        intro hdecode hnone
        obtain ⟨hle, heq⟩ := ih _ (Nat.lt_succ_self _) cs rfl
        have hcons : weight (c :: cs) = weight cs + weight [c] := by
          rw [weight_cons, weight_cons, weight_nil, Nat.zero_add]
        rw [hdecode, weight_decodeUnit, noReference_cons, hcons]
        exact ⟨by omega, fun h => ⟨hnone, heq (by omega)⟩⟩
      by_cases hc : c = ampersand
      · subst hc
        cases href : reference refs cs with
        | none => exact hkeep (decode_ampersand_none href) fun _ => href
        | some r =>
          obtain ⟨chars, n⟩ := r
          obtain ⟨hn, hchars⟩ := reference_eq_some href
          have hdrop := (ih (cs.drop n).length (by rw [List.length_drop, List.length_cons]; omega)
            _ rfl).1
          have hsplit := congrArg weight (List.take_append_drop n cs)
          have hchars' := weight_le_length chars
          have hampersand : weight (ampersand :: cs) = weight cs + 1 := weight_cons _ _
          rw [weight_append] at hsplit
          rw [decode_ampersand_some href, weight_append, hampersand]
          exact ⟨by omega, fun h => by omega⟩
      · exact hkeep (decode_cons_of_ne hc cs) fun h => (hc h).elim

/-! ## What ends every reference -/

/-- A code unit that no reference goes over and that does not keep a name from being one. -/
structure Boundary (b : CodeUnit) : Prop where
  alphanumeric : isAlphanumeric b = false
  digit : isDigit b = false
  hexDigit : isHexDigit b = false
  ne_semicolon : b ≠ semicolon
  ne_numberSign : b ≠ numberSign
  ne_equalsSign : b ≠ equalsSign

theorem boundary_apostrophe : Boundary apostrophe := by constructor <;> decide

theorem takeWhile_boundary {p : CodeUnit → Bool} {b : CodeUnit} (hb : p b = false)
    (cs ds : DomString) : (cs ++ b :: ds).takeWhile p = cs.takeWhile p := by
  induction cs with
  | nil => exact List.takeWhile_cons_of_neg (by simp [hb])
  | cons c cs ih =>
    rw [List.cons_append, List.takeWhile_cons, List.takeWhile_cons, ih]

theorem head?_drop_boundary {b : CodeUnit} {n : Nat} {cs : DomString} (hn : n ≤ cs.length)
    (ds : DomString) : ((cs ++ b :: ds).drop n).head? = (cs.drop n).head?.or (some b) := by
  rw [List.drop_append_of_le_length hn]
  cases cs.drop n <;> rfl

variable {b : CodeUnit}

theorem numericReference_boundary {base read : Nat} {isDigit : CodeUnit → Bool}
    (hb : isDigit b = false) (hne : b ≠ semicolon) (cs ds : DomString) :
    numericReference base isDigit read (cs ++ b :: ds) =
      numericReference base isDigit read cs := by
  have hstart := (List.takeWhile_prefix (l := cs) isDigit).length_le
  have hclosing : ((cs ++ b :: ds).drop (cs.takeWhile isDigit).length).head? = some semicolon ↔
      (cs.drop (cs.takeWhile isDigit).length).head? = some semicolon := by
    rw [head?_drop_boundary hstart]
    cases (cs.drop (cs.takeWhile isDigit).length).head? <;> simp [hne]
  simp only [numericReference, takeWhile_boundary hb, hclosing]

theorem longestName_boundary (hb : Boundary b) (name cs ds : DomString) :
    longestName refs name (cs ++ b :: ds) = longestName refs name cs := by
  induction cs generalizing name with
  | nil =>
    simp only [List.nil_append, longestName, hb.alphanumeric, Bool.false_eq_true, if_false,
      if_neg hb.ne_semicolon]
  | cons c cs ih =>
    rw [List.cons_append, longestName, longestName, ih]

theorem namedReference_boundary (hb : Boundary b) (cs ds : DomString) :
    namedReference refs (cs ++ b :: ds) = namedReference refs cs := by
  unfold namedReference
  rw [longestName_boundary hb]
  cases hname : longestName refs [] cs with
  | none => rfl
  | some r =>
    obtain ⟨name, chars⟩ := r
    obtain ⟨-, more, hmore, hstart, -⟩ := readsName_longestName hname
    rw [List.nil_append] at hmore
    subst hmore
    simp only [head?_drop_boundary hstart.length_le]
    cases (cs.drop name.length).head? <;> simp [hb.ne_equalsSign, hb.alphanumeric]

/-- What comes after such a code unit is no matter to a reference before it. -/
theorem reference_boundary (hb : Boundary b) (cs ds : DomString) :
    reference refs (cs ++ b :: ds) = reference refs cs := by
  cases cs with
  | nil =>
    simp only [List.nil_append, reference, if_neg hb.ne_numberSign]
    exact namedReference_boundary hb [] ds
  | cons c cs =>
    by_cases hc : c = numberSign
    · subst hc
      cases cs with
      | nil =>
        have hx : ¬(b = unit 'x' ∨ b = unit 'X') := by
          rintro (rfl | rfl) <;> exact absurd hb.alphanumeric (by decide)
        simp only [List.cons_append, List.nil_append, reference, if_pos, if_neg hx]
        exact numericReference_boundary hb.digit hb.ne_semicolon [] ds
      | cons x digits =>
        simp only [List.cons_append, reference, if_pos]
        rw [numericReference_boundary hb.hexDigit hb.ne_semicolon]
        rw [← List.cons_append, numericReference_boundary hb.digit hb.ne_semicolon]
    · simp only [List.cons_append, reference, if_neg hc]
      exact namedReference_boundary hb (c :: cs) ds

theorem decode_boundary (hb : Boundary b) (cs ds : DomString) :
    decode refs (cs ++ b :: ds) = decode refs cs ++ decode refs (b :: ds) := by
  induction hlength : cs.length using Nat.strongRecOn generalizing cs with
  | ind k ih =>
    obtain rfl := hlength
    cases cs with
    | nil => rfl
    | cons c cs =>
      rw [List.cons_append]
      by_cases hc : c = ampersand
      · subst hc
        cases href : reference refs cs with
        | none =>
          rw [decode_ampersand_none href, decode_ampersand_none (by rwa [reference_boundary hb]),
            ih _ (Nat.lt_succ_self _) cs rfl, List.cons_append]
        | some r =>
          obtain ⟨chars, n⟩ := r
          have hn := (reference_eq_some href).1
          rw [decode_ampersand_some href,
            decode_ampersand_some ((reference_boundary hb cs ds).trans href),
            List.drop_append_of_le_length hn, List.append_assoc]
          rw [ih (cs.drop n).length (by rw [List.length_drop, List.length_cons]; omega) _ rfl]
      · rw [decode_cons_of_ne hc, decode_cons_of_ne hc, ih _ (Nat.lt_succ_self _) cs rfl,
          List.cons_append]

end Decoding

end ThreatScanner.Html
