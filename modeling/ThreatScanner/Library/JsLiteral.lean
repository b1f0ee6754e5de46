import ThreatScanner.Library.Html

/-!
# String literals of JavaScript

The reading of a string literal between apostrophes, as the lexer of a browser does it: where it
ends, and the string it stands for. `escapeQuotes` writes a backslash before every apostrophe. A
literal stands for a string of at most as many code units as its text has without the apostrophes,
and for as many only where its text is what `escapeQuotes` writes (`literal_eq_some`).
-/

namespace ThreatScanner.Js

open Html

def backslash : CodeUnit := 92
def lineSeparator : CodeUnit := 0x2028
def paragraphSeparator : CodeUnit := 0x2029

def isOctalDigit (c : CodeUnit) : Bool := 48 ≤ c && c ≤ 55

/-! ## Escape sequences -/

/-- An escape of a fixed number of hexadecimal digits, after its letter. -/
def hexEscape (count : Nat) (cs : DomString) : Option (DomString × Nat) :=
  let digits := cs.take count
  if digits.length = count ∧ digits.all isHexDigit then
    some ([(digitsValue 16 digits).toUInt16], 1 + count)
  else none

/-- An escape of a code point, after its opening brace. -/
def codePointEscape (cs : DomString) : Option (DomString × Nat) :=
  let digits := cs.takeWhile isHexDigit
  if digits ≠ [] ∧ (cs.drop digits.length).head? = some (unit '\x7d') ∧
      digitsValue 16 digits ≤ 0x10FFFF then
    some (utf16 (digitsValue 16 digits), 2 + digits.length + 1)
  else none

/-- An octal escape: at most three digits, and at most the value 255. -/
def octalEscape (c : CodeUnit) (cs : DomString) : DomString × Nat :=
  let digits := c :: (cs.take (if c ≤ unit '3' then 2 else 1)).takeWhile isOctalDigit
  ([(digitsValue 8 digits).toUInt16], digits.length)

def controlEscapes : List (CodeUnit × CodeUnit) :=
  [(unit 'b', 8), (unit 't', 9), (unit 'n', 10), (unit 'v', 11), (unit 'f', 12), (unit 'r', 13)]

/-- The escape sequence after a backslash: what it stands for, and its length. -/
def escape : DomString → Option (DomString × Nat)
  | [] => none
  | c :: cs =>
    if c = unit 'x' then hexEscape 2 cs
    else if c = unit 'u' then
      if cs.head? = some (unit '\x7b') then codePointEscape cs.tail else hexEscape 4 cs
    else if isOctalDigit c then some (octalEscape c cs)
    else if c = carriageReturn then some ([], if cs.head? = some lineFeed then 2 else 1)
    else if c = lineFeed ∨ c = lineSeparator ∨ c = paragraphSeparator then some ([], 1)
    else some ([(controlEscapes.lookup c).getD c], 1)

/-- Reads the rest of a literal of which the first code units are already accounted for. -/
def literalFrom : Nat → DomString → Option (DomString × DomString)
  | _, [] => none
  | n + 1, _ :: cs => literalFrom n cs
  | 0, c :: cs =>
    if c = apostrophe then some ([], cs)
    else if c = lineFeed ∨ c = carriageReturn then none
    else if c = backslash then
      match escape cs with
      | some (chars, n) => (literalFrom n cs).map (Prod.map (chars ++ ·) id)
      | none => none
    else (literalFrom 0 cs).map (Prod.map (c :: ·) id)

/-- Reads a literal whose opening apostrophe has been read: the string it stands for, and what
comes after it. -/
def literal (cs : DomString) : Option (DomString × DomString) := literalFrom 0 cs

/-! ## Calls -/

/-- A call whose first argument is a string literal; `rest` is what comes after the literal. -/
structure Call where
  callee : DomString
  argument : DomString
  rest : DomString
deriving DecidableEq

def readCall (source : DomString) : Option Call :=
  let callee := source.takeWhile isAlphanumeric
  match source.drop callee.length with
  | c :: d :: text =>
    if c = unit '(' ∧ d = apostrophe then
      (literal text).map fun (argument, rest) => { callee, argument, rest }
    else none
  | _ => none

theorem readCall_eq {callee : DomString} (h : callee.all isAlphanumeric = true)
    (text : DomString) : readCall (callee ++ unit '(' :: apostrophe :: text) =
      (literal text).map fun (argument, rest) => { callee, argument, rest } := by
  have hname : (callee ++ unit '(' :: apostrophe :: text).takeWhile isAlphanumeric = callee := by
    rw [List.takeWhile_append_of_pos (List.all_eq_true.mp h),
      List.takeWhile_cons_of_neg (by decide), List.append_nil]
  simp only [readCall, hname, List.drop_left, and_self, if_true]

/-! ## What a literal stands for -/

theorem literalFrom_eq (n : Nat) (cs : DomString) : literalFrom n cs = literal (cs.drop n) := by
  induction cs generalizing n with
  | nil =>
    rw [List.drop_nil]
    cases n <;> rfl
  | cons c cs ih =>
    cases n with
    | zero => rfl
    | succ n => exact ih n

theorem boundary_backslash : Boundary backslash := by constructor <;> decide

/-- A backslash before every apostrophe. -/
def escapeQuotes (cs : DomString) : DomString := replaceAll apostrophe [backslash, apostrophe] cs

theorem escapeQuotes_cons (c : CodeUnit) (cs : DomString) : escapeQuotes (c :: cs) =
    (if c = apostrophe then [backslash, apostrophe] else [c]) ++ escapeQuotes cs := rfl

theorem escapeQuotes_append (cs ds : DomString) :
    escapeQuotes (cs ++ ds) = escapeQuotes cs ++ escapeQuotes ds := replaceAll_append ..

theorem escapeQuotes_of_not_mem {cs : DomString} (h : apostrophe ∉ cs) : escapeQuotes cs = cs :=
  replaceAll_of_not_mem h _

theorem weight_escapeQuotes (cs : DomString) : weight (escapeQuotes cs) = cs.length := by
  induction cs with
  | nil => rfl
  | cons c cs ih =>
    rw [escapeQuotes_cons, weight_append, ih, List.length_cons, Nat.add_comm]
    congr 1
    by_cases hc : c = apostrophe
    · rw [if_pos hc]
      rfl
    · rw [if_neg hc, weight_cons, if_neg hc, weight_nil]

theorem mem_escapeQuotes {c : CodeUnit} (hbackslash : c ≠ backslash) (cs : DomString) :
    c ∈ escapeQuotes cs ↔ c ∈ cs := by
  induction cs with
  | nil => rfl
  | cons d cs ih =>
    rw [escapeQuotes_cons, List.mem_append, ih, List.mem_cons]
    refine or_congr ?_ Iff.rfl
    by_cases hd : d = apostrophe
    · simp [hd, hbackslash]
    · simp [hd]

/-- The backslashes come where no reference can go on. -/
theorem reference_escapeQuotes (refs : NamedReferences) (cs : DomString) :
    reference refs (escapeQuotes cs) = reference refs cs := by
  by_cases h : apostrophe ∈ cs
  · obtain ⟨before, after, rfl, hbefore⟩ := List.eq_append_cons_of_mem h
    rw [escapeQuotes_append, escapeQuotes_of_not_mem hbefore, escapeQuotes_cons, if_pos rfl,
      reference_boundary boundary_apostrophe]
    exact reference_boundary boundary_backslash before _
  · rw [escapeQuotes_of_not_mem h]

theorem noReference_escapeQuotes {refs : NamedReferences} (cs : DomString) :
    NoReference refs (escapeQuotes cs) ↔ NoReference refs cs := by
  induction cs with
  | nil => rfl
  | cons c cs ih =>
    rw [escapeQuotes_cons, noReference_cons, ← ih]
    by_cases hc : c = apostrophe
    · subst hc
      rw [if_pos rfl]
      show NoReference refs (backslash :: apostrophe :: escapeQuotes cs) ↔ _
      rw [noReference_cons, noReference_cons]
      simp [show backslash ≠ ampersand by decide, show apostrophe ≠ ampersand by decide]
    · rw [if_neg hc, List.singleton_append, noReference_cons, reference_escapeQuotes]

/-- What a literal can hold as it is, but for the apostrophes. -/
structure Plain (cs : DomString) : Prop where
  backslash : backslash ∉ cs
  lineFeed : lineFeed ∉ cs
  carriageReturn : carriageReturn ∉ cs

theorem plain_nil : Plain [] := by constructor <;> exact List.not_mem_nil

theorem plain_cons {c : CodeUnit} {cs : DomString} : Plain (c :: cs) ↔
    (c ≠ backslash ∧ c ≠ lineFeed ∧ c ≠ carriageReturn) ∧ Plain cs := by
  constructor
  · rintro ⟨hbackslash, hfeed, hreturn⟩
    simp only [List.mem_cons, not_or] at hbackslash hfeed hreturn
    exact ⟨⟨Ne.symm hbackslash.1, Ne.symm hfeed.1, Ne.symm hreturn.1⟩,
      hbackslash.2, hfeed.2, hreturn.2⟩
  · rintro ⟨⟨hbackslash, hfeed, hreturn⟩, htail⟩
    exact ⟨List.not_mem_cons_of_ne_of_not_mem hbackslash.symm htail.backslash,
      List.not_mem_cons_of_ne_of_not_mem hfeed.symm htail.lineFeed,
      List.not_mem_cons_of_ne_of_not_mem hreturn.symm htail.carriageReturn⟩

theorem hexEscape_eq_some {count n : Nat} {cs chars : DomString}
    (h : hexEscape count cs = some (chars, n)) : chars.length ≤ 1 ∧ 1 ≤ n := by
  simp only [hexEscape] at h
  split at h
  · cases h
    exact ⟨Nat.le_refl 1, Nat.le_add_right 1 count⟩
  · cases h

theorem codePointEscape_eq_some {n : Nat} {cs chars : DomString}
    (h : codePointEscape cs = some (chars, n)) : chars.length ≤ 2 ∧ 2 ≤ n := by
  simp only [codePointEscape] at h
  split at h
  · cases h
    exact ⟨length_utf16_le _, by omega⟩
  · cases h

theorem escape_apostrophe (cs : DomString) :
    escape (apostrophe :: cs) = some ([apostrophe], 1) := rfl

/-- An escape sequence stands for no more code units than it has. -/
theorem escape_eq_some {c : CodeUnit} {cs chars : DomString} {n : Nat}
    (hc : c ≠ apostrophe) (h : escape (c :: cs) = some (chars, n)) :
    chars.length ≤ weight ((c :: cs).take n) := by
  have hone {chars : DomString} {n : Nat} (hchars : chars.length ≤ 1) (hn : 1 ≤ n) :
      chars.length ≤ weight ((c :: cs).take n) := by
    obtain ⟨m, rfl⟩ := Nat.exists_eq_add_of_le' hn
    rw [List.take_succ_cons, weight_cons, if_neg hc]
    omega
  simp only [escape] at h
  split at h
  · obtain ⟨hchars, hn⟩ := hexEscape_eq_some h
    exact hone hchars hn
  · split at h
    · split at h
      · rename_i hbrace
        obtain ⟨hchars, hn⟩ := codePointEscape_eq_some h
        obtain ⟨ds, rfl⟩ := List.head?_eq_some_iff.mp hbrace
        exact Nat.le_trans hchars (two_le_weight_take ds hc (by decide) hn)
      · obtain ⟨hchars, hn⟩ := hexEscape_eq_some h
        exact hone hchars hn
    · split at h
      · cases h
        exact hone (Nat.le_refl 1) (Nat.le_add_left 1 _)
      · split at h
        · cases h
          exact hone (Nat.zero_le 1) (by split <;> decide)
        · split at h
          · cases h
            exact hone (Nat.zero_le 1) (Nat.le_refl 1)
          · cases h
            exact hone (Nat.le_refl 1) (Nat.le_refl 1)

theorem literal_apostrophe (cs : DomString) : literal (apostrophe :: cs) = some ([], cs) := rfl

theorem literal_backslash {cs chars : DomString} {n : Nat} (h : escape cs = some (chars, n)) :
    literal (backslash :: cs) = (literal (cs.drop n)).map (Prod.map (chars ++ ·) id) := by
  have hliteral : literal (backslash :: cs) =
      (literalFrom n cs).map (Prod.map (chars ++ ·) id) := by
    simp [literal, literalFrom, h, show backslash ≠ apostrophe by decide,
      show backslash ≠ lineFeed by decide, show backslash ≠ carriageReturn by decide]
  rw [hliteral, literalFrom_eq]

theorem literal_cons {c : CodeUnit} (hquote : c ≠ apostrophe)
    (hplain : c ≠ backslash ∧ c ≠ lineFeed ∧ c ≠ carriageReturn) (cs : DomString) :
    literal (c :: cs) = (literal cs).map (Prod.map (c :: ·) id) := by
  obtain ⟨hbackslash, hfeed, hreturn⟩ := hplain
  rw [literal, literalFrom, if_neg hquote, if_neg (not_or.mpr ⟨hfeed, hreturn⟩),
    if_neg hbackslash]
  rfl

/-- What the text of a literal can stand for: no more code units than it has without its
apostrophes, and as many only where its escape sequences are those of the apostrophes. -/
structure Spells (raw value : DomString) : Prop where
  length_le : value.length ≤ weight raw
  tight : value.length = weight raw → raw = escapeQuotes value ∧ Plain value

theorem spells_nil : Spells [] [] := ⟨Nat.le_refl 0, fun _ => ⟨rfl, plain_nil⟩⟩

theorem Spells.cons {c : CodeUnit} {raw value : DomString} (h : Spells raw value)
    (hquote : c ≠ apostrophe) (hc : c ≠ backslash ∧ c ≠ lineFeed ∧ c ≠ carriageReturn) :
    Spells (c :: raw) (c :: value) := by
  have hle := h.length_le
  constructor
  · rw [weight_cons, if_neg hquote, List.length_cons]
    omega
  · intro heq
    rw [weight_cons, if_neg hquote, List.length_cons] at heq
    obtain ⟨rfl, hvalue⟩ := h.tight (by omega)
    refine ⟨?_, plain_cons.mpr ⟨hc, hvalue⟩⟩
    rw [escapeQuotes_cons, if_neg hquote, List.singleton_append]

theorem Spells.escape {cs raw chars value : DomString} {n : Nat} (h : Spells raw value)
    (hescape : escape cs = some (chars, n)) :
    Spells (backslash :: cs.take n ++ raw) (chars ++ value) := by
  have hle := h.length_le
  have hweight : weight (backslash :: cs.take n ++ raw) = weight (cs.take n) + 1 + weight raw := by
    rw [weight_append, weight_cons, if_neg (by decide)]
  cases cs with
  | nil => cases hescape
  | cons d ds =>
    by_cases hd : d = apostrophe
    · subst hd
      rw [escape_apostrophe] at hescape
      cases hescape
      have htake : weight ((apostrophe :: ds).take 1) = 0 := rfl
      rw [htake] at hweight
      constructor
      · rw [hweight, List.singleton_append, List.length_cons]
        omega
      · intro heq
        rw [hweight, List.singleton_append, List.length_cons] at heq
        obtain ⟨rfl, hvalue⟩ := h.tight (by omega)
        exact ⟨rfl, plain_cons.mpr ⟨by decide, hvalue⟩⟩
    · have hchars := escape_eq_some hd hescape
      constructor
      · rw [hweight, List.length_append]
        omega
      · intro heq
        rw [hweight, List.length_append] at heq
        omega

theorem literal_eq_some {text value rest : DomString} (h : literal text = some (value, rest)) :
    ∃ raw, text = raw ++ apostrophe :: rest ∧ Spells raw value := by
  induction hlength : text.length using Nat.strongRecOn generalizing text value with
  | ind k ih =>
    obtain rfl := hlength
    cases text with
    | nil => cases h
    | cons c cs =>
      by_cases hquote : c = apostrophe
      · subst hquote
        rw [literal_apostrophe] at h
        cases h
        exact ⟨[], rfl, spells_nil⟩
      by_cases hnewline : c = lineFeed ∨ c = carriageReturn
      · rw [literal, literalFrom, if_neg hquote, if_pos hnewline] at h
        cases h
      by_cases hbackslash : c = backslash
      · subst hbackslash
        cases hescape : escape cs with
        | none =>
          rw [literal, literalFrom, if_neg hquote, if_neg hnewline, if_pos rfl, hescape] at h
          cases h
        | some r =>
          obtain ⟨chars, n⟩ := r
          rw [literal_backslash hescape, Option.map_eq_some_iff] at h
          obtain ⟨⟨v, rest'⟩, hv, heq⟩ := h
          cases heq
          have hshorter : (cs.drop n).length < (backslash :: cs).length := by
            rw [List.length_drop, List.length_cons]
            omega
          obtain ⟨raw, hraw, hspells⟩ := ih _ hshorter hv rfl
          refine ⟨backslash :: cs.take n ++ raw, ?_, hspells.escape hescape⟩
          rw [List.cons_append, List.cons_append, List.append_assoc, ← hraw,
            List.take_append_drop]
      · have hc := not_or.mp hnewline
        rw [literal_cons hquote ⟨hbackslash, hc⟩, Option.map_eq_some_iff] at h
        obtain ⟨⟨v, rest'⟩, hv, heq⟩ := h
        cases heq
        obtain ⟨raw, hraw, hspells⟩ := ih _ (Nat.lt_succ_self _) hv rfl
        exact ⟨c :: raw, by rw [hraw, List.cons_append], hspells.cons hquote ⟨hbackslash, hc⟩⟩

theorem spells_of_literal {raw value rest : DomString}
    (h : literal (raw ++ apostrophe :: rest) = some (value, rest)) : Spells raw value := by
  obtain ⟨raw', heq, hspells⟩ := literal_eq_some h
  rwa [List.append_cancel_right heq]

theorem literal_escapeQuotes {value : DomString} (h : Plain value) (rest : DomString) :
    literal (escapeQuotes value ++ apostrophe :: rest) = some (value, rest) := by
  induction value with
  | nil => exact literal_apostrophe rest
  | cons c cs ih =>
    obtain ⟨hc, htail⟩ := plain_cons.mp h
    rw [escapeQuotes_cons]
    by_cases hquote : c = apostrophe
    · subst hquote
      rw [if_pos rfl]
      show literal (backslash :: apostrophe :: (escapeQuotes cs ++ apostrophe :: rest)) = _
      rw [literal_backslash (escape_apostrophe _), List.drop_one, List.tail_cons, ih htail]
      rfl
    · rw [if_neg hquote]
      show literal (c :: (escapeQuotes cs ++ apostrophe :: rest)) = _
      rw [literal_cons hquote hc, ih htail]
      rfl

end ThreatScanner.Js
