import Mathlib.Data.List.SplitBy

/-!
# Form coding

UTF-8 and the percent coding of forms, on texts and on bytes as numbers. Reading never fails: bytes
that are no UTF-8 give the replacement character, one for each maximal part of a sequence, and a
percent sign that no two hex digits follow stands for itself. What is written is read back.
-/

namespace ThreatScanner.FormCoding

/-! ## UTF-8 -/

def encodeChar (c : Char) : List Nat :=
  let n := c.toNat
  if n < 0x80 then [n]
  else if n < 0x800 then [0xC0 + n / 64, 0x80 + n % 64]
  else if n < 0x10000 then [0xE0 + n / 4096, 0x80 + n / 64 % 64, 0x80 + n % 64]
  else [0xF0 + n / 262144, 0x80 + n / 4096 % 64, 0x80 + n / 64 % 64, 0x80 + n % 64]

def replacement : Char := '\uFFFD'

/-- The rest of a sequence: how many bytes are left, the bounds of the next one, and the value of
those read so far. -/
structure Pending where
  left : Nat
  low : Nat
  high : Nat
  value : Nat

/-- A byte that begins a sequence. -/
def first (b : Nat) : List Char × Option Pending :=
  if b < 0x80 then ([Char.ofNat b], none)
  else if b < 0xC2 then ([replacement], none)
  else if b < 0xE0 then ([], some ⟨1, 0x80, 0xBF, b - 0xC0⟩)
  else if b < 0xF0 then
    ([], some ⟨2, if b = 0xE0 then 0xA0 else 0x80, if b = 0xED then 0x9F else 0xBF, b - 0xE0⟩)
  else if b < 0xF5 then
    ([], some ⟨3, if b = 0xF0 then 0x90 else 0x80, if b = 0xF4 then 0x8F else 0xBF, b - 0xF0⟩)
  else ([replacement], none)

/-- The characters a byte completes, and the sequence it leaves open. -/
def next (p : Option Pending) (b : Nat) : List Char × Option Pending :=
  match p with
  | none => first b
  | some p =>
    if p.low ≤ b ∧ b ≤ p.high then
      if p.left ≤ 1 then ([Char.ofNat (64 * p.value + b % 64)], none)
      else ([], some ⟨p.left - 1, 0x80, 0xBF, 64 * p.value + b % 64⟩)
    else (replacement :: (first b).1, (first b).2)

def decodeFrom (p : Option Pending) : List Nat → List Char
  | [] => if p.isSome then [replacement] else []
  | b :: bs => (next p b).1 ++ decodeFrom (next p b).2 bs

/-- The text of some bytes. -/
def decode (bs : List Nat) : List Char := decodeFrom none bs

section Utf8
variable {c : Char} {b : Nat} {bs : List Nat}

theorem decode_cons_of_lt (h : b < 0x80) : decode (b :: bs) = Char.ofNat b :: decode bs := by
  simp only [decode, decodeFrom, next, first, if_pos h, List.singleton_append]

/-- A byte within the bounds of a pending sequence. -/
theorem decodeFrom_tail {p : Pending} (hlow : p.low ≤ b) (hhigh : b ≤ p.high) :
    decodeFrom (some p) (b :: bs) =
      if p.left ≤ 1 then Char.ofNat (64 * p.value + b % 64) :: decodeFrom none bs
      else decodeFrom (some ⟨p.left - 1, 0x80, 0xBF, 64 * p.value + b % 64⟩) bs := by
  rw [decodeFrom, next, if_pos ⟨hlow, hhigh⟩]
  split <;> rfl

theorem decode_two {n : Nat} (hlow : 0x80 ≤ n) (hhigh : n < 0x800) :
    decode ((0xC0 + n / 64) :: (0x80 + n % 64) :: bs) = Char.ofNat n :: decode bs := by
  have hfirst : first (0xC0 + n / 64) = ([], some ⟨1, 0x80, 0xBF, n / 64⟩) := by
    rw [first, if_neg (by omega), if_neg (by omega), if_pos (by omega), Nat.add_sub_cancel_left]
  rw [decode, decodeFrom, next, hfirst, List.nil_append, decodeFrom_tail (by simp) (by simp; omega)]
  have hvalue : 64 * (n / 64) + (0x80 + n % 64) % 64 = n := by omega
  rw [if_pos (Nat.le_refl 1), hvalue, decode]

theorem decode_three {n : Nat} (hlow : 0x800 ≤ n) (hhigh : n < 0x10000)
    (hvalid : n < 0xD800 ∨ 0xDFFF < n) :
    decode ((0xE0 + n / 4096) :: (0x80 + n / 64 % 64) :: (0x80 + n % 64) :: bs) =
      Char.ofNat n :: decode bs := by
  have hfirst : first (0xE0 + n / 4096) = ([], some ⟨2, if n / 4096 = 0 then 0xA0 else 0x80,
      if n / 4096 = 13 then 0x9F else 0xBF, n / 4096⟩) := by
    have hlow : 0xE0 + n / 4096 = 0xE0 ↔ n / 4096 = 0 := by omega
    have hhigh : 0xE0 + n / 4096 = 0xED ↔ n / 4096 = 13 := by omega
    rw [first, if_neg (by omega), if_neg (by omega), if_neg (by omega), if_pos (by omega),
      Nat.add_sub_cancel_left]
    simp only [hlow, hhigh]
  rw [decode, decodeFrom, next, hfirst, List.nil_append,
    decodeFrom_tail (by dsimp only; split <;> omega) (by dsimp only; split <;> omega),
    if_neg (by simp), decodeFrom_tail (by simp) (by simp; omega)]
  have hvalue : 64 * (64 * (n / 4096) + (0x80 + n / 64 % 64) % 64) + (0x80 + n % 64) % 64 = n := by
    omega
  rw [if_pos (by simp), hvalue, decode]

theorem decode_four {n : Nat} (hlow : 0x10000 ≤ n) (hhigh : n < 0x110000) :
    decode ((0xF0 + n / 262144) :: (0x80 + n / 4096 % 64) :: (0x80 + n / 64 % 64) ::
      (0x80 + n % 64) :: bs) = Char.ofNat n :: decode bs := by
  have hfirst : first (0xF0 + n / 262144) = ([], some ⟨3, if n / 262144 = 0 then 0x90 else 0x80,
      if n / 262144 = 4 then 0x8F else 0xBF, n / 262144⟩) := by
    have hlow : 0xF0 + n / 262144 = 0xF0 ↔ n / 262144 = 0 := by omega
    have hhigh : 0xF0 + n / 262144 = 0xF4 ↔ n / 262144 = 4 := by omega
    rw [first, if_neg (by omega), if_neg (by omega), if_neg (by omega), if_neg (by omega),
      if_pos (by omega), Nat.add_sub_cancel_left]
    simp only [hlow, hhigh]
  rw [decode, decodeFrom, next, hfirst, List.nil_append,
    decodeFrom_tail (by dsimp only; split <;> omega) (by dsimp only; split <;> omega),
    if_neg (by simp), decodeFrom_tail (by simp) (by simp; omega), if_neg (by simp),
    decodeFrom_tail (by simp) (by simp; omega)]
  have hvalue : 64 * (64 * (64 * (n / 262144) + (0x80 + n / 4096 % 64) % 64) +
      (0x80 + n / 64 % 64) % 64) + (0x80 + n % 64) % 64 = n := by omega
  rw [if_pos (by simp), hvalue, decode]

/-- An encoded character is read back. -/
theorem decode_encodeChar (c : Char) (bs : List Nat) :
    decode (encodeChar c ++ bs) = c :: decode bs := by
  have hchar : Char.ofNat c.toNat = c := Char.ofNat_toNat c
  have hvalid : c.toNat < 0xD800 ∨ 0xDFFF < c.toNat ∧ c.toNat < 0x110000 := c.valid
  unfold encodeChar
  dsimp only
  split
  · rename_i h
    rw [List.singleton_append, decode_cons_of_lt h, hchar]
  · split
    · rw [List.cons_append, List.cons_append, List.nil_append, decode_two (by omega) (by omega),
        hchar]
    · split
      · rw [List.cons_append, List.cons_append, List.cons_append, List.nil_append,
          decode_three (by omega) (by omega) (by omega), hchar]
      · rw [List.cons_append, List.cons_append, List.cons_append, List.cons_append,
          List.nil_append, decode_four (by omega) (by omega), hchar]

theorem decode_encode (cs : List Char) : decode (cs.flatMap encodeChar) = cs := by
  induction cs with
  | nil => rfl
  | cons c cs ih => rw [List.flatMap_cons, decode_encodeChar, ih]

theorem encodeChar_lt (h : b ∈ encodeChar c) : b < 256 := by
  have hvalid : c.toNat < 0xD800 ∨ 0xDFFF < c.toNat ∧ c.toNat < 0x110000 := c.valid
  unfold encodeChar at h
  dsimp only at h
  split_ifs at h <;> simp only [List.mem_cons, List.not_mem_nil, or_false] at h <;> omega

end Utf8

/-! ## Percent coding -/

/-- A digit of base 16, in upper case. -/
def hexDigit (n : Nat) : Char := (Nat.digitChar n).toUpper

def hexValue (c : Char) : Option Nat :=
  if c.isDigit then some (c.toNat - 48)
  else if 65 ≤ c.toNat ∧ c.toNat ≤ 70 then some (c.toNat - 55)
  else if 97 ≤ c.toNat ∧ c.toNat ≤ 102 then some (c.toNat - 87)
  else none

/-- The characters that stand for themselves. -/
def isSafe (c : Char) : Bool := c.isAlphanum || ['_', '.', '-', '~'].contains c

def quoteByte (b : Nat) : List Char :=
  if isSafe (Char.ofNat b) then [Char.ofNat b] else ['%', hexDigit (b / 16), hexDigit (b % 16)]

/-- A character of a form, with a plus sign for a space. -/
def quoteChar (c : Char) : List Char := if c = ' ' then ['+'] else (encodeChar c).flatMap quoteByte

def quote (s : List Char) : List Char := s.flatMap quoteChar

/-- The bytes of an ASCII text. -/
def unquoteBytes : List Char → List Nat
  | '%' :: a :: b :: s =>
    match hexValue a, hexValue b with
    | some high, some low => (16 * high + low) :: unquoteBytes s
    | _, _ => 37 :: unquoteBytes (a :: b :: s)
  | c :: s => c.toNat :: unquoteBytes s
  | [] => []

def isAscii (c : Char) : Bool := decide (c.toNat < 0x80)

/-- Only the runs of ASCII are decoded. -/
def unquoteText (s : List Char) : List Char :=
  if '%' ∈ s then
    (s.splitBy fun a b => isAscii a == isAscii b).flatMap fun run =>
      if run.all isAscii then decode (unquoteBytes run) else run
  else s

def plusToSpace (c : Char) : Char := if c = '+' then ' ' else c

def unquote (s : List Char) : List Char := unquoteText (s.map plusToSpace)

section Percent
variable {c : Char} {b n : Nat} {s : List Char}

theorem hexValue_hexDigit (h : n < 16) : hexValue (hexDigit n) = some n := by
  revert n
  decide

theorem isSafe_hexDigit (h : n < 16) : isSafe (hexDigit n) = true := by
  revert n
  decide

theorem lt_of_isAlphanum (h : c.isAlphanum = true) : c.toNat < 0x80 := by
  have hcases : (c.isUpper = true ∨ c.isLower = true) ∨ c.isDigit = true :=
    (Bool.or_eq_true_iff.mp h).imp_left Bool.or_eq_true_iff.mp
  rcases hcases with (h | h) | h
  · have hhigh : c.val ≤ 'Z'.val := (of_decide_eq_true h).2
    exact Nat.lt_of_le_of_lt hhigh (by decide)
  · have hhigh : c.val ≤ 'z'.val := of_decide_eq_true (Bool.and_eq_true_iff.mp h).2
    exact Nat.lt_of_le_of_lt hhigh (by decide)
  · have hhigh : c.val ≤ '9'.val := of_decide_eq_true (Bool.and_eq_true_iff.mp h).2
    exact Nat.lt_of_le_of_lt hhigh (by decide)

theorem isAscii_of_isSafe (h : isSafe c = true) : isAscii c = true := by
  rcases Bool.or_eq_true_iff.mp h with h | h
  · exact decide_eq_true (lt_of_isAlphanum h)
  · simp only [List.contains_iff_mem, List.mem_cons, List.not_mem_nil, or_false] at h
    rcases h with rfl | rfl | rfl | rfl <;> decide

/-- What a byte is written with. -/
theorem mem_quoteByte (hb : b < 256) (h : c ∈ quoteByte b) : isSafe c = true ∨ c = '%' := by
  unfold quoteByte at h
  split at h
  · next hsafe => exact .inl (List.mem_singleton.mp h ▸ hsafe)
  · simp only [List.mem_cons, List.not_mem_nil, or_false] at h
    rcases h with rfl | rfl | rfl
    · exact .inr rfl
    · exact .inl (isSafe_hexDigit (by omega))
    · exact .inl (isSafe_hexDigit (Nat.mod_lt _ (by decide)))

theorem mem_quote (h : c ∈ quote s) : isSafe c = true ∨ c = '%' ∨ c = '+' := by
  obtain ⟨x, -, hx⟩ := List.mem_flatMap.mp h
  unfold quoteChar at hx
  split at hx
  · exact .inr (.inr (List.mem_singleton.mp hx))
  · obtain ⟨b, hb, hc⟩ := List.mem_flatMap.mp hx
    rcases mem_quoteByte (encodeChar_lt hb) hc with hsafe | hpercent
    · exact .inl hsafe
    · exact .inr (.inl hpercent)

theorem unquoteBytes_cons (h : c ≠ '%') : unquoteBytes (c :: s) = c.toNat :: unquoteBytes s := by
  rw [unquoteBytes]
  intro _ _ _ hc
  exact absurd hc h

theorem unquoteBytes_escaped {x y : Char} {high low : Nat} (hx : hexValue x = some high)
    (hy : hexValue y = some low) :
    unquoteBytes ('%' :: x :: y :: s) = (16 * high + low) :: unquoteBytes s := by
  rw [unquoteBytes, hx, hy]

theorem unquoteBytes_quoteByte (hb : b < 256) :
    unquoteBytes (quoteByte b ++ s) = b :: unquoteBytes s := by
  have hcode : (Char.ofNat b).toNat = b := by
    have hvalid : b.isValidChar := .inl (by omega)
    rw [Char.ofNat, dif_pos hvalid]
    rfl
  unfold quoteByte
  split
  · next hsafe =>
    have hne : Char.ofNat b ≠ '%' := by
      intro h
      rw [h] at hsafe
      exact absurd hsafe (by decide)
    rw [List.singleton_append, unquoteBytes_cons hne, hcode]
  · have hvalue : 16 * (b / 16) + b % 16 = b := Nat.div_add_mod b 16
    rw [List.cons_append, List.cons_append, List.cons_append, List.nil_append,
      unquoteBytes_escaped (hexValue_hexDigit (by omega))
        (hexValue_hexDigit (Nat.mod_lt _ (by decide))), hvalue]

theorem unquoteBytes_flatMap {bs : List Nat} (h : ∀ b ∈ bs, b < 256) :
    unquoteBytes (bs.flatMap quoteByte ++ s) = bs ++ unquoteBytes s := by
  induction bs with
  | nil => rfl
  | cons b bs ih =>
    rw [List.flatMap_cons, List.append_assoc, unquoteBytes_quoteByte (h b List.mem_cons_self),
      ih fun x hx => h x (List.mem_cons_of_mem b hx), List.cons_append]

theorem plusToSpace_of_ne (h : c ≠ '+') : plusToSpace c = c := if_neg h

/-- No plus sign is written for a byte. -/
theorem map_plusToSpace_flatMap {bs : List Nat} (h : ∀ b ∈ bs, b < 256) :
    (bs.flatMap quoteByte).map plusToSpace = bs.flatMap quoteByte := by
  refine (List.map_congr_left fun c hc => ?_).trans (List.map_id _)
  obtain ⟨b, hb, hc⟩ := List.mem_flatMap.mp hc
  refine plusToSpace_of_ne ?_
  rintro rfl
  rcases mem_quoteByte (h b hb) hc with hplus | hplus
  · exact absurd hplus (by decide)
  · exact absurd hplus (by decide)

/-- The bytes of a written text are those of the text in UTF-8. -/
theorem unquoteBytes_quote (s : List Char) :
    unquoteBytes ((quote s).map plusToSpace) = s.flatMap encodeChar := by
  induction s with
  | nil => rfl
  | cons c s ih =>
    rw [quote, List.flatMap_cons, List.map_append, List.flatMap_cons, ← ih, ← quote]
    by_cases h : c = ' '
    · rw [quoteChar, if_pos h, h]
      exact unquoteBytes_cons (by decide)
    · rw [quoteChar, if_neg h, map_plusToSpace_flatMap fun b => encodeChar_lt,
        unquoteBytes_flatMap fun b => encodeChar_lt]

theorem unquoteBytes_of_not_mem (h : '%' ∉ s) : unquoteBytes s = s.map Char.toNat := by
  induction s with
  | nil => rfl
  | cons c s ih =>
    rw [unquoteBytes_cons fun hc => h (hc ▸ List.mem_cons_self), List.map_cons,
      ih fun hs => h (List.mem_cons_of_mem c hs)]

theorem decode_ascii (h : ∀ c ∈ s, isAscii c = true) : decode (s.map Char.toNat) = s := by
  induction s with
  | nil => rfl
  | cons c s ih =>
    rw [List.map_cons, decode_cons_of_lt (of_decide_eq_true (h c List.mem_cons_self)),
      Char.ofNat_toNat, ih fun x hx => h x (List.mem_cons_of_mem c hx)]

/-- An ASCII text is decoded as a whole. -/
theorem unquoteText_ascii (h : ∀ c ∈ s, isAscii c = true) :
    unquoteText s = decode (unquoteBytes s) := by
  unfold unquoteText
  split
  · next hmem =>
    have hsame : ∀ a ∈ s, ∀ b ∈ s, (isAscii a == isAscii b) = true := by
      intro a ha b hb
      rw [h a ha, h b hb, beq_self_eq_true]
    have hchain : s.IsChain fun a b => (isAscii a == isAscii b) = true :=
      (List.pairwise_of_forall_mem_list hsame).isChain
    rw [List.splitBy_of_isChain (List.ne_nil_of_mem hmem) hchain, List.flatMap_singleton,
      if_pos (List.all_eq_true.mpr h)]
  · next hmem => rw [unquoteBytes_of_not_mem hmem, decode_ascii h]

theorem isAscii_quote (h : c ∈ (quote s).map plusToSpace) : isAscii c = true := by
  obtain ⟨x, hx, rfl⟩ := List.mem_map.mp h
  by_cases hplus : x = '+'
  · rw [hplus]
    decide
  · rw [plusToSpace_of_ne hplus]
    rcases mem_quote hx with hsafe | rfl | rfl
    · exact isAscii_of_isSafe hsafe
    · decide
    · decide

/-- What is written is read back. -/
theorem unquote_quote (s : List Char) : unquote (quote s) = s := by
  rw [unquote, unquoteText_ascii fun c => isAscii_quote, unquoteBytes_quote, decode_encode]

/-- And so is a text behind one more character that stands for itself. -/
theorem unquote_cons_quote (hascii : isAscii c = true) (hc : c ≠ '%' ∧ c ≠ '+') (s : List Char) :
    unquote (c :: quote s) = c :: s := by
  have hall : ∀ x ∈ c :: (quote s).map plusToSpace, isAscii x = true := by
    intro x hx
    rcases List.mem_cons.mp hx with rfl | hx
    · exact hascii
    · exact isAscii_quote hx
  rw [unquote, List.map_cons, plusToSpace_of_ne hc.2, unquoteText_ascii hall,
    unquoteBytes_cons hc.1, decode_cons_of_lt (of_decide_eq_true hascii), Char.ofNat_toNat,
    unquoteBytes_quote, decode_encode]

end Percent

end ThreatScanner.FormCoding
