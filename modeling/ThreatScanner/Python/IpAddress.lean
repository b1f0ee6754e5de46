import Mathlib.Data.List.Basic
import ThreatScanner.Python.Text

/-!
# `ipaddress.ip_address`

The parser of the standard library for IPv4 and IPv6 literals, on texts. `none` stands for the
`ValueError` that it raises for anything else. An IPv6 literal may end in a scope, any text after
`%`, and two addresses with different scopes are different.
-/

namespace ThreatScanner

/-- What `ip_address` returns. -/
inductive IpAddress where
  | v4 (ip : Nat)
  | v6 (ip : Nat) (scopeId : Option (List Char))
deriving DecidableEq

/-! ## The parsers -/

/-- `_parse_octet`. -/
def parseOctet (octet : List Char) : Option Nat :=
  if octet = [] ∨ !octet.all Char.isDigit then none
  else if octet.length > 3 then none
  else if octet ≠ ['0'] ∧ octet.head? = some '0' then none
  else if Nat.ofDigitChars 10 octet 0 > 255 then none
  else some (Nat.ofDigitChars 10 octet 0)

/-- `IPv4Address`. -/
def ipv4Address (text : List Char) : Option Nat :=
  let octets := text.splitOn '.'
  if '/' ∈ text ∨ text = [] then none
  else if octets.length ≠ 4 then none
  else (octets.mapM parseOctet).map fun bytes => bytes.foldl (fun ip byte => ip * 256 + byte) 0

/-- `_HEX_DIGITS`. -/
def isHexDigit (c : Char) : Bool := "0123456789ABCDEFabcdef".toList.contains c

def hexValue (c : Char) : Nat :=
  if c.isDigit then c.toNat - '0'.toNat
  else if c.isUpper then c.toNat - 'A'.toNat + 10
  else c.toNat - 'a'.toNat + 10

/-- `_parse_hextet`. -/
def parseHextet (hextet : List Char) : Option Nat :=
  if !hextet.all isHexDigit then none
  else if hextet.length > 4 then none
  else if hextet = [] then none
  else some (hextet.foldl (fun n c => n * 16 + hexValue c) 0)

/-- The loop that shifts hextets into an address. -/
def addHextets (ip : Nat) (parts : List (List Char)) : Option Nat :=
  parts.foldlM (fun ip part => (parseHextet part).map fun hextet => ip <<< 16 ||| hextet) ip

/-- The parts with an IPv4 suffix written as two hextets. -/
def embedIpv4 (parts : List (List Char)) : Option (List (List Char)) :=
  if '.' ∈ parts.getLast?.getD [] then
    (ipv4Address (parts.getLast?.getD [])).map fun ip =>
      parts.dropLast ++ [Nat.toDigits 16 (ip >>> 16 &&& 0xffff), Nat.toDigits 16 (ip &&& 0xffff)]
  else some parts

/-- `parts_hi` for a gap at `skip`. -/
def partsHi (parts : List (List Char)) (skip : Nat) : Nat :=
  if parts.head? = some [] then skip - 1 else skip

/-- `parts_lo` for a gap at `skip`. -/
def partsLo (parts : List (List Char)) (skip : Nat) : Nat :=
  if parts.getLast? = some [] then parts.length - skip - 1 - 1 else parts.length - skip - 1

/-- `parts_hi`, `parts_lo` and `parts_skipped`. -/
def hextetLayout (parts : List (List Char)) : Option (Nat × Nat × Nat) :=
  let leading := parts.head? = some []
  let trailing := parts.getLast? = some []
  match (List.range' 1 (parts.length - 2)).filter fun i => parts[i]? = some [] with
  | [] =>
    if parts.length ≠ 8 ∨ leading ∨ trailing then none else some (parts.length, 0, 0)
  | [skip] =>
    let hi := partsHi parts skip
    let lo := partsLo parts skip
    if leading ∧ hi ≠ 0 then none
    else if trailing ∧ lo ≠ 0 then none
    else if 8 ≤ hi + lo then none
    else some (hi, lo, 8 - (hi + lo))
  | _ => none

/-- `_ip_int_from_string` of `IPv6Address`. -/
def ipv6FromString (text : List Char) : Option Nat := do
  if text = [] ∨ (text.splitOn ':').length < 3 then none
  else
    let parts ← embedIpv4 (text.splitOn ':')
    if parts.length > 9 then none
    else
      let (hi, lo, skipped) ← hextetLayout parts
      let ip ← addHextets 0 (parts.take hi)
      addHextets (ip <<< (16 * skipped)) (parts.drop (parts.length - lo))

/-- `_split_scope_id`. -/
def splitScopeId (text : List Char) : Option (List Char × Option (List Char)) :=
  match text.dropWhile (· ≠ '%') with
  | [] => some (text, none)
  | _ :: scope =>
    if scope = [] ∨ '%' ∈ scope then none else some (text.takeWhile (· ≠ '%'), some scope)

/-- `IPv6Address`. -/
def ipv6Address (text : List Char) : Option IpAddress :=
  if '/' ∈ text then none
  else do
    let (addr, scope) ← splitScopeId text
    let ip ← ipv6FromString addr
    some (.v6 ip scope)

/-- `ip_address`. -/
def ipAddress (text : List Char) : Option IpAddress :=
  match ipv4Address text with
  | some ip => some (.v4 ip)
  | none => ipv6Address text

/-! ## The characters of a literal -/

section Split
variable {sep c : Char} {text part : List Char}

/-- Each character is the separator or in a part. -/
theorem mem_splitOn (h : c ∈ text) : c = sep ∨ ∃ part ∈ text.splitOn sep, c ∈ part := by
  induction text with
  | nil => cases h
  | cons d text ih =>
    rw [List.splitOn_cons_eq_if_modifyHead]
    split
    · next hsep =>
      rcases List.mem_cons.mp h with rfl | h
      · exact .inl (beq_iff_eq.mp hsep)
      · refine (ih h).imp_right ?_
        rintro ⟨part, hpart, hc⟩
        exact ⟨part, List.mem_cons_of_mem _ hpart, hc⟩
    · cases hparts : text.splitOn sep with
      | nil => exact absurd hparts (List.splitOn_ne_nil sep text)
      | cons first parts =>
        rw [hparts] at ih
        rw [List.modifyHead_cons]
        rcases List.mem_cons.mp h with rfl | h
        · exact .inr ⟨c :: first, List.mem_cons_self, List.mem_cons_self⟩
        · refine (ih h).imp_right ?_
          rintro ⟨part, hpart, hc⟩
          rcases List.mem_cons.mp hpart with rfl | hpart
          · exact ⟨d :: part, List.mem_cons_self, List.mem_cons_of_mem _ hc⟩
          · exact ⟨part, List.mem_cons_of_mem _ hpart, hc⟩

/-- The first part is what comes before the separator. -/
theorem head?_splitOn : (text.splitOn sep).head? = some (text.takeWhile (· ≠ sep)) := by
  induction text with
  | nil => rfl
  | cons d text ih =>
    rw [List.splitOn_cons_eq_if_modifyHead]
    by_cases hsep : d = sep
    · simp [hsep]
    · simp [hsep, List.head?_modifyHead, ih]

end Split

/-- A loop that succeeds does so for each item. -/
theorem exists_of_mapM_eq_some {α β : Type} {f : α → Option β} {as : List α} {bs : List β}
    (h : as.mapM f = some bs) {a : α} (ha : a ∈ as) : ∃ b, f a = some b := by
  induction as generalizing bs with
  | nil => cases ha
  | cons a' as ih =>
    simp only [List.mapM_cons, Option.bind_eq_bind, Option.bind_eq_some_iff] at h
    obtain ⟨b, hb, bs', hbs', _⟩ := h
    rcases List.mem_cons.mp ha with rfl | ha
    · exact ⟨b, hb⟩
    · exact ih hbs' ha

section V4
variable {text : List Char} {ip : Nat}

theorem isDigit_of_parseOctet {octet : List Char} {byte : Nat} (h : parseOctet octet = some byte) :
    ∀ c ∈ octet, c.isDigit = true := by
  simp only [parseOctet] at h
  split at h
  · cases h
  · next hshape =>
    simp only [not_or, Bool.not_eq_true', Bool.not_eq_false, List.all_eq_true] at hshape
    exact hshape.2

theorem ipv4Address_chars (h : ipv4Address text = some ip) :
    text ≠ [] ∧ ∀ c ∈ text, c.isDigit = true ∨ c = '.' := by
  simp only [ipv4Address] at h
  split at h
  · cases h
  split at h
  · cases h
  · next hshape _ =>
    refine ⟨fun hnil => hshape (.inr hnil), fun c hc => ?_⟩
    obtain ⟨bytes, hbytes, _⟩ := Option.map_eq_some_iff.mp h
    rcases mem_splitOn hc with hdot | ⟨octet, hoctet, hc⟩
    · exact .inr hdot
    · obtain ⟨byte, hbyte⟩ := exists_of_mapM_eq_some hbytes hoctet
      exact .inl (isDigit_of_parseOctet hbyte c hc)

theorem ipv4Address_of_no_dot (h : '.' ∉ text) : ipv4Address text = none := by
  simp only [ipv4Address, List.splitOn_eq_singleton h]
  split <;> simp

end V4

section V6
variable {text : List Char} {ip : Nat} {parts : List (List Char)}

theorem isHexDigit_of_parseHextet {hextet : List Char} {n : Nat}
    (h : parseHextet hextet = some n) : ∀ c ∈ hextet, isHexDigit c = true := by
  simp only [parseHextet] at h
  split at h
  · cases h
  · next hall => simpa using hall

theorem isHexDigit_of_addHextets {start : Nat} (h : addHextets start parts = some ip) :
    ∀ part ∈ parts, ∀ c ∈ part, isHexDigit c = true := by
  induction parts generalizing start with
  | nil => nofun
  | cons part parts ih =>
    simp only [addHextets, List.foldlM_cons, Option.bind_eq_bind, Option.bind_eq_some_iff] at h
    obtain ⟨next, hnext, h⟩ := h
    obtain ⟨n, hn, _⟩ := Option.map_eq_some_iff.mp hnext
    refine List.forall_mem_cons.mpr ⟨isHexDigit_of_parseHextet hn, ih h⟩

/-- The parts that are not read as hextets are empty. -/
theorem hextetLayout_gap {hi lo skipped : Nat} (h : hextetLayout parts = some (hi, lo, skipped))
    {i : Nat} (hhi : hi ≤ i) (hlo : i < parts.length - lo) : parts[i]? = some [] := by
  simp only [hextetLayout] at h
  split at h
  · split at h
    · cases h
    · cases h
      omega
  · next skip hskips =>
    have hskip : skip ∈ [skip] := List.mem_singleton.mpr rfl
    rw [← hskips, List.mem_filter, List.mem_range'_1, decide_eq_true_eq] at hskip
    obtain ⟨⟨hone, hbound⟩, hempty⟩ := hskip
    split at h
    · cases h
    split at h
    · cases h
    split at h
    · cases h
    next hleading htrailing _ =>
    cases h
    rcases Nat.lt_trichotomy i skip with hlt | rfl | hgt
    · -- Before the gap only a leading colon is not read.
      by_cases hfirst : parts.head? = some []
      · have hzero : skip - 1 = 0 := by
          have hhi' : partsHi parts skip = 0 := not_not.mp fun hne => hleading ⟨hfirst, hne⟩
          rwa [partsHi, if_pos hfirst] at hhi'
        have hi : i = 0 := by omega
        rw [hi, ← List.head?_eq_getElem?]
        exact hfirst
      · rw [partsHi, if_neg hfirst] at hhi
        omega
    · exact hempty
    · -- And behind it only a trailing one.
      by_cases hlast : parts.getLast? = some []
      · have hzero : parts.length - skip - 1 - 1 = 0 := by
          have hlo' : partsLo parts skip = 0 := not_not.mp fun hne => htrailing ⟨hlast, hne⟩
          rwa [partsLo, if_pos hlast] at hlo'
        have hi : i = parts.length - 1 := by omega
        rw [hi, ← List.getLast?_eq_getElem?]
        exact hlast
      · rw [partsLo, if_neg hlast] at hlo
        omega
  · cases h

theorem isHexDigit_of_layout {hi lo skipped start end' : Nat}
    (hlayout : hextetLayout parts = some (hi, lo, skipped))
    (hhi : addHextets 0 (parts.take hi) = some start)
    (hlo : addHextets (start <<< (16 * skipped)) (parts.drop (parts.length - lo)) = some end') :
    ∀ part ∈ parts, ∀ c ∈ part, isHexDigit c = true := by
  intro part hpart
  obtain ⟨i, hi', hget⟩ := List.getElem_of_mem hpart
  rcases Nat.lt_or_ge i hi with hlt | hge
  · refine isHexDigit_of_addHextets hhi part (List.mem_of_getElem? (i := i) ?_)
    rw [List.getElem?_take_of_lt hlt, List.getElem?_eq_getElem hi', hget]
  rcases Nat.lt_or_ge i (parts.length - lo) with hlt | hge'
  · have hempty := hextetLayout_gap hlayout hge hlt
    rw [List.getElem?_eq_getElem hi', hget, Option.some.injEq] at hempty
    rw [hempty]
    nofun
  · refine isHexDigit_of_addHextets hlo part
      (List.mem_of_getElem? (i := i - (parts.length - lo)) ?_)
    rw [List.getElem?_drop, Nat.add_sub_cancel' hge', List.getElem?_eq_getElem hi', hget]

theorem mem_dropLast_or {part : List Char} (h : part ∈ parts) :
    part ∈ parts.dropLast ∨ parts.getLast?.getD [] = part := by
  have hne : parts ≠ [] := List.ne_nil_of_mem h
  rw [← List.dropLast_concat_getLast hne, List.mem_append, List.mem_singleton] at h
  rw [List.getLast?_eq_some_getLast hne, Option.getD_some]
  exact h.imp_right Eq.symm

theorem mem_dropLast_of_head {part : List Char} (hcount : 2 ≤ parts.length)
    (h : parts.head? = some part) : part ∈ parts.dropLast := by
  match parts, hcount, h with
  | _ :: _ :: _, _, h =>
    cases h
    exact List.mem_cons_self

/-- Only the last part can be rewritten, and only if it is an IPv4 literal. -/
theorem mem_embedIpv4 {written : List (List Char)} (h : embedIpv4 parts = some written) :
    (∀ part ∈ parts.dropLast, part ∈ written) ∧
      ∀ part ∈ parts, part ∈ written ∨ ∀ c ∈ part, c.isDigit = true ∨ c = '.' := by
  simp only [embedIpv4] at h
  split at h
  · next hdot =>
    obtain ⟨ip, hip, rfl⟩ := Option.map_eq_some_iff.mp h
    refine ⟨fun part hpart => List.mem_append_left _ hpart, fun part hpart => ?_⟩
    rcases mem_dropLast_or hpart with hpart | hlast
    · exact .inl (List.mem_append_left _ hpart)
    · rw [hlast] at hip
      exact .inr (ipv4Address_chars hip).2
  · cases h
    exact ⟨fun part hpart => List.mem_of_mem_dropLast hpart, fun part hpart => .inl hpart⟩

/-- A character of an IPv6 literal without a scope. -/
def LiteralChar (c : Char) : Prop :=
  isHexDigit c = true ∨ c.isDigit = true ∨ c = '.' ∨ c = ':'

instance : DecidablePred LiteralChar :=
  fun c => inferInstanceAs (Decidable (isHexDigit c = true ∨ c.isDigit = true ∨ c = '.' ∨ c = ':'))

/-- An IPv6 literal has a colon, and before it only hexadecimal digits. -/
theorem ipv6FromString_chars (h : ipv6FromString text = some ip) :
    (∀ c ∈ text, LiteralChar c) ∧ ':' ∈ text ∧
      ∀ c ∈ text.takeWhile (· ≠ ':'), isHexDigit c = true := by
  simp only [ipv6FromString] at h
  split at h
  · cases h
  next hshape =>
  simp only [Option.bind_eq_bind, Option.bind_eq_some_iff] at h
  obtain ⟨parts, hembed, h⟩ := h
  split at h
  · cases h
  simp only [Option.bind_eq_some_iff] at h
  obtain ⟨⟨hi, lo, skipped⟩, hlayout, start, hstart, hrest⟩ := h
  have hhex := isHexDigit_of_layout hlayout hstart hrest
  obtain ⟨hkept, hwritten⟩ := mem_embedIpv4 hembed
  have hcount : 3 ≤ (text.splitOn ':').length := by
    simp only [not_or, Nat.not_lt] at hshape
    exact hshape.2
  refine ⟨fun c hc => ?_, ?_, ?_⟩
  · have hsplit : c = ':' ∨ ∃ part ∈ text.splitOn ':', c ∈ part := mem_splitOn hc
    rcases hsplit with hcolon | ⟨part, hpart, hc⟩
    · exact .inr (.inr (.inr hcolon))
    · rcases hwritten part hpart with hmem | hdigits
      · exact .inl (hhex part hmem c hc)
      · rcases hdigits c hc with hdigit | hdot
        · exact .inr (.inl hdigit)
        · exact .inr (.inr (.inl hdot))
  · by_contra hcolon
    rw [List.splitOn_eq_singleton hcolon] at hcount
    rw [List.length_singleton] at hcount
    omega
  · exact hhex _ (hkept _ (mem_dropLast_of_head (by omega) head?_splitOn))

end V6

/-! ## The scope -/

section Scope
variable {text : List Char} {ip : Nat} {scopeId : Option (List Char)}

/-- An IPv6 literal is one without a scope, with or without a scope behind it. -/
theorem ipv6Address_eq_some {address : IpAddress} (h : ipv6Address text = some address) :
    '/' ∉ text ∧ ∃ addr ip scopeId, address = .v6 ip scopeId ∧ ipv6FromString addr = some ip ∧
      (text = addr ∧ scopeId = none ∨
        ∃ scope, '%' ∉ scope ∧ text = addr ++ '%' :: scope ∧ scopeId = some scope) := by
  rw [ipv6Address] at h
  by_cases hslash : '/' ∈ text
  · rw [if_pos hslash] at h
    cases h
  rw [if_neg hslash] at h
  simp only [Option.bind_eq_bind, Option.bind_eq_some_iff] at h
  obtain ⟨⟨addr, scopeId⟩, hsplit, ip, hip, heq⟩ := h
  cases heq
  refine ⟨hslash, addr, ip, scopeId, rfl, hip, ?_⟩
  rw [splitScopeId] at hsplit
  cases hrest : text.dropWhile (· ≠ '%') with
  | nil =>
    rw [hrest] at hsplit
    cases hsplit
    exact .inl ⟨rfl, rfl⟩
  | cons c scope =>
    have hpercent : c = '%' := by
      have hhead := List.head?_dropWhile_not (· ≠ '%') text
      rw [hrest] at hhead
      simpa using hhead
    have hwhole := List.takeWhile_append_dropWhile (p := (· ≠ '%')) (l := text)
    rw [hrest] at hsplit
    dsimp only at hsplit
    split at hsplit
    · cases hsplit
    · next hscope =>
      cases hsplit
      rw [hrest, hpercent] at hwhole
      exact .inr ⟨scope, fun h => hscope (.inr h), hwhole.symm, rfl⟩

/-- A text without a colon and a scope is no IPv6 address. -/
theorem ipv6Address_eq_none (hcolon : ':' ∉ text) (hpercent : '%' ∉ text) :
    ipv6Address text = none := by
  cases haddress : ipv6Address text with
  | none => rfl
  | some address =>
    obtain ⟨_, addr, ip, _, _, hip, ⟨rfl, _⟩ | ⟨scope, _, rfl, _⟩⟩ :=
      ipv6Address_eq_some haddress
    · exact absurd (ipv6FromString_chars hip).2.1 hcolon
    · exact absurd (List.mem_append_right addr List.mem_cons_self) hpercent

/-- A text without dot and colon is no address. -/
theorem ipAddress_eq_none (hdot : '.' ∉ text) (hcolon : ':' ∉ text) (hpercent : '%' ∉ text) :
    ipAddress text = none := by
  rw [ipAddress, ipv4Address_of_no_dot hdot]
  exact ipv6Address_eq_none hcolon hpercent

theorem ipAddress_eq_v4 : ipAddress text = some (.v4 ip) ↔ ipv4Address text = some ip := by
  rw [ipAddress]
  cases hip : ipv4Address text with
  | some ip' => simp
  | none =>
    refine iff_of_false (fun h => ?_) (Option.some_ne_none ip).symm
    obtain ⟨_, _, _, _, heq, _⟩ := ipv6Address_eq_some h
    cases heq

theorem ipAddress_eq_v6 (h : ipAddress text = some (.v6 ip scopeId)) :
    ipv6Address text = some (.v6 ip scopeId) := by
  rw [ipAddress] at h
  cases hip : ipv4Address text with
  | some ip' =>
    rw [hip] at h
    cases h
  | none => rwa [hip] at h

/-- An address without a scope is written without `%`. -/
theorem scopeId_of_no_percent (hpercent : '%' ∉ text)
    (h : ipAddress text = some (.v6 ip scopeId)) : scopeId = none := by
  obtain ⟨_, addr, _, _, heq, _, ⟨_, hscope⟩ | ⟨scope, _, htext, _⟩⟩ :=
    ipv6Address_eq_some (ipAddress_eq_v6 h)
  · cases heq
    exact hscope
  · exact absurd (htext ▸ List.mem_append_right addr List.mem_cons_self) hpercent

end Scope

end ThreatScanner
