import ThreatScanner.Analyzer.Secrets

/-!
# Upper and lower case in the secret rules

All patterns run under `re.IGNORECASE`, although only two of them ask for it with `(?i)`. A match
of one of the others is a match of the pattern as it is written exactly when its letters are in the
case in which the pattern has them, which can be read off what is matched.
-/

namespace ThreatScanner.Analyzer

open Regex Pattern

/-- The rules whose pattern begins with `(?i)`. -/
def ignoreCaseTypes : List String := ["Firebase API Key", "Possible Secret Assignment"]

def JsSecretRule.caseSensitive (rule : JsSecretRule) : Bool := !ignoreCaseTypes.contains rule.type

/-- The rules whose pattern has no lower-case letters. -/
def capitalTypes : List String := ["Private Key", "AWS Access Key"]

/-- How the matches of the other patterns begin, as these are written. -/
def writtenHeads : String → List String
  | "GitHub Token" => ["ghp_", "gho_", "ghu_", "ghs_", "ghr_"]
  | "Slack Token" => ["xoxb-", "xoxa-", "xoxp-", "xoxr-", "xoxs-"]
  | "Stripe Secret Key" => ["sk_live_", "sk_test_"]
  | "JWT Token" => ["eyJ"]
  | "Bearer Token" => ["Bearer"]
  | "Google API Key" => ["AIza"]
  | _ => []

/-- What is matched has its letters in the case in which the pattern has them, and besides spaces
only ASCII characters. -/
structure Spelled (type : String) (value : List Char) : Prop where
  plain : ∀ c ∈ value, isPlain c = true
  capital : type ∈ capitalTypes → ∀ c ∈ value, c.isLower = false
  head : type ∉ capitalTypes → ∃ head ∈ writtenHeads type, head.toList <+: value

/-- The pattern as it is written matches the value of a match where it stands in the text. -/
def MatchesAsWritten [UnicodeTables] (rule : JsSecretRule) (jsText : List Char)
    (found : Found Char) : Prop :=
  ∃ m ∈ rule.regex.run CharClass.memExact isWord (jsText.take found.start).getLast?
    (jsText.drop found.start), m.taken = secretValue found

/-! ## The patterns -/

/-- A pattern without the word boundary before it. -/
def afterBoundary : Pattern → Pattern
  | .seq .boundary r => r
  | r => r

/-- How many parts of the pattern make up the head of its matches. -/
def headParts : String → Nat
  | "GitHub Token" | "Slack Token" | "Stripe Secret Key" => 3
  | _ => 1

/-- The two ends of a pattern: what makes up the head of its matches, and the rest. -/
def headSplit (rule : JsSecretRule) : Pattern × Pattern :=
  splitSeq (headParts rule.type) (afterBoundary rule.regex)

section Patterns
variable {rule : JsSecretRule} {word : Char → Bool} {prev next : Option Char} {t : List Char}

theorem plain_classes (hrule : rule ∈ jsSecretRules) (hcase : rule.caseSensitive = true) :
    rule.regex.groups = [] ∧ ∀ cls ∈ rule.regex.classes, cls.plain = true := by
  revert rule
  decide +kernel

theorem capital_classes (hrule : rule ∈ jsSecretRules) (htype : rule.type ∈ capitalTypes) :
    ∀ cls ∈ rule.regex.classes, cls.agreesOn (!·.isLower) = true ∧
      cls.within (!·.isLower) = true := by
  revert rule
  decide +kernel

theorem head_classes (hrule : rule ∈ jsSecretRules) (hcase : rule.caseSensitive = true)
    (htype : rule.type ∉ capitalTypes) : (headSplit rule).1.rigid = true ∧
      (∀ cls ∈ (headSplit rule).1.classes, cls.single = true) ∧
      (∀ cls ∈ (headSplit rule).2.classes, cls.agreesOn (fun _ => true) = true) ∧
      words CharClass.singles (headSplit rule).1 =
        (writtenHeads rule.type).map String.toList := by
  revert rule
  decide +kernel

theorem matches_afterBoundary {mem : CharClass → Char → Bool} {r : Pattern}
    (h : Matches mem word r prev t next) : Matches mem word (afterBoundary r) prev t next := by
  fun_cases afterBoundary r with
  | case1 r =>
    obtain ⟨t₁, t₂, rfl, ⟨rfl, -⟩, h⟩ := h
    exact h
  | case2 r => exact h

theorem matches_of_afterBoundary {mem mem' : CharClass → Char → Bool} {r : Pattern}
    (h : Matches mem word r prev t next)
    (hafter : Matches mem' word (afterBoundary r) prev t next) :
    Matches mem' word r prev t next := by
  revert hafter
  fun_cases afterBoundary r with
  | case1 r =>
    obtain ⟨t₁, t₂, rfl, ⟨rfl, hword⟩, -⟩ := h
    exact fun hafter => ⟨[], t₂, rfl, ⟨rfl, hword⟩, hafter⟩
  | case2 r => exact id

theorem isLower_eq_false {c : Char} (h : c.toNat < 128 → (!c.isLower) = true) :
    c.isLower = false := by
  by_cases hascii : c.toNat < 128
  · exact Bool.not_eq_true' _ ▸ h hascii
  · rw [Bool.eq_false_iff]
    intro hlower
    have hle : c.toNat ≤ 'z'.toNat := UInt32.le_iff_toNat_le.mp (isLower_iff.mp hlower).2
    exact hascii (Nat.lt_of_le_of_lt hle (by decide))

/-- A match of a case-sensitive rule is one of its pattern as written exactly when it is spelled as
the pattern is. -/
theorem matchesExact_iff_spelled (hrule : rule ∈ jsSecretRules)
    (hcase : rule.caseSensitive = true)
    (h : Matches CharClass.mem word rule.regex prev t next) :
    Matches CharClass.memExact word rule.regex prev t next ↔ Spelled rule.type t := by
  obtain ⟨-, hclasses⟩ := plain_classes hrule hcase
  have hplain (hexact : Matches CharClass.memExact word rule.regex prev t next) :
      ∀ c ∈ t, isPlain c = true := fun c hc => by
    obtain ⟨cls, hcls, hmem⟩ := hexact.exists_class hc
    exact isPlain_of_memExact (hclasses cls hcls) hmem
  by_cases htype : rule.type ∈ capitalTypes
  · have hcapital := capital_classes hrule htype
    constructor
    · intro hexact
      refine ⟨hplain hexact, fun _ c hc => ?_, fun hnot => absurd htype hnot⟩
      obtain ⟨cls, hcls, hmem⟩ := hexact.exists_class hc
      exact isLower_eq_false fun hascii => pred_of_memExact (hcapital cls hcls).2 hascii hmem
    · intro hspelled
      refine h.mono fun cls hcls c hc hmem =>
        memExact_of_mem (hcapital cls hcls).1 (hspelled.plain c hc) ?_ hmem
      rw [hspelled.capital htype c hc, Bool.not_false]
  · obtain ⟨hrigid, hsingle, hagrees, hwords⟩ := head_classes hrule hcase htype
    have hhead (hall : ∀ c ∈ t, isPlain c = true) :
        Matches CharClass.memExact word (afterBoundary rule.regex) prev t next ↔
          ∃ w ∈ words CharClass.singles (headSplit rule).1, w <+: t :=
      matches_iff_head (headParts rule.type) hrigid
        (fun cls hcls c => CharClass.memExact_iff_singles (hsingle cls hcls))
        (fun cls hcls c hc => memExact_of_mem (hagrees cls hcls) (hall c hc) rfl)
        (matches_afterBoundary h)
    rw [hwords] at hhead
    constructor
    · intro hexact
      refine ⟨hplain hexact, fun hnot => absurd hnot htype, fun _ => ?_⟩
      obtain ⟨w, hw, hprefix⟩ := (hhead (hplain hexact)).mp (matches_afterBoundary hexact)
      obtain ⟨head, hhead, rfl⟩ := List.mem_map.mp hw
      exact ⟨head, hhead, hprefix⟩
    · intro hspelled
      obtain ⟨head, hmem, hprefix⟩ := hspelled.head htype
      exact matches_of_afterBoundary h ((hhead hspelled.plain).mpr
        ⟨head.toList, List.mem_map_of_mem hmem, hprefix⟩)

end Patterns

/-! ## The reported matches -/

section Reported
variable [UnicodeTables] {rule : JsSecretRule} {jsText : List Char} {found : Found Char}

theorem captures_eq_nil (hrule : rule ∈ jsSecretRules) (hcase : rule.caseSensitive = true)
    (h : found ∈ rule.regex.finditer CharClass.mem isWord jsText) : found.captures = [] := by
  obtain ⟨before, rest, -, -, m, hm, -, hcaptures⟩ := exists_run_of_mem_finditerFrom h
  rw [hcaptures, ← List.length_eq_zero_iff, length_captures hm, (plain_classes hrule hcase).1,
    List.length_nil]

theorem extractSecretValue_eq (hrule : rule ∈ jsSecretRules) (hcase : rule.caseSensitive = true)
    (h : found ∈ rule.regex.finditer CharClass.mem isWord jsText) :
    extractSecretValue found = (found.taken, []) := by
  rw [extractSecretValue, captures_eq_nil hrule hcase h]

/-- A match of a case-sensitive rule is one of its pattern as written exactly when it is spelled as
the pattern is. -/
theorem matchesAsWritten_iff (hrule : rule ∈ jsSecretRules) (hcase : rule.caseSensitive = true)
    (h : found ∈ rule.regex.finditer CharClass.mem isWord jsText) :
    MatchesAsWritten rule jsText found ↔ Spelled rule.type found.taken := by
  have hvalue := extractSecretValue_eq hrule hcase h
  obtain ⟨before, rest, rfl, hstart, m, hm, htaken, -⟩ := exists_run_of_mem_finditerFrom h
  have hplace : (before ++ rest).take found.start = before ∧
      (before ++ rest).drop found.start = rest := by
    rw [hstart, Nat.zero_add]
    exact ⟨List.take_left, List.drop_left⟩
  rw [orElse_eq_or, Option.or_none] at hm
  obtain ⟨hrest, hmatch⟩ := matches_of_mem_run hm
  rw [MatchesAsWritten, hplace.1, hplace.2, secretValue, hvalue, htaken,
    ← matchesExact_iff_spelled hrule hcase hmatch]
  constructor
  · rintro ⟨m', hm', heq⟩
    obtain ⟨hrest', hexact⟩ := matches_of_mem_run hm'
    rw [heq] at hrest' hexact
    rwa [List.append_cancel_left (hrest.symm.trans hrest')]
  · intro hexact
    obtain ⟨m', hm', heq, -⟩ := exists_run_of_matches hexact
    exact ⟨m', hrest ▸ hm', heq⟩

variable [EntropyTest]

/-- The first three places where a pattern matches, upper and lower case alike, with something that
does not look like a false positive. -/
def firstThree (rule : JsSecretRule) (jsText : List Char) : List (Found Char) :=
  ((rule.regex.finditer CharClass.mem isWord jsText).filter fun found =>
    !isProbablyFalsePositive found.taken [] rule.type).take 3

theorem reportedMatches_eq (hrule : rule ∈ jsSecretRules) (hcase : rule.caseSensitive = true)
    (jsText : List Char) : reportedMatches rule jsText = firstThree rule jsText := by
  refine congrArg (List.take 3) (List.filter_congr fun found hfound => ?_)
  rw [extractSecretValue_eq hrule hcase hfound]

/-- Each value that is reported under a case-sensitive rule is matched by the pattern as written
exactly when the first three texts that match it in any case are spelled as the pattern is. -/
theorem reported_as_written_iff (jsText : List Char) :
    (∀ rule ∈ jsSecretRules, rule.caseSensitive = true → ∀ found ∈ reportedMatches rule jsText,
      MatchesAsWritten rule jsText found) ↔
      ∀ rule ∈ jsSecretRules, rule.caseSensitive = true →
        ∀ found ∈ firstThree rule jsText, Spelled rule.type found.taken := by
  refine forall₂_congr fun rule hrule => forall_congr' fun hcase => ?_
  rw [reportedMatches_eq hrule hcase]
  exact forall₂_congr fun found hfound =>
    matchesAsWritten_iff hrule hcase (List.mem_filter.mp (List.mem_of_mem_take hfound)).1

end Reported

/-- A word of twenty small letters is reported as an AWS key. -/
theorem small_letters_reported : ¬ ∀ (_ : UnicodeTables) (_ : EntropyTest) (jsText : List Char),
    ∀ rule ∈ jsSecretRules, rule.caseSensitive = true → ∀ found ∈ reportedMatches rule jsText,
      MatchesAsWritten rule jsText found := by
  intro h
  let _ := asciiTables
  let _ : EntropyTest := ⟨fun _ => false⟩
  have hreported : reportedMatches jsSecretRules[1] "akiaabcdefghijklmnop".toList =
      [⟨0, "akiaabcdefghijklmnop".toList, []⟩] := by decide +kernel
  have hnone : jsSecretRules[1].regex.run CharClass.memExact isWord none
      "akiaabcdefghijklmnop".toList = [] := rfl
  obtain ⟨m, hm, -⟩ := h asciiTables ⟨fun _ => false⟩ "akiaabcdefghijklmnop".toList
    jsSecretRules[1] (List.getElem_mem _) (by decide +kernel) ⟨0, _, []⟩
    (hreported ▸ List.mem_cons_self)
  exact List.not_mem_nil (hnone ▸ hm)

end ThreatScanner.Analyzer
