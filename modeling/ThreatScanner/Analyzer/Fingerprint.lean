import ThreatScanner.Analyzer.SqlInjection
import ThreatScanner.Library.Runs

/-!
# Tokens in the fingerprint of a page

`normalize_body_for_diff` writes `N` for a run of two or more digits before it looks for hexadecimal
tokens, so what it looks for is what the digits have left of a token. Two pages that differ in a
token have one fingerprint exactly when the pieces between such runs correspond: each is the same in
both, or in both it has a stretch of sixteen hexadecimal digits.
-/

namespace ThreatScanner.Analyzer

/-- A character of `[a-f0-9]` under `re.IGNORECASE`. -/
def isTokenDigit : Char → Bool := (Pattern.chars [('a', 'f'), ('0', '9')]).mem

/-- A hexadecimal token. -/
structure IsToken (t : List Char) : Prop where
  length : 16 ≤ t.length
  hex : ∀ c ∈ t, isTokenDigit c = true

/-- The texts are the same but for a stretch of sixteen or more hexadecimal digits in each. -/
def Alike (s t : List Char) : Prop :=
  s = t ∨ ∃ x h h' y, s = x ++ h ++ y ∧ t = x ++ h' ++ y ∧ IsToken h ∧ IsToken h'

section Normalize
variable [DecimalDigits]

def isDigitChar (c : Char) : Bool := isDecimal c && !isSpace c

/-- A token with the digits that border on it. -/
def withDigits (before after t : List Char) : List Char :=
  before.rtakeWhile isDigitChar ++ t ++ after.takeWhile isDigitChar

/-- The pieces of a token with the digits that border on it, between the runs of two or more
digits. -/
def tokenPieces (before after t : List Char) : List (List Char) :=
  cutRuns isDecimal 2 (withDigits before after t)

def pageWith (before after t : List Char) : String := String.ofList (before ++ t ++ after)

/-- Two pages are normalized to one text, and responses with them are not told apart. -/
structure SameFingerprint (page page' : String) : Prop where
  body : normalizeBodyForDiff page = normalizeBodyForDiff page'
  responses : ∀ res res' : Response, res.text = page → res'.text = page' →
    res.statusCode = res'.statusCode → responseFingerprint res = responseFingerprint res' ∧
      diffScore (responseFingerprint res) (responseFingerprint res') = 0

/-! ## The three substitutions -/

def joinSpaces (s : List Char) : List Char := replaceRuns isSpace 1 " ".toList s

def cutDigits (s : List Char) : List Char := replaceRuns isDecimal 2 "N".toList s

def hashTokens (s : List Char) : List Char := replaceRuns isTokenDigit 16 "HASH".toList s

theorem normalizeBodyForDiff_eq (body : String) : normalizeBodyForDiff body =
    (hashTokens (cutDigits (joinSpaces body.toList))).take 50000 := rfl

/-- No page is longer when it is normalized. -/
theorem normalizeBodyForDiff_of_length_le {body : String} (h : body.toList.length ≤ 50000) :
    normalizeBodyForDiff body = hashTokens (cutDigits (joinSpaces body.toList)) := by
  rw [normalizeBodyForDiff_eq]
  refine List.take_of_length_le ?_
  calc (hashTokens (cutDigits (joinSpaces body.toList))).length
    _ ≤ (cutDigits (joinSpaces body.toList)).length :=
      length_replaceRuns_le (by decide) (by decide) _
    _ ≤ (joinSpaces body.toList).length := length_replaceRuns_le (by decide) (by decide) _
    _ ≤ body.toList.length := length_replaceRuns_le (by decide) (by decide) _
    _ ≤ 50000 := h

omit [DecimalDigits] in
theorem isSpace_eq_false_of_isHexDigit {c : Char} (h : isTokenDigit c = true) : isSpace c = false :=
  CharClass.not_isSpace_of_mem (by decide) h

open Rounding in
omit [DecimalDigits] in
/-- A fingerprint has no difference to itself, if the page is not empty. -/
theorem diffScore_self {fp : Fingerprint} (h : 0 < fp.length) : diffScore fp fp = 0 := by
  have hnonneg (q : ℚ) (hq : 0 ≤ q) : ¬ (0 : ℚ) > roundToBits 53 q :=
    not_lt.mpr (roundToBits_nonneg hq)
  have hratio : |((max fp.length 1 : ℕ) : ℚ) - fp.length| / ((max fp.length 1 : ℕ) : ℚ) = 0 := by
    rw [Nat.max_eq_left h, sub_self, abs_zero, zero_div]
  have hround : roundToBits 53 (0 : ℚ) = 0 := if_pos rfl
  simp only [diffScore]
  rw [hratio, hround, if_neg (not_not_intro rfl), if_neg (hnonneg _ (by norm_num)),
    if_neg (hnonneg _ (by norm_num)), if_neg (hnonneg _ (by norm_num)), if_neg (not_not_intro rfl)]
  rfl

/-! ## The pieces of a token -/

/-- At most one stretch of hexadecimal digits, and around it other digits. -/
def Shaped (s : List Char) : Prop :=
  ∃ x h y, s = x ++ h ++ y ∧ (∀ c ∈ h, isTokenDigit c = true) ∧
    ∀ c ∈ x ++ y, isDecimal c = true ∧ ¬ isTokenDigit c = true

omit [DecimalDigits] in
theorem mem_modifyHead {α : Type*} {f : α → α} {l : List α} {a : α} (h : a ∈ l.modifyHead f) :
    a ∈ l ∨ ∃ b ∈ l, a = f b := by
  cases l with
  | nil => cases h
  | cons b l =>
    rcases List.mem_cons.mp h with rfl | h
    · exact .inr ⟨b, List.mem_cons_self, rfl⟩
    · exact .inl (List.mem_cons_of_mem _ h)

/-- A stretch of hexadecimal digits and behind it other digits. -/
def ShapedRight (s : List Char) : Prop :=
  ∃ h y, s = h ++ y ∧ (∀ c ∈ h, isTokenDigit c = true) ∧
    ∀ c ∈ y, isDecimal c = true ∧ ¬ isTokenDigit c = true

theorem shapedRight_nil : ShapedRight [] :=
  ⟨[], [], rfl, List.forall_mem_nil _, List.forall_mem_nil _⟩

variable {m R L : List Char}

/-- What is left behind a run, which the digits at the end may be part of. -/
theorem dropWhile_append_digits (hR : ∀ c ∈ R, isDecimal c = true) (m : List Char) :
    (m ++ R).dropWhile isDecimal = [] ∨
      (m ++ R).dropWhile isDecimal = m.dropWhile isDecimal ++ R := by
  rw [List.dropWhile_append, List.dropWhile_eq_nil_iff.mpr hR]
  split
  · exact .inl rfl
  · exact .inr rfl

theorem shapedRight_of_mem_nil {s : List Char} (h : s ∈ cutRuns isDecimal 2 []) :
    ShapedRight s := List.mem_singleton.mp h ▸ shapedRight_nil

/-- The pieces of a hexadecimal text with digits behind it. -/
theorem shapedRight_of_mem (hm : ∀ c ∈ m, isTokenDigit c = true)
    (hR : ∀ c ∈ R, isDecimal c = true) (hhead : ∀ c ∈ R.head?, ¬ isTokenDigit c = true)
    {s : List Char} (h : s ∈ cutRuns isDecimal 2 (m ++ R)) : ShapedRight s := by
  induction hlen : m.length using Nat.strong_induction_on generalizing m s with
  | _ n ih =>
    subst hlen
    cases m with
    | nil =>
      cases R with
      | nil => exact shapedRight_of_mem_nil h
      | cons r R =>
        rw [List.nil_append, cutRuns_cons Nat.two_pos, List.takeWhile_eq_self_iff.mpr hR,
          List.dropWhile_eq_nil_iff.mpr hR] at h
        split at h
        · exact (List.mem_cons.mp h).elim (· ▸ shapedRight_nil) shapedRight_of_mem_nil
        · next hrun =>
          obtain rfl : R = [] := List.eq_nil_of_length_eq_zero (by
            rw [List.length_cons] at hrun
            omega)
          obtain rfl : s = [r] := List.mem_singleton.mp h
          exact ⟨[], [r], rfl, List.forall_mem_nil _,
            List.forall_mem_singleton.mpr ⟨hR r List.mem_cons_self, hhead r rfl⟩⟩
    | cons c m =>
      obtain ⟨hc, hm'⟩ := List.forall_mem_cons.mp hm
      rw [List.cons_append, cutRuns_cons Nat.two_pos] at h
      split at h
      · next hrun =>
        have hlt := dropWhile_cons_length_lt (pos_of_run Nat.two_pos hrun) m
        have hsub := (List.dropWhile_suffix isDecimal (l := c :: m)).subset
        rcases List.mem_cons.mp h with rfl | h
        · exact shapedRight_nil
        · rcases dropWhile_append_digits hR (c :: m) with hdrop | hdrop
          · exact shapedRight_of_mem_nil (hdrop ▸ h)
          · exact ih _ hlt (fun a ha => hm a (hsub ha)) (hdrop ▸ h) rfl
      · rcases mem_modifyHead h with h | ⟨s', hs', rfl⟩
        · exact ih _ (Nat.lt_succ_self _) hm' h rfl
        · obtain ⟨h', y, rfl, hhex, hy⟩ := ih _ (Nat.lt_succ_self _) hm' hs' rfl
          exact ⟨c :: h', y, rfl, List.forall_mem_cons.mpr ⟨hc, hhex⟩, hy⟩

theorem ShapedRight.shaped {s : List Char} (h : ShapedRight s) : Shaped s := by
  obtain ⟨h, y, rfl, hh, hy⟩ := h
  exact ⟨[], h, y, rfl, hh, hy⟩

/-- The pieces of a hexadecimal text with digits on both sides. -/
theorem shaped_of_mem (hL : ∀ c ∈ L, isDecimal c = true)
    (hlast : ∀ c ∈ L.getLast?, ¬ isTokenDigit c = true) (hm : ∀ c ∈ m, isTokenDigit c = true)
    (hR : ∀ c ∈ R, isDecimal c = true) (hhead : ∀ c ∈ R.head?, ¬ isTokenDigit c = true)
    {s : List Char} (h : s ∈ cutRuns isDecimal 2 (L ++ m ++ R)) : Shaped s := by
  have hright {m s : List Char} (hm : ∀ c ∈ m, isTokenDigit c = true)
      (h : s ∈ cutRuns isDecimal 2 (m ++ R)) : Shaped s :=
    (shapedRight_of_mem hm hR hhead h).shaped
  rw [List.append_assoc] at h
  cases L with
  | nil => exact hright hm h
  | cons l L =>
    rw [List.cons_append, cutRuns_cons Nat.two_pos] at h
    split at h
    · have hsub := (List.dropWhile_suffix isDecimal (l := m)).subset
      rw [← List.cons_append, List.dropWhile_append_of_pos hL] at h
      rcases List.mem_cons.mp h with rfl | h
      · exact shapedRight_nil.shaped
      · rcases dropWhile_append_digits hR m with hdrop | hdrop
        · exact (shapedRight_of_mem_nil (hdrop ▸ h)).shaped
        · exact hright (fun a ha => hm a (hsub ha)) (hdrop ▸ h)
    · next hrun =>
      rw [← List.cons_append, List.takeWhile_append_of_pos hL, List.length_append,
        List.length_cons] at hrun
      obtain rfl : L = [] := List.eq_nil_of_length_eq_zero (by omega)
      rcases mem_modifyHead h with h | ⟨s', hs', rfl⟩
      · exact hright hm h
      · obtain ⟨h', y, rfl, hhex, hy⟩ := shapedRight_of_mem hm hR hhead hs'
        exact ⟨[l], h', y, rfl, hhex,
          List.forall_mem_cons.mpr ⟨⟨hL l List.mem_cons_self, hlast l rfl⟩, hy⟩⟩

/-! ## The pieces under the last substitution -/

omit [DecimalDigits] in
theorem hashTokens_token {h : List Char} (hh : IsToken h) (x y : List Char) :
    hashTokens (x ++ h ++ y) = hashTokens (x.rdropWhile isTokenDigit) ++ "HASH".toList ++
      hashTokens (y.dropWhile isTokenDigit) :=
  replaceRuns_run_within (by decide) hh.hex hh.length x y

omit [DecimalDigits] in
theorem hashTokens_append {x h y : List Char} (hx : ∀ c ∈ x, ¬ isTokenDigit c = true)
    (hy : ∀ c ∈ y, ¬ isTokenDigit c = true) :
    hashTokens (x ++ h ++ y) = x ++ hashTokens h ++ y := by
  have hleft : Apart isTokenDigit x (h ++ y) :=
    apart_of_last fun a ha => hx a (List.mem_of_getLast? ha)
  have hright : Apart isTokenDigit h y := apart_of_head fun b hb => hy b (List.mem_of_head? hb)
  rw [List.append_assoc, List.append_assoc, hashTokens, replaceRuns_append (by decide) hleft,
    replaceRuns_append (by decide) hright, replaceRuns_of_forall_not (by decide) hx,
    replaceRuns_of_forall_not (by decide) hy, hashTokens]

omit [DecimalDigits] in
theorem hashTokens_hex {h : List Char} (hh : ∀ c ∈ h, isTokenDigit c = true) :
    hashTokens h = if 16 ≤ h.length then "HASH".toList else h := by
  split
  · next hlong => exact replaceRuns_run (by decide) hh hlong
  · next hshort => exact replaceRuns_of_length_lt (Nat.not_le.mp hshort)

/-- Letters that are in no digit. -/
theorem not_mem_of_digits {c : Char} (hascii : c.toNat < 128) (hc : c.isDigit = false)
    {x : List Char} (hx : ∀ a ∈ x, isDecimal a = true ∧ ¬ isTokenDigit a = true) : c ∉ x :=
  fun hmem => Bool.false_ne_true
    (hc.symm.trans ((DecimalDigits.isDecimal_ascii c hascii).symm.trans (hx c hmem).1))

/-- A piece in which a token is replaced is no piece in which none is. -/
theorem hash_ne {x h y x' y' : List Char} (hh : ∀ c ∈ h, isTokenDigit c = true)
    (hx : ∀ c ∈ x ++ y, isDecimal c = true ∧ ¬ isTokenDigit c = true) :
    x' ++ "HASH".toList ++ y' ≠ x ++ h ++ y := by
  intro heq
  have hmem : 'S' ∈ x ++ h ++ y := by
    rw [← heq]
    exact List.mem_append_left _ (List.mem_append_right _ (by decide))
  have hnot := not_mem_of_digits (c := 'S') (by decide) (by decide) hx
  simp only [List.mem_append, not_or] at hmem hnot
  rcases hmem with (hmem | hmem) | hmem
  · exact hnot.1 hmem
  · exact absurd (hh _ hmem) (by decide)
  · exact hnot.2 hmem

/-- A piece is not told apart from one that differs in a stretch of sixteen hexadecimal digits, and
from no others. -/
theorem hashTokens_eq_iff {s t : List Char} (hs : Shaped s) (ht : Shaped t) :
    hashTokens s = hashTokens t ↔ Alike s t := by
  constructor
  · obtain ⟨x, h, y, rfl, hh, hxy⟩ := hs
    obtain ⟨x', h', y', rfl, hh', hxy'⟩ := ht
    have hx := fun c hc => (hxy c (List.mem_append_left _ hc)).2
    have hy := fun c hc => (hxy c (List.mem_append_right _ hc)).2
    have hx' := fun c hc => (hxy' c (List.mem_append_left _ hc)).2
    have hy' := fun c hc => (hxy' c (List.mem_append_right _ hc)).2
    rw [hashTokens_append hx hy, hashTokens_append hx' hy', hashTokens_hex hh, hashTokens_hex hh']
    by_cases hlong : 16 ≤ h.length <;> by_cases hlong' : 16 ≤ h'.length
    · rw [if_pos hlong, if_pos hlong']
      intro heq
      have hnot := not_mem_of_digits (c := 'S') (by decide) (by decide) hxy
      simp only [List.mem_append, not_or] at hnot
      have hsplit : (x ++ ['H', 'A']) ++ 'S' :: 'H' :: y =
          (x' ++ ['H', 'A']) ++ 'S' :: 'H' :: y' := by simpa using heq
      obtain ⟨hbefore, -, hafter⟩ := (List.append_cons_inj_of_notMem
        (List.mem_append.not.mpr (not_or.mpr ⟨hnot.1, by decide⟩))
        (List.mem_cons.not.mpr (not_or.mpr ⟨by decide, hnot.2⟩))).mp hsplit
      obtain rfl := List.append_cancel_right hbefore
      obtain rfl := (List.cons.inj hafter).2
      exact .inr ⟨x, h, h', y, rfl, rfl, ⟨hlong, hh⟩, ⟨hlong', hh'⟩⟩
    · rw [if_pos hlong, if_neg hlong']
      exact fun heq => absurd heq (hash_ne hh' hxy')
    · rw [if_neg hlong, if_pos hlong']
      exact fun heq => absurd heq.symm (hash_ne hh hxy)
    · rw [if_neg hlong, if_neg hlong']
      exact Or.inl
  · rintro (rfl | ⟨x, h, h', y, rfl, rfl, hh, hh'⟩)
    · rfl
    · rw [hashTokens_token hh, hashTokens_token hh']

/-! ## A token in its page -/

section Page
variable {before after t : List Char}

theorem isDecimal_eq_false {c : Char} (h : c.toNat < 128) (hc : c.isDigit = false) :
    ¬ isDecimal c = true := by
  rw [DecimalDigits.isDecimal_ascii c h, hc]
  exact Bool.false_ne_true

omit [DecimalDigits] in
theorem eq_space_or_of_mem_joinSpaces {s : List Char} {a : Char} (h : a ∈ joinSpaces s) :
    a = ' ' ∨ ¬ isSpace a = true :=
  (mem_replaceRuns_one h).imp_left List.mem_singleton.mp

/-- A character at an end of what is joined of a text, of whose end this is the digits have been
taken off. -/
theorem not_isDecimal_of_end {s : List Char} {a : Char} (hmem : a ∈ joinSpaces s)
    (hend : a ∈ " ".toList ∨ ¬ isDigitChar a = true) : ¬ isDecimal a = true := by
  have hspace : ¬ isDecimal ' ' = true := isDecimal_eq_false (by decide) (by decide)
  rcases hend with hend | hend
  · exact List.mem_singleton.mp hend ▸ hspace
  · rcases eq_space_or_of_mem_joinSpaces hmem with rfl | hnot
    · exact hspace
    · intro hdecimal
      rw [isDigitChar, hdecimal, Bool.eq_false_iff.mpr hnot] at hend
      exact hend rfl

theorem isDecimal_of_isDigitChar {c : Char} (h : isDigitChar c = true) : isDecimal c = true :=
  (Bool.and_eq_true_iff.mp h).1

omit [DecimalDigits] in
theorem not_isHexDigit_filler {a : Char} {filler : List Char} (hfiller : filler ∈ [[' '], ['N']])
    (h : a ∈ filler) : ¬ isTokenDigit a = true := by
  simp only [List.mem_cons, List.not_mem_nil, or_false] at hfiller
  rcases hfiller with rfl | rfl <;> exact List.mem_singleton.mp h ▸ (by decide)

theorem cutDigits_run_append {w : List Char} (hw : ∀ c ∈ w, isDecimal c = true)
    (hlong : 2 ≤ w.length) (s : List Char) :
    cutDigits (w ++ s) = 'N' :: cutDigits (s.dropWhile isDecimal) :=
  replaceRuns_run_within (by decide) hw hlong [] s

theorem cutDigits_append_run {w : List Char} (hw : ∀ c ∈ w, isDecimal c = true)
    (hlong : 2 ≤ w.length) (s : List Char) :
    cutDigits (s ++ w) = cutDigits (s.rdropWhile isDecimal) ++ ['N'] := by
  have hrun : cutDigits (s ++ w ++ []) = cutDigits (s.rdropWhile isDecimal) ++ ['N'] ++ [] :=
    replaceRuns_run_within (by decide) hw hlong s []
  rwa [List.append_nil, List.append_nil] at hrun

/-- No hexadecimal digits go on from the text before a token into the token. -/
theorem apart_before (hbefore : ∀ c ∈ before.getLast?, ¬ isTokenDigit c = true) :
    Apart isTokenDigit (cutDigits (joinSpaces (before.rdropWhile isDigitChar)))
      (cutDigits (withDigits before after t)) := by
  have hparts := List.rdropWhile_append_rtakeWhile (p := isDigitChar) (l := before)
  have hdigits : ∀ c ∈ before.rtakeWhile isDigitChar, isDecimal c = true :=
    fun c hc => isDecimal_of_isDigitChar (List.mem_rtakeWhile_imp hc)
  unfold withDigits
  cases hborder : before.rtakeWhile isDigitChar with
  | nil =>
    rw [hborder, List.append_nil] at hparts
    refine apart_of_last fun a ha => ?_
    rcases getLast?_replaceRuns (by decide) (by decide) ha with hfiller | ha
    · exact not_isHexDigit_filler (by decide) hfiller
    · rcases getLast?_replaceRuns (by decide) (by decide) ha with hfiller | ha
      · exact not_isHexDigit_filler (by decide) hfiller
      · exact hbefore a (hparts ▸ ha)
  | cons l L =>
    rw [hborder] at hparts hdigits
    refine apart_of_head fun b hb => ?_
    by_cases hlong : 2 ≤ (l :: L).length
    · rw [List.append_assoc, cutDigits_run_append hdigits hlong] at hb
      exact Option.some.inj hb ▸ not_isHexDigit_filler (by decide) (List.mem_singleton.mpr rfl)
    · obtain rfl : L = [] := List.eq_nil_of_length_eq_zero (by
        rw [List.length_cons] at hlong
        omega)
      rcases head?_replaceRuns (by decide) (by decide) hb with hfiller | hb
      · exact not_isHexDigit_filler (by decide) hfiller
      · refine hbefore b ?_
        rwa [← hparts, List.getLast?_concat]

/-- No hexadecimal digits go on from a token into the text after it. -/
theorem apart_after (hafter : ∀ c ∈ after.head?, ¬ isTokenDigit c = true) :
    Apart isTokenDigit (cutDigits (withDigits before after t))
      (cutDigits (joinSpaces (after.dropWhile isDigitChar))) := by
  have hparts := List.takeWhile_append_dropWhile (p := isDigitChar) (l := after)
  have hdigits : ∀ c ∈ after.takeWhile isDigitChar, isDecimal c = true :=
    fun c hc => isDecimal_of_isDigitChar (List.mem_takeWhile_imp hc)
  unfold withDigits
  cases hborder : after.takeWhile isDigitChar with
  | nil =>
    rw [hborder, List.nil_append] at hparts
    refine apart_of_head fun b hb => ?_
    rcases head?_replaceRuns (by decide) (by decide) hb with hfiller | hb
    · exact not_isHexDigit_filler (by decide) hfiller
    · rcases head?_replaceRuns (by decide) (by decide) hb with hfiller | hb
      · exact not_isHexDigit_filler (by decide) hfiller
      · exact hafter b (hparts ▸ hb)
  | cons r R =>
    rw [hborder] at hparts hdigits
    refine apart_of_last fun a ha => ?_
    by_cases hlong : 2 ≤ (r :: R).length
    · rw [cutDigits_append_run hdigits hlong, List.getLast?_concat] at ha
      exact Option.some.inj ha ▸ not_isHexDigit_filler (by decide) (List.mem_singleton.mpr rfl)
    · obtain rfl : R = [] := List.eq_nil_of_length_eq_zero (by
        rw [List.length_cons] at hlong
        omega)
      rcases getLast?_replaceRuns (by decide) (by decide) ha with hfiller | ha
      · exact not_isHexDigit_filler (by decide) hfiller
      · refine hafter a ?_
        rw [List.getLast?_concat] at ha
        exact hparts ▸ ha

theorem withDigits_ne_nil (ht : IsToken t) : withDigits before after t ≠ [] := by
  intro hnil
  have hlength := ht.length
  rw [(List.append_eq_nil_iff.mp (List.append_eq_nil_iff.mp hnil).1).2] at hlength
  exact absurd hlength (by decide)

theorem not_isSpace_withDigits (ht : IsToken t) :
    ∀ c ∈ withDigits before after t, ¬ isSpace c = true := by
  have hdigit {c : Char} (h : isDigitChar c = true) : ¬ isSpace c = true := fun hspace => by
    rw [isDigitChar, hspace, Bool.not_true, Bool.and_false] at h
    exact Bool.false_ne_true h
  intro c hc
  rcases List.mem_append.mp hc with hc | hc
  · rcases List.mem_append.mp hc with hc | hc
    · exact hdigit (List.mem_rtakeWhile_imp hc)
    · exact Bool.eq_false_iff.mp (isSpace_eq_false_of_isHexDigit (ht.hex c hc))
  · exact hdigit (List.mem_takeWhile_imp hc)

/-- The token with the digits that border on it stands by itself under all three substitutions. -/
theorem hashTokens_page (hbefore : ∀ c ∈ before.getLast?, ¬ isTokenDigit c = true)
    (hafter : ∀ c ∈ after.head?, ¬ isTokenDigit c = true) (ht : IsToken t) :
    hashTokens (cutDigits (joinSpaces (before ++ t ++ after))) =
      hashTokens (cutDigits (joinSpaces (before.rdropWhile isDigitChar))) ++
        hashTokens (cutDigits (withDigits before after t)) ++
          hashTokens (cutDigits (joinSpaces (after.dropWhile isDigitChar))) := by
  have hne : withDigits before after t ≠ [] := withDigits_ne_nil ht
  have hspaces : ∀ c ∈ withDigits before after t, ¬ isSpace c = true := not_isSpace_withDigits ht
  have hpage : before ++ t ++ after = before.rdropWhile isDigitChar ++
      withDigits before after t ++ after.dropWhile isDigitChar := by
    conv_lhs => rw [← List.rdropWhile_append_rtakeWhile (p := isDigitChar) (l := before),
      ← List.takeWhile_append_dropWhile (p := isDigitChar) (l := after)]
    simp only [withDigits, List.append_assoc]
  have hjoin : joinSpaces (before ++ t ++ after) = joinSpaces (before.rdropWhile isDigitChar) ++
      withDigits before after t ++ joinSpaces (after.dropWhile isDigitChar) := by
    rw [hpage, joinSpaces, replaceRuns_append_append (by decide) hne
      (apart_of_head fun c hc => hspaces c (List.mem_of_head? hc))
      (apart_of_last fun c hc => hspaces c (List.mem_of_getLast? hc)),
      replaceRuns_of_forall_not (by decide) hspaces]
    rfl
  have hcut : cutDigits (joinSpaces (before ++ t ++ after)) =
      cutDigits (joinSpaces (before.rdropWhile isDigitChar)) ++
        cutDigits (withDigits before after t) ++
          cutDigits (joinSpaces (after.dropWhile isDigitChar)) := by
    rw [hjoin]
    refine replaceRuns_append_append (by decide) hne (apart_of_last fun a ha => ?_)
      (apart_of_head fun a ha => ?_)
    · exact not_isDecimal_of_end (List.mem_of_getLast? ha)
        ((getLast?_replaceRuns (by decide) (by decide) ha).imp_right
          not_of_mem_getLast?_rdropWhile)
    · exact not_isDecimal_of_end (List.mem_of_head? ha)
        ((head?_replaceRuns (by decide) (by decide) ha).imp_right not_of_mem_head?_dropWhile)
  rw [hcut]
  refine replaceRuns_append_append (by decide) (replaceRuns_ne_nil (by decide) (by decide) hne)
    (apart_before hbefore) (apart_after hafter)

/-! ## Two tokens -/

variable {t' : List Char}

theorem shaped_of_mem_tokenPieces (hbefore : ∀ c ∈ before.getLast?, ¬ isTokenDigit c = true)
    (hafter : ∀ c ∈ after.head?, ¬ isTokenDigit c = true) (ht : IsToken t) {s : List Char}
    (h : s ∈ tokenPieces before after t) : Shaped s := by
  refine shaped_of_mem (fun c hc => isDecimal_of_isDigitChar (List.mem_rtakeWhile_imp hc))
    (fun c hc => hbefore c ?_) ht.hex
    (fun c hc => isDecimal_of_isDigitChar (List.mem_takeWhile_imp hc))
    (fun c hc => hafter c ?_) h
  · rw [← List.rdropWhile_append_rtakeWhile (p := isDigitChar) (l := before), List.getLast?_append]
    exact Option.or_eq_some_iff.mpr (.inl hc)
  · rw [← List.takeWhile_append_dropWhile (p := isDigitChar) (l := after), List.head?_append]
    exact Option.or_eq_some_iff.mpr (.inl hc)

theorem not_mem_hashTokens {s : List Char} (hs : Shaped s) : 'N' ∉ hashTokens s := by
  intro hmem
  rcases mem_replaceRuns (by decide) hmem with hmem | hmem
  · exact absurd hmem (by decide)
  · obtain ⟨x, h, y, rfl, hh, hxy⟩ := hs
    have hnot := not_mem_of_digits (c := 'N') (by decide) (by decide) hxy
    simp only [List.mem_append, not_or] at hmem hnot
    rcases hmem with (hmem | hmem) | hmem
    · exact hnot.1 hmem
    · exact absurd (hh _ hmem) (by decide)
    · exact hnot.2 hmem

/-- What is left of a token are its pieces, with `N` between them. -/
theorem hashTokens_cutDigits (s : List Char) : hashTokens (cutDigits s) =
    ['N'].intercalate ((cutRuns isDecimal 2 s).map hashTokens) := by
  rw [cutDigits, replaceRuns_eq_intercalate]
  exact replaceRuns_intercalate (by decide) (by decide) _

omit [DecimalDigits] in
theorem map_hashTokens_eq_iff {R : List Char → List Char → Prop} {l l' : List (List Char)}
    (h : ∀ s ∈ l, ∀ s' ∈ l', hashTokens s = hashTokens s' ↔ R s s') :
    l.map hashTokens = l'.map hashTokens ↔ List.Forall₂ R l l' := by
  induction l generalizing l' with
  | nil => rw [List.map_nil, eq_comm, List.map_eq_nil_iff, List.forall₂_nil_left_iff]
  | cons s l ih =>
    cases l' with
    | nil => simp
    | cons s' l' =>
      have hhead := h s List.mem_cons_self s' List.mem_cons_self
      have htail := ih fun r hr r' hr' =>
        h r (List.mem_cons_of_mem s hr) r' (List.mem_cons_of_mem s' hr')
      rw [List.map_cons, List.map_cons, List.cons.injEq, List.forall₂_cons, hhead, htail]

theorem hashTokens_withDigits_iff (hbefore : ∀ c ∈ before.getLast?, ¬ isTokenDigit c = true)
    (hafter : ∀ c ∈ after.head?, ¬ isTokenDigit c = true) (ht : IsToken t) (ht' : IsToken t') :
    hashTokens (cutDigits (withDigits before after t)) =
      hashTokens (cutDigits (withDigits before after t')) ↔
        List.Forall₂ Alike (tokenPieces before after t) (tokenPieces before after t') := by
  have hsplit {t : List Char} (ht : IsToken t) :
      (hashTokens (cutDigits (withDigits before after t))).splitOn 'N' =
        (tokenPieces before after t).map hashTokens := by
    rw [hashTokens_cutDigits]
    refine List.splitOn_intercalate 'N' (fun row hrow => ?_) ?_
    · obtain ⟨s, hs, rfl⟩ := List.mem_map.mp hrow
      exact not_mem_hashTokens (shaped_of_mem_tokenPieces hbefore hafter ht hs)
    · exact List.map_eq_nil_iff.not.mpr (cutRuns_ne_nil _)
  rw [← map_hashTokens_eq_iff fun s hs s' hs' =>
    hashTokens_eq_iff (shaped_of_mem_tokenPieces hbefore hafter ht hs)
      (shaped_of_mem_tokenPieces hbefore hafter ht' hs')]
  constructor
  · intro heq
    rw [← hsplit ht, ← hsplit ht', heq]
  · intro heq
    rw [hashTokens_cutDigits, hashTokens_cutDigits]
    exact congrArg _ heq

/-- Pages of one normalized text that is not empty are not told apart. -/
theorem sameFingerprint_of_eq {page page' : String}
    (h : normalizeBodyForDiff page = normalizeBodyForDiff page')
    (hne : normalizeBodyForDiff page ≠ []) : SameFingerprint page page' := by
  refine ⟨h, fun res res' htext htext' hstatus => ?_⟩
  have heq : responseFingerprint res = responseFingerprint res' := by
    simp only [responseFingerprint, htext, htext', hstatus, h]
  refine ⟨heq, heq ▸ diffScore_self (List.length_pos_of_ne_nil ?_)⟩
  rwa [htext]

/-- Two pages that differ in a delimited token of sixteen or more hexadecimal digits have one
fingerprint exactly when the pieces of the tokens correspond. -/
theorem same_fingerprint_iff (before after t t' : List Char)
    (hbefore : ∀ c ∈ before.getLast?, ¬ isTokenDigit c = true)
    (hafter : ∀ c ∈ after.head?, ¬ isTokenDigit c = true) (ht : IsToken t) (ht' : IsToken t')
    (hlimit : (before ++ t ++ after).length ≤ 50000)
    (hlimit' : (before ++ t' ++ after).length ≤ 50000) :
    SameFingerprint (pageWith before after t) (pageWith before after t') ↔
      List.Forall₂ Alike (tokenPieces before after t) (tokenPieces before after t') := by
  have hbody {t : List Char} (ht : IsToken t) (hlimit : (before ++ t ++ after).length ≤ 50000) :
      normalizeBodyForDiff (pageWith before after t) =
        hashTokens (cutDigits (joinSpaces (before.rdropWhile isDigitChar))) ++
          hashTokens (cutDigits (withDigits before after t)) ++
            hashTokens (cutDigits (joinSpaces (after.dropWhile isDigitChar))) := by
    rw [normalizeBodyForDiff_of_length_le (by rwa [pageWith, String.toList_ofList]), pageWith,
      String.toList_ofList]
    exact hashTokens_page hbefore hafter ht
  have hne : normalizeBodyForDiff (pageWith before after t) ≠ [] := by
    rw [hbody ht hlimit]
    intro hnil
    have hnil := (List.append_eq_nil_iff.mp (List.append_eq_nil_iff.mp hnil).1).2
    exact replaceRuns_ne_nil (by decide) (by decide) (replaceRuns_ne_nil (by decide) (by decide)
      (withDigits_ne_nil ht)) hnil
  rw [← hashTokens_withDigits_iff hbefore hafter ht ht']
  constructor
  · intro hsame
    have heq := hsame.body
    rw [hbody ht hlimit, hbody ht' hlimit'] at heq
    exact List.append_cancel_left (List.append_cancel_right heq)
  · intro heq
    refine sameFingerprint_of_eq ?_ hne
    rw [hbody ht hlimit, hbody ht' hlimit', heq]

end Page

end Normalize

/-- Tokens of letters only are alike. -/
theorem letters_not_told_apart : letI := asciiDigits
    SameFingerprint (pageWith "id=".toList ".".toList "aaaaaaaaaaaaaaaa".toList)
      (pageWith "id=".toList ".".toList "abcdefabcdefabcdef".toList) := by
  let _ := asciiDigits
  have ha : IsToken "aaaaaaaaaaaaaaaa".toList := ⟨by decide, List.all_eq_true.mp (by decide)⟩
  have hb : IsToken "abcdefabcdefabcdef".toList := ⟨by decide, List.all_eq_true.mp (by decide)⟩
  have hbefore : ∀ c ∈ "id=".toList.getLast?, ¬ isTokenDigit c = true := by
    rintro _ ⟨⟩
    decide
  have hafter : ∀ c ∈ ".".toList.head?, ¬ isTokenDigit c = true := by
    rintro _ ⟨⟩
    decide
  refine (same_fingerprint_iff "id=".toList ".".toList _ _ hbefore hafter ha hb
    (by decide) (by decide)).mpr ?_
  have halike : Alike "aaaaaaaaaaaaaaaa".toList "abcdefabcdefabcdef".toList :=
    .inr ⟨[], _, _, [], rfl, rfl, ha, hb⟩
  exact .cons halike .nil

/-- A token with digits in it is not taken for a token. -/
theorem digits_told_apart : ¬ ∀ (_ : DecimalDigits) (before after t t' : List Char),
    (∀ c ∈ before.getLast?, ¬ isTokenDigit c = true) →
    (∀ c ∈ after.head?, ¬ isTokenDigit c = true) →
      IsToken t → IsToken t' → (before ++ t ++ after).length ≤ 50000 →
        (before ++ t' ++ after).length ≤ 50000 →
          SameFingerprint (pageWith before after t) (pageWith before after t') := by
  intro h
  let _ := asciiDigits
  have hsame := h asciiDigits [] [] "aaaaaaaaaaaaaaaa".toList "1234567890abcdef".toList nofun nofun
    ⟨by decide, List.all_eq_true.mp (by decide)⟩ ⟨by decide, List.all_eq_true.mp (by decide)⟩
    (by decide) (by decide)
  exact absurd hsame.body (by decide +kernel)

end ThreatScanner.Analyzer
