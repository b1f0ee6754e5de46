import ThreatScanner.Bulk.Targets
import ThreatScanner.Frontend.Text

/-!
# The target list in the browser

`normalizeBulkTargets` of `app.js` does what `normalize_bulk_targets` does, with other primitives: a
regular expression in place of `splitlines`, `trim` in place of `strip` and a pattern in place of
`rstrip`. On ASCII text in lines that end in LF or CRLF the two give the same list, and the backend
changes nothing in the list that the page sends.
-/

namespace ThreatScanner.Frontend

/-! ## The function -/

/-- `split(/\r?\n|,/)`; `piece` is the piece read so far, backwards. -/
def splitTargets (piece : List Char) : List Char → List (List Char)
  | [] => [piece.reverse]
  | '\r' :: '\n' :: rest => piece.reverse :: splitTargets [] rest
  | c :: rest =>
    if c = '\n' ∨ c = ',' then piece.reverse :: splitTargets [] rest
    else splitTargets (c :: piece) rest

/-- `replace(/\/+$/, "")`: the match begins where only slashes are left. -/
def dropSlashes : List Char → List Char
  | [] => []
  | c :: rest => if (c :: rest).all (· = '/') then [] else c :: dropSlashes rest

section Normalize
variable [JsTables]

/-- `x.toLowerCase().replace(/\/+$/, "")`. -/
def targetKey (target : String) : String :=
  String.ofList (dropSlashes (toLowerCase target).toList)

/-- The filter with the keys it has seen. -/
def keepUnseen (seen : List String) : List String → List String
  | [] => []
  | target :: rest =>
    if startsWith target "#" then keepUnseen seen rest
    else
      let key := targetKey target
      if key ∈ seen then keepUnseen seen rest else target :: keepUnseen (key :: seen) rest

/-- What is left of the pieces when they are trimmed. -/
def trimmedTargets (raw : String) : List String :=
  (((splitTargets [] raw.toList).map trim).filter (· ≠ [])).map String.ofList

/-- `normalizeBulkTargets`. -/
def normalizeBulkTargets (raw : String) : List String := keepUnseen [] (trimmedTargets raw)

end Normalize

/-- Printable ASCII and tabs, in lines that end in LF or CRLF. -/
def isPlainText : List Char → Bool
  | [] => true
  | c :: rest =>
    (if c = '\r' then rest.head? = some '\n'
      else c = '\t' ∨ c = '\n' ∨ 32 ≤ c.toNat ∧ c.toNat < 127) && isPlainText rest

/-! ## Its primitives on plain text -/

theorem rdropWhile_cons {α : Type*} {p : α → Bool} {c : α} {cs : List α}
    (h : ¬(c :: cs).all p = true) : (c :: cs).rdropWhile p = c :: cs.rdropWhile p := by
  rw [List.rdropWhile, List.rdropWhile, List.reverse_cons, List.dropWhile_append]
  split
  · next hempty =>
    have hall : cs.all p = true := by simpa using hempty
    have hc : ¬p c = true := fun hc => h (by rw [List.all_cons, hc, hall]; rfl)
    rw [List.dropWhile_cons_of_neg hc, List.isEmpty_iff.mp hempty]
    rfl
  · rw [List.reverse_append]
    rfl

theorem dropSlashes_eq (cs : List Char) : dropSlashes cs = cs.rdropWhile (· = '/') := by
  induction cs with
  | nil => rfl
  | cons c rest ih =>
    rw [dropSlashes]
    split
    · next hall =>
      exact (List.rdropWhile_eq_nil_iff.mpr (List.all_eq_true.mp hall)).symm
    · next hall =>
      rw [ih, rdropWhile_cons hall]

theorem dropWhile_congr {α : Type*} {p q : α → Bool} {cs : List α} (h : ∀ c ∈ cs, p c = q c) :
    cs.dropWhile p = cs.dropWhile q := by
  induction cs with
  | nil => rfl
  | cons c cs ih =>
    obtain ⟨hc, hcs⟩ := List.forall_mem_cons.mp h
    rw [List.dropWhile_cons, List.dropWhile_cons, hc, ih hcs]

theorem trim_eq_strip {cs : List Char} (h : ∀ c ∈ cs, isJsSpace c = isSpace c) :
    trim cs = strip cs := by
  have hrest : ∀ c ∈ (cs.dropWhile isSpace).reverse, isJsSpace c = isSpace c := fun c hc =>
    h c ((List.dropWhile_suffix _).subset (List.mem_reverse.mp hc))
  rw [trim, strip, dropWhile_congr h, List.rdropWhile, List.rdropWhile, dropWhile_congr hrest]

/-- The two sets of white space are the same on ASCII text without control characters. -/
theorem isJsSpace_eq {c : Char}
    (h : c = '\t' ∨ c = '\n' ∨ c = '\r' ∨ 32 ≤ c.toNat ∧ c.toNat < 127) :
    isJsSpace c = isSpace c := by
  rcases h with rfl | rfl | rfl | ⟨hlow, hhigh⟩
  · rfl
  · rfl
  · rfl
  · rw [isJsSpace, isSpace, decide_eq_decide]
    simp only [List.mem_cons, List.not_mem_nil, or_false]
    omega

/-- A plain character that no line ends with. -/
theorem isLineBreak_eq_false {c : Char} (hc : c = '\t' ∨ 32 ≤ c.toNat ∧ c.toNat < 127) :
    Bulk.isLineBreak c = false := by
  rcases hc with rfl | ⟨hlow, hhigh⟩
  · rfl
  · rw [Bulk.isLineBreak, decide_eq_false_iff_not]
    simp only [List.mem_cons, List.not_mem_nil, or_false]
    omega

theorem isPlainText_cons {c : Char} {rest : List Char} (h : isPlainText (c :: rest) = true) :
    (c = '\r' ∧ rest.head? = some '\n' ∨
      c = '\t' ∨ c = '\n' ∨ 32 ≤ c.toNat ∧ c.toNat < 127) ∧ isPlainText rest = true := by
  obtain ⟨hc, hrest⟩ := Bool.and_eq_true_iff.mp h
  refine ⟨?_, hrest⟩
  split at hc
  · next hreturn => exact .inl ⟨hreturn, of_decide_eq_true hc⟩
  · exact .inr (of_decide_eq_true hc)

/-- The expression and `splitlines` cut a plain text at the same places. -/
theorem filter_splitTargets (piece cs : List Char) (h : isPlainText cs = true) :
    (splitTargets piece cs).filter (· ≠ []) =
      (Bulk.splitlines piece (Bulk.commasToLines cs)).filter (· ≠ []) := by
  fun_induction splitTargets piece cs with
  | case1 piece =>
    rw [Bulk.commasToLines, List.map_nil, Bulk.splitlines]
    split
    · next hpiece => rw [hpiece]; rfl
    · rfl
  | case2 piece rest ih =>
    have hline : Bulk.splitlines piece (Bulk.commasToLines ('\r' :: '\n' :: rest)) =
        piece.reverse :: Bulk.splitlines [] (Bulk.commasToLines rest) := rfl
    rw [hline, List.filter_cons, List.filter_cons, ih (isPlainText_cons (isPlainText_cons h).2).2]
  | case3 piece c rest hnot hc ih =>
    have hline : Bulk.splitlines piece (Bulk.commasToLines (c :: rest)) =
        piece.reverse :: Bulk.splitlines [] (Bulk.commasToLines rest) := by
      obtain rfl | rfl := hc <;> rfl
    rw [hline, List.filter_cons, List.filter_cons, ih (isPlainText_cons h).2]
  | case4 piece c rest hnot hc ih =>
    obtain ⟨hplain, hrest⟩ := isPlainText_cons h
    rw [not_or] at hc
    have hchar : c = '\t' ∨ 32 ≤ c.toNat ∧ c.toNat < 127 := by
      rcases hplain with ⟨rfl, hhead⟩ | htab | hfeed | hchar
      · obtain ⟨rest', rfl⟩ := List.head?_eq_some_iff.mp hhead
        exact (hnot rest' rfl rfl).elim
      · exact .inl htab
      · exact absurd hfeed hc.1
      · exact .inr hchar
    have hreturn : c ≠ '\r' := by
      rintro rfl
      simp at hchar
    have hline : Bulk.splitlines piece (Bulk.commasToLines (c :: rest)) =
        Bulk.splitlines (c :: piece) (Bulk.commasToLines rest) := by
      rw [Bulk.commasToLines, List.map_cons, if_neg hc.2, ← Bulk.commasToLines,
        Bulk.splitlines.eq_3 _ _ _ (fun _ h => absurd h hreturn), isLineBreak_eq_false hchar]
      rfl
    rw [hline, ih hrest]

/-! ## The two lists -/

theorem mem_of_mem_splitTargets {piece cs target : List Char} {c : Char}
    (h : target ∈ splitTargets piece cs) (hc : c ∈ target) : c ∈ piece ∨ c ∈ cs := by
  fun_induction splitTargets piece cs with
  | case1 piece =>
    rw [List.mem_singleton.mp h, List.mem_reverse] at hc
    exact .inl hc
  | case2 piece rest ih =>
    rcases List.mem_cons.mp h with rfl | h
    · exact .inl (List.mem_reverse.mp hc)
    · have hrest := (ih h).resolve_left List.not_mem_nil
      exact .inr (List.mem_cons_of_mem _ (List.mem_cons_of_mem _ hrest))
  | case3 piece c' rest hnot hc' ih =>
    rcases List.mem_cons.mp h with rfl | h
    · exact .inl (List.mem_reverse.mp hc)
    · exact .inr (List.mem_cons_of_mem _ ((ih h).resolve_left List.not_mem_nil))
  | case4 piece c' rest hnot hc' ih =>
    rcases ih h with hpiece | hrest
    · rcases List.mem_cons.mp hpiece with rfl | hpiece
      · exact .inr List.mem_cons_self
      · exact .inl hpiece
    · exact .inr (List.mem_cons_of_mem _ hrest)

theorem plain_of_mem {cs : List Char} (h : isPlainText cs = true) {c : Char} (hc : c ∈ cs) :
    c = '\t' ∨ c = '\n' ∨ c = '\r' ∨ 32 ≤ c.toNat ∧ c.toNat < 127 := by
  induction cs with
  | nil => cases hc
  | cons a rest ih =>
    obtain ⟨ha, hrest⟩ := isPlainText_cons h
    rcases List.mem_cons.mp hc with rfl | hc
    · tauto
    · exact ih hrest hc

/-- Empty pieces leave nothing. -/
theorem filter_map_strip {keep : List Char → Bool} (hnil : keep [] = false)
    (pieces : List (List Char)) :
    ((pieces.filter (· ≠ [])).map strip).filter keep = (pieces.map strip).filter keep := by
  rw [List.filter_map, List.filter_map, List.filter_filter]
  refine congrArg (List.map strip) (List.filter_congr fun piece _ => ?_)
  by_cases hpiece : piece = []
  · have hkeep : (keep ∘ strip) piece = false := hpiece ▸ hnil
    rw [hkeep, Bool.false_and]
  · simp [hpiece]

theorem startsWith_hash (target : List Char) :
    startsWith (String.ofList target) "#" = decide (target.head? = some '#') := by
  rw [startsWith, decide_eq_decide, String.toList_ofList]
  cases target with
  | nil => simp
  | cons c rest => simp [eq_comm]

/-- The lines that hold a target, as the browser reads them. -/
theorem filter_trimmedTargets {raw : String} (h : isPlainText raw.toList = true) :
    (trimmedTargets raw).filter (fun target => !startsWith target "#") =
      Bulk.targetLines [raw] := by
  have htrim : (splitTargets [] raw.toList).map trim = (splitTargets [] raw.toList).map strip := by
    refine List.map_congr_left fun piece hpiece => trim_eq_strip fun c hc => isJsSpace_eq ?_
    exact plain_of_mem h ((mem_of_mem_splitTargets hpiece hc).resolve_left List.not_mem_nil)
  rw [trimmedTargets, htrim, ← filter_map_strip (by rfl), filter_splitTargets _ _ h,
    filter_map_strip (by rfl), List.filter_map, List.filter_filter, Bulk.targetLines,
    List.flatMap_singleton]
  refine congrArg (List.map String.ofList) (List.filter_congr fun target _ => ?_)
  rw [Function.comp_apply, startsWith_hash, Bool.decide_and, Bool.and_comm]
  simp only [ne_eq, decide_not]

theorem ascii_of_mem_trimmedTargets {raw target : String} (h : isPlainText raw.toList = true)
    (htarget : target ∈ trimmedTargets raw) : ∀ c ∈ target.toList, c.toNat < 128 := by
  obtain ⟨token, htoken, rfl⟩ := List.mem_map.mp htarget
  obtain ⟨piece, hpiece, rfl⟩ := List.mem_map.mp (List.mem_filter.mp htoken).1
  intro c hc
  rw [String.toList_ofList] at hc
  have hmem : c ∈ piece :=
    ((List.rdropWhile_prefix _ _).sublist.trans (List.dropWhile_suffix _).sublist).subset hc
  rcases plain_of_mem h ((mem_of_mem_splitTargets hpiece hmem).resolve_left List.not_mem_nil)
    with rfl | rfl | rfl | ⟨-, hlt⟩
  · decide
  · decide
  · decide
  · omega

section Agree
variable [JsTables]

theorem keepUnseen_eq (seen targets : List String) :
    keepUnseen seen targets =
      distinctFrom targetKey seen (targets.filter fun target => !startsWith target "#") := by
  induction targets generalizing seen with
  | nil => rfl
  | cons target rest ih =>
    rw [keepUnseen, List.filter_cons]
    cases hhash : startsWith target "#" with
    | true => simp only [if_true, Bool.not_true, Bool.false_eq_true, if_false, ih]
    | false =>
      simp only [Bool.false_eq_true, if_false, Bool.not_false, if_true, distinctFrom, ih]

variable [UnicodeTables]

theorem targetKey_eq {target : String} (h : ∀ c ∈ target.toList, c.toNat < 128) :
    targetKey target = Bulk.targetKey lower target := by
  rw [targetKey, Bulk.targetKey, dropSlashes_eq, JsTables.toLowerCase_ascii target h,
    UnicodeTables.lower_ascii target h]

/-- On plain text the browser and the backend give the same list, and the backend leaves the list
of the browser as it is. -/
theorem normalizeBulkTargets_agree (raw : String) (h : isPlainText raw.toList = true) :
    Bulk.normalizeBulkTargets lower [raw] = normalizeBulkTargets raw ∧
      Bulk.normalizeBulkTargets lower (normalizeBulkTargets raw) = normalizeBulkTargets raw := by
  have hsame : Bulk.normalizeBulkTargets lower [raw] = normalizeBulkTargets raw := by
    rw [normalizeBulkTargets, keepUnseen_eq, Bulk.normalizeBulkTargets, Bulk.keepNew_eq,
      ← filter_trimmedTargets h]
    refine distinctFrom_congr fun target htarget => (targetKey_eq ?_).symm
    exact ascii_of_mem_trimmedTargets h (List.mem_filter.mp htarget).1
  exact ⟨hsame, hsame ▸ Bulk.normalizeBulkTargets_normalized [raw]⟩

end Agree

/-- Lines with CRLF, a comment, a tab, and a target that comes twice. -/
def pastedTargets : String := "Example.com\r\nexample.com/, # old\n\texample.org"

theorem normalizeBulkTargets_agree_pasted :
    letI := asciiTables
    letI := asciiJsTables
    normalizeBulkTargets pastedTargets = ["Example.com", "example.org"] ∧
      Bulk.normalizeBulkTargets lower [pastedTargets] = normalizeBulkTargets pastedTargets ∧
      Bulk.normalizeBulkTargets lower (normalizeBulkTargets pastedTargets) =
        normalizeBulkTargets pastedTargets :=
  letI := asciiTables
  letI := asciiJsTables
  ⟨by decide +kernel, normalizeBulkTargets_agree pastedTargets (by decide +kernel)⟩

end ThreatScanner.Frontend
