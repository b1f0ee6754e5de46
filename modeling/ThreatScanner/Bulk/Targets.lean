import ThreatScanner.Library.Distinct
import ThreatScanner.Library.Tokens
import ThreatScanner.Python.Text

/-!
# The target list of a bulk scan

`normalize_bulk_targets` splits what the user entered into lines, drops empty lines and comments
and keeps the first of the targets that differ in case and in trailing slashes only. The targets it
returns are distinct. `str.lower` is a parameter.

What it splits into are the tokens between commas and line boundaries (`targetLines_eq`), so it does
not matter how the text was cut up before.
-/

namespace ThreatScanner.Bulk

/-- The line boundaries of `str.splitlines`. -/
def isLineBreak (c : Char) : Bool :=
  c.toNat ∈ [0x0a, 0x0b, 0x0c, 0x0d, 0x1c, 0x1d, 0x1e, 0x85, 0x2028, 0x2029]

/-- `str.splitlines`; `line` is the line read so far, backwards. -/
def splitlines (line : List Char) : List Char → List (List Char)
  | [] => if line = [] then [] else [line.reverse]
  | '\r' :: '\n' :: rest => line.reverse :: splitlines [] rest
  | c :: rest =>
    if isLineBreak c then line.reverse :: splitlines [] rest else splitlines (c :: line) rest

/-- `str.replace(",", "\n")`. -/
def commasToLines (cs : List Char) : List Char := cs.map fun c => if c = ',' then '\n' else c

section Normalize
variable (lower : String → String)

/-- `target.lower().rstrip("/")`. -/
def targetKey (target : String) : String :=
  String.ofList ((lower target).toList.rdropWhile (· = '/'))

/-- The lines that hold a target. -/
def targetLines (rawTargets : List String) : List String :=
  rawTargets.flatMap fun item =>
    (((splitlines [] (commasToLines item.toList)).map strip).filter fun target =>
      target ≠ [] ∧ target.head? ≠ some '#').map String.ofList

/-- The targets whose keys are not yet seen. -/
def keepNew (seen : List String) : List String → List String
  | [] => []
  | target :: rest =>
    let key := targetKey lower target
    if key ∈ seen then keepNew seen rest else target :: keepNew (key :: seen) rest

/-- `normalize_bulk_targets`. -/
def normalizeBulkTargets (rawTargets : List String) : List String :=
  keepNew lower [] (targetLines rawTargets)

variable {lower}

theorem keepNew_eq (seen targets : List String) :
    keepNew lower seen targets = distinctFrom (targetKey lower) seen targets := by
  induction targets generalizing seen with
  | nil => rfl
  | cons target rest ih => simp only [keepNew, distinctFrom, ih]

/-- No two targets have the same key. -/
theorem normalizeBulkTargets_keys (rawTargets : List String) :
    ((normalizeBulkTargets lower rawTargets).map (targetKey lower)).Nodup := by
  rw [normalizeBulkTargets, keepNew_eq]
  exact (distinctFrom_keys [] _).2

theorem normalizeBulkTargets_nodup (rawTargets : List String) :
    (normalizeBulkTargets lower rawTargets).Nodup :=
  List.Nodup.of_map _ (normalizeBulkTargets_keys rawTargets)

/-! ## Tokens -/

/-- What separates two targets. -/
def isSeparator (c : Char) : Bool := c == ',' || isLineBreak c

/-- A token that is not a comment. -/
def isTarget (token : List Char) : Bool := token ≠ [] ∧ token.head? ≠ some '#'

/-- The tokens that are targets. -/
def targetTokens (rawTargets : List String) : List String :=
  rawTargets.flatMap fun item =>
    (tokens isSeparator strip isTarget item.toList).map String.ofList

/-- The lines are the pieces between line boundaries, but for empty ones. -/
theorem filter_splitlines (line cs : List Char) :
    ((splitlines line cs).map strip).filter isTarget =
      ((cs.splitOnPPrepend isLineBreak line).map strip).filter isTarget := by
  fun_induction splitlines line cs with
  | case1 => rfl
  | case2 line hline => rfl
  | case3 line rest ih =>
    rw [List.splitOnPPrepend_cons_pos (by decide), List.splitOnP_eq_splitOnPPrepend,
      List.splitOnPPrepend_cons_pos (by decide), List.splitOnP_eq_splitOnPPrepend]
    simp only [List.map_cons, List.filter_cons, ih]
    rfl
  | case4 line c rest _ hbreak ih =>
    rw [List.splitOnPPrepend_cons_pos hbreak, List.splitOnP_eq_splitOnPPrepend]
    simp only [List.map_cons, List.filter_cons, ih]
  | case5 line c rest _ hbreak ih =>
    rw [List.splitOnPPrepend_cons_neg (Bool.eq_false_iff.mpr hbreak), ih]

theorem splitOnP_commasToLines (cs : List Char) :
    (commasToLines cs).splitOnP isLineBreak = cs.splitOnP isSeparator := by
  induction cs with
  | nil => rfl
  | cons c cs ih =>
    rw [commasToLines, List.map_cons, ← commasToLines, List.splitOnP_cons_eq_if_modifyHead,
      List.splitOnP_cons_eq_if_modifyHead, ih]
    by_cases hc : c = ','
    · subst hc
      rfl
    · rw [if_neg hc, isSeparator, beq_eq_false_iff_ne.mpr hc, Bool.false_or]

theorem targetLines_eq (rawTargets : List String) :
    targetLines rawTargets = targetTokens rawTargets := by
  refine List.flatMap_congr fun item _ => congrArg (List.map String.ofList) ?_
  rw [tokens, ← splitOnP_commasToLines, List.splitOnP_eq_splitOnPPrepend, ← filter_splitlines]
  rfl

theorem normalizeBulkTargets_eq (rawTargets : List String) :
    normalizeBulkTargets lower rawTargets =
      distinctBy (targetKey lower) (targetTokens rawTargets) := by
  rw [normalizeBulkTargets, keepNew_eq, targetLines_eq]
  rfl

theorem targetTokens_join {sep : String} {c : Char} (hsep : sep.toList = [c])
    (hc : isSeparator c = true) (rawTargets : List String) :
    targetTokens [sep.intercalate rawTargets] = targetTokens rawTargets := by
  rw [targetTokens, List.flatMap_singleton, String.toList_intercalate, hsep,
    tokens_intercalate hc rfl, List.map_flatMap, List.flatMap_map]
  rfl

theorem strip_subset (cs : List Char) : strip cs ⊆ cs :=
  ((List.rdropWhile_prefix _ _).sublist.trans (List.dropWhile_suffix _).sublist).subset

/-- Tokens are read as themselves. -/
theorem targetTokens_of_subset {targets rawTargets : List String}
    (h : targets ⊆ targetTokens rawTargets) : targetTokens targets = targets := by
  have hself : ∀ target ∈ targets,
      (tokens isSeparator strip isTarget target.toList).map String.ofList = [target] := by
    intro target htarget
    obtain ⟨item, -, hitem⟩ := List.mem_flatMap.mp (h htarget)
    obtain ⟨token, htoken, rfl⟩ := List.mem_map.mp hitem
    rw [String.toList_ofList, tokens_of_mem strip_subset strip_strip htoken]
    rfl
  rw [targetTokens, List.flatMap_congr hself, List.flatMap_singleton']

/-- The characters from `.` to `z` separate nothing and are not stripped. -/
def PlainTarget (target : String) : Prop :=
  target ≠ "" ∧ ∀ c ∈ target.toList, 46 ≤ c.toNat ∧ c.toNat ≤ 122

theorem isSeparator_of_toNat {c : Char} (hlow : 46 ≤ c.toNat) (hhigh : c.toNat ≤ 122) :
    isSeparator c = false := by
  have hcomma : c ≠ ',' := by
    rintro rfl
    exact absurd hlow (by decide)
  have hbreak : isLineBreak c = false := by
    simp only [isLineBreak, decide_eq_false_iff_not, List.mem_cons, List.not_mem_nil, or_false]
    omega
  rw [isSeparator, beq_eq_false_iff_ne.mpr hcomma, hbreak]
  rfl

theorem PlainTarget.tokens_eq {target : String} (h : PlainTarget target) :
    tokens isSeparator strip isTarget target.toList = [target.toList] := by
  have hne : target.toList ≠ [] := mt String.toList_eq_nil_iff.mp h.1
  have hstrip : strip target.toList = target.toList := by
    have hspace : ∀ c ∈ target.toList, isSpace c = false := fun c hc =>
      isSpace_of_toNat (Nat.le_trans (by decide) (h.2 c hc).1) (h.2 c hc).2
    have happend : strip ([] ++ (target.toList ++ [])) = target.toList ++ [] :=
      strip_append [] nofun hspace hne
    rwa [List.nil_append, List.append_nil] at happend
  have htarget : isTarget target.toList = true := by
    refine decide_eq_true ⟨hne, fun hhead => ?_⟩
    exact absurd (h.2 _ (List.mem_of_head? hhead)).1 (by decide)
  rw [tokens_of_no_separator fun c hc => isSeparator_of_toNat (h.2 c hc).1 (h.2 c hc).2, hstrip,
    List.filter_singleton, htarget]
  rfl

/-- Plain targets with different keys are kept as they are. -/
theorem normalizeBulkTargets_of_plain {targets : List String}
    (hplain : ∀ target ∈ targets, PlainTarget target)
    (hkeys : (targets.map (targetKey lower)).Nodup) :
    normalizeBulkTargets lower targets = targets := by
  have htokens : targetTokens targets = targets := by
    refine (List.flatMap_congr (g := fun target => [target]) fun target htarget => ?_).trans
      (List.flatMap_singleton' targets)
    rw [(hplain target htarget).tokens_eq, List.map_singleton, String.ofList_toList]
  rw [normalizeBulkTargets_eq, htokens, distinctBy_eq_self hkeys]

/-- A second pass changes nothing. -/
theorem normalizeBulkTargets_normalized (rawTargets : List String) :
    normalizeBulkTargets lower (normalizeBulkTargets lower rawTargets) =
      normalizeBulkTargets lower rawTargets := by
  have hself : targetTokens (distinctBy (targetKey lower) (targetTokens rawTargets)) =
      distinctBy (targetKey lower) (targetTokens rawTargets) :=
    targetTokens_of_subset fun _ => mem_of_mem_distinctBy
  rw [normalizeBulkTargets_eq, normalizeBulkTargets_eq, hself, distinctBy_distinctBy]

/-- How the text was cut up makes no difference, nor does a second pass; what is kept is the first
target of each key. -/
theorem normalizeBulkTargets_laws (lower : String → String) (rawTargets : List String) :
    normalizeBulkTargets lower rawTargets =
      normalizeBulkTargets lower ["\n".intercalate rawTargets] ∧
    normalizeBulkTargets lower rawTargets =
      normalizeBulkTargets lower [",".intercalate rawTargets] ∧
    normalizeBulkTargets lower (normalizeBulkTargets lower rawTargets) =
      normalizeBulkTargets lower rawTargets ∧
    ((normalizeBulkTargets lower rawTargets).map (targetKey lower)).Nodup ∧
    FirstOfEach (fun target token => targetKey lower target = targetKey lower token)
      (targetTokens rawTargets) (normalizeBulkTargets lower rawTargets) ∧
    ∀ token ∈ targetTokens rawTargets,
      ∃ target ∈ normalizeBulkTargets lower rawTargets,
        targetKey lower target = targetKey lower token := by
  have hnewlines : targetTokens ["\n".intercalate rawTargets] = targetTokens rawTargets :=
    targetTokens_join (show "\n".toList = ['\n'] by decide) (by decide) rawTargets
  have hcommas : targetTokens [",".intercalate rawTargets] = targetTokens rawTargets :=
    targetTokens_join (show ",".toList = [','] by decide) (by decide) rawTargets
  refine ⟨?_, ?_, normalizeBulkTargets_normalized rawTargets,
    normalizeBulkTargets_keys rawTargets, ?_⟩
  · rw [normalizeBulkTargets_eq, normalizeBulkTargets_eq, hnewlines]
  · rw [normalizeBulkTargets_eq, normalizeBulkTargets_eq, hcommas]
  · rw [normalizeBulkTargets_eq]
    exact ⟨firstOfEach_distinctBy _ _, fun _ => exists_mem_distinctBy⟩

end Normalize

end ThreatScanner.Bulk
