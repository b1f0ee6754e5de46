import ThreatScanner.Analyzer.Detectors

/-!
# The context of a reflected payload

`reflected_context` judges the text around the first occurrence of the payload. A page may reflect
the payload several times, and a later occurrence may stand in a more dangerous context.
-/

namespace ThreatScanner.Analyzer

variable [UnicodeTables]

/-- The text around an occurrence that begins at `index`. -/
def reflectionWindow (body payload : String) (index : Nat) : String :=
  let stop := min body.toList.length (index + payload.toList.length + 80)
  String.ofList ((body.toList.take stop).drop (index - 80))

def inScript (window : String) : Bool := contains (lower window) "<script"

def inAttribute (window : String) : Bool :=
  contains (lower window) "href=" || contains (lower window) "src="

def inHtml (window : String) : Bool := contains window "<" && contains window ">"

/-- The context of one occurrence. -/
def windowContext (window : String) : String :=
  if inScript window then "script_context"
  else if inAttribute window then "attribute_context"
  else if inHtml window then "html_context"
  else "text_context"

/-- How dangerous a context is. -/
def danger (context : String) : Nat :=
  match context with
  | "script_context" => 3
  | "attribute_context" => 2
  | "html_context" => 1
  | _ => 0

/-- The payload occurs in the body at this index. -/
def OccursAt (body payload : String) (index : Nat) : Prop :=
  payload.toList <+: body.toList.drop index

/-- The context that is returned is at least as dangerous as that of each occurrence. -/
def ReportsWorst (body payload : String) : Prop :=
  ∀ index, OccursAt body payload index → ∃ context, reflectedContext body payload = some context ∧
    danger (windowContext (reflectionWindow body payload index)) ≤ danger context

/-- What is around an occurrence is found around the first one, or something more dangerous is. -/
structure Outdoes (first window : String) : Prop where
  script : inScript window = true → inScript first = true
  attr : inAttribute window = true → inScript first = true ∨ inAttribute first = true
  html : inHtml window = true →
    inScript first = true ∨ inAttribute first = true ∨ inHtml first = true

variable {body payload : String}

theorem reflectedContext_eq : reflectedContext body payload =
    (find payload.toList body.toList).map fun index =>
      windowContext (reflectionWindow body payload index) := rfl

theorem danger_windowContext_le_iff {first window : String} :
    danger (windowContext window) ≤ danger (windowContext first) ↔ Outdoes first window := by
  have hdanger : ∀ window, danger (windowContext window) =
      if inScript window then 3 else if inAttribute window then 2
      else if inHtml window then 1 else 0 := by
    intro window
    simp only [windowContext]
    split_ifs <;> rfl
  rw [hdanger, hdanger]
  constructor
  · intro h
    constructor <;> intro hmark <;> simp only [hmark, if_true] at h <;> split_ifs at h <;> simp_all
  · rintro ⟨hscript, hattr, hhtml⟩
    split_ifs <;> simp_all

theorem outdoes_of_reportsWorst (h : ReportsWorst body payload) {first index : Nat}
    (hfirst : find payload.toList body.toList = some first)
    (hoccurs : OccursAt body payload index) :
    Outdoes (reflectionWindow body payload first) (reflectionWindow body payload index) := by
  obtain ⟨context, hcontext, hle⟩ := h index hoccurs
  rw [reflectedContext_eq, hfirst] at hcontext
  cases hcontext
  exact danger_windowContext_le_iff.mp hle

/-- The most dangerous context is returned exactly when no occurrence outdoes the first one. -/
theorem reports_worst_iff (body payload : String) : ReportsWorst body payload ↔
    ∀ first, find payload.toList body.toList = some first → ∀ index, OccursAt body payload index →
      Outdoes (reflectionWindow body payload first) (reflectionWindow body payload index) := by
  constructor
  · exact fun h first hfirst index hoccurs => outdoes_of_reportsWorst h hfirst hoccurs
  · intro h index hoccurs
    obtain ⟨first, hfirst⟩ := exists_find hoccurs
    refine ⟨_, ?_, danger_windowContext_le_iff.mpr (h first hfirst index hoccurs)⟩
    rw [reflectedContext_eq, hfirst]
    rfl

/-- A page that shows the payload as text and, further down, within a script. -/
def echoedTwice : String :=
  "You searched for xsstest123" ++ String.ofList (List.replicate 100 '.') ++
    "<script>q = 'xsstest123'</script>"

omit [UnicodeTables] in
/-- The occurrence in the script is not looked at. -/
theorem script_reflection_missed : ¬ ∀ (_ : UnicodeTables) (body payload : String), payload ≠ "" →
    ReportsWorst body payload := by
  intro h
  let _ := asciiTables
  have hparts (s t : String) (cs : List Char) :
      (s ++ String.ofList cs ++ t).toList = s.toList ++ cs ++ t.toList := by
    rw [String.toList_append, String.toList_append, String.toList_ofList]
  have hbody : echoedTwice.toList = "You searched for xsstest123".toList ++
      List.replicate 100 '.' ++ "<script>q = 'xsstest123'</script>".toList := hparts _ _ _
  have hfirst : find "xsstest123".toList echoedTwice.toList = some 17 := by
    rw [hbody]
    decide +kernel
  have hoccurs : OccursAt echoedTwice "xsstest123" 140 := by
    rw [OccursAt, hbody]
    decide +kernel
  have hscript (window : String) : inScript window =
      decide ("<script".toList <:+: window.toList.map Char.toLower) := by
    rw [inScript, contains]
    exact congrArg (fun cs => decide ("<script".toList <:+: cs)) String.toList_ofList
  have houtdoes := outdoes_of_reportsWorst (h _ _ _ (by decide)) hfirst hoccurs
  have hlater : inScript (reflectionWindow echoedTwice "xsstest123" 140) = true := by
    rw [hscript, reflectionWindow, String.toList_ofList, hbody]
    decide +kernel
  have hearlier : inScript (reflectionWindow echoedTwice "xsstest123" 17) = false := by
    rw [hscript, reflectionWindow, String.toList_ofList, hbody]
    decide +kernel
  exact Bool.false_ne_true (hearlier.symm.trans (houtdoes.script hlater))

end ThreatScanner.Analyzer
