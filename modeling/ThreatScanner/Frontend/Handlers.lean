import Mathlib.Data.List.Forall2
import ThreatScanner.Frontend.Escaping
import ThreatScanner.Library.JsLiteral

/-!
# Inline event handlers

The buttons of `app.js` whose `onclick` attributes hold a string of the scan, between the
quotation marks of the attribute and the apostrophes of a JavaScript string. `renderUrlActions` and
`renderBulkUrlList` escape the string for HTML, `renderScanResult` escapes the apostrophes only. A
browser reads what was meant for some strings and not for others.
-/

namespace ThreatScanner.Frontend

open Html Js

/-- A piece of a template: text, or the opening of an onclick attribute. -/
inductive Part where
  | text (s : DomString)
  | onclick

def markup : List Part → DomString
  | [] => []
  | .text s :: parts => s ++ markup parts
  | .onclick :: parts => units "onclick=\"" ++ markup parts

/-- What comes after the opening quotation mark, for every onclick attribute. -/
def handlers : List Part → List DomString
  | [] => []
  | .text _ :: parts => handlers parts
  | .onclick :: parts => markup parts :: handlers parts

/-! ## The templates -/

def button (attributes callee : String) (argument : DomString) (rest label : String) : List Part :=
  [.text (units s!"<button {attributes} "), .onclick, .text (units s!"{callee}('"),
    .text argument, .text (units s!"'{rest}\">{label}</button>")]

def renderUrlActions (url : DomString) : List Part :=
  if url = [] then [] else
    let safe := esc url
    [.text (units "\n    <div class=\"affected-box\">\n      <div class=\"affected-label\">"),
      .text (units "🔗 Affected URL</div>\n      <a class=\"affected-link\" href=\""), .text safe,
      .text (units "\" target=\"_blank\" rel=\"noopener noreferrer\">"), .text safe,
      .text (units "</a>\n      <div class=\"affected-actions\">\n        ")] ++
    button "type=\"button\"" "openUrl" safe ")" "Open" ++ [.text (units "\n        ")] ++
    button "type=\"button\"" "copyText" safe ")" "Copy" ++
    [.text (units "\n      </div>\n    </div>\n  ")]

/-- The entry of one URL in the list of a bulk result. -/
def bulkUrlItem (u : DomString) : List Part :=
  [.text (units "\n          <div class=\"bulk-url-item\">\n            <a href=\""), .text (esc u),
    .text (units "\" target=\"_blank\" rel=\"noopener noreferrer\">"), .text (esc u),
    .text (units "</a>\n            <div class=\"affected-actions\" style=\"margin-top:8px\">"),
    .text (units "\n              ")] ++
  button "type=\"button\"" "openUrl" (esc u) ")" "Open" ++ [.text (units "\n              ")] ++
  button "type=\"button\"" "copyText" (esc u) ")" "Copy" ++
  [.text (units "\n            </div>\n          </div>\n        ")]

def renderBulkUrlList (title : DomString) (urls : List DomString) (emptyText : DomString) :
    List Part :=
  [.text (units "\n    <h4>"), .text (esc title), .text (units " <span class=\"badge\">"),
    .text (units (toString urls.length)), .text (units "</span></h4>\n    ")] ++
  (if urls ≠ [] then
    [.text (units "<div class=\"bulk-url-list\">")] ++ urls.flatMap bulkUrlItem ++
      [.text (units "</div>")]
  else
    [.text (units "<div class=\"bulk-empty\">"), .text (esc emptyText), .text (units "</div>")]) ++
  [.text (units "\n  ")]

/-- The button of the password guessing in `renderScanResult`, with the target `wpTargetValue`. -/
def wpBruteforceButton (wpTargetValue : DomString) : List Part :=
  let wpTargetSafe := replaceAll apostrophe (units "\\'") wpTargetValue
  button "id=\"wp-bruteforce-btn\" type=\"button\"" "startWordpressBruteforce" wpTargetSafe
    ", document.getElementById('wp-bruteforce-user').value)" "Start Guessing"

/-! ## The call that a browser reads -/

section Reading
variable (refs : NamedReferences)

/-- The call that the value of an attribute makes, from what comes after the opening quotation
mark. -/
def handlerCall (raw : DomString) : Option Call :=
  (attributeValue (normalizeNewlines false raw)).bind fun value => readCall (decode refs value)

/-- The functions that the handlers call, with what comes after their first argument. -/
def pageFunctions : List (String × String) :=
  [("openUrl", ")"), ("copyText", ")"),
    ("startWordpressBruteforce", ", document.getElementById('wp-bruteforce-user').value)")]

/-- The handler is a single call of one of the functions, with the string as its first argument. -/
def SingleCall (s raw : DomString) : Prop :=
  ∃ f ∈ pageFunctions, handlerCall refs raw = some ⟨units f.1, s, units f.2⟩

instance (s raw : DomString) : Decidable (SingleCall refs s raw) :=
  inferInstanceAs (Decidable (∃ f ∈ pageFunctions, _))

/-- The string literal in a handler, from what comes after its opening apostrophe. -/
def handlerLiteral (raw : DomString) : Option (DomString × DomString) :=
  (attributeValue (normalizeNewlines false raw)).bind fun value => literal (decode refs value)

end Reading

/-! ## From the call to the literal -/

variable {refs : NamedReferences} {callee rest : String}

/-- What comes before the string in a handler. -/
def opening (callee : String) : DomString := units callee ++ [unit '(', apostrophe]

/-- What the template writes around the string. -/
structure FixedText (callee rest : String) : Prop where
  callee_name : (units callee).all isAlphanumeric = true
  opening_kept : KeptText (opening callee)
  rest_kept : KeptText (units rest)
  rest_ne_nil : units rest ≠ []

theorem pageFunctions_text (h : (callee, rest) ∈ pageFunctions) : FixedText callee rest := by
  simp only [pageFunctions, List.mem_cons, Prod.mk.injEq, List.not_mem_nil, or_false] at h
  obtain ⟨rfl, rfl⟩ | ⟨rfl, rfl⟩ | ⟨rfl, rfl⟩ := h
  all_goals
    refine ⟨?_, ⟨?_, ?_, ?_, ?_, ?_⟩, ⟨?_, ?_, ?_, ?_, ?_⟩, ?_⟩
    all_goals decide

theorem pageFunctions_unique : ∀ f ∈ pageFunctions, ∀ g ∈ pageFunctions,
    units f.1 = units g.1 → f = g := by
  decide

theorem handlerCall_opening (hf : (callee, rest) ∈ pageFunctions) (raw : DomString) :
    handlerCall refs (opening callee ++ raw) =
      (handlerLiteral refs raw).map fun (argument, rest) => ⟨units callee, argument, rest⟩ := by
  have T := pageFunctions_text hf
  have hne : opening callee ≠ [] := by simp [opening]
  rw [handlerCall, normalizeNewlines_text hne T.opening_kept.carriageReturn T.opening_kept.lineFeed,
    attributeValue_append T.opening_kept.quotationMark, handlerLiteral]
  cases attributeValue (normalizeNewlines false raw) with
  | none => rfl
  | some value =>
    rw [Option.map_some, Option.bind_some, Option.bind_some,
      decode_text T.opening_kept.ampersand T.opening_kept.nul, opening, List.append_assoc]
    exact readCall_eq T.callee_name _

theorem singleCall_opening (hf : (callee, rest) ∈ pageFunctions) (s raw : DomString) :
    SingleCall refs s (opening callee ++ raw) ↔
      handlerLiteral refs raw = some (s, units rest) := by
  constructor
  · rintro ⟨g, hg, hcall⟩
    rw [handlerCall_opening hf, Option.map_eq_some_iff] at hcall
    obtain ⟨⟨argument, after⟩, hliteral, heq⟩ := hcall
    rw [Call.mk.injEq] at heq
    obtain rfl := pageFunctions_unique _ hf g hg heq.1
    rw [hliteral, heq.2.1, heq.2.2]
  · intro hliteral
    exact ⟨_, hf, by rw [handlerCall_opening hf, hliteral]; rfl⟩

/-- The literal in a handler, where the attribute ends where the template ends it. -/
theorem handlerLiteral_eq (hf : (callee, rest) ∈ pageFunctions) {argument : DomString}
    (hquotation : quotationMark ∉ argument) (page : DomString) :
    handlerLiteral refs (argument ++ apostrophe :: (units rest ++ quotationMark :: page)) =
      literal (decode refs (normalizeNewlines false argument) ++ apostrophe :: units rest) := by
  have T := pageFunctions_text hf
  have hvalue : quotationMark ∉
      normalizeNewlines false argument ++ apostrophe :: units rest := by
    rw [List.mem_append, List.mem_cons]
    rintro (h | h | h)
    · exact hquotation (mem_of_mem_normalize (by decide) h)
    · cases h
    · exact T.rest_kept.quotationMark h
  rw [handlerLiteral, normalizeNewlines_append (by decide) (by decide),
    normalizeNewlines_text T.rest_ne_nil T.rest_kept.carriageReturn T.rest_kept.lineFeed,
    normalizeNewlines_cons_of_ne (by decide) (by decide), ← List.cons_append,
    ← List.append_assoc, attributeValue_eq hvalue, Option.bind_some,
    decode_boundary boundary_apostrophe, decode_cons_of_ne (by decide), if_neg (by decide),
    T.rest_kept.decode]

theorem handlers_button (attributes callee : String) (argument : DomString) (rest label : String)
    (parts : List Part) : handlers (button attributes callee argument rest label ++ parts) =
      (opening callee ++ (argument ++ apostrophe ::
        (units rest ++ quotationMark :: (units s!">{label}</button>" ++ markup parts)))) ::
          handlers parts := by
  have hopening : units s!"{callee}('" = opening callee := units_append callee "('"
  have hclosing : units s!"'{rest}\">{label}</button>" =
      apostrophe :: (units rest ++ quotationMark :: units s!">{label}</button>") := by
    show units ("'" ++ rest ++ "\">" ++ label ++ "</button>") =
      apostrophe :: (units rest ++ quotationMark :: units (">" ++ label ++ "</button>"))
    simp only [units_append, List.append_assoc]
    rfl
  simp only [button, List.cons_append, List.nil_append, handlers, markup, hopening, hclosing]
  simp

/-! ## Strings escaped for HTML -/

/-- What a handler can hold between apostrophes, escaped for HTML. -/
structure Quotable (s : DomString) : Prop extends Plain s where
  apostrophe : apostrophe ∉ s
  nul : nul ∉ s

theorem literal_esc_iff (url after : DomString) :
    literal (decode refs (normalizeNewlines false (esc url)) ++ apostrophe :: after) =
      some (url, after) ↔ Quotable url := by
  rw [normalizeNewlines_esc, decode_esc]
  constructor
  · intro h
    have hspells := spells_of_literal h
    have hweight := weight_le_length ((normalizeNewlines false url).map decodeUnit)
    have hnormal := length_normalize_le false url
    have hle := hspells.length_le
    rw [List.length_map] at hweight
    obtain ⟨hraw, hplain⟩ := hspells.tight (by omega)
    have hapostrophe : apostrophe ∉ (normalizeNewlines false url).map decodeUnit := by
      rw [← weight_eq_length_iff, List.length_map]
      omega
    have hurl : apostrophe ∉ url := by rwa [hraw, mem_escapeQuotes (by decide)] at hapostrophe
    rw [escapeQuotes_of_not_mem hurl, normalizeNewlines_of_not_mem hplain.carriageReturn,
      map_decodeUnit_eq_iff] at hraw
    exact ⟨hplain, hurl, hraw⟩
  · intro h
    rw [normalizeNewlines_of_not_mem h.carriageReturn, map_decodeUnit_eq_iff.mpr h.nul]
    have hliteral := literal_escapeQuotes h.toPlain after
    rwa [escapeQuotes_of_not_mem h.apostrophe] at hliteral

/-! ## Strings with their apostrophes escaped -/

/-- What a handler can hold between apostrophes, with a backslash before its apostrophes. -/
structure QuotableRaw (refs : NamedReferences) (s : DomString) : Prop extends Plain s where
  quotationMark : quotationMark ∉ s
  nul : nul ∉ s
  reference : NoReference refs s

theorem literal_escapeQuotes_iff (target after : DomString) :
    literal (decode refs (normalizeNewlines false (escapeQuotes target)) ++ apostrophe :: after) =
      some (target, after) ↔ Plain target ∧ nul ∉ target ∧ NoReference refs target := by
  constructor
  · intro h
    have hspells := spells_of_literal h
    have hle := hspells.length_le
    have hweight := weight_escapeQuotes target
    have hnormal := weight_normalize_le false (escapeQuotes target)
    obtain ⟨hdecode, hnone⟩ :=
      weight_decode refs (normalizeNewlines false (escapeQuotes target))
    obtain ⟨hraw, hplain⟩ := hspells.tight (by omega)
    have hreturn : carriageReturn ∉ escapeQuotes target := by
      rw [mem_escapeQuotes (by decide)]
      exact hplain.carriageReturn
    replace hnone := hnone (by omega)
    rw [normalizeNewlines_of_not_mem hreturn] at hraw hnone
    rw [decode_of_noReference hnone, map_decodeUnit_eq_iff, mem_escapeQuotes (by decide)] at hraw
    exact ⟨hplain, hraw, noReference_escapeQuotes target |>.mp hnone⟩
  · rintro ⟨hplain, hnul, hnone⟩
    have hreturn : carriageReturn ∉ escapeQuotes target := by
      rw [mem_escapeQuotes (by decide)]
      exact hplain.carriageReturn
    have hnul' : nul ∉ escapeQuotes target := by rwa [mem_escapeQuotes (by decide)]
    rw [normalizeNewlines_of_not_mem hreturn,
      decode_of_noReference ((noReference_escapeQuotes target).mpr hnone),
      map_decodeUnit_eq_iff.mpr hnul']
    exact literal_escapeQuotes hplain after

/-- A quotation mark ends the attribute, and what comes before it is too short. -/
theorem handlerLiteral_ne {target : DomString} (h : quotationMark ∈ target)
    (page after : DomString) :
    handlerLiteral refs (escapeQuotes target ++ page) ≠ some (target, after) := by
  obtain ⟨before, next, rfl, hbefore⟩ := List.eq_append_cons_of_mem h
  have hvalue : quotationMark ∉ normalizeNewlines false (escapeQuotes before) := by
    intro hmem
    exact hbefore ((mem_escapeQuotes (by decide) before).mp (mem_of_mem_normalize (by decide) hmem))
  have hcut : escapeQuotes (before ++ quotationMark :: next) ++ page =
      escapeQuotes before ++ quotationMark :: (escapeQuotes next ++ page) := by
    rw [escapeQuotes_append, escapeQuotes_cons, if_neg (by decide)]
    simp
  rw [handlerLiteral, hcut, normalizeNewlines_append (by decide) (by decide),
    attributeValue_eq hvalue, Option.bind_some]
  intro hliteral
  obtain ⟨raw, hraw, hspells⟩ := literal_eq_some hliteral
  have hlength := hspells.length_le
  have hdecode :=
    (weight_decode refs (normalizeNewlines false (escapeQuotes before))).1
  have hnormal := weight_normalize_le false (escapeQuotes before)
  rw [hraw, weight_append] at hdecode
  rw [weight_escapeQuotes] at hnormal
  rw [List.length_append, List.length_cons] at hlength
  omega

/-! ## Which strings the handlers can hold -/

theorem singleCall_esc (hf : (callee, rest) ∈ pageFunctions) (url page : DomString) :
    SingleCall refs url (opening callee ++
      (esc url ++ apostrophe :: (units rest ++ quotationMark :: page))) ↔ Quotable url := by
  rw [singleCall_opening hf, handlerLiteral_eq hf (quotationMark_not_mem_esc url),
    literal_esc_iff]

theorem singleCall_escapeQuotes (hf : (callee, rest) ∈ pageFunctions) (target page : DomString) :
    SingleCall refs target (opening callee ++
      (escapeQuotes target ++ apostrophe :: (units rest ++ quotationMark :: page))) ↔
        QuotableRaw refs target := by
  rw [singleCall_opening hf]
  by_cases h : quotationMark ∈ target
  · exact iff_of_false (handlerLiteral_ne h _ _) fun hraw => hraw.quotationMark h
  · have hquotation : quotationMark ∉ escapeQuotes target := by
      rwa [mem_escapeQuotes (by decide)]
    rw [handlerLiteral_eq hf hquotation, literal_escapeQuotes_iff]
    exact ⟨fun ⟨hplain, hnul, hnone⟩ => ⟨hplain, h, hnul, hnone⟩,
      fun hraw => ⟨hraw.toPlain, hraw.nul, hraw.reference⟩⟩

theorem urlActions_singleCall (url page : DomString) :
    (∀ raw ∈ handlers (renderUrlActions url ++ [.text page]), SingleCall refs url raw) ↔
      Quotable url := by
  rw [renderUrlActions]
  split
  · rename_i hempty
    subst hempty
    refine iff_of_true (fun _ hraw => by cases hraw) ⟨plain_nil, ?_, ?_⟩
    · exact List.not_mem_nil
    · exact List.not_mem_nil
  · simp only [List.append_assoc, List.cons_append, List.nil_append, handlers, handlers_button,
      List.forall_mem_cons]
    rw [singleCall_esc (by decide), singleCall_esc (by decide)]
    simp

theorem bulkUrlItems_singleCall (urls : List DomString) {parts : List Part}
    (hparts : handlers parts = []) :
    List.Forall₂ (SingleCall refs) (urls.flatMap fun u => [u, u])
      (handlers (urls.flatMap bulkUrlItem ++ parts)) ↔ ∀ url ∈ urls, Quotable url := by
  induction urls with
  | nil => simp [hparts]
  | cons u urls ih =>
    simp only [List.flatMap_cons, bulkUrlItem, List.append_assoc, List.cons_append,
      List.nil_append, handlers, handlers_button, List.forall₂_cons, List.forall_mem_cons]
    rw [singleCall_esc (by decide), singleCall_esc (by decide)]
    rw [ih, ← and_assoc, and_self]

theorem bulkUrlList_singleCall (title : DomString) (urls : List DomString)
    (emptyText page : DomString) :
    List.Forall₂ (SingleCall refs) (urls.flatMap fun u => [u, u])
      (handlers (renderBulkUrlList title urls emptyText ++ [.text page])) ↔
        ∀ url ∈ urls, Quotable url := by
  rw [renderBulkUrlList]
  split
  · simp only [List.append_assoc, List.cons_append, List.nil_append, handlers]
    exact bulkUrlItems_singleCall urls rfl
  · rename_i hempty
    obtain rfl := not_not.mp hempty
    simp [handlers]

theorem wpBruteforceButton_singleCall (target page : DomString) :
    (∀ raw ∈ handlers (wpBruteforceButton target ++ [.text page]), SingleCall refs target raw) ↔
      QuotableRaw refs target := by
  rw [wpBruteforceButton, handlers_button, List.forall_mem_cons]
  have hsafe : replaceAll apostrophe (units "\\'") target = escapeQuotes target := rfl
  rw [hsafe, singleCall_escapeQuotes (by decide)]
  exact and_iff_left fun _ hraw => by cases hraw

/-- For which strings every handler is a single call with the string as its first argument. -/
theorem handlers_singleCall (refs : NamedReferences) (page : DomString) :
    (∀ url, (∀ raw ∈ handlers (renderUrlActions url ++ [.text page]), SingleCall refs url raw) ↔
      Quotable url) ∧
    (∀ title urls emptyText,
      List.Forall₂ (SingleCall refs) (urls.flatMap fun u => [u, u])
        (handlers (renderBulkUrlList title urls emptyText ++ [.text page])) ↔
          ∀ url ∈ urls, Quotable url) ∧
    ∀ target,
      (∀ raw ∈ handlers (wpBruteforceButton target ++ [.text page]), SingleCall refs target raw) ↔
        QuotableRaw refs target :=
  ⟨fun url => urlActions_singleCall url page,
    fun title urls emptyText => bulkUrlList_singleCall title urls emptyText page,
    fun target => wpBruteforceButton_singleCall target page⟩

/-- A table with the references that `esc` writes. -/
def escReferences : NamedReferences where
  expansion name :=
    if name = units "amp;" then some [ampersand]
    else if name = units "lt;" then some [unit '<']
    else if name = units "gt;" then some [unit '>']
    else if name = units "quot;" then some [quotationMark]
    else none
  short name chars h := by
    split_ifs at h with hname hname hname hname
    all_goals
      cases h
      rw [hname]
      decide
  amp := rfl
  lt := rfl
  gt := rfl
  quot := rfl

/-- The URL of a page that the scan was led to. -/
def breakOutUrl : DomString := units "https://a.example/?');alert(1)//"

theorem breakOutUrl_runs :
    (handlers (renderUrlActions breakOutUrl)).map (handlerCall escReferences) =
      [some ⟨units "openUrl", units "https://a.example/?", units ");alert(1)//')"⟩,
        some ⟨units "copyText", units "https://a.example/?", units ");alert(1)//')"⟩] ∧
    ¬∀ raw ∈ handlers (renderUrlActions breakOutUrl), SingleCall escReferences breakOutUrl raw := by
  decide +kernel

end ThreatScanner.Frontend
