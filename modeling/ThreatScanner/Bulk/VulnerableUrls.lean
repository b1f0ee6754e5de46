import ThreatScanner.Analyzer.ReportUrls
import ThreatScanner.Bulk.Summary

/-!
# The vulnerable URLs of a target

The summary of a target lists the values of its report that begin like a URL. Evidence that
`analyze` puts together from several values, with `|` or `, ` between them, is such a value when its
first part is.
-/

namespace ThreatScanner.Bulk

open Analyzer Json

/-! ## The values that are read -/

theorem addUrl_str (s : String) : addUrl (.str s) = if isUrl s then [s] else [] := by
  simp only [addUrl, isUrl, startsWith, Bool.or_eq_true, decide_eq_true_eq,
    String.startsWith_string_iff]

/-- The values of a list of fields that begin like a URL. -/
def fieldUrls (fields : List (Option String)) : List String :=
  fields.filterMap (Option.filter isUrl)

theorem addUrl_optionJson (x : Option String) :
    addUrl (optionJson x) = (x.filter isUrl).toList := by
  cases x with
  | none => rfl
  | some s =>
    refine (addUrl_str s).trans ?_
    split
    · next h => rw [Option.filter_some_pos h, Option.toList_some]
    · next h => rw [Option.filter_some_neg (by simpa using h), Option.toList_none]

theorem fieldUrls_cons (x : Option String) (fields : List (Option String)) :
    fieldUrls (x :: fields) = (x.filter isUrl).toList ++ fieldUrls fields := by
  rw [fieldUrls, List.filterMap_cons]
  cases x.filter isUrl <;> rfl

/-- The four reads of an item. -/
theorem itemUrls_eq {entries : List (String × Json)}
    {affected url evidence original : Option String}
    (haffected : (entries.lookup "affected_url").getD .null = optionJson affected)
    (hurl : (entries.lookup "url").getD .null = optionJson url)
    (hevidence : (entries.lookup "evidence").getD .null = optionJson evidence)
    (horiginal : (entries.lookup "original_url").getD .null = optionJson original) :
    itemUrls (.obj entries) = fieldUrls [affected, url, evidence, original] := by
  simp only [itemUrls, List.flatMap_cons, List.flatMap_nil, haffected, hurl, hevidence, horiginal,
    addUrl_optionJson, fieldUrls_cons]
  rfl

theorem itemUrls_finding (item : Finding) : itemUrls item.json = fieldUrls item.urlFields :=
  itemUrls_eq rfl rfl rfl rfl

theorem itemUrls_check (item : VulnCheck) : itemUrls item.json = fieldUrls item.urlFields :=
  itemUrls_eq rfl rfl rfl rfl

theorem itemUrls_row (item : Row) : itemUrls item.json = fieldUrls item.urlFields := by
  have hreads : itemUrls item.json =
      fieldUrls [item.affectedUrl, none, item.evidence, item.originalUrl] :=
    itemUrls_eq rfl rfl rfl rfl
  exact hreads

theorem itemUrls_exposure (item : Exposure) : itemUrls item.json = fieldUrls item.urlFields := by
  have hreads : itemUrls item.json = fieldUrls [none, some item.url, some item.evidence, none] :=
    itemUrls_eq rfl rfl rfl rfl
  exact hreads

theorem itemUrls_nikto (item : NiktoCheck) : itemUrls item.json = fieldUrls item.urlFields := by
  have hreads : itemUrls item.json =
      fieldUrls [some item.affectedUrl, some item.url, some item.evidence, none] :=
    itemUrls_eq rfl rfl rfl rfl
  exact hreads

/-- The values of a section whose items have the fields `urlFields`. -/
theorem flatMap_itemUrls {α : Type} {toJson : α → Json} {urlFields : α → List (Option String)}
    (h : ∀ a, itemUrls (toJson a) = fieldUrls (urlFields a)) (items : List α) :
    (items.map toJson).flatMap itemUrls = fieldUrls (items.flatMap urlFields) := by
  simp only [List.flatMap_map, h, fieldUrls, List.filterMap_flatMap]

theorem fieldUrls_append (xs ys : List (Option String)) :
    fieldUrls (xs ++ ys) = fieldUrls xs ++ fieldUrls ys := List.filterMap_append

/-! ## The sections of the report -/

/-- The URLs in a section, if it is a list. -/
def listUrls : Json → List String
  | .arr items => items.flatMap itemUrls
  | _ => []

theorem sectionUrls_eq (entries : List (String × Json)) :
    sectionUrls (.obj entries) =
      urlSections.flatMap fun key => listUrls ((entries.lookup key).getD (.arr [])) := by
  refine List.flatMap_congr fun key _ => ?_
  have hget : Json.get (.obj entries) key (.arr []) =
      .ok ((entries.lookup key).getD (.arr [])) := rfl
  rw [hget]
  cases (entries.lookup key).getD (.arr []) <;> rfl

/-! ## The archive -/

theorem iterate_orElse (items : List Json) :
    ((Json.arr items).orElse (.arr [])).iterate = .ok items := by
  cases items <;> rfl

/-- The URL of an entry of the archive. -/
theorem addUrl_archived (item : ArchivedUrl) :
    (match item.json with
      | .obj entries => addUrl ((entries.lookup "url").getD .null)
      | item => addUrl item) = ((some item.url).filter isUrl).toList :=
  addUrl_optionJson (some item.url)

theorem waybackUrls_archive {entries : List (String × Json)} {archive : Wayback}
    (h : entries.lookup "wayback" = some archive.json) :
    waybackUrls (.obj entries) = .ok (fieldUrls archive.urlFields) := by
  have hget : Json.get (.obj entries) "wayback" (.obj []) = .ok archive.json := by
    rw [Json.get, h, Option.getD_some]
  obtain ⟨fields, hjson, hinteresting, hparameterized⟩ : ∃ fields, archive.json = .obj fields ∧
      (((fields.lookup "interesting_urls").getD (.arr [])).orElse (.arr [])).iterate =
        .ok (archive.interestingUrls.map ArchivedUrl.json) ∧
      (((fields.lookup "parameterized_urls").getD (.arr [])).orElse (.arr [])).iterate =
        .ok (archive.parameterizedUrls.map ArchivedUrl.json) :=
    ⟨_, rfl, iterate_orElse _, iterate_orElse _⟩
  rw [waybackUrls, hget, hjson]
  simp only [List.mapM_cons, List.mapM_nil, hinteresting, hparameterized]
  refine congrArg Except.ok ?_
  rw [List.flatten_cons, List.flatten_cons, List.flatten_nil, List.append_nil, ← List.map_append,
    List.flatMap_map, Wayback.urlFields, fieldUrls, List.filterMap_map,
    List.filterMap_eq_flatMap_toList]
  exact List.flatMap_congr fun item _ => addUrl_archived item

/-! ## The whole report -/

section Sections
variable [UnicodeTables] [EntropyTest] (outcome : Outcome) (wayback : Option Wayback)

theorem sectionUrls_entries : sectionUrls (.obj outcome.entries) = fieldUrls outcome.urlFields := by
  rw [sectionUrls_eq]
  cases outcome with
  | invalid => rfl
  | unresolved target host targetType profile =>
    have hfindings := flatMap_itemUrls itemUrls_finding [dnsFinding host]
    have hchecks := flatMap_itemUrls itemUrls_check
      (unresolvedReport target host targetType profile).vulnerabilityChecks
    have hsections : (urlSections.flatMap fun key => listUrls
        (((unresolvedReport target host targetType profile).entries.lookup key).getD (.arr []))) =
        ([dnsFinding host].map Finding.json).flatMap itemUrls ++
          (((unresolvedReport target host targetType profile).vulnerabilityChecks.map
            VulnCheck.json).flatMap itemUrls ++ []) := rfl
    refine hsections.trans ?_
    rw [hfindings, hchecks, List.append_nil, ← fieldUrls_append]
    rfl
  | complete scan =>
    simp only [Outcome.entries, Outcome.urlFields, Scan.entries]
    generalize analyze scan = report
    have hsections : ∀ separated : Separated,
        ([SectionKind.confirmed, .possible, .hardening, .attackSurface].flatMap fun kind =>
          ((separated.list kind).map Row.json).flatMap itemUrls) =
        fieldUrls ([.confirmed, .possible, .hardening, .attackSurface].flatMap fun kind =>
          (separated.list kind).flatMap Row.urlFields) := fun separated => by
      simp only [flatMap_itemUrls itemUrls_row, fieldUrls, List.filterMap_flatMap]
    simp only [fieldUrls_append, ← hsections, ← flatMap_itemUrls itemUrls_finding,
      ← flatMap_itemUrls itemUrls_check, ← flatMap_itemUrls itemUrls_exposure,
      ← flatMap_itemUrls itemUrls_nikto]
    simp only [urlSections, List.flatMap_cons, List.flatMap_nil, List.append_nil,
      List.append_assoc]
    rfl

theorem sectionUrls_json : sectionUrls (outcome.json wayback) = fieldUrls outcome.urlFields := by
  rw [← sectionUrls_entries]
  cases wayback with
  | none => rfl
  | some archive =>
    simp only [Outcome.json, sectionUrls_eq]
    refine List.flatMap_congr fun key hkey => ?_
    have hne : key ≠ "wayback" := by
      rintro rfl
      exact absurd hkey (by decide)
    rw [lookup_setEntry, if_neg hne]

theorem waybackUrls_json : waybackUrls (outcome.json wayback) =
    .ok (fieldUrls (wayback.toList.flatMap Wayback.urlFields)) := by
  cases wayback with
  | none => cases outcome <;> rfl
  | some archive =>
    have hlookup : (setEntry "wayback" archive.json outcome.entries).lookup "wayback" =
        some archive.json := by rw [lookup_setEntry, if_pos rfl]
    refine (waybackUrls_archive hlookup).trans ?_
    rw [Option.toList_some, List.flatMap_singleton]

/-- What `extract_result_urls` returns for a report. -/
theorem extractResultUrls_json : extractResultUrls (outcome.json wayback) =
    .ok ((outcome.urlValues wayback).eraseDups.take 80) := by
  have hvalues : outcome.urlValues wayback = fieldUrls outcome.urlFields ++
      fieldUrls (wayback.toList.flatMap Wayback.urlFields) := fieldUrls_append _ _
  rw [extractResultUrls, waybackUrls_json, sectionUrls_json, hvalues]
  rfl

end Sections

/-! ## Single URLs -/

section Single
variable [UnicodeTables] [EntropyTest]

/-- The list has at most 80 URLs, each once and in the order of the report, and each of them is a
value that was observed or archived as it is, with nothing put before or after it. -/
structure UrlsOnly (outcome : Outcome) (wayback : Option Wayback) (urls : List String) :
    Prop where
  length_le : urls.length ≤ 80
  nodup : urls.Nodup
  ordered : urls.Pairwise fun a b =>
    (outcome.urlValues wayback).idxOf a < (outcome.urlValues wayback).idxOf b
  scheme : ∀ url ∈ urls, isUrl url = true
  single : ∀ url ∈ urls, (url ∈ outcome.observed ∨
    ∃ archive ∈ wayback, some url ∈ archive.urlFields) ∧ url ∉ outcome.composed

/-- A text that `analyze` puts together is in the list if it begins like a URL and fewer than 80
others come before it. -/
theorem composed_listed {outcome : Outcome} {wayback : Option Wayback} {urls : List String}
    {text : String} (hurls : extractResultUrls (outcome.json wayback) = .ok urls)
    (htext : text ∈ outcome.composed) (hurl : isUrl text = true)
    (hfirst : ((outcome.urlValues wayback).takeWhile (· ≠ text)).eraseDups.length < 80) :
    text ∈ urls := by
  rw [extractResultUrls_json] at hurls
  cases hurls
  have hfield : some text ∈ outcome.urlFields := Outcome.mem_urlFields_of_composed htext
  exact mem_take_eraseDups_iff.mpr ⟨Outcome.mem_urlValues.mpr ⟨.inl hfield, hurl⟩, hfirst⟩

/-- The list has URLs only when no text that `analyze` puts together begins like one, unless 80
others come before it. -/
theorem urls_only_iff (outcome : Outcome) (wayback : Option Wayback) :
    (∃ urls, extractResultUrls (outcome.json wayback) = .ok urls ∧
      UrlsOnly outcome wayback urls) ↔
      ∀ text ∈ outcome.composed, isUrl text = true →
        80 ≤ ((outcome.urlValues wayback).takeWhile (· ≠ text)).eraseDups.length := by
  constructor
  · rintro ⟨urls, hurls, honly⟩ text htext hurl
    by_contra hfirst
    exact (honly.single text (composed_listed hurls htext hurl (not_le.mp hfirst))).2 htext
  · intro hlate
    have hordered := pairwise_idxOf_eraseDups (outcome.urlValues wayback)
    have hnodup : (outcome.urlValues wayback).eraseDups.Nodup :=
      hordered.imp fun {a b} hlt (heq : a = b) => (heq ▸ hlt).false
    refine ⟨_, extractResultUrls_json outcome wayback, ?_⟩
    exact {
      length_le := List.length_take_le _ _
      nodup := hnodup.sublist (List.take_sublist _ _)
      ordered := hordered.sublist (List.take_sublist _ _)
      scheme := fun url hmem =>
        (Outcome.mem_urlValues.mp (mem_take_eraseDups_iff.mp hmem).1).2
      single := fun url hmem => by
        obtain ⟨hvalue, hfirst⟩ := mem_take_eraseDups_iff.mp hmem
        obtain ⟨hsource, hurl⟩ := Outcome.mem_urlValues.mp hvalue
        have hcomposed : url ∉ outcome.composed := fun h =>
          absurd (hlate url h hurl) (not_le.mpr hfirst)
        refine ⟨?_, hcomposed⟩
        rcases hsource with hfield | harchive
        · exact .inl ((Outcome.observed_or_composed hfield hurl).resolve_right hcomposed)
        · exact .inr harchive }

end Single

/-- A network where every name is that of one host with one address. -/
def oneHost : Network where
  hostname _ := .ok (some "example.com")
  isIpAddress _ := false
  gethostbyname _ := some "93.184.216.34"

/-- A site with public API documentation. -/
def docsSite : Analyzer.Scan where
  url := "https://example.com"
  ip := "93.184.216.34"
  response := some { statusCode := 200, text := "", url := "https://example.com/" }
  exposureResponses item :=
    if item.path = "/docs" then
      some { statusCode := 200, text := "swagger ui", url := "https://example.com/docs" }
    else none

/-- The evidence for the documentation is listed as a URL. -/
theorem evidence_line_listed : ¬ ∀ (_ : UnicodeTables) (_ : EntropyTest) (net : Network)
    (target profile : String) (detectors : Analyzer.Scan) (outcome : Outcome)
    (wayback : Option Wayback),
    analyzeOutcome net target profile detectors = .ok outcome →
      ∃ urls, extractResultUrls (outcome.json wayback) = .ok urls ∧
        UrlsOnly outcome wayback urls := by
  intro h
  let _ := asciiTables
  let _ : EntropyTest := ⟨fun _ => false⟩
  have houtcome : analyzeOutcome oneHost "https://example.com" "full" docsSite =
      .ok (.complete docsSite) := by
    have hurl : normalizeTarget "https://example.com" = "https://example.com" := by decide +kernel
    have hprofile : parseProfile "full" = .full := by decide +kernel
    have hstages : analyzeOutcome oneHost "https://example.com" "full" docsSite =
        .ok (.complete { docsSite with
          url := normalizeTarget "https://example.com"
          isIp := getTargetType oneHost "example.com" = "ip"
          profile := parseProfile "full" }) := rfl
    rw [hstages, hurl, hprofile]
    rfl
  obtain ⟨urls, hurls, honly⟩ := h asciiTables ⟨fun _ => false⟩ _ _ _ _ _ none houtcome
  have htext : "https://example.com/docs | HTTP 200 with indicators: swagger ui" ∈
      docsSite.composed := by decide +kernel
  have hfirst : (((Outcome.complete docsSite).urlValues none).takeWhile
      (· ≠ "https://example.com/docs | HTTP 200 with indicators: swagger ui")).eraseDups.length <
        80 := by decide +kernel
  exact (honly.single _ (composed_listed hurls htext (by decide) hfirst)).2 htext

end ThreatScanner.Bulk
