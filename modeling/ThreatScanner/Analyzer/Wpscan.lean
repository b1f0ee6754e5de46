import Mathlib.Data.Finset.Card
import Mathlib.Data.Finset.Dedup
import ThreatScanner.Analyzer.Sections
import ThreatScanner.Python.Values

/-!
# The output of WPScan

`run_wpscan_scan` reads the users and the vulnerabilities of the core, of the plugins and of the
main theme out of a JSON document. It looks at the type of each part, but takes what stands in a
list of vulnerabilities for objects, and the list of a plugin for a list.
-/

namespace ThreatScanner.Analyzer

/-- An entry of `findings`. -/
structure WpscanEntry where
  componentType : String
  component : Json
  title : Json
  fixedIn : Json
  reference : Json

/-- What `run_wpscan_scan` returns. -/
structure WpscanScan where
  enabled : Bool := false
  executed : Bool := false
  isWordpress : Bool
  tokenUsed : Bool := false
  targetUrl : String
  totalVulnerabilities : Nat := 0
  coreVulnerabilities : Nat := 0
  pluginVulnerabilities : Nat := 0
  themeVulnerabilities : Nat := 0
  usernames : List String := []
  userCount : Nat := 0
  findings : List WpscanEntry := []
  error : Option String := none
  skippedReason : Option String := none

/-- What `subprocess.run` gives: an exception, or the output of the process. Its exit code is not
looked at. -/
inductive ProcessOutcome where
  | raised (message : String) (timeout : Bool)
  | completed (stdout stderr : String)

/-- A call of `run_wpscan_scan`: its arguments, whether the binary is installed, the token of the
environment, and what the process gives. -/
structure WpscanCall where
  scanUrl : String
  profile : Profile
  isWordpress : Bool
  installed : Bool
  token : String
  outcome : ProcessOutcome

/-! ## The users -/

/-- `d.get(key)`. -/
def fieldOf (entries : List (String × Json)) (key : String) : Json :=
  (entries.lookup key).getD .null

/-- `x.get(key)` when `x` is a dictionary, and `None` otherwise. -/
def partOf (x : Json) (key : String) : Json :=
  match x with
  | .obj entries => fieldOf entries key
  | _ => .null

section Users
variable [JsonText]

/-- The name of a user that is listed under a key. -/
def keyedUsername (key : String) : Json → Json
  | .obj entries => ((fieldOf entries "username").orElse (fieldOf entries "name")).orElse (.str key)
  | .str s => .str s
  | _ => .null

/-- The name of a user in a list. -/
def listedUsername : Json → Json
  | .obj entries =>
    ((fieldOf entries "username").orElse (fieldOf entries "name")).orElse (fieldOf entries "id")
  | .str s => .str s
  | _ => .null

/-- The usernames of a document, as they are listed. -/
def listedUsernames (parsed : Json) : List String :=
  let names :=
    match partOf parsed "users" with
    | .obj users => users.map fun (key, user) => keyedUsername key user
    | .arr users => users.map listedUsername
    | _ => []
  (names.filter (·.truthy)).map JsonText.text

end Users

/-! ## The vulnerabilities -/

/-- The first reference of a vulnerability: that of the first source with any. -/
def vulnReference (v : Json) : Json :=
  match partOf v "references" with
  | .obj sources => (sources.findSome? fun
      | (_, .arr (ref :: _)) => some ref
      | _ => none).getD .null
  | _ => .null

/-- The body of the three loops over vulnerabilities. -/
def vulnEntry (componentType : String) (component : Json) (defaultTitle : String) (v : Json) :
    Except PyError WpscanEntry := do
  let reference := vulnReference v
  let title ← v.get "title" (.str defaultTitle)
  let fixedIn ← v.get "fixed_in"
  .ok { componentType, component, title, fixedIn, reference }

/-- A loop over vulnerabilities. -/
def vulnEntries (componentType : String) (component : Json) (defaultTitle : String)
    (vulns : Json) : Except PyError (List WpscanEntry) := do
  (← vulns.iterate).mapM (vulnEntry componentType component defaultTitle)

/-- `d.get("vulnerabilities", [])`. -/
def vulnsOf (entries : List (String × Json)) : Json :=
  (entries.lookup "vulnerabilities").getD (.arr [])

def coreVulns (parsed : Json) : Json :=
  match partOf parsed "version" with
  | .obj version => (vulnsOf version).orElse (.arr [])
  | _ => .arr []

def pluginVulns : Json → Json
  | .obj data => vulnsOf data
  | _ => .arr []

/-- `plugins.items()`, when `plugins` is a dictionary. -/
def pluginsOf (parsed : Json) : List (String × Json) :=
  match partOf parsed "plugins" with
  | .obj plugins => plugins
  | _ => []

def themeVulns (parsed : Json) : Json :=
  match partOf parsed "main_theme" with
  | .obj theme => (vulnsOf theme).orElse (.arr [])
  | _ => .arr []

def themeName (parsed : Json) : Json :=
  ((partOf (partOf parsed "main_theme") "slug").orElse
    (partOf (partOf parsed "main_theme") "style_uri")).orElse (.str "theme")

/-- `findings`. -/
def wpscanEntries (parsed : Json) : Except PyError (List WpscanEntry) := do
  let core ← vulnEntries "core" (.str "wordpress") "WordPress Core Vulnerability" (coreVulns parsed)
  let plugins ← (pluginsOf parsed).mapM fun (name, data) =>
    vulnEntries "plugin" (.str name) "WordPress Plugin Vulnerability" (pluginVulns data)
  let theme ← vulnEntries "theme" (themeName parsed) "WordPress Theme Vulnerability"
    (themeVulns parsed)
  .ok (core ++ plugins.flatten ++ theme)

def countOf (componentType : String) (findings : List WpscanEntry) : Nat :=
  (findings.filter fun x => x.componentType = componentType).length

/-! ## The call -/

section Call
variable [JsonText] (loads : String → Option Json)

/-- The text from the first opening to the last closing brace. -/
def bracedPart (raw : List Char) : List Char :=
  (raw.dropWhile (· ≠ '{')).rdropWhile (· ≠ '}')

/-- The document in the output, `none` when it cannot be parsed. -/
def parseOutput (raw : List Char) : Option Json :=
  match loads (String.ofList raw) with
  | some parsed => some parsed
  | none => if bracedPart raw = [] then none else loads (String.ofList (bracedPart raw))

/-- The result for a document. -/
def readDocument (result : WpscanScan) (parsed : Json) : Except PyError WpscanScan := do
  let usernames := distinctBy id (listedUsernames parsed)
  let findings ← wpscanEntries parsed
  .ok { result with
    usernames := usernames
    userCount := usernames.length
    findings := findings.take 40
    coreVulnerabilities := countOf "core" findings
    pluginVulnerabilities := countOf "plugin" findings
    themeVulnerabilities := countOf "theme" findings
    totalVulnerabilities := findings.length }

/-- The error of a process that could not be run. -/
def processError (token message : String) (timeout : Bool) : String :=
  let message := if token = "" then message
    else String.ofList (replace message.toList token.toList "[REDACTED]".toList)
  if timeout then "WPScan timed out while enumerating users"
  else if message = "" then "WPScan failed"
  else message

/-- The error when there is no output. -/
def emptyOutputError (stderr : String) : String :=
  let stderr := strip stderr.toList
  if stderr = [] then "WPScan returned empty output" else String.ofList (stderr.take 500)

/-- `run_wpscan_scan`. -/
def runWpscanScan (call : WpscanCall) : Except PyError WpscanScan :=
  let result : WpscanScan := { isWordpress := call.isWordpress, targetUrl := call.scanUrl }
  if !call.profile.thorough then
    .ok { result with skippedReason := some "WPScan runs only in full/deep profiles" }
  else if !call.isWordpress then
    .ok { result with skippedReason := some "Target does not appear to be WordPress" }
  else if !call.installed then
    .ok { result with error := some "wpscan binary is not installed on system" }
  else
    let result := { result with tokenUsed := call.token ≠ "" }
    match call.outcome with
    | .raised message timeout =>
      .ok { result with error := some (processError call.token message timeout) }
    | .completed stdout stderr =>
      let result := { result with enabled := true, executed := true }
      let raw := strip stdout.toList
      if raw = [] then .ok { result with error := some (emptyOutputError stderr) }
      else
        match parseOutput loads raw with
        | none => .ok { result with error := some "Could not parse WPScan JSON output" }
        | some parsed => readDocument result parsed

/-- The document that a call reads, if it comes to that. -/
def documentOf (call : WpscanCall) : Option Json :=
  match call.outcome with
  | .completed stdout _ =>
    let raw := strip stdout.toList
    if call.profile.thorough ∧ call.isWordpress ∧ call.installed ∧ raw ≠ [] then
      parseOutput loads raw
    else none
  | .raised _ _ => none

end Call

/-! ## When the document is read -/

/-- What the loop over vulnerabilities goes through without an exception. -/
def ObjectList : Json → Prop
  | .arr items => ∀ v ∈ items, ∃ entries, v = .obj entries
  | .str s => s = ""
  | .obj entries => entries = []
  | _ => False

/-- Every list of vulnerabilities in the document is a list of objects. -/
structure ReadableDocument (parsed : Json) : Prop where
  core : ObjectList (coreVulns parsed)
  plugins : ∀ plugin ∈ pluginsOf parsed, ObjectList (pluginVulns plugin.2)
  theme : ObjectList (themeVulns parsed)

section Entries
variable {componentType defaultTitle : String} {component : Json}

theorem exists_vulnEntry {v : Json} :
    (∃ entry, vulnEntry componentType component defaultTitle v = .ok entry) ↔
      ∃ entries, v = .obj entries := by
  constructor
  · rintro ⟨entry, h⟩
    simp only [vulnEntry, bind_eq_ok] at h
    obtain ⟨title, htitle, -⟩ := h
    obtain ⟨entries, rfl, -⟩ := Json.get_eq_ok.mp htitle
    exact ⟨entries, rfl⟩
  · rintro ⟨entries, rfl⟩
    exact ⟨_, rfl⟩

theorem vulnEntry_componentType {v : Json} {entry : WpscanEntry}
    (h : vulnEntry componentType component defaultTitle v = .ok entry) :
    entry.componentType = componentType := by
  simp only [vulnEntry, bind_eq_ok] at h
  obtain ⟨title, -, fixedIn, -, hentry⟩ := h
  cases hentry
  rfl

/-- The characters of a text are no objects. -/
theorem not_obj_of_iterate_str {s : String} {items : List Json}
    (h : (Json.str s).iterate = .ok items) : (∀ v ∈ items, ∃ entries, v = .obj entries) ↔
      s = "" := by
  cases h
  constructor
  · intro h
    cases hs : s.toList with
    | nil => exact String.toList_eq_nil_iff.mp hs
    | cons c cs =>
      obtain ⟨_, hobj⟩ := h (.str (String.singleton c)) (by rw [hs]; exact List.mem_cons_self)
      cases hobj
  · rintro rfl
    exact nofun

theorem exists_vulnEntries {vulns : Json} :
    (∃ entries, vulnEntries componentType component defaultTitle vulns = .ok entries) ↔
      ObjectList vulns := by
  have hloop : (∃ entries, vulnEntries componentType component defaultTitle vulns = .ok entries) ↔
      ∃ items, vulns.iterate = .ok items ∧ ∀ v ∈ items, ∃ entries, v = .obj entries := by
    simp only [vulnEntries, bind_eq_ok]
    constructor
    · rintro ⟨entries, items, hitems, hmap⟩
      refine ⟨items, hitems, fun v hv => ?_⟩
      exact exists_vulnEntry.mp (exists_mapM_eq_ok.mp ⟨entries, hmap⟩ v hv)
    · rintro ⟨items, hitems, hall⟩
      obtain ⟨entries, hmap⟩ := exists_mapM_eq_ok.mpr fun v hv => exists_vulnEntry.mpr (hall v hv)
      exact ⟨entries, items, hitems, hmap⟩
  rw [hloop]
  cases vulns with
  | null | bool | int | real => exact iff_of_false (by rintro ⟨items, ⟨⟩, -⟩) id
  | str s =>
    exact ⟨fun ⟨items, hitems, hall⟩ => (not_obj_of_iterate_str hitems).mp hall,
      fun h => ⟨_, rfl, (not_obj_of_iterate_str rfl).mpr h⟩⟩
  | arr items => exact ⟨fun ⟨_, hitems, hall⟩ => by cases hitems; exact hall, fun h => ⟨_, rfl, h⟩⟩
  | obj entries =>
    constructor
    · rintro ⟨items, hitems, hall⟩
      cases hitems
      cases entries with
      | nil => rfl
      | cons e es =>
        obtain ⟨_, hobj⟩ := hall (.str e.1) List.mem_cons_self
        cases hobj
    · rintro rfl
      exact ⟨[], rfl, nofun⟩

/-- A document is read exactly when its lists of vulnerabilities are lists of objects. -/
theorem exists_wpscanEntries {parsed : Json} :
    (∃ findings, wpscanEntries parsed = .ok findings) ↔ ReadableDocument parsed := by
  have hparts : (∃ findings, wpscanEntries parsed = .ok findings) ↔
      (∃ core, vulnEntries "core" (.str "wordpress") "WordPress Core Vulnerability"
        (coreVulns parsed) = .ok core) ∧
      (∃ plugins, ((pluginsOf parsed).mapM fun (name, data) => vulnEntries "plugin" (.str name)
        "WordPress Plugin Vulnerability" (pluginVulns data)) = .ok plugins) ∧
      ∃ theme, vulnEntries "theme" (themeName parsed) "WordPress Theme Vulnerability"
        (themeVulns parsed) = .ok theme := by
    simp only [wpscanEntries, bind_eq_ok]
    constructor
    · rintro ⟨_, core, hcore, plugins, hplugins, theme, htheme, -⟩
      exact ⟨⟨core, hcore⟩, ⟨plugins, hplugins⟩, theme, htheme⟩
    · rintro ⟨⟨core, hcore⟩, ⟨plugins, hplugins⟩, theme, htheme⟩
      exact ⟨_, core, hcore, plugins, hplugins, theme, htheme, rfl⟩
  rw [hparts, exists_vulnEntries, exists_vulnEntries, exists_mapM_eq_ok]
  simp only [exists_vulnEntries]
  exact ⟨fun ⟨hcore, hplugins, htheme⟩ => ⟨hcore, hplugins, htheme⟩,
    fun h => ⟨h.core, h.plugins, h.theme⟩⟩

theorem vulnEntries_componentType {vulns : Json} {findings : List WpscanEntry}
    (h : vulnEntries componentType component defaultTitle vulns = .ok findings) :
    ∀ x ∈ findings, x.componentType = componentType := by
  intro x hx
  simp only [vulnEntries, bind_eq_ok] at h
  obtain ⟨items, -, hmap⟩ := h
  obtain ⟨v, -, hentry⟩ := exists_of_mem_mapM hmap hx
  exact vulnEntry_componentType hentry

/-- Every entry is of one of the three types. -/
theorem wpscanEntries_componentType {parsed : Json} {findings : List WpscanEntry}
    (h : wpscanEntries parsed = .ok findings) :
    ∀ x ∈ findings, x.componentType ∈ ["core", "plugin", "theme"] := by
  simp only [wpscanEntries, bind_eq_ok] at h
  obtain ⟨core, hcore, plugins, hplugins, theme, htheme, hret⟩ := h
  cases hret
  intro x hx
  rw [List.append_assoc, List.mem_append, List.mem_append, List.mem_flatten] at hx
  rcases hx with hx | ⟨group, hgroup, hx⟩ | hx
  · simp [vulnEntries_componentType hcore x hx]
  · obtain ⟨plugin, -, hplugin⟩ := exists_of_mem_mapM hplugins hgroup
    simp [vulnEntries_componentType hplugin x hx]
  · simp [vulnEntries_componentType htheme x hx]

/-- The three counts add up to the number of entries. -/
theorem length_eq_counts {findings : List WpscanEntry}
    (h : ∀ x ∈ findings, x.componentType ∈ ["core", "plugin", "theme"]) :
    findings.length =
      countOf "core" findings + countOf "plugin" findings + countOf "theme" findings := by
  induction findings with
  | nil => rfl
  | cons x findings ih =>
    rw [List.forall_mem_cons] at h
    have ih := ih h.2
    have hx := h.1
    simp only [countOf] at ih ⊢
    simp only [List.mem_cons, List.not_mem_nil, or_false] at hx
    rcases hx with hx | hx | hx <;> simp [hx, ih] <;> omega

end Entries

/-! ## What a call returns -/

theorem length_distinctBy_id {α : Type} [DecidableEq α] (names : List α) :
    (distinctBy id names).length = names.toFinset.card := by
  have hkeys : ((distinctBy id names).map id).Nodup := distinctBy_keys_nodup
  have hnodup : (distinctBy id names).Nodup := by rwa [List.map_id] at hkeys
  have hsame : (distinctBy id names).toFinset = names.toFinset := by
    ext name
    have hname : (∃ n ∈ distinctBy id names, id n = name) ↔ ∃ n ∈ names, id n = name :=
      exists_key_distinctBy
    simpa using hname
  rw [← List.toFinset_card_of_nodup hnodup, hsame]

section Call
variable [JsonText] (loads : String → Option Json)

/-- A result whose counts are right for the usernames that are listed. -/
structure CountsRight (names : List String) (result : WpscanScan) : Prop where
  total : result.totalVulnerabilities = result.coreVulnerabilities +
    result.pluginVulnerabilities + result.themeVulnerabilities
  users : result.userCount = names.toFinset.card

structure NothingCounted (result : WpscanScan) : Prop where
  counts : CountsRight [] result
  total : result.totalVulnerabilities = 0
  findings : result.findings = []

/-- The call returns a result, with its counts right. -/
def ReturnsSound (call : WpscanCall) : Prop :=
  ∃ result, runWpscanScan loads call = .ok result ∧
    CountsRight (((documentOf loads call).map listedUsernames).getD []) result

theorem readDocument_ok {result read : WpscanScan} {parsed : Json}
    (h : readDocument result parsed = .ok read) : CountsRight (listedUsernames parsed) read := by
  simp only [readDocument, bind_eq_ok] at h
  obtain ⟨findings, hfindings, hret⟩ := h
  cases hret
  exact ⟨length_eq_counts (wpscanEntries_componentType hfindings), length_distinctBy_id _⟩

theorem exists_readDocument {result : WpscanScan} {parsed : Json} :
    (∃ read, readDocument result parsed = .ok read) ↔ ReadableDocument parsed := by
  rw [← exists_wpscanEntries]
  simp only [readDocument, bind_eq_ok]
  constructor
  · rintro ⟨_, findings, hfindings, -⟩
    exact ⟨findings, hfindings⟩
  · rintro ⟨findings, hfindings⟩
    exact ⟨_, findings, hfindings, rfl⟩

variable {loads} in
/-- A call that does not run the process returns at once, with nothing counted. -/
theorem runWpscanScan_skipped {call : WpscanCall}
    (h : ¬ (call.profile.thorough ∧ call.isWordpress ∧ call.installed)) :
    documentOf loads call = none ∧ ∃ result, runWpscanScan loads call = .ok result ∧
      NothingCounted result := by
  constructor
  · unfold documentOf
    split
    · exact if_neg fun hrun => h ⟨hrun.1, hrun.2.1, hrun.2.2.1⟩
    · rfl
  · by_cases hp : call.profile.thorough = true
    · by_cases hw : call.isWordpress = true
      · have hi : call.installed = false := by simpa [hp, hw] using h
        simp only [runWpscanScan, hp, hw, hi]
        exact ⟨_, rfl, ⟨rfl, rfl⟩, rfl, rfl⟩
      · simp only [runWpscanScan, hp, hw]
        exact ⟨_, rfl, ⟨rfl, rfl⟩, rfl, rfl⟩
    · simp only [runWpscanScan, hp]
      exact ⟨_, rfl, ⟨rfl, rfl⟩, rfl, rfl⟩

/-- A call either returns with nothing counted or reads a document. -/
theorem runWpscanScan_cases (call : WpscanCall) :
    (documentOf loads call = none ∧ ∃ result, runWpscanScan loads call = .ok result ∧
      NothingCounted result) ∨
    ∃ parsed result, documentOf loads call = some parsed ∧
      runWpscanScan loads call = readDocument result parsed := by
  by_cases hrun : call.profile.thorough ∧ call.isWordpress ∧ call.installed
  · obtain ⟨hp, hw, hi⟩ := hrun
    cases houtcome : call.outcome with
    | raised message timeout =>
      simp only [documentOf, runWpscanScan, hp, hw, hi, houtcome]
      exact .inl ⟨trivial, _, rfl, ⟨rfl, rfl⟩, rfl, rfl⟩
    | completed stdout stderr =>
      by_cases hraw : strip stdout.toList = []
      · simp only [documentOf, runWpscanScan, hp, hw, hi, houtcome, hraw]
        exact .inl ⟨rfl, _, rfl, ⟨rfl, rfl⟩, rfl, rfl⟩
      · cases hparse : parseOutput loads (strip stdout.toList) with
        | none =>
          simp only [documentOf, runWpscanScan, hp, hw, hi, houtcome, hraw, hparse]
          exact .inl ⟨ite_self _, _, rfl, ⟨rfl, rfl⟩, rfl, rfl⟩
        | some parsed =>
          simp only [documentOf, runWpscanScan, hp, hw, hi, houtcome, hraw, hparse]
          exact .inr ⟨parsed, _, if_pos ⟨trivial, trivial, trivial, hraw⟩, rfl⟩
  · exact .inl (runWpscanScan_skipped hrun)

/-- A call returns, with its counts right, exactly when its document can be read. -/
theorem wpscan_returns_iff (call : WpscanCall) : ReturnsSound loads call ↔
    ∀ parsed, documentOf loads call = some parsed → ReadableDocument parsed := by
  rcases runWpscanScan_cases loads call with ⟨hnone, result, hrun, hcounts⟩ |
    ⟨parsed, result, hdocument, hrun⟩
  · refine iff_of_true ⟨result, hrun, ?_⟩ fun parsed h => ?_
    · rw [hnone]
      exact hcounts.counts
    · rw [hnone] at h
      cases h
  · have hreads : (∃ read, readDocument result parsed = .ok read) ↔ ReadableDocument parsed :=
      exists_readDocument
    rw [ReturnsSound, hdocument, hrun]
    simp only [Option.some.injEq, forall_eq', ← hreads]
    exact ⟨fun ⟨read, hread, _⟩ => ⟨read, hread⟩,
      fun ⟨read, hread⟩ => ⟨read, hread, readDocument_ok hread⟩⟩

end Call

/-- A document with one plugin, whose vulnerabilities are `null`. -/
def nullPluginText : String :=
  "\x7b\"plugins\": \x7b\"akismet\": \x7b\"vulnerabilities\": null\x7d\x7d\x7d"

def nullPlugin : Json :=
  .obj [("plugins", .obj [("akismet", .obj [("vulnerabilities", .null)])])]

/-- The loop over the vulnerabilities of the plugin raises. -/
theorem null_plugin_raises : ¬ ∀ (_ : JsonText) (loads : String → Option Json)
    (call : WpscanCall), ReturnsSound loads call := by
  intro h
  let _ := stringText
  let loads (s : String) : Option Json := if s = nullPluginText then some nullPlugin else none
  let call : WpscanCall := {
    scanUrl := "https://example.com", profile := .full, isWordpress := true, installed := true
    token := "", outcome := .completed nullPluginText "" }
  obtain ⟨result, hrun, -⟩ := h stringText loads call
  have herror : runWpscanScan loads call = .error ⟨"'NoneType' object is not iterable"⟩ := rfl
  rw [herror] at hrun
  cases hrun

end ThreatScanner.Analyzer
