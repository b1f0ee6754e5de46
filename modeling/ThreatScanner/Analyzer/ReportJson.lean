import ThreatScanner.Analyzer.Dedupe
import ThreatScanner.Analyzer.Exits

/-!
# The report as a dictionary

`analyze` returns a dictionary at each of its three exits, and the bulk scanner may put a section of
archived URLs into it. Of a complete report the dictionary has the entries that this development
knows: the verdict, the lists of findings and what the probes for exposed paths returned. A key that
an item does not have shows as `None`.
-/

namespace ThreatScanner.Analyzer

open Json

def optionJson (x : Option String) : Json := (x.map Json.str).getD .null

def stringsJson (items : List String) : Json := .arr (items.map .str)

def Finding.json (item : Finding) : Json :=
  .obj [("title", optionJson item.title), ("severity", optionJson item.severity),
    ("category", optionJson item.category), ("description", optionJson item.description),
    ("evidence", optionJson item.evidence), ("fix", optionJson item.fix),
    ("confidence", optionJson item.confidence), ("evidence_type", optionJson item.evidenceType),
    ("affected_url", optionJson item.affectedUrl), ("fix_location", optionJson item.fixLocation),
    ("status", optionJson item.status), ("url", optionJson item.url),
    ("path", optionJson item.path), ("endpoint", optionJson item.endpoint),
    ("parameter", optionJson item.parameter), ("original_url", optionJson item.originalUrl)]

def VulnCheck.json (item : VulnCheck) : Json :=
  .obj [("name", optionJson item.name), ("severity", optionJson item.severity),
    ("category", optionJson item.category), ("evidence", optionJson item.evidence),
    ("impact", optionJson item.impact), ("fix", optionJson item.fix),
    ("confidence", optionJson item.confidence), ("evidence_type", optionJson item.evidenceType),
    ("affected_url", optionJson item.affectedUrl), ("fix_location", optionJson item.fixLocation),
    ("status", optionJson item.status), ("url", optionJson item.url),
    ("path", optionJson item.path), ("endpoint", optionJson item.endpoint),
    ("parameter", optionJson item.parameter), ("original_url", optionJson item.originalUrl)]

def Row.json (item : Row) : Json :=
  .obj [("title", optionJson item.title), ("severity", .str item.severity),
    ("category", .str item.category), ("description", optionJson item.description),
    ("evidence", optionJson item.evidence), ("fix", optionJson item.fix),
    ("confidence", .str item.confidence), ("evidence_type", .str item.evidenceType),
    ("status", .str item.status), ("source", .str item.source),
    ("affected_url", optionJson item.affectedUrl), ("fix_location", optionJson item.fixLocation),
    ("parameter", optionJson item.parameter), ("original_url", optionJson item.originalUrl)]

def Exposure.json (item : Exposure) : Json :=
  .obj [("path", .str item.path), ("type", .str item.type), ("category", .str item.category),
    ("severity", .str item.severity), ("status_code", .int item.statusCode),
    ("status", .str item.status), ("confidence", .str item.confidence),
    ("evidence_type", .str item.evidenceType), ("evidence", .str item.evidence),
    ("fix", .str item.fix), ("url", .str item.url)]

def NiktoCheck.json (item : NiktoCheck) : Json :=
  .obj [("name", .str item.name), ("severity", .str item.severity), ("path", .str item.path),
    ("status", .int item.status), ("url", .str item.url), ("evidence", .str item.evidence),
    ("fix", .str item.fix), ("affected_url", .str item.affectedUrl),
    ("fix_location", .str item.fixLocation)]

def ScanSummary.json (summary : ScanSummary) : Json :=
  .obj [("total_findings", .int summary.totalFindings), ("critical", .int summary.critical),
    ("high", .int summary.high), ("medium", .int summary.medium), ("low", .int summary.low),
    ("info", .int summary.info)]

/-! ## Deduplication -/

section Dedupe

/-- The entries of a dictionary. -/
def entriesOf : Json → List (String × Json)
  | .obj entries => entries
  | _ => []

def Finding.dict (item : Finding) : Dict String Json where
  entries := entriesOf item.json
  nodupKeys := by
    show List.Nodup ["title", "severity", "category", "description", "evidence", "fix",
      "confidence", "evidence_type", "affected_url", "fix_location", "status", "url", "path",
      "endpoint", "parameter", "original_url"]
    decide

def VulnCheck.dict (item : VulnCheck) : Dict String Json where
  entries := entriesOf item.json
  nodupKeys := by
    show List.Nodup ["name", "severity", "category", "evidence", "impact", "fix", "confidence",
      "evidence_type", "affected_url", "fix_location", "status", "url", "path", "endpoint",
      "parameter", "original_url"]
    decide

/-- What a set compares a text that may be missing by. -/
def optionKey (x : Option String) : HashKey := (x.map HashKey.text).getD .none

theorem hashKey_optionJson (x : Option String) :
    HashValue.hashKey (optionJson x) = .ok (optionKey x) := by
  cases x <;> rfl

theorem optionKey_injective : Function.Injective optionKey := by
  intro x y h
  cases x <;> cases y <;> cases h <;> rfl

/-- What a set compares a tuple of three texts by. -/
def Key.hashKeys (key : Key) : List HashKey :=
  [optionKey key.1, optionKey key.2.1, optionKey key.2.2]

theorem Key.hashKeys_injective : Function.Injective Key.hashKeys := by
  intro key key' h
  simp only [hashKeys, List.cons.injEq, and_true] at h
  obtain ⟨hname, hseverity, hevidence⟩ := h
  exact Prod.ext (optionKey_injective hname)
    (Prod.ext (optionKey_injective hseverity) (optionKey_injective hevidence))

theorem fieldsKey_eq_hashKeys {item : Dict String Json} {key : Key} {name : String}
    (hname : getField item name = optionJson key.1)
    (hseverity : getField item "severity" = optionJson key.2.1)
    (hevidence : getField item "evidence" = optionJson key.2.2) :
    fieldsKey [name, "severity", "evidence"] item = .ok key.hashKeys := by
  simp only [fieldsKey, List.mapM_cons, List.mapM_nil, hname, hseverity, hevidence,
    hashKey_optionJson]
  rfl

/-- What `dedupe_dicts` keeps of the findings is the first of each key. -/
theorem dedupeDicts_findings (findings : List Finding) :
    dedupeDicts (findings.map Finding.dict) ["title", "severity", "evidence"] =
      .ok ((distinctBy Finding.key findings).map Finding.dict) :=
  dedupeDicts_map Key.hashKeys_injective (fun _ => fieldsKey_eq_hashKeys rfl rfl rfl) findings

theorem dedupeDicts_vulnChecks (checks : List VulnCheck) :
    dedupeDicts (checks.map VulnCheck.dict) ["name", "severity", "evidence"] =
      .ok ((distinctBy VulnCheck.key checks).map VulnCheck.dict) :=
  dedupeDicts_map Key.hashKeys_injective (fun _ => fieldsKey_eq_hashKeys rfl rfl rfl) checks

end Dedupe

/-! ## The archive -/

/-- An entry of a list of the archive section. -/
structure ArchivedUrl where
  url : String
  status : Json := .null
  mime : Json := .null

def ArchivedUrl.json (item : ArchivedUrl) : Json :=
  .obj [("url", .str item.url), ("status", item.status), ("mime", item.mime)]

/-- What `get_wayback_archive_urls` returns. -/
structure Wayback where
  enabled : Bool := true
  host : Option String := none
  urls : List ArchivedUrl := []
  interestingUrls : List ArchivedUrl := []
  parameterizedUrls : List ArchivedUrl := []
  error : Option String := none

def Wayback.json (wayback : Wayback) : Json :=
  .obj [("enabled", .bool wayback.enabled), ("source", .str "web.archive.org"),
    ("host", optionJson wayback.host), ("urls", .arr (wayback.urls.map ArchivedUrl.json)),
    ("interesting_urls", .arr (wayback.interestingUrls.map ArchivedUrl.json)),
    ("parameterized_urls", .arr (wayback.parameterizedUrls.map ArchivedUrl.json)),
    ("error", optionJson wayback.error)]

/-- `wayback` as `analyze` sets and returns it. -/
def emptyWayback : Json :=
  .obj [("enabled", .bool false), ("source", .str "web.archive.org CDX API"), ("host", .null),
    ("total", .int 0), ("urls", .arr []), ("parameterized_urls", .arr []),
    ("interesting_urls", .arr []), ("error", .null)]

/-! ## The three exits -/

/-- Where `analyze` returned, and what it had by then. -/
inductive Outcome where
  | invalid (target : String) (profile : Profile)
  | unresolved (target host targetType : String) (profile : Profile)
  | complete (scan : Scan)

/-- `analyze`, up to where it returns. -/
def analyzeOutcome [UnicodeTables] (net : Network) (target profile : String) (detectors : Scan) :
    Except PyError Outcome := do
  let profile := parseProfile profile
  match ← getHostname net target with
  | none => .ok (.invalid target profile)
  | some host =>
    match resolveHost net host with
    | none => .ok (.unresolved target host (getTargetType net host) profile)
    | some ip =>
      .ok (.complete { detectors with
        url := normalizeTarget target
        ip := ip
        isIp := getTargetType net host = "ip"
        profile := profile })

def EarlyReport.entries (report : EarlyReport) : List (String × Json) :=
  [("target", .str report.target), ("host", optionJson report.host), ("ip", .null),
    ("target_type", .str report.targetType), ("profile", .str report.profile.name),
    ("risk", .str report.risk), ("score", .int report.score),
    ("alerts", stringsJson report.alerts), ("vulnerabilities", stringsJson report.vulnerabilities),
    ("vulnerability_checks", .arr (report.vulnerabilityChecks.map VulnCheck.json)),
    ("findings", .arr (report.findings.map Finding.json)),
    ("structured", .obj [("scan_findings", .arr (report.scanFindings.map Finding.json)),
      ("scan_subdomains", .arr []), ("scan_ports", .arr []), ("scan_cves", .arr [])]),
    ("scan_summary", report.scanSummary.json)]

section Entries
variable [UnicodeTables] [EntropyTest]

def Scan.entries (scan : Scan) : List (String × Json) :=
  let report := analyze scan
  let separated := report.separatedResults
  let titles := separated.confirmedVulnerabilities.map fun item => optionJson item.title
  [("ip", .str scan.ip), ("profile", .str scan.profile.name), ("risk", .str report.risk),
    ("score", .int report.score),
    ("final_url", optionJson (scan.response.map Response.url)),
    ("reverse_dns", optionJson scan.reverseDns),
    ("nikto_checks", .arr (scan.niktoChecks.map NiktoCheck.json)),
    ("technologies", stringsJson scan.technologies), ("wayback", emptyWayback),
    ("advanced_exposures", .arr (scan.advancedExposures.map Exposure.json)),
    ("vulnerabilities", .arr titles),
    ("vulnerability_checks", .arr (report.vulnerabilityChecks.map VulnCheck.json)),
    ("findings", .arr (report.findings.map Finding.json)),
    ("confirmed_vulnerabilities", .arr (separated.confirmedVulnerabilities.map Row.json)),
    ("possible_issues", .arr (separated.possibleIssues.map Row.json)),
    ("hardening_issues", .arr (separated.hardeningIssues.map Row.json)),
    ("attack_surface", .arr (separated.attackSurface.map Row.json)),
    ("informational_findings", .arr (separated.informationalFindings.map Row.json)),
    ("alerts", .arr titles)]

namespace Outcome

/-- What is returned there. -/
def returned : Outcome → Returned
  | invalid target profile => .early (invalidTargetReport target profile)
  | unresolved target host targetType profile =>
    .early (unresolvedReport target host targetType profile)
  | complete scan => .complete (analyze scan)

def entries : Outcome → List (String × Json)
  | invalid target profile => (invalidTargetReport target profile).entries
  | unresolved target host targetType profile =>
    (unresolvedReport target host targetType profile).entries
  | complete scan => scan.entries

/-- The dictionary, and what the bulk scanner makes of it when it has asked the archive. -/
def json (outcome : Outcome) (wayback : Option Wayback) : Json :=
  .obj <| match wayback with
    | none => outcome.entries
    | some wayback => setEntry "wayback" wayback.json outcome.entries

end Outcome

theorem analyzeTarget_eq (net : Network) (target profile : String) (detectors : Scan) :
    analyzeTarget net target profile detectors =
      (analyzeOutcome net target profile detectors).map Outcome.returned := by
  simp only [analyzeTarget, analyzeOutcome]
  cases getHostname net target with
  | error e => rfl
  | ok host =>
    cases host with
    | none => rfl
    | some host =>
      simp only [bind, Except.bind]
      cases resolveHost net host <;> rfl

end Entries

end ThreatScanner.Analyzer
