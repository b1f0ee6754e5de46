import ThreatScanner.Analyzer.Exits
import ThreatScanner.Analyzer.SecretVerdict

/-!
# The tallies of the severities

`scan_summary` has the number of rows and, for each of five severities, the number of its rows. The
sections of `analyze` only add items of these severities, apart from the one for CVEs, which takes
the severity over from the database.
-/

namespace ThreatScanner.Analyzer

/-- The keys of `summary_counts`. -/
def summaryKeys : List String := ["critical", "high", "medium", "low", "info"]

section Summary
variable [UnicodeTables]

/-- `sev` in the loop over the rows. -/
def StoredFinding.sev (row : StoredFinding) : String := lower (showOption row.severity)

/-- The number of rows of a severity. -/
def summaryCount (rows : List StoredFinding) (key : String) : Nat :=
  rows.countP fun row => row.sev = key

/-- `scan_summary` at the end of `analyze`. -/
def scanSummary (rows : List StoredFinding) : ScanSummary where
  totalFindings := rows.length
  critical := summaryCount rows "critical"
  high := summaryCount rows "high"
  medium := summaryCount rows "medium"
  low := summaryCount rows "low"
  info := summaryCount rows "info"

/-- The five counts together. -/
def ScanSummary.tallied (summary : ScanSummary) : Nat :=
  summary.critical + summary.high + summary.medium + summary.low + summary.info

theorem tallied_eq (rows : List StoredFinding) :
    (scanSummary rows).tallied = rows.countP fun row => row.sev ∈ summaryKeys := by
  induction rows with
  | nil => rfl
  | cons row rows ih =>
    simp only [ScanSummary.tallied, scanSummary, summaryCount, List.countP_cons] at ih ⊢
    rw [← ih]
    by_cases hkey : row.sev ∈ summaryKeys
    · simp only [summaryKeys, List.mem_cons, List.not_mem_nil, or_false] at hkey
      rcases hkey with h | h | h | h | h <;> simp [h, summaryKeys] <;> omega
    · simp only [summaryKeys, List.mem_cons, List.not_mem_nil, or_false, not_or] at hkey
      simp [hkey, summaryKeys]

/-- The tallies add up when each row has one of the five severities. -/
theorem tallied_eq_total_iff (rows : List StoredFinding) :
    (scanSummary rows).tallied = (scanSummary rows).totalFindings ↔
      ∀ row ∈ rows, row.sev ∈ summaryKeys := by
  rw [tallied_eq]
  simp only [scanSummary, List.countP_eq_length, decide_eq_true_eq]

end Summary

/-! ## The severities that the sections add -/

/-- A severity as the sections write them. -/
def graded : Option String → Bool
  | none => false
  | some severity => ["CRITICAL", "HIGH", "MEDIUM", "LOW", "INFO"].contains severity

theorem graded_high : graded (some "HIGH") = true := by decide

theorem graded_medium : graded (some "MEDIUM") = true := by decide

theorem graded_low : graded (some "LOW") = true := by decide

theorem graded_info : graded (some "INFO") = true := by decide

theorem graded_ite_severity {p : Prop} [Decidable p] {x y : String} (hx : graded (some x) = true)
    (hy : graded (some y) = true) : graded (some (if p then x else y)) = true := by
  split
  · exact hx
  · exact hy

theorem lower_mem_of_graded [UnicodeTables] {severity : Option String}
    (h : graded severity = true) :
    lower (showOption severity) ∈ summaryKeys := by
  cases severity with
  | none => cases h
  | some severity =>
    simp only [graded, List.contains_eq_mem, List.mem_cons, List.not_mem_nil, or_false,
      decide_eq_true_eq] at h
    rcases h with rfl | rfl | rfl | rfl | rfl <;>
      rw [showOption, Option.getD_some, lower_eq_map (by decide)] <;> decide

namespace Section

/-- All that the section adds is graded. -/
def Graded (s : Section) : Prop :=
  s.All (fun f => graded f.severity = true) fun c => graded c.severity = true

section Rules
variable {s t : Section} {p : Prop} [Decidable p] {α : Type} {items : List α}
  {body : α → Section} {title severity description : String} {fix evidence : Option String}
  {category confidence evidenceType text : String}

theorem graded_append (hs : s.Graded) (ht : t.Graded) : (s ++ t).Graded := All.append hs ht

theorem graded_ite (hs : s.Graded) (ht : t.Graded) : (if p then s else t).Graded :=
  all_ite (fun _ => hs) fun _ => ht

theorem graded_finding (h : graded (some severity) = true) :
    (addFinding title severity description fix category evidence confidence
      evidenceType).Graded :=
  ⟨List.forall_mem_singleton.mpr h, List.forall_mem_nil _⟩

theorem graded_vuln (h : graded (some severity) = true) :
    (addVuln title severity evidence description fix category confidence evidenceType).Graded :=
  ⟨List.forall_mem_nil _, List.forall_mem_singleton.mpr h⟩

/-- A note, a check and a finding of one severity. -/
theorem graded_noted {category' confidence' evidenceType' title' description' : String}
    {fix' evidence' : Option String} (h : graded (some severity) = true) :
    (note text ++ addVuln title severity evidence description fix category confidence
      evidenceType ++ addFinding title' severity description' fix' category' evidence' confidence'
        evidenceType').Graded :=
  graded_append (graded_append (all_note text) (graded_vuln h)) (graded_finding h)

end Rules

/-! ## Sections with a severity of their own -/

section Fixed
variable (response : Response)

theorem graded_unreachable (url : String) : (unreachableSection url).Graded :=
  graded_noted graded_medium

theorem graded_http : (httpSection response).Graded :=
  graded_ite (graded_noted graded_medium) all_empty

theorem graded_status : (statusSection response).Graded :=
  graded_ite (graded_vuln graded_medium) (graded_ite (graded_vuln graded_low) all_empty)

theorem graded_disclosure : (disclosureSection response).Graded :=
  graded_append (graded_ite all_empty (graded_noted graded_low))
    (graded_ite all_empty (graded_noted graded_low))

theorem graded_cookie : (cookieSection response).Graded := by
  refine graded_ite all_empty (graded_append (graded_append ?_ ?_) ?_)
  · exact graded_ite all_empty (graded_append (all_note _) (graded_vuln graded_medium))
  · exact graded_ite all_empty (graded_append (all_note _) (graded_vuln graded_medium))
  · exact graded_ite all_empty (graded_append (all_note _) (graded_vuln graded_low))

theorem graded_securityHeader : (securityHeaderSection response).Graded := by
  have hgraded : ∀ h ∈ securityHeaders, graded (some h.2.1) = true := by decide
  exact all_forEach fun h hmem => graded_ite all_empty (graded_noted (hgraded h hmem))

theorem graded_cors (corsIssues : List String) : (corsSection corsIssues).Graded :=
  all_forEach fun _ _ => graded_noted graded_medium

theorem graded_directoryListing (pageText : String) :
    (directoryListingSection pageText).Graded :=
  graded_ite (graded_noted graded_high) all_empty

theorem graded_apiEndpoint (endpoints : List ApiEndpoint) :
    (apiEndpointSection endpoints).Graded := by
  refine graded_ite all_empty (graded_append (graded_finding graded_info) ?_)
  refine all_forEach fun e _ => all_ite (fun hsev => graded_finding ?_) fun _ => all_empty
  simp only [List.mem_cons, List.not_mem_nil, or_false] at hsev
  rcases hsev with hsev | hsev <;> rw [hsev]
  · exact graded_high
  · exact graded_medium

theorem graded_ssl (ssl : SslResult) : (sslSection ssl).Graded :=
  graded_ite all_empty (graded_noted graded_medium)

theorem graded_dns (issues : List String) : (dnsSection issues).Graded :=
  all_forEach fun _ _ => graded_ite (graded_noted graded_low) all_empty

theorem graded_robots (entries : List String) : (robotsSection entries).Graded :=
  graded_ite all_empty (graded_noted graded_low)

theorem graded_securityTxt (present : Bool) : (securityTxtSection present).Graded :=
  graded_ite all_empty (graded_finding graded_info)

theorem graded_exposedPath (paths : List String) : (exposedPathSection paths).Graded :=
  all_forEach fun _ _ => graded_append (all_note _) (graded_vuln graded_high)

theorem graded_dirsearch (result : DirsearchResult) : (dirsearchSection result).Graded :=
  graded_ite (graded_noted graded_info) all_empty

theorem graded_wpscan (result : WpscanResult) : (wpscanSection result).Graded :=
  graded_ite (graded_append (graded_noted (graded_ite_severity graded_high graded_medium))
    (all_forEach fun _ _ => graded_finding (graded_ite_severity graded_high graded_medium)))
    all_empty

theorem graded_riskyPort (ports : List OpenPort) : (riskyPortSection ports).Graded :=
  graded_ite all_empty (graded_noted graded_medium)

theorem graded_subdomain (subdomains : List Subdomain) : (subdomainSection subdomains).Graded :=
  graded_ite all_empty (graded_finding graded_info)

theorem graded_whois (whoisAsn : WhoisAsn) : (whoisSection whoisAsn).Graded :=
  graded_ite (graded_finding graded_info) all_empty

theorem graded_ipTarget (isIp : Bool) (reverseDns : Option String) (ip : String) :
    (ipTargetSection isIp reverseDns ip).Graded :=
  graded_ite (graded_finding graded_info) all_empty

theorem graded_sqliResult {baseUrl : String} {observe : String × String → Option PairObservation}
    {item : ValidationResult} (h : item ∈ validateSqliBehavior baseUrl observe) :
    graded (some item.severity) = true := by
  obtain ⟨⟨truthy, falsy⟩, _, h⟩ := List.mem_filterMap.mp (mem_of_mem_distinctBy h)
  obtain ⟨seen, _, h⟩ := Option.bind_eq_some_iff.mp h
  split_ifs at h <;> cases h <;> exact graded_medium

theorem graded_sqli (scan : Scan) (response : Response) :
    (sqliSection (scan.sqliResults response)).Graded := by
  refine all_forEach fun item hitem => ?_
  have hgraded := graded_sqliResult (Scan.found_of_sqliResults hitem)
  exact graded_append (graded_vuln hgraded) (graded_finding hgraded)

end Fixed

/-! ## Sections with the severity of a detector -/

variable [UnicodeTables]

theorem graded_method (httpMethods : List String) : (methodSection httpMethods).Graded :=
  graded_ite all_empty (graded_append
    (graded_append (all_note _) (all_forEach fun _ _ => graded_vuln graded_medium))
    (graded_finding graded_medium))

theorem graded_xssResult {baseUrl : String} {responses : String → Option Response}
    {item : ValidationResult} (h : item ∈ validateXssReflection baseUrl responses) :
    graded (some item.severity) = true := by
  obtain ⟨payload, _, h⟩ := List.mem_filterMap.mp (mem_of_mem_distinctBy h)
  obtain ⟨res, _, h⟩ := Option.bind_eq_some_iff.mp h
  obtain ⟨context, _, rfl⟩ := Option.map_eq_some_iff.mp h
  exact graded_ite_severity graded_medium graded_low

theorem graded_xss (scan : Scan) (response : Response) :
    (xssSection (scan.xssResults response)).Graded := by
  refine all_forEach fun item hitem => ?_
  have hgraded := graded_xssResult (Scan.found_of_xssResults hitem)
  exact graded_append (graded_finding hgraded) (graded_ite (graded_vuln hgraded) all_empty)

theorem graded_niktoCheck {responses : NiktoPath → Option Response} {check : NiktoCheck}
    (h : check ∈ checkNiktoPaths responses) : graded (some check.severity) = true := by
  have hpaths : ∀ item ∈ niktoPaths, graded (some item.severity) = true := by decide
  obtain ⟨item, hitem, h⟩ := List.mem_filterMap.mp h
  obtain ⟨res, _, h⟩ := Option.bind_eq_some_iff.mp h
  dsimp only at h
  split_ifs at h
  cases h
  exact hpaths item hitem

theorem graded_nikto (scan : Scan) : (niktoSection scan.niktoChecks).Graded := by
  exact all_forEach fun check hcheck =>
    graded_noted (graded_niktoCheck (Scan.found_of_niktoChecks hcheck))

theorem graded_classified {res : Response} {item : ExposurePath} {e : Exposure}
    (hitem : item ∈ advancedExposurePaths) (h : classifyExposureStatus res item = some e) :
    graded (some e.severity) = true := by
  have hpaths : ∀ item ∈ advancedExposurePaths, graded (some item.riskIfPublic) = true := by
    decide
  simp only [classifyExposureStatus] at h
  split_ifs at h <;> cases h
  all_goals first
    | exact graded_info
    | exact graded_high
    | exact hpaths item hitem

theorem graded_exposure (scan : Scan) : (exposureSection scan.advancedExposures).Graded := by
  refine all_forEach fun e he => ?_
  obtain ⟨item, hitem, res, _, hres⟩ := exists_of_mem_advancedExposures he
  have hgraded := graded_classified hitem hres
  exact graded_ite (graded_finding graded_info)
    (graded_append (graded_finding hgraded) (graded_ite (graded_vuln hgraded) all_empty))

theorem graded_introspection {res : Option Response} {result : GraphqlIntrospection}
    (h : checkGraphqlIntrospection res = some result) : graded (some result.severity) = true := by
  obtain ⟨response, _, h⟩ := Option.bind_eq_some_iff.mp h
  dsimp only at h
  split_ifs at h <;> cases h
  · exact graded_high
  · exact graded_info

theorem graded_graphql (scan : Scan) : (graphqlSection scan.graphqlIntrospection).Graded := by
  cases hresult : scan.graphqlIntrospection with
  | none => exact all_empty
  | some result =>
    have hgraded := graded_introspection (Scan.found_of_graphqlIntrospection hresult)
    exact graded_append (graded_finding hgraded) (graded_ite (graded_vuln hgraded) all_empty)

variable [EntropyTest]

theorem graded_jsSecret (scan : Scan) : (jsSecretSection scan.jsSecrets).Graded := by
  have hrules : ∀ rule ∈ jsSecretRules, graded (some rule.severity) = true := by decide
  refine graded_append (graded_ite (all_note _) all_empty) (all_forEach fun secret hmem => ?_)
  obtain ⟨rule, hrule, _, hsev, _⟩ := rule_of_mem (List.mem_of_mem_take hmem)
  have hgraded : graded (some secret.severity) = true := hsev ▸ hrules rule hrule
  exact graded_append (graded_vuln hgraded) (graded_finding hgraded)

theorem graded_site (scan : Scan) : scan.siteSection.Graded := by
  simp only [Scan.siteSection]
  cases scan.response with
  | none => exact graded_unreachable scan.url
  | some response =>
    exact graded_append (graded_append (graded_append (graded_append (graded_append
      (graded_append (graded_append (graded_append (graded_append (graded_append (graded_append
        (graded_http _) (graded_status _)) (graded_securityHeader _)) (graded_disclosure _))
        (graded_cookie _)) (graded_cors _)) (graded_method _)) (graded_jsSecret _))
        (graded_apiEndpoint _)) (graded_sqli _ _)) (graded_xss _ _)) (graded_directoryListing _)

theorem graded_detector (scan : Scan) : scan.detectorSection.Graded :=
  graded_append (graded_append (graded_append (graded_append (graded_append (graded_append
    (graded_append (graded_append (graded_append (graded_append (graded_append (graded_append
      (graded_append (graded_append (graded_site _) (graded_ssl _)) (graded_dns _))
      (graded_robots _)) (graded_securityTxt _)) (graded_exposedPath _)) (graded_nikto _))
      (graded_dirsearch _)) (graded_wpscan _)) (graded_exposure _)) (graded_graphql _))
      (graded_riskyPort _)) (graded_subdomain _)) (graded_whois _)) (graded_ipTarget _ _ _)

end Section

/-! ## The rows of a report -/

section Report
variable [UnicodeTables]

/-- A severity that the tallies count. -/
def Tallied (severity : Option String) : Prop := lower (showOption severity) ∈ summaryKeys

variable {collected : Section} {subdomains : List Subdomain} {cveResults : List CveGroup}
  {openPorts : List OpenPort}

/-- A row has the severity of a finding or check. -/
theorem severity_of_row {row : StoredFinding}
    (h : row ∈ (report collected subdomains cveResults openPorts).structured.scanFindings) :
    (∃ f ∈ collected.findings, row.severity = f.severity) ∨
      ∃ c ∈ collected.vulnerabilityChecks, row.severity = c.severity := by
  rw [report, scanFindings_eq] at h
  rcases List.mem_append.mp (mem_of_mem_distinctBy h) with h | h
  · obtain ⟨_, hfinal, rfl⟩ := List.mem_map.mp h
    obtain ⟨f, hf, rfl⟩ := List.mem_map.mp hfinal
    exact .inl ⟨f, mem_of_mem_distinctBy hf, rfl⟩
  · obtain ⟨_, hfinal, rfl⟩ := List.mem_map.mp h
    obtain ⟨c, hc, rfl⟩ := List.mem_map.mp (distinctFrom_sublist.subset hfinal)
    exact .inr ⟨c, mem_of_mem_distinctBy hc, rfl⟩

/-- Every finding's severity is that of a row. -/
theorem row_of_finding {f : Finding} (h : f ∈ collected.findings) :
    ∃ row ∈ (report collected subdomains cveResults openPorts).structured.scanFindings,
      row.severity = f.severity := by
  obtain ⟨g, hg, hkey⟩ : ∃ g ∈ distinctBy Finding.key collected.findings, g.key = f.key :=
    exists_mem_distinctBy h
  rw [report, scanFindings_eq]
  have hstored : g.enrich.stored ∈ (finalFindings collected.findings).map Finding.stored ++
      (distinctFrom VulnCheck.name ((finalFindings collected.findings).map Finding.title)
        (finalChecks collected.vulnerabilityChecks)).map VulnCheck.stored :=
    List.mem_append_left _ (List.mem_map_of_mem (List.mem_map_of_mem hg))
  obtain ⟨row, hrow, hrowkey⟩ : ∃ row ∈ distinctBy StoredFinding.key _,
      row.key = g.enrich.stored.key := exists_mem_distinctBy hstored
  exact ⟨row, hrow, (congrArg (fun k : Key => k.2.1) hrowkey).trans
    (congrArg (fun k : Key => k.2.1) hkey)⟩

theorem rows_tallied
    (h : collected.All (fun f => Tallied f.severity) fun c => Tallied c.severity) :
    ∀ row ∈ (report collected subdomains cveResults openPorts).structured.scanFindings,
      row.sev ∈ summaryKeys := by
  intro row hrow
  rcases severity_of_row hrow with ⟨f, hf, hsev⟩ | ⟨c, hc, hsev⟩
  · rw [StoredFinding.sev, hsev]
    exact h.1 f hf
  · rw [StoredFinding.sev, hsev]
    exact h.2 c hc

theorem Section.Graded.tallied {s : Section} (h : s.Graded) :
    s.All (fun f => Tallied f.severity) fun c => Tallied c.severity :=
  ⟨fun f hf => lower_mem_of_graded (h.1 f hf), fun c hc => lower_mem_of_graded (h.2 c hc)⟩

theorem tallied_cveItems {versioned : Bool} {technology : String} {cve : Cve}
    (h : versioned = true → lower cve.severity ∈ summaryKeys) :
    (cveItems versioned technology cve).All (fun f => Tallied f.severity)
      fun c => Tallied c.severity := by
  have hsev : Tallied (some (if versioned then cve.severity else "INFO")) := by
    cases versioned with
    | false => exact lower_mem_of_graded graded_info
    | true => exact h rfl
  exact ⟨List.forall_mem_singleton.mpr hsev, List.forall_mem_singleton.mpr hsev⟩

/-- A CVE for a versioned technology has a row with the severity of the database. -/
theorem row_of_cve [EntropyTest] {scan : Scan} {group : CveGroup} {cve : Cve}
    (hversioned : hasVersionInfo scan.techText = true) (hgroup : group ∈ scan.cveResults)
    (hcve : cve ∈ group.cves) :
    ∃ row ∈ (analyze scan).structured.scanFindings, row.severity = some cve.severity := by
  obtain ⟨f, hf, hsev⟩ : ∃ f ∈ (cveItems true group.technology cve).findings,
      f.severity = some cve.severity := ⟨_, List.mem_cons_self, rfl⟩
  have hsection : f ∈ (cveSection scan.cveResults scan.techText).findings := by
    refine List.mem_flatMap.mpr ⟨group, hgroup, List.mem_flatMap.mpr ⟨cve, hcve, ?_⟩⟩
    rw [hversioned]
    exact hf
  have hcollected : f ∈ scan.collected.findings := List.mem_append_right _ hsection
  obtain ⟨row, hrow, hrowsev⟩ := row_of_finding hcollected
  exact ⟨row, hrow, hrowsev.trans hsev⟩

/-- The tallies of a report add up unless a CVE for a versioned technology has a severity that is
none of the five. -/
theorem tallies_add_up_iff [EntropyTest] (scan : Scan) :
    let summary := scanSummary (analyze scan).structured.scanFindings
    summary.critical + summary.high + summary.medium + summary.low + summary.info =
        summary.totalFindings ↔
      hasVersionInfo scan.techText = false ∨
        ∀ group ∈ scan.cveResults, ∀ cve ∈ group.cves,
          lower cve.severity ∈ ["critical", "high", "medium", "low", "info"] := by
  refine (tallied_eq_total_iff _).trans ?_
  constructor
  · intro hrows
    rw [or_iff_not_imp_left, Bool.not_eq_false]
    intro hversioned group hgroup cve hcve
    obtain ⟨row, hrow, hsev⟩ := row_of_cve hversioned hgroup hcve
    have htallied := hrows row hrow
    rwa [StoredFinding.sev, hsev] at htallied
  · intro hcve
    refine rows_tallied (Section.All.append (Section.graded_detector scan).tallied ?_)
    refine Section.all_forEach fun group hgroup => Section.all_forEach fun cve hmem => ?_
    refine tallied_cveItems fun hversioned => ?_
    rcases hcve with hnot | hall
    · exact absurd (hnot.symm.trans hversioned) Bool.false_ne_true
    · exact hall group hgroup cve hmem

end Report

/-- A scan that finds one CVE without a severity, for a server that shows its version. The lookup
returns the CVE if its record has neither metrics nor an array of references. -/
def unratedScan : Scan where
  url := "https://example.com"
  ip := "93.184.216.34"
  response := some {
    statusCode := 200
    text := ""
    url := "https://example.com/"
    header := fun name => [("Server", "nginx/1.18.0")].lookup name }
  technologies := ["Nginx"]
  cveResults := [{ technology := "nginx", cves := [{
    id := some "CVE-2024-0001", severity := "UNKNOWN"
    url := "https://nvd.nist.gov/vuln/detail/CVE-2024-0001" }] }]

/-- The row of a CVE without a severity is in the total and in no tally. -/
theorem unrated_cve_not_tallied : ¬ ∀ (_ : UnicodeTables) (_ : EntropyTest) (scan : Scan),
    let summary := scanSummary (analyze scan).structured.scanFindings
    summary.critical + summary.high + summary.medium + summary.low + summary.info =
      summary.totalFindings := by
  intro h
  let _ := asciiTables
  let _ : EntropyTest := ⟨fun _ => false⟩
  have hversioned : hasVersionInfo unratedScan.techText = true := by
    rw [Scan.hasVersionInfo_techText_ascii]
    decide +kernel
  obtain ⟨row, hrow, hsev⟩ := row_of_cve hversioned (List.mem_singleton.mpr rfl)
    (List.mem_singleton.mpr rfl)
  have htallied := (tallied_eq_total_iff _).mp (h asciiTables _ unratedScan) row hrow
  rw [StoredFinding.sev, hsev] at htallied
  exact absurd htallied (by decide)

end ThreatScanner.Analyzer
