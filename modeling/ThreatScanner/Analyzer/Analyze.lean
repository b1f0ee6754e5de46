import ThreatScanner.Analyzer.Storage

/-!
# `analyze` on a host that resolves

The sections one after the other, then the deduplication, the metadata, the verdict and the rows to
store. The score that is added up along the way is replaced by that of the confirmed
vulnerabilities, so it is left out.
-/

namespace ThreatScanner.Analyzer

variable [UnicodeTables]

namespace Scan

/-! ## What the detectors report -/

def niktoChecks (scan : Scan) : List NiktoCheck :=
  if scan.profile.thorough then checkNiktoPaths scan.niktoResponses else []

def advancedExposures (scan : Scan) : List Exposure :=
  if scan.profile.thorough then checkAdvancedExposures scan.exposureResponses else []

def graphqlIntrospection (scan : Scan) : Option GraphqlIntrospection :=
  if scan.profile.thorough then checkGraphqlIntrospection scan.graphqlResponse else none

def jsSecrets [EntropyTest] (scan : Scan) : List JsSecret :=
  if scan.response.isSome ∧ scan.profile.thorough then checkJsSecrets scan.jsFiles else []

/-- `api_endpoints`, after each of them has been classified. -/
def classifiedEndpoints (scan : Scan) : List ApiEndpoint :=
  if scan.profile.thorough then scan.apiEndpoints.map classifyApiEndpoint else []

/-- `real_validation["sqli"]`. -/
def sqliResults (scan : Scan) (response : Response) : List ValidationResult :=
  if scan.profile.thorough then validateSqliBehavior response.url scan.sqlPairs else []

/-- `real_validation["xss"]`. -/
def xssResults (scan : Scan) (response : Response) : List ValidationResult :=
  if scan.profile.thorough then validateXssReflection response.url scan.xssResponses else []

/-! What is reported was found by the detector; a quick scan does not call it. -/

section Reported
variable {scan : Scan} {response : Response}

omit [UnicodeTables] in
theorem mem_of_mem_ite {α : Type} {p : Prop} [Decidable p] {items : List α} {a : α}
    (h : a ∈ if p then items else []) : a ∈ items := by
  split at h
  · exact h
  · cases h

theorem found_of_niktoChecks {check : NiktoCheck} (h : check ∈ scan.niktoChecks) :
    check ∈ checkNiktoPaths scan.niktoResponses := mem_of_mem_ite h

theorem found_of_advancedExposures {e : Exposure} (h : e ∈ scan.advancedExposures) :
    e ∈ checkAdvancedExposures scan.exposureResponses := mem_of_mem_ite h

theorem found_of_graphqlIntrospection {result : GraphqlIntrospection}
    (h : scan.graphqlIntrospection = some result) :
    checkGraphqlIntrospection scan.graphqlResponse = some result := by
  rw [graphqlIntrospection] at h
  split at h
  · exact h
  · cases h

theorem found_of_jsSecrets [EntropyTest] {secret : JsSecret} (h : secret ∈ scan.jsSecrets) :
    secret ∈ checkJsSecrets scan.jsFiles := mem_of_mem_ite h

omit [UnicodeTables] in
theorem found_of_sqliResults {item : ValidationResult} (h : item ∈ scan.sqliResults response) :
    item ∈ validateSqliBehavior response.url scan.sqlPairs := mem_of_mem_ite h

theorem found_of_xssResults {item : ValidationResult} (h : item ∈ scan.xssResults response) :
    item ∈ validateXssReflection response.url scan.xssResponses := mem_of_mem_ite h

end Reported

/-! ## The sections in order -/

variable [EntropyTest]

/-- The part of `analyze` that depends on whether the site answered. -/
def siteSection (scan : Scan) : Section :=
  match scan.response with
  | none => unreachableSection scan.url
  | some response =>
    httpSection response ++ statusSection response ++ securityHeaderSection response ++
      disclosureSection response ++ cookieSection response ++ corsSection (checkCors response) ++
      methodSection (checkHttpMethods scan.optionsResponse) ++ jsSecretSection scan.jsSecrets ++
      apiEndpointSection scan.classifiedEndpoints ++ sqliSection (scan.sqliResults response) ++
      xssSection (scan.xssResults response) ++ directoryListingSection (lower response.text)

/-- Everything before the loop over the CVEs. -/
def detectorSection (scan : Scan) : Section :=
  scan.siteSection ++ sslSection scan.ssl ++ dnsSection scan.dnsIssues ++
    robotsSection scan.robotsEntries ++ securityTxtSection scan.securityTxtExists ++
    exposedPathSection scan.exposedPaths ++ niktoSection scan.niktoChecks ++
    dirsearchSection scan.dirsearch ++ wpscanSection scan.wpscan ++
    exposureSection scan.advancedExposures ++ graphqlSection scan.graphqlIntrospection ++
    riskyPortSection scan.openPorts ++ subdomainSection scan.subdomains ++
    whoisSection scan.whoisAsn ++ ipTargetSection scan.isIp scan.reverseDns scan.ip

/-- `tech_text`. -/
def techText (scan : Scan) : String :=
  String.intercalate " " (scan.technologies ++ scan.detectorSection.vulnerabilities)

omit [UnicodeTables] in
/-- On ASCII text the test for a version reads the characters of the technologies and messages. -/
theorem hasVersionInfo_techText_ascii (scan : Scan) : letI := asciiTables
    hasVersionInfo scan.techText = versionPatterns.any fun p =>
      !(p.finditer CharClass.memExact isWord ((" ".toList.intercalate
        ((scan.technologies ++ scan.detectorSection.vulnerabilities).map String.toList)).map
          Char.toLower)).isEmpty := by
  let _ := asciiTables
  have hchars : (lower scan.techText).toList = (" ".toList.intercalate
      ((scan.technologies ++ scan.detectorSection.vulnerabilities).map String.toList)).map
        Char.toLower := by
    rw [techText, ← String.toList_intercalate]
    exact String.toList_ofList
  simp only [hasVersionInfo, searches, hchars]

/-- All that `analyze` collects. -/
def collected (scan : Scan) : Section :=
  scan.detectorSection ++ cveSection scan.cveResults scan.techText

end Scan

/-- `findings` as it is when the verdict is drawn. -/
def finalFindings (findings : List Finding) : List Finding :=
  (distinctBy Finding.key findings).map Finding.enrich

/-- `vulnerability_checks` as it is when the verdict is drawn. -/
def finalChecks (vulnerabilityChecks : List VulnCheck) : List VulnCheck :=
  (distinctBy VulnCheck.key vulnerabilityChecks).map VulnCheck.enrich

/-- What `analyze` returns, as far as it follows from the two lists. -/
structure Report where
  risk : String
  score : Nat
  findings : List Finding
  vulnerabilityChecks : List VulnCheck
  separatedResults : Separated
  structured : StructuredStorage

/-- The end of `analyze`, where all is collected. -/
def report (collected : Section) (subdomains : List Subdomain) (cveResults : List CveGroup)
    (openPorts : List OpenPort) : Report :=
  let findings := finalFindings collected.findings
  let vulnerabilityChecks := finalChecks collected.vulnerabilityChecks
  let separatedResults := separateResults findings vulnerabilityChecks
  let score := calculateStrictScore separatedResults
  { risk := riskFromScore score
    score := score
    findings := findings
    vulnerabilityChecks := vulnerabilityChecks
    separatedResults := separatedResults
    structured := buildStructuredStorage findings vulnerabilityChecks subdomains cveResults
      openPorts }

/-- `analyze`, from the results of the detectors on. -/
def analyze [EntropyTest] (scan : Scan) : Report :=
  report scan.collected scan.subdomains scan.cveResults scan.openPorts

/-! ## The confirmed vulnerabilities -/

/-- Whether a finding will pass the strict rule. -/
def Finding.strict (item : Finding) : Bool :=
  isConfirmedVulnerability (item.severity.getD "INFO") (item.confidence.getD "MEDIUM")
    (item.evidenceType.getD "generic")

/-- Whether a check will pass the strict rule. -/
def VulnCheck.strict (item : VulnCheck) : Bool :=
  isConfirmedVulnerability (item.severity.getD "INFO") (item.confidence.getD "MEDIUM")
    (item.evidenceType.getD "generic")

/-- The combined items that pass the strict rule. -/
def confirmedRows (findings : List Finding) (vulnerabilityChecks : List VulnCheck) : List Row :=
  (combinedRows (finalFindings findings) (finalChecks vulnerabilityChecks)).filter Row.isConfirmed

/-- An item of the combined list comes from a check or from a finding. -/
theorem mem_combinedRows {findings : List Finding} {vulnerabilityChecks : List VulnCheck}
    {row : Row}
    (h : row ∈ combinedRows (finalFindings findings) (finalChecks vulnerabilityChecks)) :
    (∃ c ∈ vulnerabilityChecks, row = c.enrich.row) ∨ ∃ f ∈ findings, row = f.enrich.row := by
  rcases List.mem_append.mp (mem_of_mem_distinctBy h) with h | h
  · obtain ⟨_, hfinal, rfl⟩ := List.mem_map.mp h
    obtain ⟨c, hc, rfl⟩ := List.mem_map.mp hfinal
    exact .inl ⟨c, mem_of_mem_distinctBy hc, rfl⟩
  · obtain ⟨_, hfinal, rfl⟩ := List.mem_map.mp h
    obtain ⟨f, hf, rfl⟩ := List.mem_map.mp hfinal
    exact .inr ⟨f, mem_of_mem_distinctBy hf, rfl⟩

/-- Every check is in the combined list, or another item of the same key is. -/
theorem exists_row_of_check {findings : List Finding} {vulnerabilityChecks : List VulnCheck}
    {c : VulnCheck} (h : c ∈ vulnerabilityChecks) :
    ∃ row ∈ combinedRows (finalFindings findings) (finalChecks vulnerabilityChecks),
      row.key = c.enrich.row.key := by
  obtain ⟨d, hd, hkey⟩ : ∃ d ∈ distinctBy VulnCheck.key vulnerabilityChecks, d.key = c.key :=
    exists_mem_distinctBy h
  have hrow : d.enrich.row ∈ (finalChecks vulnerabilityChecks).map VulnCheck.row ++
      (finalFindings findings).map Finding.row :=
    List.mem_append_left _ (List.mem_map_of_mem (List.mem_map_of_mem hd))
  obtain ⟨row, hmem, hrowkey⟩ : ∃ row ∈ combinedRows (finalFindings findings)
      (finalChecks vulnerabilityChecks), row.key = d.enrich.row.key := exists_mem_distinctBy hrow
  have hsame : d.enrich.row.key = c.enrich.row.key :=
    congrArg (fun k : Key => (k.1, k.2.1.getD "INFO", k.2.2)) hkey
  exact ⟨row, hmem, hrowkey.trans hsame⟩

section Filter
variable {p : Option String → Bool}

theorem filter_combinedRows (findings : List Finding) (vulnerabilityChecks : List VulnCheck) :
    (combinedRows (finalFindings findings) (finalChecks vulnerabilityChecks)).filter
        (fun row => p row.title) =
      combinedRows (finalFindings (findings.filter fun f => p f.title))
        (finalChecks (vulnerabilityChecks.filter fun c => p c.name)) := by
  have hrow (rows : List Row) : (distinctBy Row.key rows).filter (fun row => p row.title) =
      distinctBy Row.key (rows.filter fun row => p row.title) :=
    filter_distinctBy (q := fun k => p k.1) fun _ => rfl
  have hfind : (distinctBy Finding.key findings).filter (fun f => p f.title) =
      distinctBy Finding.key (findings.filter fun f => p f.title) :=
    filter_distinctBy (q := fun k => p k.1) fun _ => rfl
  have hcheck : (distinctBy VulnCheck.key vulnerabilityChecks).filter (fun c => p c.name) =
      distinctBy VulnCheck.key (vulnerabilityChecks.filter fun c => p c.name) :=
    filter_distinctBy (q := fun k => p k.1) fun _ => rfl
  simp only [combinedRows, hrow, finalFindings, finalChecks, ← hfind, ← hcheck,
    List.filter_append, List.filter_map]
  rfl

/-- Items whose title `p` does not select have no part in the verdict if they do not pass the
strict rule. -/
theorem confirmedRows_filter {findings : List Finding} {vulnerabilityChecks : List VulnCheck}
    (hf : ∀ f ∈ findings, f.strict → p f.title)
    (hc : ∀ c ∈ vulnerabilityChecks, c.strict → p c.name) :
    confirmedRows findings vulnerabilityChecks =
      confirmedRows (findings.filter fun f => p f.title)
        (vulnerabilityChecks.filter fun c => p c.name) := by
  simp only [confirmedRows, ← filter_combinedRows, List.filter_filter]
  refine List.filter_congr fun row hrow => ?_
  cases hconf : row.isConfirmed with
  | false => rfl
  | true =>
    rcases mem_combinedRows hrow with ⟨c, hmem, rfl⟩ | ⟨f, hmem, rfl⟩
    · exact (hc c hmem hconf).symm
    · exact (hf f hmem hconf).symm

end Filter

/-- Strict items with pairwise different keys are all confirmed. -/
theorem confirmedRows_eq {findings : List Finding} {vulnerabilityChecks : List VulnCheck}
    (hf : ∀ f ∈ findings, f.strict = true) (hc : ∀ c ∈ vulnerabilityChecks, c.strict = true)
    (hnodup : (vulnerabilityChecks.map (fun c => c.enrich.row.key) ++
      findings.map fun f => f.enrich.row.key).Nodup) :
    confirmedRows findings vulnerabilityChecks =
      vulnerabilityChecks.map (fun c => c.enrich.row) ++ findings.map fun f => f.enrich.row := by
  have hfindings : (findings.map Finding.key).Nodup := by
    refine List.Nodup.of_map (fun k => (k.1, k.2.1.getD "INFO", k.2.2)) ?_
    rw [List.map_map]
    exact hnodup.of_append_right
  have hchecks : (vulnerabilityChecks.map VulnCheck.key).Nodup := by
    refine List.Nodup.of_map (fun k => (k.1, k.2.1.getD "INFO", k.2.2)) ?_
    rw [List.map_map]
    exact hnodup.of_append_left
  rw [confirmedRows, combinedRows, finalFindings, finalChecks, distinctBy_eq_self hfindings,
    distinctBy_eq_self hchecks, List.map_map, List.map_map, distinctBy_eq_self]
  · refine List.filter_eq_self.mpr fun row hrow => ?_
    rcases List.mem_append.mp hrow with h | h
    · obtain ⟨c, hmem, rfl⟩ := List.mem_map.mp h
      exact hc c hmem
    · obtain ⟨f, hmem, rfl⟩ := List.mem_map.mp h
      exact hf f hmem
  · rw [List.map_append, List.map_map, List.map_map]
    exact hnodup

/-- The score is that of the confirmed rows. -/
def rowScore (rows : List Row) : Nat :=
  min (rows.map fun item => confirmedWeight (upper item.severity)).sum 100

section Report
variable (collected : Section) (subdomains : List Subdomain) (cveResults : List CveGroup)
  (openPorts : List OpenPort)

theorem report_confirmed : (report collected subdomains cveResults
      openPorts).separatedResults.confirmedVulnerabilities =
        (confirmedRows collected.findings collected.vulnerabilityChecks).map fun item =>
          { item with status := "CONFIRMED" } :=
  confirmed_separateResults _ _

theorem report_score : (report collected subdomains cveResults openPorts).score =
    rowScore (confirmedRows collected.findings collected.vulnerabilityChecks) := by
  have h := report_confirmed collected subdomains cveResults openPorts
  simp only [report] at h ⊢
  rw [calculateStrictScore, h, rowScore, List.map_map]
  split
  · next hnil => simp [List.map_eq_nil_iff.mp hnil]
  · rfl

theorem report_risk : (report collected subdomains cveResults openPorts).risk =
    riskFromScore (report collected subdomains cveResults openPorts).score := rfl

end Report

end ThreatScanner.Analyzer
