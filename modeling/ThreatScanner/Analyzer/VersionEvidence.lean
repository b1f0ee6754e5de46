import ThreatScanner.Analyzer.Analyze

/-!
# The version evidence of a CVE

The loop over the CVEs asks `has_version_info` about one text that joins the technologies and all
messages of the scan. A version of any technology, or any other number with a dot, raises the CVEs
of every technology.
-/

namespace ThreatScanner.Analyzer

variable [UnicodeTables]

/-- The name by which the texts of a scan refer to the technology of a keyword. -/
def technologyName (technology : String) : String :=
  if technology = "Apache HTTP Server" then "apache"
  else if technology = "Express.js" then "express"
  else lower technology

open Pattern in
/-- The name of the technology with a version behind it. -/
def ownVersionPattern (technology : String) : Pattern :=
  cat [lit (technologyName technology), spaces, opt (lit "/"), spaces,
    opt (cat [lit "version", spaces]), .rep (chars [('0', '9')]) 1 none]

/-- The text has version information for the technology itself. -/
def hasOwnVersion (technology text : String) : Bool :=
  searches (ownVersionPattern technology) (lower text)

variable [EntropyTest]

/-- The technology and header texts that the scan has collected. -/
def Scan.collectedTexts (scan : Scan) : List String :=
  scan.technologies ++ scan.detectorSection.vulnerabilities

/-- One of the texts has version information for the technology. -/
def Scan.VersionOf (scan : Scan) (technology : String) : Prop :=
  ∃ text ∈ scan.collectedTexts, hasOwnVersion technology text = true

/-- What the loop adds for a CVE. -/
def Scan.cveItems (scan : Scan) (technology : String) (cve : Cve) : Section :=
  Analyzer.cveItems (hasVersionInfo scan.techText) technology cve

/-- The loop adds an item for the CVE with its own severity and the status POSSIBLE. -/
def Scan.Raises (scan : Scan) (technology : String) (cve : Cve) : Prop :=
  (∃ f ∈ (scan.cveItems technology cve).findings,
    f.status = some "POSSIBLE" ∧ f.severity = some cve.severity) ∨
  ∃ c ∈ (scan.cveItems technology cve).vulnerabilityChecks,
    c.status = some "POSSIBLE" ∧ c.severity = some cve.severity

variable {scan : Scan} {technology : String} {cve : Cve}

/-- The loop adds what it adds for each CVE. -/
theorem cveSection_eq : cveSection scan.cveResults scan.techText =
    Section.forEach scan.cveResults fun item =>
      Section.forEach item.cves (scan.cveItems item.technology) := rfl

omit [UnicodeTables] [EntropyTest] in
theorem status_cveItems (versioned : Bool) (technology : String) (cve : Cve) :
    (cveItems versioned technology cve).All
      (fun f => f.status = some (if versioned then "POSSIBLE" else "INFO"))
      fun c => c.status = some (if versioned then "POSSIBLE" else "INFO") :=
  ⟨List.forall_mem_singleton.mpr rfl, List.forall_mem_singleton.mpr rfl⟩

theorem raises_iff : scan.Raises technology cve ↔ hasVersionInfo scan.techText = true := by
  cases hversion : hasVersionInfo scan.techText with
  | true =>
    refine iff_of_true (.inl ?_) rfl
    rw [Scan.cveItems, hversion]
    exact ⟨_, List.mem_cons_self, rfl, rfl⟩
  | false =>
    obtain ⟨hfindings, hchecks⟩ := status_cveItems false technology cve
    have hinfo : (some "INFO" : Option String) ≠ some "POSSIBLE" := by decide
    refine iff_of_false ?_ Bool.false_ne_true
    rw [Scan.Raises, Scan.cveItems, hversion]
    rintro (⟨f, hf, hstatus, -⟩ | ⟨c, hc, hstatus, -⟩)
    · exact hinfo ((hfindings f hf).symm.trans hstatus)
    · exact hinfo ((hchecks c hc).symm.trans hstatus)

/-- Every CVE that is raised has version evidence for its own technology exactly when there is no
version information at all, or some for each technology with CVEs. -/
theorem version_evidence_own_iff (scan : Scan) :
    (∀ group ∈ scan.cveResults, ∀ cve ∈ group.cves, scan.Raises group.technology cve →
      scan.VersionOf group.technology) ↔
      hasVersionInfo scan.techText = false ∨
        ∀ group ∈ scan.cveResults, group.cves ≠ [] → scan.VersionOf group.technology := by
  simp only [raises_iff]
  cases hversion : hasVersionInfo scan.techText with
  | false => exact iff_of_true (fun _ _ _ _ h => absurd h Bool.false_ne_true) (.inl rfl)
  | true =>
    rw [or_iff_right Bool.false_ne_true.symm]
    refine forall₂_congr fun group _ => ⟨fun h hne => ?_, fun h cve hcve _ => ?_⟩
    · obtain ⟨cve, hcve⟩ := List.exists_mem_of_ne_nil _ hne
      exact h cve hcve rfl
    · exact h (List.ne_nil_of_mem hcve)

omit [UnicodeTables] [EntropyTest] in
/-- A scan of a PHP site whose server shows the version of nginx and none of PHP. The lookup returns
the CVE if its record has no array of references. -/
def nginxVersionScan : Scan where
  url := "https://example.com"
  ip := "93.184.216.34"
  response := some {
    statusCode := 200
    text := ""
    url := "https://example.com/"
    header := fun name => [("Server", "nginx/1.18.0"), ("X-Powered-By", "PHP")].lookup name }
  technologies := ["Nginx", "PHP"]
  cveResults := [{ technology := "PHP", cves := [{
    id := some "CVE-2024-4577", severity := "CRITICAL"
    url := "https://nvd.nist.gov/vuln/detail/CVE-2024-4577" }] }]

omit [UnicodeTables] [EntropyTest] in
/-- The version of nginx raises the CVEs of PHP. -/
theorem other_version_raises : ¬ ∀ (_ : UnicodeTables) (_ : EntropyTest) (scan : Scan),
    ∀ group ∈ scan.cveResults, ∀ cve ∈ group.cves, scan.Raises group.technology cve →
      scan.VersionOf group.technology := by
  intro h
  let _ := asciiTables
  let _ : EntropyTest := ⟨fun _ => false⟩
  have hversion : hasVersionInfo nginxVersionScan.techText = true := by
    rw [Scan.hasVersionInfo_techText_ascii]
    decide +kernel
  have hnone : ∀ text ∈ nginxVersionScan.collectedTexts, hasOwnVersion "PHP" text = false := by
    decide +kernel
  obtain ⟨text, htext, hown⟩ := h asciiTables ⟨fun _ => false⟩ nginxVersionScan _ List.mem_cons_self
    _ List.mem_cons_self (raises_iff.mpr hversion)
  exact Bool.false_ne_true ((hnone text htext).symm.trans hown)

end ThreatScanner.Analyzer
