import ThreatScanner.Analyzer.CveLookup
import ThreatScanner.Analyzer.ReportJson
import ThreatScanner.Analyzer.Wpscan

/-!
# From the detectors' records to those that `analyze` reads

WPScan and the NVD answer with documents, and `WpscanScan` and `CveRecord` take over whatever values
stand there. The stretches of `analyze` that report them are written for records that hold texts:
a `WpscanResult` or a `Cve` stands for a record whose values are texts. What the detectors see to
then shows in the report.
-/

namespace ThreatScanner.Analyzer

/-! ## WPScan -/

/-- The entry that holds these texts. -/
def WpscanFinding.entry (item : WpscanFinding) : WpscanEntry where
  componentType := item.componentType
  component := .str item.component
  title := optionJson item.title
  fixedIn := optionJson item.fixedIn
  reference := optionJson item.reference

structure WpscanResult.Represents (result : WpscanResult) (scan : WpscanScan) : Prop where
  executed : result.executed = scan.executed
  total : result.totalVulnerabilities = scan.totalVulnerabilities
  core : result.coreVulnerabilities = scan.coreVulnerabilities
  plugin : result.pluginVulnerabilities = scan.pluginVulnerabilities
  theme : result.themeVulnerabilities = scan.themeVulnerabilities
  findings : result.findings.map WpscanFinding.entry = scan.findings

/-- A result has its record where the entries hold texts. -/
theorem exists_represents_wpscan (scan : WpscanScan) :
    (∃ result : WpscanResult, result.Represents scan) ↔
      ∀ entry ∈ scan.findings, ∃ item : WpscanFinding, item.entry = entry := by
  constructor
  · rintro ⟨result, h⟩ entry hentry
    rw [← h.findings] at hentry
    obtain ⟨item, -, hitem⟩ := List.mem_map.mp hentry
    exact ⟨item, hitem⟩
  · intro h
    obtain ⟨items, hitems⟩ : scan.findings ∈ Set.range (List.map WpscanFinding.entry) := by
      rw [Set.range_list_map]
      exact h
    exact ⟨⟨scan.executed, scan.totalVulnerabilities, scan.coreVulnerabilities,
      scan.pluginVulnerabilities, scan.themeVulnerabilities, items⟩,
      rfl, rfl, rfl, rfl, rfl, hitems⟩

section Wpscan
variable [JsonText] {loads : String → Option Json} {call : WpscanCall} {scan : WpscanScan}
variable {result : WpscanResult}

/-- A call lists up to forty of the vulnerabilities that it counts; without a document there are
none. -/
theorem runWpscanScan_listed (h : runWpscanScan loads call = .ok scan) :
    scan.totalVulnerabilities = scan.coreVulnerabilities + scan.pluginVulnerabilities +
        scan.themeVulnerabilities ∧
      scan.findings.length = min 40 scan.totalVulnerabilities ∧
      (documentOf loads call = none → scan.totalVulnerabilities = 0) := by
  rcases runWpscanScan_cases loads call with ⟨-, result, hrun, hnothing⟩ |
    ⟨parsed, result, hdocument, hrun⟩
  · cases h.symm.trans hrun
    refine ⟨hnothing.counts.total, ?_, fun _ => hnothing.total⟩
    rw [hnothing.findings, hnothing.total]
    rfl
  · rw [hrun] at h
    refine ⟨(readDocument_ok h).total, ?_, fun hnone => absurd (hdocument.symm.trans hnone) nofun⟩
    simp only [readDocument, bind_eq_ok] at h
    obtain ⟨findings, -, hret⟩ := h
    cases hret
    exact List.length_take

/-- What a call adds to the report: nothing where nothing was found, and otherwise a finding for
the whole and one for each of the first eight vulnerabilities. -/
theorem wpscanSection_run (hrun : runWpscanScan loads call = .ok scan)
    (h : result.Represents scan) (hexecuted : scan.executed) :
    (wpscanSection result).findings.length =
      if scan.totalVulnerabilities = 0 then 0 else 1 + min 8 scan.totalVulnerabilities := by
  have hlength : result.findings.length = min 40 scan.totalVulnerabilities := by
    rw [← (runWpscanScan_listed hrun).2.1, ← h.findings, List.length_map]
  unfold wpscanSection
  dsimp only
  rw [h.executed, h.total]
  by_cases hnone : scan.totalVulnerabilities = 0
  · rw [if_pos hnone, if_neg fun hpos => hpos.2.ne' hnone]
    rfl
  · rw [if_neg hnone, if_pos ⟨hexecuted, Nat.pos_of_ne_zero hnone⟩]
    have hdetails : ((result.findings.take 8).map fun _ => 1).sum =
        min 8 scan.totalVulnerabilities := by
      rw [List.map_const', List.sum_replicate_nat, mul_one, List.length_take, hlength]
      omega
    rw [← hdetails]
    simp [note, addVuln, addFinding, Section.forEach, List.length_flatMap, Nat.add_comm 1]

end Wpscan

/-! ## The CVE lookup -/

section Lookup
variable [UnicodeTables] [JsonText] {item : Json} {record : CveRecord} {cve : Cve}

structure Cve.Represents (cve : Cve) (record : CveRecord) : Prop where
  id : optionJson cve.id = record.id
  severity : .str cve.severity = record.severity
  score : match cve.score with
    | none => record.score = .null
    | some score => record.score.number? = some score.value ∧
        JsonText.text record.score = score.text
  published : optionJson cve.published = record.published
  description : optionJson cve.description = record.description
  url : cve.url = record.url
  attackTypes : cve.intelligence.attackTypes = record.intelligence.attackTypes
  exploitIntelligence : cve.intelligence.exploitability =
      some record.intelligence.exploitIntelligence.exploitability ∧
    cve.intelligence.publicExploitIndicators =
      record.intelligence.exploitIntelligence.publicExploitIndicators
  exploitability : cve.exploitability = some record.exploitability
  publicExploitIndicators : cve.publicExploitIndicators = record.publicExploitIndicators
  patchGuidance : cve.patchGuidance = some record.patchGuidance

omit [UnicodeTables] in
/-- A CVE has its record where the values that are taken from the document are texts, the score a
number. -/
theorem exists_represents_cve (hid : ∃ id, optionJson id = record.id)
    (hseverity : ∃ severity, .str severity = record.severity)
    (hscore : record.score = .null ∨ record.score.number?.isSome)
    (hpublished : ∃ published, optionJson published = record.published)
    (hdescription : ∃ description, optionJson description = record.description) :
    ∃ cve : Cve, cve.Represents record := by
  obtain ⟨id, hid⟩ := hid
  obtain ⟨severity, hseverity⟩ := hseverity
  obtain ⟨published, hpublished⟩ := hpublished
  obtain ⟨description, hdescription⟩ := hdescription
  obtain ⟨score, hscore⟩ : ∃ score : Option Number, match score with
      | none => record.score = .null
      | some score => record.score.number? = some score.value ∧
          JsonText.text record.score = score.text := by
    rcases hscore with hscore | hscore
    · exact ⟨none, hscore⟩
    · obtain ⟨value, hvalue⟩ := Option.isSome_iff_exists.mp hscore
      exact ⟨some ⟨value, JsonText.text record.score⟩, hvalue, rfl⟩
  exact ⟨{
    id, severity, score, published, description
    url := record.url
    intelligence := {
      attackTypes := record.intelligence.attackTypes
      exploitability := some record.intelligence.exploitIntelligence.exploitability
      publicExploitIndicators :=
        record.intelligence.exploitIntelligence.publicExploitIndicators }
    exploitability := some record.exploitability
    publicExploitIndicators := record.publicExploitIndicators
    patchGuidance := some record.patchGuidance },
    hid, hseverity, hscore, hpublished, hdescription, rfl, rfl, ⟨rfl, rfl⟩, rfl, rfl, rfl⟩

/-- A CVE that is looked up has an attack type, and its exploitability is one of three words. -/
theorem cveRecord_intelligence (h : cveRecord item = .ok record) :
    record.exploitability = record.intelligence.exploitIntelligence.exploitability ∧
      record.publicExploitIndicators =
        record.intelligence.exploitIntelligence.publicExploitIndicators ∧
      record.attackTypes = record.intelligence.attackTypes ∧ record.attackTypes ≠ [] ∧
      record.exploitability ∈ ["HIGH", "MEDIUM", "UNKNOWN"] := by
  simp only [cveRecord, buildCveIntelligence, classifyCveAttackType, analyzePublicExploitIntel,
    bind_eq_ok] at h
  obtain ⟨cve, -, cveId, -, published, -, lastModified, -, descriptions, -, texts, -, description,
    -, metrics, -, cvss, -, weaknesses, -, references, -, intelligence, hintelligence, short, -,
    hrecord⟩ := h
  obtain ⟨attackTypes, ⟨text, -, htypes⟩, exploit, ⟨lowered, -, texts, -, links, -, hexploit⟩,
    patch, -, risk, -, hret⟩ := hintelligence
  cases hrecord
  cases hret
  cases hexploit
  cases htypes
  refine ⟨rfl, rfl, rfl, ?_, ?_⟩
  · dsimp only
    split_ifs with hnone
    · exact List.cons_ne_nil _ _
    · exact hnone
  · dsimp only
    split_ifs <;> simp

/-- What is reported of it: its own exploitability and its own attack types. -/
theorem cveEvidence_lookup (hrecord : cveRecord item = .ok record) (h : cve.Represents record)
    (technology : String) : ∃ score, cveEvidence technology cve =
      "Technology: " ++ technology ++ " | CVSS: " ++ score ++ " | Exploitability: " ++
        record.exploitability ++ " | Public exploit indicators: " ++
        (if record.publicExploitIndicators then "YES" else "NO") ++ " | Attack types: " ++
        joinComma (record.attackTypes.take 4) ++ " | NVD: " ++ record.url := by
  obtain ⟨-, hpublic, htypes, hne, hmem⟩ := cveRecord_intelligence hrecord
  have hword : record.exploitability ≠ "" := by
    intro hempty
    rw [hempty] at hmem
    simp at hmem
  have hexploitability : orElse (orElse cve.exploitability cve.intelligence.exploitability)
      (some "UNKNOWN") = some record.exploitability := by
    have hkept (y : Option String) :
        orElse (some record.exploitability) y = some record.exploitability := if_neg hword
    rw [h.exploitability, hkept, hkept]
  have htypes' : cve.intelligence.attackTypes = record.attackTypes :=
    h.attackTypes.trans htypes.symm
  have hpublic' : (cve.publicExploitIndicators || cve.intelligence.publicExploitIndicators) =
      record.publicExploitIndicators := by
    rw [h.publicExploitIndicators, h.exploitIntelligence.2, ← hpublic, Bool.or_self]
  have hevidence : ∃ score, cveEvidence technology cve =
      "Technology: " ++ technology ++ " | CVSS: " ++ score ++ " | Exploitability: " ++
        (orElse (orElse cve.exploitability cve.intelligence.exploitability)
          (some "UNKNOWN")).getD "" ++ " | Public exploit indicators: " ++
        (if cve.publicExploitIndicators || cve.intelligence.publicExploitIndicators then "YES"
          else "NO") ++ " | Attack types: " ++
        (if cve.intelligence.attackTypes = [] then "General"
          else joinComma (cve.intelligence.attackTypes.take 4)) ++ " | NVD: " ++ cve.url :=
    ⟨_, rfl⟩
  rwa [hexploitability, hpublic', htypes', if_neg hne, h.url] at hevidence

end Lookup

end ThreatScanner.Analyzer
