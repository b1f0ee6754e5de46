import ThreatScanner.Analyzer.Verdict

/-!
# The enterprise summary

`build_enterprise_sections` sorts the findings and checks into the five sections that
`separate_results` makes as well, by another rule and with another key for its deduplication. The
report has the five lists under the same keys twice, and of two equal keys a dictionary keeps the
value of the second, so the lists are those of `separate_results` and the counts of
`enterprise_summary` those of `build_enterprise_sections`.
-/

namespace ThreatScanner.Analyzer

/-- The five sections of a report. -/
inductive SectionKind where
  | confirmed | possible | hardening | attackSurface | informational
deriving DecidableEq

/-- The sections, in the order of the lists. -/
def SectionKind.all : List SectionKind :=
  [.confirmed, .possible, .hardening, .attackSurface, .informational]

theorem SectionKind.mem_all (kind : SectionKind) : kind ∈ all := by
  cases kind <;> simp [all]

/-- An item after `enrich_enterprise_item`. -/
structure EnterpriseItem where
  title : String
  description : String
  severity : String
  category : Option String
  evidence : Option String
  fix : Option String
  confidence : String
  status : String
  evidenceType : String
  affectedUrl : Option String
  fixLocation : Option String
deriving DecidableEq

/-- `["title", "severity", "evidence", "affected_url"]`. -/
def EnterpriseItem.key (item : EnterpriseItem) :
    String × String × Option String × Option String :=
  (item.title, item.severity, item.evidence, item.affectedUrl)

/-- An entry of one of the two lists that the sections are built from. -/
inductive ReportItem where
  | check (item : VulnCheck)
  | finding (item : Finding)
deriving DecidableEq

/-- The checks before the findings. -/
def reportItems (findings : List Finding) (vulnerabilityChecks : List VulnCheck) :
    List ReportItem :=
  vulnerabilityChecks.map .check ++ findings.map .finding

section Rules
variable [UnicodeTables]

/-! ## The enterprise rule -/

/-- `normalize_enterprise_status`, on the fields of the item that it reads. -/
def normalizeEnterpriseStatus (status category : Option String)
    (title severity confidence evidenceType : String) : String :=
  let status := upper (status.getD "")
  let category := lower (category.getD "")
  if status ∈ ["CONFIRMED", "POSSIBLE", "INFO", "HARDENING", "PROTECTED"] then status
  else if lower evidenceType ∈ realConfirmedEvidence ∧ severity ∈ ["HIGH", "CRITICAL"] ∧
      confidence = "HIGH" then "CONFIRMED"
  else if (["headers", "cookies", "dns", "ssl/tls", "security policy"].any fun x =>
      contains category x) || contains (lower title) "missing security header" then "HARDENING"
  else if ["attack surface", "api documentation", "admin/auth", "graphql", "subdomains", "robots",
      "ports"].any fun x => contains category x then "INFO"
  else if severity ∈ ["CRITICAL", "HIGH", "MEDIUM"] then "POSSIBLE"
  else "INFO"

/-- `enrich_enterprise_item`, from the fields that checks and findings name differently. -/
def enterpriseItem (title description severity category evidence fix confidence evidenceType status
    affectedUrl fixLocation : Option String) : EnterpriseItem :=
  let title := (orElse title (some "Finding")).getD "Finding"
  let severity := upper (severity.getD "INFO")
  let confidence := upper (confidence.getD "MEDIUM")
  let evidenceType := evidenceType.getD "generic"
  { title
    description := (orElse description (some "")).getD ""
    severity
    category
    evidence
    fix
    confidence
    status := normalizeEnterpriseStatus status category title severity confidence evidenceType
    evidenceType
    affectedUrl
    fixLocation }

/-- `enrich_enterprise_item` of a check or a finding. -/
def ReportItem.enterprise : ReportItem → EnterpriseItem
  | check item => enterpriseItem item.name item.impact item.severity item.category item.evidence
      item.fix item.confidence item.evidenceType item.status (orElse item.affectedUrl item.url)
      (orElse (orElse item.fixLocation item.path) item.endpoint)
  | finding item => enterpriseItem item.title item.description item.severity item.category
      item.evidence item.fix item.confidence item.evidenceType item.status
      (orElse item.affectedUrl item.url)
      (orElse (orElse item.fixLocation item.path) item.endpoint)

/-- The section that `build_enterprise_sections` puts an item in. -/
def EnterpriseItem.kind (item : EnterpriseItem) : SectionKind :=
  let status := upper item.status
  let category := lower (item.category.getD "")
  if status = "CONFIRMED" then .confirmed
  else if status = "POSSIBLE" then .possible
  else if status = "HARDENING" then .hardening
  else if ["attack surface", "api", "graphql", "subdomain", "robots", "ports"].any fun x =>
      contains category x then .attackSurface
  else .informational

/-- What `build_enterprise_sections` returns. -/
structure EnterpriseSections where
  confirmedVulnerabilities : List EnterpriseItem
  possibleIssues : List EnterpriseItem
  hardeningIssues : List EnterpriseItem
  attackSurface : List EnterpriseItem
  informationalFindings : List EnterpriseItem

/-- `build_enterprise_sections`. -/
def buildEnterpriseSections (findings : List Finding) (vulnerabilityChecks : List VulnCheck) :
    EnterpriseSections :=
  let combined := distinctBy EnterpriseItem.key
    ((reportItems findings vulnerabilityChecks).map ReportItem.enterprise)
  { confirmedVulnerabilities := combined.filter fun item => item.kind = .confirmed
    possibleIssues := combined.filter fun item => item.kind = .possible
    hardeningIssues := combined.filter fun item => item.kind = .hardening
    attackSurface := combined.filter fun item => item.kind = .attackSurface
    informationalFindings := combined.filter fun item => item.kind = .informational }

/-- What `build_enterprise_summary` returns. -/
structure EnterpriseSummary where
  confirmed : Nat
  possible : Nat
  hardening : Nat
  attackSurface : Nat
  informational : Nat
  confirmedHighOrCritical : Nat
deriving DecidableEq

/-- `build_enterprise_summary`. -/
def buildEnterpriseSummary (sections : EnterpriseSections) : EnterpriseSummary where
  confirmed := sections.confirmedVulnerabilities.length
  possible := sections.possibleIssues.length
  hardening := sections.hardeningIssues.length
  attackSurface := sections.attackSurface.length
  informational := sections.informationalFindings.length
  confirmedHighOrCritical := (sections.confirmedVulnerabilities.filter fun x =>
    upper x.severity ∈ ["HIGH", "CRITICAL"]).length

/-! ## The two lists and the counts of one report -/

/-- The findings after `enrich_detection_metadata`. -/
def enrichedFindings (findings : List Finding) : List Finding := findings.map Finding.enrich

/-- The checks after `enrich_detection_metadata`. -/
def enrichedChecks (vulnerabilityChecks : List VulnCheck) : List VulnCheck :=
  vulnerabilityChecks.map VulnCheck.enrich

/-- `enterprise_summary` of the report. -/
def enterpriseSummary (findings : List Finding) (vulnerabilityChecks : List VulnCheck) :
    EnterpriseSummary :=
  buildEnterpriseSummary (buildEnterpriseSections (enrichedFindings findings)
    (enrichedChecks vulnerabilityChecks))

/-- The five lists of the report: of the two values for each of their keys the second. -/
def reportSections (findings : List Finding) (vulnerabilityChecks : List VulnCheck) : Separated :=
  separateResults (enrichedFindings findings) (enrichedChecks vulnerabilityChecks)

/-- The counts are the lengths of the lists. -/
structure SummaryAgrees (summary : EnterpriseSummary) (sections : Separated) : Prop where
  confirmed : summary.confirmed = sections.confirmedVulnerabilities.length
  possible : summary.possible = sections.possibleIssues.length
  hardening : summary.hardening = sections.hardeningIssues.length
  attackSurface : summary.attackSurface = sections.attackSurface.length
  informational : summary.informational = sections.informationalFindings.length

/-! ## The rule of the lists -/

/-- The item of the combined list of `separate_results`. -/
def ReportItem.row : ReportItem → Row
  | check item => item.row
  | finding item => item.row

/-- The section that `separate_results` puts an item in. -/
def Row.kind (item : Row) : SectionKind :=
  let category := lower item.category
  if item.isConfirmed then .confirmed
  else if (hardeningCategories.any fun x => contains category x) ||
      contains (lower (showOption item.title)) "missing security header" then .hardening
  else if attackSurfaceCategories.any fun x => contains category x then .attackSurface
  else if upper item.status = "POSSIBLE" ∧
      upper item.severity ∈ ["CRITICAL", "HIGH", "MEDIUM"] then .possible
  else .informational

omit [UnicodeTables] in
/-- The list of a section. -/
def Separated.list (out : Separated) : SectionKind → List Row
  | .confirmed => out.confirmedVulnerabilities
  | .possible => out.possibleIssues
  | .hardening => out.hardeningIssues
  | .attackSurface => out.attackSurface
  | .informational => out.informationalFindings

omit [UnicodeTables] in
/-- Appending to the list of a section. -/
def Separated.push (out : Separated) (kind : SectionKind) (item : Row) : Separated :=
  match kind with
  | .confirmed => { out with confirmedVulnerabilities := out.confirmedVulnerabilities ++ [item] }
  | .possible => { out with possibleIssues := out.possibleIssues ++ [item] }
  | .hardening => { out with hardeningIssues := out.hardeningIssues ++ [item] }
  | .attackSurface => { out with attackSurface := out.attackSurface ++ [item] }
  | .informational => { out with informationalFindings := out.informationalFindings ++ [item] }

omit [UnicodeTables] in
/-- The status that `separate_results` sets in the items of a section. -/
def SectionKind.label : SectionKind → String
  | confirmed => "CONFIRMED"
  | possible => "POSSIBLE"
  | hardening => "HARDENING"
  | attackSurface => "INFO"
  | informational => "INFO"

omit [UnicodeTables] in
/-- The count of a section. -/
def EnterpriseSummary.count (summary : EnterpriseSummary) : SectionKind → Nat
  | .confirmed => summary.confirmed
  | .possible => summary.possible
  | .hardening => summary.hardening
  | .attackSurface => summary.attackSurface
  | .informational => summary.informational

omit [UnicodeTables] in
theorem summaryAgrees_iff_forall {summary : EnterpriseSummary} {sections : Separated} :
    SummaryAgrees summary sections ↔
      ∀ kind, summary.count kind = (sections.list kind).length := by
  constructor
  · rintro ⟨hconfirmed, hpossible, hhardening, hattack, hinformational⟩ kind
    cases kind <;> assumption
  · exact fun h => ⟨h .confirmed, h .possible, h .hardening, h .attackSurface, h .informational⟩

/-- The chain of tests in the loop of `separate_results` is a case split on the section. -/
theorem Row.kind_chain {β : Type} (item : Row) (f : SectionKind → β) :
    (if item.isConfirmed then f .confirmed
    else if (hardeningCategories.any fun x => contains (lower item.category) x) ||
        contains (lower (showOption item.title)) "missing security header" then f .hardening
    else if attackSurfaceCategories.any fun x => contains (lower item.category) x then
      f .attackSurface
    else if upper item.status = "POSSIBLE" ∧
        upper item.severity ∈ ["CRITICAL", "HIGH", "MEDIUM"] then f .possible
    else f .informational) = f item.kind := by
  simp only [Row.kind]
  split_ifs <;> rfl

theorem Separated.add_eq (out : Separated) (item : Row) :
    out.add item = out.push item.kind { item with status := item.kind.label } :=
  item.kind_chain fun kind => out.push kind { item with status := kind.label }

omit [UnicodeTables] in
theorem Separated.list_push (out : Separated) (kind kind' : SectionKind) (item : Row) :
    (out.push kind item).list kind' = out.list kind' ++ if kind = kind' then [item] else [] := by
  cases kind <;> cases kind' <;> simp [push, list]

/-- The lists of `separate_results` are the sections of the combined list, with their status. -/
theorem list_foldl (rows : List Row) (out : Separated) (kind : SectionKind) :
    (rows.foldl Separated.add out).list kind = out.list kind ++
      (rows.filter fun row => row.kind = kind).map fun row =>
        { row with status := kind.label } := by
  induction rows generalizing out with
  | nil => simp
  | cons row rows ih =>
    rw [List.foldl_cons, ih, Separated.add_eq, Separated.list_push, List.append_assoc,
      List.filter_cons]
    by_cases h : row.kind = kind <;> simp [h]

theorem list_separateResults (findings : List Finding) (vulnerabilityChecks : List VulnCheck)
    (kind : SectionKind) :
    (separateResults findings vulnerabilityChecks).list kind =
      ((combinedRows findings vulnerabilityChecks).filter fun row => row.kind = kind).map
        fun row => { row with status := kind.label } := by
  rw [separateResults, list_foldl]
  cases kind <;> rfl

end Rules

end ThreatScanner.Analyzer
