import Mathlib.Algebra.GroupWithZero.Nat
import ThreatScanner.Analyzer.Findings

/-!
# From the two lists to the score and the risk

`analyze` deduplicates `findings` and `vulnerability_checks`, fills in their metadata, and
`separate_results` puts the checks before the findings, deduplicates again and sorts the rest into
five lists. Only the first of them, the confirmed vulnerabilities, has a weight in the score.
-/

namespace ThreatScanner.Analyzer

variable [UnicodeTables]

/-- `detection_status`. -/
def detectionStatus (severity confidence : Option String) : String :=
  let sev := upper ((orElse severity (some "INFO")).getD "INFO")
  let conf := upper ((orElse confidence (some "MEDIUM")).getD "MEDIUM")
  if sev ∈ ["CRITICAL", "HIGH"] ∧ conf = "HIGH" then "CONFIRMED"
  else if sev ∈ ["HIGH", "MEDIUM"] ∧ conf ∈ ["MEDIUM", "LOW"] then "POSSIBLE"
  else if sev ∈ ["LOW", "INFO"] then "INFO"
  else "POSSIBLE"

/-- `enrich_detection_metadata` on a finding. -/
def Finding.enrich (item : Finding) : Finding :=
  let confidence := item.confidence.getD "MEDIUM"
  { item with
    confidence := some confidence
    evidenceType := some (item.evidenceType.getD "generic")
    status := orElse item.status (some (detectionStatus item.severity (some confidence))) }

/-- `enrich_detection_metadata` on a vulnerability check. -/
def VulnCheck.enrich (item : VulnCheck) : VulnCheck :=
  let confidence := item.confidence.getD "MEDIUM"
  { item with
    confidence := some confidence
    evidenceType := some (item.evidenceType.getD "generic")
    status := orElse item.status (some (detectionStatus item.severity (some confidence))) }

/-- An item of the combined list. -/
structure Row where
  title : Option String
  severity : String
  category : String
  description : Option String
  evidence : Option String
  fix : Option String
  confidence : String
  evidenceType : String
  status : String
  source : String
  affectedUrl : Option String
  fixLocation : Option String
  parameter : Option String
  originalUrl : Option String
deriving DecidableEq

/-- The item of the combined list for a vulnerability check. -/
def VulnCheck.row (item : VulnCheck) : Row where
  title := item.name
  severity := item.severity.getD "INFO"
  category := item.category.getD "General"
  description := item.impact
  evidence := item.evidence
  fix := item.fix
  confidence := item.confidence.getD "LOW"
  evidenceType := item.evidenceType.getD "generic"
  status := item.status.getD
    (detectionStatus item.severity (some (item.confidence.getD "LOW")))
  source := "vulnerability_check"
  affectedUrl := orElse item.affectedUrl item.url
  fixLocation := orElse (orElse item.fixLocation item.path) item.endpoint
  parameter := item.parameter
  originalUrl := item.originalUrl

/-- The item of the combined list for a finding. -/
def Finding.row (item : Finding) : Row where
  title := item.title
  severity := item.severity.getD "INFO"
  category := item.category.getD "General"
  description := item.description
  evidence := item.evidence
  fix := item.fix
  confidence := item.confidence.getD "LOW"
  evidenceType := item.evidenceType.getD "generic"
  status := item.status.getD
    (detectionStatus item.severity (some (item.confidence.getD "LOW")))
  source := "finding"
  affectedUrl := orElse item.affectedUrl item.url
  fixLocation := orElse (orElse item.fixLocation item.path) item.endpoint
  parameter := item.parameter
  originalUrl := item.originalUrl

def Row.key (item : Row) : Option String × String × Option String :=
  (item.title, item.severity, item.evidence)

/-- `real_confirmed_evidence`. -/
def realConfirmedEvidence : List String :=
  ["database_error_pattern", "graphql_introspection", "public_schema", "public_file",
    "private_key_exposed", "real_secret_exposed", "confirmed_exposure"]

/-- `is_confirmed_vulnerability`, on the three fields of the item that it reads. -/
def isConfirmedVulnerability (severity confidence evidenceType : String) : Bool :=
  if upper confidence ≠ "HIGH" then false
  else if upper severity ∉ ["CRITICAL", "HIGH"] then false
  else if lower evidenceType ∉ realConfirmedEvidence then false
  else true

def Row.isConfirmed (item : Row) : Bool :=
  isConfirmedVulnerability item.severity item.confidence item.evidenceType

/-- What `separate_results` returns. -/
structure Separated where
  confirmedVulnerabilities : List Row := []
  possibleIssues : List Row := []
  hardeningIssues : List Row := []
  attackSurface : List Row := []
  informationalFindings : List Row := []
deriving DecidableEq

def hardeningCategories : List String :=
  ["headers", "cookies", "dns", "security policy", "ssl/tls"]

def attackSurfaceCategories : List String :=
  ["attack surface", "api documentation", "admin/auth", "graphql", "subdomains", "whois/asn",
    "ip intelligence", "ports", "robots", "cve", "wayback", "kxss", "js endpoint",
    "parameter miner", "runtime network", "js endpoint crawler"]

/-- The body of the loop of `separate_results`. -/
def Separated.add (out : Separated) (item : Row) : Separated :=
  let title := lower (showOption item.title)
  let category := lower item.category
  let sev := upper item.severity
  let status := upper item.status
  if item.isConfirmed then
    { out with confirmedVulnerabilities :=
        out.confirmedVulnerabilities ++ [{ item with status := "CONFIRMED" }] }
  else if (hardeningCategories.any fun x => contains category x) ||
      contains title "missing security header" then
    { out with hardeningIssues := out.hardeningIssues ++ [{ item with status := "HARDENING" }] }
  else if attackSurfaceCategories.any fun x => contains category x then
    { out with attackSurface := out.attackSurface ++ [{ item with status := "INFO" }] }
  else if status = "POSSIBLE" ∧ sev ∈ ["CRITICAL", "HIGH", "MEDIUM"] then
    { out with possibleIssues := out.possibleIssues ++ [{ item with status := "POSSIBLE" }] }
  else
    { out with informationalFindings :=
        out.informationalFindings ++ [{ item with status := "INFO" }] }

/-- The items of the two lists in the order in which they are looked at: the checks before the
findings. -/
def inputRows (findings : List Finding) (vulnerabilityChecks : List VulnCheck) : List Row :=
  vulnerabilityChecks.map VulnCheck.row ++ findings.map Finding.row

/-- The checks before the findings, one item for each title, severity and evidence. -/
def combinedRows (findings : List Finding) (vulnerabilityChecks : List VulnCheck) : List Row :=
  distinctBy Row.key (vulnerabilityChecks.map VulnCheck.row ++ findings.map Finding.row)

/-- `separate_results`. -/
def separateResults (findings : List Finding) (vulnerabilityChecks : List VulnCheck) :
    Separated :=
  (combinedRows findings vulnerabilityChecks).foldl Separated.add {}

/-- `confirmed_weights`. -/
def confirmedWeight (severity : String) : Nat :=
  match severity with
  | "CRITICAL" => 45
  | "HIGH" => 30
  | "MEDIUM" => 12
  | "LOW" => 3
  | _ => 0

/-- `calculate_strict_score`. -/
def calculateStrictScore (separated : Separated) : Nat :=
  if separated.confirmedVulnerabilities = [] then 0
  else min (separated.confirmedVulnerabilities.map fun item =>
    confirmedWeight (upper item.severity)).sum 100

/-- The thresholds at the end of `analyze`. -/
def riskFromScore (score : Nat) : String :=
  if score ≥ 75 then "CRITICAL"
  else if score ≥ 45 then "HIGH"
  else if score ≥ 20 then "MEDIUM"
  else "LOW"

/-! ## What is confirmed -/

theorem isConfirmedVulnerability_iff {severity confidence evidenceType : String} :
    isConfirmedVulnerability severity confidence evidenceType = true ↔
      upper confidence = "HIGH" ∧ upper severity ∈ ["CRITICAL", "HIGH"] ∧
        lower evidenceType ∈ realConfirmedEvidence := by
  simp only [isConfirmedVulnerability]
  split_ifs <;> simp_all

theorem confirmed_add (out : Separated) (item : Row) :
    (out.add item).confirmedVulnerabilities = out.confirmedVulnerabilities ++
      if item.isConfirmed then [{ item with status := "CONFIRMED" }] else [] := by
  simp only [Separated.add]
  split_ifs <;> simp

theorem confirmed_foldl (rows : List Row) (out : Separated) :
    (rows.foldl Separated.add out).confirmedVulnerabilities = out.confirmedVulnerabilities ++
      (rows.filter Row.isConfirmed).map fun item => { item with status := "CONFIRMED" } := by
  induction rows generalizing out with
  | nil => simp
  | cons item rows ih =>
    rw [List.foldl_cons, ih, confirmed_add, List.append_assoc, List.filter_cons]
    split <;> simp

/-- The confirmed list is that of the combined items that pass the strict rule. -/
theorem confirmed_separateResults (findings : List Finding)
    (vulnerabilityChecks : List VulnCheck) :
    (separateResults findings vulnerabilityChecks).confirmedVulnerabilities =
      ((combinedRows findings vulnerabilityChecks).filter Row.isConfirmed).map fun item =>
        { item with status := "CONFIRMED" } :=
  confirmed_foldl _ _

/-- An item that passes the strict rule weighs at least as much as a high one. -/
theorem confirmedWeight_of_isConfirmed {item : Row} (h : item.isConfirmed) :
    30 ≤ confirmedWeight (upper item.severity) := by
  obtain ⟨_, hsev, _⟩ := isConfirmedVulnerability_iff.mp h
  simp only [List.mem_cons, List.not_mem_nil, or_false] at hsev
  rcases hsev with hsev | hsev <;> rw [hsev] <;> decide

end ThreatScanner.Analyzer
