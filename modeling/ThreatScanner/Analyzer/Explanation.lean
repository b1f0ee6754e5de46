import ThreatScanner.Analyzer.Score

/-!
# The explanation of the score

`explain_score` repeats the confirmed items with an impact each, the greatest first, next to the
score that `calculate_strict_score` gave. The two functions have a table of weights each.
-/

namespace ThreatScanner.Analyzer

/-- An entry of `risk_drivers`. -/
structure RiskDriver where
  reason : Option String
  severity : String
  scoreImpact : Nat
deriving DecidableEq

/-- What `explain_score` returns. -/
structure ScoreExplanation where
  finalScore : Nat
  riskDrivers : List RiskDriver
  totalVulnerabilities : Nat
deriving DecidableEq

/-- `severity_weights` of `explain_score`. -/
def severityWeight (severity : String) : Option Nat :=
  match severity with
  | "CRITICAL" => some 25
  | "HIGH" => some 18
  | "MEDIUM" => some 10
  | "LOW" => some 5
  | _ => none

variable [UnicodeTables]

/-- The factor of an item whose severity has a weight. -/
def riskFactor (item : Row) : Option RiskDriver :=
  (severityWeight (upper item.severity)).map fun weight =>
    { reason := item.title, severity := upper item.severity, scoreImpact := weight }

/-- `explain_score`. -/
def explainScore (findings : List Row) (vulnerabilities : List (Option String)) (score : Nat) :
    ScoreExplanation :=
  let factors := (findings.take 20).filterMap riskFactor
  let factors := factors.mergeSort fun x y => y.scoreImpact ≤ x.scoreImpact
  { finalScore := score
    riskDrivers := factors.take 8
    totalVulnerabilities := vulnerabilities.length }

/-- `score_explanation` of the report. -/
def scoreExplanation (separated : Separated) : ScoreExplanation :=
  explainScore separated.confirmedVulnerabilities
    (separated.confirmedVulnerabilities.map Row.title) (calculateStrictScore separated)

/-- The impacts of the drivers together. -/
def ScoreExplanation.explained (explanation : ScoreExplanation) : Nat :=
  (explanation.riskDrivers.map RiskDriver.scoreImpact).sum

/-- Up to eight items are all among the drivers, if they have a weight. -/
theorem explained_eq {findings : List Row} {vulnerabilities : List (Option String)} {score : Nat}
    (hlength : findings.length ≤ 8) :
    (explainScore findings vulnerabilities score).explained =
      (findings.map fun item => (severityWeight (upper item.severity)).getD 0).sum := by
  have htake : findings.take 20 = findings := List.take_of_length_le (by omega)
  have hfactors : (findings.filterMap riskFactor).length ≤ 8 :=
    (List.length_filterMap_le _ _).trans hlength
  have hsorted := List.mergeSort_perm (findings.filterMap riskFactor)
    fun x y => decide (y.scoreImpact ≤ x.scoreImpact)
  simp only [explainScore, ScoreExplanation.explained, htake]
  rw [List.take_of_length_le (hsorted.length_eq ▸ hfactors), (hsorted.map _).sum_eq]
  clear hsorted hfactors htake hlength
  induction findings with
  | nil => rfl
  | cons item findings ih =>
    rw [List.filterMap_cons, List.map_cons, List.sum_cons, ← ih, riskFactor]
    cases severityWeight (upper item.severity) with
    | none => exact (Nat.zero_add _).symm
    | some weight => rfl

/-- The impacts explain the score only where there is nothing to explain or where they reach the
cap as well. -/
theorem score_explained_iff {separated : Separated}
    (hlength : separated.confirmedVulnerabilities.length ≤ 8)
    (hsev : ∀ item ∈ separated.confirmedVulnerabilities,
      upper item.severity = "CRITICAL" ∨ upper item.severity = "HIGH") :
    (scoreExplanation separated).finalScore = min (scoreExplanation separated).explained 100 ↔
      separated.confirmedVulnerabilities = [] ∨
        100 ≤ 25 * separated.criticals + 18 * separated.highs := by
  have hscore : (scoreExplanation separated).finalScore =
      min 100 (45 * separated.criticals + 30 * separated.highs) := Separated.score_eq hsev
  have hexplained : (scoreExplanation separated).explained =
      25 * separated.criticals + 18 * separated.highs :=
    (explained_eq hlength).trans
      (Separated.sum_weights (fun severity => (severityWeight severity).getD 0) hsev)
  rw [hscore, hexplained, Separated.confirmed_eq_nil_iff hsev]
  omega

/-- `count` confirmed items of one severity. -/
def sameSeverity (count : Nat) (severity : String) : Separated where
  confirmedVulnerabilities := List.replicate count {
    title := some "SQL Error Pattern", severity, category := "SQL Injection", description := none
    evidence := some "id", fix := none, confidence := "HIGH"
    evidenceType := "database_error_pattern", status := "CONFIRMED"
    source := "vulnerability_check", affectedUrl := none, fixLocation := none, parameter := none
    originalUrl := none }

omit [UnicodeTables] in
/-- Four critical items reach the cap by either table. -/
theorem four_criticals_explained : letI := asciiTables
    (scoreExplanation (sameSeverity 4 "CRITICAL")).finalScore =
      min (scoreExplanation (sameSeverity 4 "CRITICAL")).explained 100 :=
  let _ := asciiTables
  (score_explained_iff (by decide) (by decide)).mpr (.inr (by decide))

omit [UnicodeTables] in
/-- One high item makes a score of 30, with an impact of 18. -/
theorem one_high_not_explained : ¬ ∀ (_ : UnicodeTables) (separated : Separated),
    separated.confirmedVulnerabilities.length ≤ 8 →
    (∀ item ∈ separated.confirmedVulnerabilities,
      upper item.severity = "CRITICAL" ∨ upper item.severity = "HIGH") →
    (scoreExplanation separated).finalScore = min (scoreExplanation separated).explained 100 := by
  intro h
  let _ := asciiTables
  have hlength : (sameSeverity 1 "HIGH").confirmedVulnerabilities.length ≤ 8 := by decide
  have hequal := h asciiTables (sameSeverity 1 "HIGH") hlength (by decide)
  rw [scoreExplanation, explained_eq hlength] at hequal
  exact absurd hequal (by decide)

end ThreatScanner.Analyzer
