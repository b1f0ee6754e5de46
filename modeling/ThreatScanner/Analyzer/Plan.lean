import ThreatScanner.Analyzer.Score
import ThreatScanner.Library.Buckets

/-!
# The remediation plan and the detection summary

`build_strict_remediation_plan` takes the first five of three lists, the most severe items first and
the items of one severity as the report has them; `build_strict_detection_summary` counts the lists.
-/

namespace ThreatScanner.Analyzer

open Buckets

variable [UnicodeTables]

/-- `severity_order.get(severity, 99)`. -/
def severityOrder (severity : String) : ℕ :=
  match severity with
  | "CRITICAL" => 0
  | "HIGH" => 1
  | "MEDIUM" => 2
  | "LOW" => 3
  | "INFO" => 4
  | _ => 99

def Row.order (item : Row) : ℕ := severityOrder (upper item.severity)

/-- What `build_strict_remediation_plan` returns. -/
structure RemediationPlan where
  fixNow : List Row
  reviewManually : List Row
  hardening : List Row
  topIssues : List Row
  quickWins : List Row

/-- `build_strict_remediation_plan`. -/
def buildStrictRemediationPlan (separated : Separated) : RemediationPlan :=
  let confirmedSorted := sortBy Row.order separated.confirmedVulnerabilities
  let possibleSorted := sortBy Row.order separated.possibleIssues
  let hardeningSorted := sortBy Row.order separated.hardeningIssues
  { fixNow := confirmedSorted.take 5
    reviewManually := possibleSorted.take 5
    hardening := hardeningSorted.take 5
    topIssues := confirmedSorted.take 5
    quickWins := hardeningSorted.take 5 }

/-- What `build_strict_detection_summary` returns. -/
structure DetectionSummary where
  confirmed : ℕ
  possible : ℕ
  hardening : ℕ
  attackSurface : ℕ
  informational : ℕ
  confirmedHighOrCritical : ℕ
  note : String := "Risk score uses confirmed vulnerabilities only. Hardening, attack surface, " ++
    "and possible findings do not count as real vulnerabilities."

/-- `build_strict_detection_summary`. -/
def buildStrictDetectionSummary (separated : Separated) : DetectionSummary where
  confirmed := separated.confirmedVulnerabilities.length
  possible := separated.possibleIssues.length
  hardening := separated.hardeningIssues.length
  attackSurface := separated.attackSurface.length
  informational := separated.informationalFindings.length
  confirmedHighOrCritical := (separated.confirmedVulnerabilities.filter fun x =>
    upper x.severity ∈ ["HIGH", "CRITICAL"]).length

/-! ## The order of the plan -/

/-- The items of one severity, in their order. -/
def ofSeverity (severity : String) (items : List Row) : List Row :=
  items.filter fun item => upper item.severity = severity

/-- The items of no known severity. -/
def unranked (items : List Row) : List Row := items.filter fun item => item.order = 99

variable {items : List Row} {item row : Row} {findings : List Finding}
  {vulnerabilityChecks : List VulnCheck}

omit [UnicodeTables] in
theorem severityOrder_eq (severity : String) :
    (severityOrder severity = 0 ↔ severity = "CRITICAL") ∧
    (severityOrder severity = 1 ↔ severity = "HIGH") ∧
    (severityOrder severity = 2 ↔ severity = "MEDIUM") ∧
    (severityOrder severity = 3 ↔ severity = "LOW") ∧
    (severityOrder severity = 4 ↔ severity = "INFO") ∧
    severityOrder severity ∈ [0, 1, 2, 3, 4, 99] := by
  unfold severityOrder
  split <;> simp_all

theorem sortBy_order (items : List Row) : sortBy Row.order items =
    ofSeverity "CRITICAL" items ++ ofSeverity "HIGH" items ++ ofSeverity "MEDIUM" items ++
      ofSeverity "LOW" items ++ ofSeverity "INFO" items ++ unranked items := by
  have hranks : ([0, 1, 2, 3, 4, 99] : List ℕ).Pairwise (· < ·) := by decide
  rw [sortBy_eq_flatMap hranks fun item _ => (severityOrder_eq (upper item.severity)).2.2.2.2.2]
  simp only [List.flatMap_cons, List.flatMap_nil, List.append_nil, List.append_assoc, ofSeverity,
    unranked, Row.order, severityOrder_eq]

/-- No item has a severity that is none of those the list is known to have. -/
theorem ofSeverity_of_known {known : List String} (h : ∀ item ∈ items, upper item.severity ∈ known)
    (severity : String) (hnot : severity ∉ known) : ofSeverity severity items = [] := by
  refine List.filter_eq_nil_iff.mpr fun item hitem => ?_
  simp only [decide_eq_true_eq]
  rintro rfl
  exact hnot (h item hitem)

theorem sortBy_order_of_known {known : List String}
    (h : ∀ item ∈ items, upper item.severity ∈ known)
    (hranked : ∀ severity ∈ known, severityOrder severity ≠ 99) : sortBy Row.order items =
      ofSeverity "CRITICAL" items ++ ofSeverity "HIGH" items ++ ofSeverity "MEDIUM" items ++
        ofSeverity "LOW" items ++ ofSeverity "INFO" items := by
  have hnone : unranked items = [] := List.filter_eq_nil_iff.mpr fun item hitem =>
    mt of_decide_eq_true (hranked _ (h item hitem))
  rw [sortBy_order, hnone, List.append_nil]

/-! ## What the lists hold -/

theorem possible_add {out : Separated} (h : item ∈ (out.add row).possibleIssues) :
    item ∈ out.possibleIssues ∨ upper item.severity ∈ ["CRITICAL", "HIGH", "MEDIUM"] := by
  simp only [Separated.add] at h
  split_ifs at h with _ _ _ hpossible
  · exact .inl h
  · exact .inl h
  · exact .inl h
  · rcases List.mem_append.mp h with h | h
    · exact .inl h
    · cases List.mem_singleton.mp h
      exact .inr hpossible.2
  · exact .inl h

theorem possible_severity
    (h : item ∈ (separateResults findings vulnerabilityChecks).possibleIssues) :
    upper item.severity ∈ ["CRITICAL", "HIGH", "MEDIUM"] := by
  suffices hfold : ∀ (rows : List Row) (out : Separated),
      item ∈ (rows.foldl Separated.add out).possibleIssues →
        item ∈ out.possibleIssues ∨ upper item.severity ∈ ["CRITICAL", "HIGH", "MEDIUM"] from
    (hfold _ _ h).resolve_left List.not_mem_nil
  intro rows
  induction rows with
  | nil => exact fun out h => .inl h
  | cons row rows ih => exact fun out h => (ih _ h).elim possible_add .inr

/-- The number of items in the five lists. -/
def DetectionSummary.total (summary : DetectionSummary) : ℕ :=
  summary.confirmed + summary.possible + summary.hardening + summary.attackSurface +
    summary.informational

theorem total_add (out : Separated) (row : Row) :
    (buildStrictDetectionSummary (out.add row)).total =
      (buildStrictDetectionSummary out).total + 1 := by
  simp only [Separated.add, DetectionSummary.total, buildStrictDetectionSummary]
  split_ifs <;> simp only [List.length_append, List.length_singleton] <;> omega

theorem total_separateResults : (buildStrictDetectionSummary
    (separateResults findings vulnerabilityChecks)).total =
      (combinedRows findings vulnerabilityChecks).length := by
  suffices hfold : ∀ (rows : List Row) (out : Separated),
      (buildStrictDetectionSummary (rows.foldl Separated.add out)).total =
        (buildStrictDetectionSummary out).total + rows.length from
    (hfold _ _).trans (Nat.zero_add _)
  intro rows
  induction rows with
  | nil => exact fun out => rfl
  | cons row rows ih =>
    intro out
    rw [List.foldl_cons, ih, total_add, List.length_cons]
    omega

/-! ## The plan of a report -/

/-- What the plan and the summary of a report say. -/
structure PlanFollows (separated : Separated) (rows : List Row) : Prop where
  fixNow : (buildStrictRemediationPlan separated).fixNow =
    (ofSeverity "CRITICAL" separated.confirmedVulnerabilities ++
      ofSeverity "HIGH" separated.confirmedVulnerabilities).take 5
  reviewManually : (buildStrictRemediationPlan separated).reviewManually =
    (ofSeverity "CRITICAL" separated.possibleIssues ++
      ofSeverity "HIGH" separated.possibleIssues ++
      ofSeverity "MEDIUM" separated.possibleIssues).take 5
  hardening : (buildStrictRemediationPlan separated).hardening =
    (ofSeverity "CRITICAL" separated.hardeningIssues ++
      ofSeverity "HIGH" separated.hardeningIssues ++
      ofSeverity "MEDIUM" separated.hardeningIssues ++
      ofSeverity "LOW" separated.hardeningIssues ++
      ofSeverity "INFO" separated.hardeningIssues ++ unranked separated.hardeningIssues).take 5
  twice : (buildStrictRemediationPlan separated).topIssues =
      (buildStrictRemediationPlan separated).fixNow ∧
    (buildStrictRemediationPlan separated).quickWins =
      (buildStrictRemediationPlan separated).hardening
  nothing : (buildStrictRemediationPlan separated).fixNow = [] ↔
    calculateStrictScore separated = 0
  severe : (buildStrictDetectionSummary separated).confirmedHighOrCritical =
    (buildStrictDetectionSummary separated).confirmed
  total : (buildStrictDetectionSummary separated).total = rows.length

/-- The plan of a report lists the first five issues from the most severe down, those of one
severity in the order of the report; there is nothing to fix now exactly when the score is 0. The
summary counts every item once, and every confirmed one as high or critical. -/
theorem plan_follows (findings : List Finding) (vulnerabilityChecks : List VulnCheck) :
    PlanFollows (separateResults findings vulnerabilityChecks)
      (combinedRows findings vulnerabilityChecks) where
  fixNow := by
    have hsev : ∀ item ∈ (separateResults findings vulnerabilityChecks).confirmedVulnerabilities,
        upper item.severity ∈ ["CRITICAL", "HIGH"] := fun item hitem => by
      simpa using confirmed_severity hitem
    have hsorted := sortBy_order_of_known hsev (by decide)
    rw [ofSeverity_of_known hsev "MEDIUM" (by decide), ofSeverity_of_known hsev "LOW" (by decide),
      ofSeverity_of_known hsev "INFO" (by decide)] at hsorted
    simp only [List.append_nil] at hsorted
    exact congrArg (List.take 5) hsorted
  reviewManually := by
    have hsev : ∀ item ∈ (separateResults findings vulnerabilityChecks).possibleIssues,
        upper item.severity ∈ ["CRITICAL", "HIGH", "MEDIUM"] := fun item => possible_severity
    have hsorted := sortBy_order_of_known hsev (by decide)
    rw [ofSeverity_of_known hsev "LOW" (by decide), ofSeverity_of_known hsev "INFO" (by decide)]
      at hsorted
    simp only [List.append_nil] at hsorted
    exact congrArg (List.take 5) hsorted
  hardening := congrArg (List.take 5) (sortBy_order _)
  twice := ⟨rfl, rfl⟩
  nothing := by
    have hsev : ∀ item ∈ (separateResults findings vulnerabilityChecks).confirmedVulnerabilities,
        upper item.severity = "CRITICAL" ∨ upper item.severity = "HIGH" :=
      fun item => confirmed_severity
    simp only [buildStrictRemediationPlan, calculateStrictScore]
    cases hconfirmed :
        (separateResults findings vulnerabilityChecks).confirmedVulnerabilities with
    | nil => simp [sortBy]
    | cons item items =>
      have hweight : 30 ≤ confirmedWeight (upper item.severity) := by
        rcases hsev item (hconfirmed ▸ List.mem_cons_self) with h | h <;> rw [h] <;> decide
      have hmem : item ∈ sortBy Row.order (item :: items) := mem_sortBy.mpr List.mem_cons_self
      have hplan : (sortBy Row.order (item :: items)).take 5 ≠ [] := by
        simpa using List.ne_nil_of_mem hmem
      rw [if_neg (List.cons_ne_nil _ _), List.map_cons, List.sum_cons]
      exact iff_of_false hplan (by omega)
  severe := by
    refine congrArg List.length (List.filter_eq_self.mpr fun item hitem => ?_)
    rcases confirmed_severity hitem with h | h <;> rw [h] <;> decide
  total := total_separateResults

end ThreatScanner.Analyzer
