import ThreatScanner.Library.Distinct
import ThreatScanner.Python.Text

/-!
# Findings, vulnerability checks and the stretches of `analyze` that add them

`analyze` appends to three lists as it goes through the results of its detectors: `findings`,
`vulnerability_checks` and `vulnerabilities`. What a stretch of it appends is a `Section`, and the
lists it ends with are those of the sections one after the other.
-/

namespace ThreatScanner.Analyzer

/-- An entry of `findings`. A key that is missing or holds `None` is `none`: `getD` takes the
default of a `get` for both, the code for a missing key only. No caller passes `None` for such a
key. -/
structure Finding where
  title : Option String := none
  severity : Option String := none
  category : Option String := none
  description : Option String := none
  evidence : Option String := none
  fix : Option String := none
  confidence : Option String := none
  evidenceType : Option String := none
  affectedUrl : Option String := none
  fixLocation : Option String := none
  status : Option String := none
  url : Option String := none
  path : Option String := none
  endpoint : Option String := none
  parameter : Option String := none
  originalUrl : Option String := none
deriving DecidableEq

/-- An entry of `vulnerability_checks`. -/
structure VulnCheck where
  name : Option String := none
  severity : Option String := none
  category : Option String := none
  evidence : Option String := none
  impact : Option String := none
  fix : Option String := none
  confidence : Option String := none
  evidenceType : Option String := none
  affectedUrl : Option String := none
  fixLocation : Option String := none
  status : Option String := none
  url : Option String := none
  path : Option String := none
  endpoint : Option String := none
  parameter : Option String := none
  originalUrl : Option String := none
deriving DecidableEq

/-- The fields by which the two lists are deduplicated. -/
abbrev Key := Option String × Option String × Option String

/-- `["title", "severity", "evidence"]`. -/
def Finding.key (item : Finding) : Key := (item.title, item.severity, item.evidence)

/-- `["name", "severity", "evidence"]`. -/
def VulnCheck.key (item : VulnCheck) : Key := (item.name, item.severity, item.evidence)

/-- What a stretch of `analyze` appends to its three lists. -/
structure Section where
  findings : List Finding := []
  vulnerabilityChecks : List VulnCheck := []
  vulnerabilities : List String := []

/-- `add_finding`. -/
def addFinding (title severity description : String) (fix : Option String)
    (category : String := "General") (evidence : Option String := none)
    (confidence : String := "MEDIUM") (evidenceType : String := "generic") : Section where
  findings := [{ title, severity, category, description, evidence, fix, confidence, evidenceType }]

/-- `add_vuln`. -/
def addVuln (name severity : String) (evidence : Option String) (impact : String)
    (fix : Option String) (category : String := "General") (confidence : String := "MEDIUM")
    (evidenceType : String := "generic") : Section where
  vulnerabilityChecks :=
    [{ name, severity, category, evidence, impact, fix, confidence, evidenceType }]

/-- `vulnerabilities.append(text)`. -/
def note (text : String) : Section where
  vulnerabilities := [text]

namespace Section

variable {P : Finding → Prop} {Q : VulnCheck → Prop} {s t : Section}

instance : Append Section where
  append s t := ⟨s.findings ++ t.findings, s.vulnerabilityChecks ++ t.vulnerabilityChecks,
    s.vulnerabilities ++ t.vulnerabilities⟩

instance : EmptyCollection Section := ⟨{}⟩

/-- The body of a loop, for each item in turn. -/
def forEach {α : Type} (items : List α) (body : α → Section) : Section :=
  ⟨items.flatMap fun a => (body a).findings, items.flatMap fun a => (body a).vulnerabilityChecks,
    items.flatMap fun a => (body a).vulnerabilities⟩

@[simp] theorem findings_append : (s ++ t).findings = s.findings ++ t.findings := rfl

@[simp] theorem vulnerabilityChecks_append :
    (s ++ t).vulnerabilityChecks = s.vulnerabilityChecks ++ t.vulnerabilityChecks := rfl

@[simp] theorem vulnerabilities_append :
    (s ++ t).vulnerabilities = s.vulnerabilities ++ t.vulnerabilities := rfl

theorem append_assoc (s t u : Section) : s ++ t ++ u = s ++ (t ++ u) := by
  change Section.mk _ _ _ = Section.mk _ _ _
  simp [List.append_assoc]

/-- Everything a section adds satisfies `P` or, among the checks, `Q`. -/
def All (P : Finding → Prop) (Q : VulnCheck → Prop) (s : Section) : Prop :=
  (∀ f ∈ s.findings, P f) ∧ ∀ c ∈ s.vulnerabilityChecks, Q c

theorem All.append (hs : s.All P Q) (ht : t.All P Q) : (s ++ t).All P Q :=
  ⟨List.forall_mem_append.mpr ⟨hs.1, ht.1⟩, List.forall_mem_append.mpr ⟨hs.2, ht.2⟩⟩

theorem all_empty : (∅ : Section).All P Q :=
  ⟨List.forall_mem_nil P, List.forall_mem_nil Q⟩

theorem all_note (text : String) : (note text).All P Q :=
  ⟨List.forall_mem_nil P, List.forall_mem_nil Q⟩

theorem all_ite {p : Prop} [Decidable p] (hs : p → s.All P Q) (ht : ¬ p → t.All P Q) :
    (if p then s else t).All P Q := by
  split
  · next hp => exact hs hp
  · next hp => exact ht hp

theorem all_forEach {α : Type} {items : List α} {body : α → Section}
    (h : ∀ a ∈ items, (body a).All P Q) : (forEach items body).All P Q := by
  constructor
  · intro f hf
    obtain ⟨a, ha, hf⟩ := List.mem_flatMap.mp hf
    exact (h a ha).1 f hf
  · intro c hc
    obtain ⟨a, ha, hc⟩ := List.mem_flatMap.mp hc
    exact (h a ha).2 c hc

/-- A filter that keeps or drops all that is added for an item. -/
theorem filter_flatMap {α β : Type} {items : List α} {f : α → List β} {p : β → Bool} {q : α → Bool}
    (h : ∀ a ∈ items, ∀ b ∈ f a, p b = q a) :
    (items.flatMap f).filter p = (items.filter q).flatMap f := by
  induction items with
  | nil => rfl
  | cons a items ih =>
    have ha := h a List.mem_cons_self
    rw [List.flatMap_cons, List.filter_append, ih fun b hb => h b (List.mem_cons_of_mem _ hb),
      List.filter_cons]
    split
    · next hq =>
      rw [List.filter_eq_self.mpr fun b hb => (ha b hb).trans hq, List.flatMap_cons]
    · next hq =>
      rw [List.filter_eq_nil_iff.mpr fun b hb => (ha b hb) ▸ hq, List.nil_append]

end Section

end ThreatScanner.Analyzer
