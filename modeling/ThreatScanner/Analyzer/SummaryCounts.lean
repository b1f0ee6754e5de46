import ThreatScanner.Analyzer.Enterprise

/-!
# Where the counts of the summary are the lengths of the lists

The counts follow the rule of `build_enterprise_sections` and the lists that of `separate_results`.
Both read the same fields of an item, but the one goes by the status first, the other by the
evidence and the category. On an item with a given status they agree for some evidence, categories
and severities only: `Row.Unanimous` is the table. The two keys for the deduplication agree where
the affected URL follows from the title, the severity and the evidence, and these from their
upper-case form.
-/

namespace ThreatScanner.Analyzer

variable [UnicodeTables]

/-- The items of the report, after `enrich_detection_metadata`. -/
def reportRows (findings : List Finding) (vulnerabilityChecks : List VulnCheck) : List Row :=
  inputRows (enrichedFindings findings) (enrichedChecks vulnerabilityChecks)

/-! ## What the two rules read -/

namespace Row

/-- The category or the title is one for hardening. -/
def hardens (item : Row) : Bool :=
  (hardeningCategories.any fun x => contains (lower item.category) x) ||
    contains (lower (showOption item.title)) "missing security header"

/-- The category is one of the attack surface for `separate_results`. -/
def onSurface (item : Row) : Bool :=
  attackSurfaceCategories.any fun x => contains (lower item.category) x

/-- The category is one of the attack surface for `build_enterprise_sections`. -/
def onEnterpriseSurface (item : Row) : Bool :=
  ["attack surface", "api", "graphql", "subdomain", "robots", "ports"].any fun x =>
    contains (lower item.category) x

/-- The category is one for which `normalize_enterprise_status` makes up the status `INFO`. -/
def namesSurface (item : Row) : Bool :=
  ["attack surface", "api documentation", "admin/auth", "graphql", "subdomains", "robots",
    "ports"].any fun x => contains (lower item.category) x

def severe (item : Row) : Bool := upper item.severity ∈ ["CRITICAL", "HIGH", "MEDIUM"]

/-- The title that `enrich_enterprise_item` gives. -/
def heading (item : Row) : String := (orElse item.title (some "Finding")).getD "Finding"

/-- The key of the counts. -/
def enterpriseKey (item : Row) : String × String × Option String × Option String :=
  (item.heading, upper item.severity, item.evidence, item.affectedUrl)

/-- The section of the counts. -/
def enterpriseKind (item : Row) : SectionKind :=
  let status := upper item.status
  let surface := if item.onEnterpriseSurface then .attackSurface else .informational
  if status = "CONFIRMED" then .confirmed
  else if status = "POSSIBLE" then .possible
  else if status = "HARDENING" then .hardening
  else if status = "INFO" ∨ status = "PROTECTED" then surface
  else if item.isConfirmed then .confirmed
  else if item.hardens then .hardening
  else if item.namesSurface then surface
  else if item.severe then .possible
  else surface

/-- The two rules put an item with these fields into one section. -/
def Unanimous (item : Row) : Prop :=
  let status := upper item.status
  if status = "CONFIRMED" then item.isConfirmed
  else if status = "POSSIBLE" then
    ¬ item.isConfirmed ∧ ¬ item.hardens ∧ ¬ item.onSurface ∧ item.severe
  else if status = "HARDENING" then ¬ item.isConfirmed ∧ item.hardens
  else if status = "INFO" ∨ status = "PROTECTED" then
    ¬ item.isConfirmed ∧ ¬ item.hardens ∧ item.onSurface = item.onEnterpriseSurface
  else item.isConfirmed ∨ item.hardens ∨
    if item.namesSurface then item.onEnterpriseSurface
    else ¬ item.severe ∧ item.onSurface = item.onEnterpriseSurface

theorem kind_eq (item : Row) : item.kind =
    if item.isConfirmed then .confirmed
    else if item.hardens then .hardening
    else if item.onSurface then .attackSurface
    else if upper item.status = "POSSIBLE" ∧ item.severe then .possible
    else .informational := by
  simp only [kind, hardens, onSurface, severe, decide_eq_true_eq]

/-- A category with a name of the attack surface is on it. -/
theorem onSurface_of_names {item : Row} (h : item.namesSurface) : item.onSurface := by
  simp only [namesSurface, onSurface, attackSurfaceCategories, List.any_eq_true] at h ⊢
  obtain ⟨x, hx, hcontains⟩ := h
  have hsubset : ∀ x ∈ ["attack surface", "api documentation", "admin/auth", "graphql",
      "subdomains", "robots", "ports"], x ∈ attackSurfaceCategories := by decide
  exact ⟨x, hsubset x hx, hcontains⟩

theorem enterpriseKind_eq_kind_iff (item : Row) :
    item.enterpriseKind = item.kind ↔ item.Unanimous := by
  have hnames : item.namesSurface = true → item.onSurface = true := onSurface_of_names
  rw [kind_eq]
  simp only [enterpriseKind, Unanimous]
  revert hnames
  generalize item.isConfirmed = confirmed, item.hardens = hardens, item.onSurface = surface,
    item.onEnterpriseSurface = enterprise, item.namesSurface = names, item.severe = severe,
    upper item.status = status
  intro hnames
  by_cases hconfirmed : status = "CONFIRMED"
  · subst hconfirmed
    cases confirmed <;> cases hardens <;> cases surface <;> simp
  by_cases hpossible : status = "POSSIBLE"
  · subst hpossible
    cases confirmed <;> cases hardens <;> cases surface <;> cases severe <;> simp
  by_cases hhardening : status = "HARDENING"
  · subst hhardening
    cases confirmed <;> cases hardens <;> cases surface <;> simp
  simp only [hconfirmed, hpossible, hhardening, if_false, false_and]
  by_cases hinfo : status = "INFO" ∨ status = "PROTECTED"
  · simp only [hinfo, if_true]
    cases confirmed <;> cases hardens <;> cases surface <;> cases enterprise <;> simp
  · simp only [hinfo, if_false]
    cases confirmed <;> cases hardens <;> cases names <;> cases surface <;> cases enterprise <;>
      cases severe <;> simp_all

instance (item : Row) : Decidable item.Unanimous :=
  decidable_of_iff _ item.enterpriseKind_eq_kind_iff

end Row

/-! ## The counts on the rows -/

section Item

/-- The words of the two rules are neither in the empty category nor in the default one. -/
theorem any_default (words : List String) (category : Option String)
    (hwords : ∀ x ∈ words, contains "" x = contains "general" x) :
    (words.any fun x => contains (lower (category.getD "")) x) =
      words.any fun x => contains (lower (category.getD "General")) x := by
  cases category with
  | some c => rfl
  | none =>
    have hempty : lower "" = "" := lower_eq_self (by decide)
    have hgeneral : lower "General" = "general" := lower_eq_map (by decide)
    rw [Option.getD_none, Option.getD_none, hempty, hgeneral, Bool.eq_iff_iff, List.any_eq_true,
      List.any_eq_true]
    exact exists_congr fun x => and_congr_right fun hx => by rw [hwords x hx]

/-- Nor is the phrase that is looked for in the default titles. -/
theorem contains_default (title : Option String) :
    contains (lower ((orElse title (some "Finding")).getD "Finding")) "missing security header" =
      contains (lower (showOption title)) "missing security header" := by
  have hfinding : lower "Finding" = "finding" := lower_eq_map (by decide)
  have hnone : lower "None" = "none" := lower_eq_map (by decide)
  have hempty : lower "" = "" := lower_eq_self (by decide)
  cases title with
  | none =>
    show contains (lower "Finding") _ = contains (lower "None") _
    rw [hfinding, hnone]
    decide
  | some t =>
    by_cases ht : t = ""
    · subst ht
      show contains (lower "Finding") _ = contains (lower "") _
      rw [hfinding, hempty]
      decide
    · have hkept : orElse (some t) (some "Finding") = some t := if_neg ht
      rw [hkept]
      rfl

variable (item : Row) {category : Option String}

/-- The statuses that `normalize_enterprise_status` leaves as they are. -/
def knownStatuses : List String := ["CONFIRMED", "POSSIBLE", "INFO", "HARDENING", "PROTECTED"]

theorem upper_of_known {status : String} (h : status ∈ knownStatuses) : upper status = status := by
  have hascii : ∀ s ∈ knownStatuses, isUpperAscii s := by decide
  exact upper_eq_self (hascii status h)

/-- The status that the first rule goes by, on the fields of the row. -/
def Row.enterpriseStatus (item : Row) : String :=
  if upper item.status ∈ knownStatuses then upper item.status
  else if item.isConfirmed then "CONFIRMED"
  else if item.hardens then "HARDENING"
  else if item.namesSurface then "INFO"
  else if item.severe then "POSSIBLE"
  else "INFO"

theorem Row.enterpriseStatus_known (item : Row) : item.enterpriseStatus ∈ knownStatuses := by
  unfold enterpriseStatus
  split_ifs <;> first | assumption | decide

theorem normalizeEnterpriseStatus_eq (hcategory : item.category = category.getD "General") :
    normalizeEnterpriseStatus (some item.status) category item.heading (upper item.severity)
      (upper item.confidence) item.evidenceType = item.enterpriseStatus := by
  have hconfirmed : (lower item.evidenceType ∈ realConfirmedEvidence ∧
      upper item.severity ∈ ["HIGH", "CRITICAL"] ∧ upper item.confidence = "HIGH") ↔
        item.isConfirmed = true := by
    rw [Row.isConfirmed, isConfirmedVulnerability_iff]
    simp only [List.mem_cons, List.not_mem_nil, or_false]
    tauto
  have hhardens : (["headers", "cookies", "dns", "ssl/tls", "security policy"].any fun x =>
      contains (lower (category.getD "")) x) =
        hardeningCategories.any fun x => contains (lower item.category) x := by
    rw [any_default _ _ (by decide), ← hcategory, Bool.eq_iff_iff, List.any_eq_true,
      List.any_eq_true]
    refine exists_congr fun x => and_congr_left fun _ => ?_
    simp only [hardeningCategories, List.mem_cons, List.not_mem_nil, or_false]
    tauto
  have hsevere : upper item.severity ∈ ["CRITICAL", "HIGH", "MEDIUM"] ↔ item.severe = true :=
    decide_eq_true_iff.symm
  simp only [normalizeEnterpriseStatus, Option.getD_some, hconfirmed, hhardens, hsevere,
    Row.heading, contains_default, any_default ["attack surface", "api documentation", "admin/auth",
      "graphql", "subdomains", "robots", "ports"] category (by decide), ← hcategory]
  rfl

/-- The rule of the counts, on the fields of the row. -/
theorem kind_enterpriseItem
    (description severity category evidence fix affectedUrl fixLocation : Option String)
    (hseverity : item.severity = severity.getD "INFO")
    (hcategory : item.category = category.getD "General") :
    (enterpriseItem item.title description severity category evidence fix (some item.confidence)
      (some item.evidenceType) (some item.status) affectedUrl fixLocation).kind =
        item.enterpriseKind := by
  have hstatus := normalizeEnterpriseStatus_eq item hcategory
  rw [Row.heading, hseverity] at hstatus
  simp only [enterpriseItem, EnterpriseItem.kind, Option.getD_some, hstatus,
    upper_of_known item.enterpriseStatus_known, any_default ["attack surface", "api", "graphql",
      "subdomain", "robots", "ports"] category (by decide), ← hcategory]
  rw [← Row.onEnterpriseSurface, Row.enterpriseStatus, Row.enterpriseKind]
  generalize item.isConfirmed = confirmed, item.hardens = hardens, item.severe = severe,
    item.onEnterpriseSurface = surface, item.namesSurface = names, upper item.status = status
  by_cases hknown : status ∈ knownStatuses
  · rw [if_pos hknown]
    simp only [knownStatuses, List.mem_cons, List.not_mem_nil, or_false] at hknown
    rcases hknown with rfl | rfl | rfl | rfl | rfl <;> simp
  · rw [if_neg hknown]
    simp only [knownStatuses, List.mem_cons, List.not_mem_nil, or_false, not_or] at hknown
    obtain ⟨hconfirmed, hpossible, hinfo, hhardening, hprotected⟩ := hknown
    simp only [hconfirmed, hpossible, hinfo, hhardening, hprotected, or_self, if_false]
    cases confirmed <;> cases hardens <;> cases names <;> cases severe <;> simp

/-- `enrich_detection_metadata` leaves a status in every item. -/
theorem exists_status (status severity confidence : Option String) :
    ∃ s, orElse status (some (detectionStatus severity confidence)) = some s := by
  unfold orElse
  split
  · exact ⟨_, rfl⟩
  · next h =>
    cases status with
    | none => exact absurd rfl h
    | some s => exact ⟨s, rfl⟩

/-- The key and the section of the counts can be told from the row. -/
theorem enterprise_of_mem {findings : List Finding} {vulnerabilityChecks : List VulnCheck}
    {x : ReportItem}
    (h : x ∈ reportItems (enrichedFindings findings) (enrichedChecks vulnerabilityChecks)) :
    x.enterprise.key = x.row.enterpriseKey ∧ x.enterprise.kind = x.row.enterpriseKind := by
  rcases List.mem_append.mp h with h | h
  · obtain ⟨_, hmem, rfl⟩ := List.mem_map.mp h
    obtain ⟨c, -, rfl⟩ := List.mem_map.mp hmem
    obtain ⟨s, hs⟩ : ∃ s, c.enrich.status = some s := exists_status _ _ _
    have hrow : c.enrich.row.status = s := by rw [VulnCheck.row, hs, Option.getD_some]
    refine ⟨rfl, ?_⟩
    have hkind := kind_enterpriseItem c.enrich.row c.impact c.severity c.category
      c.evidence c.fix (orElse c.affectedUrl c.url)
      (orElse (orElse c.fixLocation c.path) c.endpoint) rfl rfl
    rw [hrow, ← hs] at hkind
    exact hkind
  · obtain ⟨_, hmem, rfl⟩ := List.mem_map.mp h
    obtain ⟨f, -, rfl⟩ := List.mem_map.mp hmem
    obtain ⟨s, hs⟩ : ∃ s, f.enrich.status = some s := exists_status _ _ _
    have hrow : f.enrich.row.status = s := by rw [Finding.row, hs, Option.getD_some]
    refine ⟨rfl, ?_⟩
    have hkind := kind_enterpriseItem f.enrich.row f.description f.severity f.category
      f.evidence f.fix (orElse f.affectedUrl f.url)
      (orElse (orElse f.fixLocation f.path) f.endpoint) rfl rfl
    rw [hrow, ← hs] at hkind
    exact hkind

end Item

section Counts
variable (findings : List Finding) (vulnerabilityChecks : List VulnCheck) (kind : SectionKind)

/-- The rows that are counted. -/
def countedRows : List Row := distinctBy Row.enterpriseKey (reportRows findings vulnerabilityChecks)

/-- The rows that are listed. -/
def listedRows : List Row := distinctBy Row.key (reportRows findings vulnerabilityChecks)

theorem count_eq : (enterpriseSummary findings vulnerabilityChecks).count kind =
    ((countedRows findings vulnerabilityChecks).filter fun item =>
      item.enterpriseKind = kind).length := by
  have hrows : reportRows findings vulnerabilityChecks =
      (reportItems (enrichedFindings findings) (enrichedChecks vulnerabilityChecks)).map
        ReportItem.row := by
    rw [reportItems, List.map_append, List.map_map, List.map_map]
    rfl
  have hkept : distinctBy (EnterpriseItem.key ∘ ReportItem.enterprise)
      (reportItems (enrichedFindings findings) (enrichedChecks vulnerabilityChecks)) =
        distinctBy (Row.enterpriseKey ∘ ReportItem.row)
          (reportItems (enrichedFindings findings) (enrichedChecks vulnerabilityChecks)) :=
    distinctFrom_congr fun x hx => (enterprise_of_mem hx).1
  have hlength : ∀ kind, ((distinctBy EnterpriseItem.key ((reportItems
      (enrichedFindings findings) (enrichedChecks vulnerabilityChecks)).map
        ReportItem.enterprise)).filter fun item => item.kind = kind).length =
      ((countedRows findings vulnerabilityChecks).filter fun item =>
        item.enterpriseKind = kind).length := by
    intro kind
    rw [countedRows, hrows, distinctBy_map, distinctBy_map, hkept, List.filter_map,
      List.filter_map, List.length_map, List.length_map]
    refine congrArg List.length (List.filter_congr fun x hx => ?_)
    rw [Function.comp_apply, Function.comp_apply, (enterprise_of_mem (mem_of_mem_distinctBy hx)).2]
  cases kind <;> exact hlength _

theorem length_list_eq : ((reportSections findings vulnerabilityChecks).list kind).length =
    ((listedRows findings vulnerabilityChecks).filter fun item => item.kind = kind).length := by
  rw [reportSections, list_separateResults, List.length_map]
  rfl

end Counts

/-! ## Agreement -/

/-- Both keys keep the same items, and both rules put each of them into the same section. -/
structure Consistent (rows : List Row) : Prop where
  /-- Items of one title, severity and evidence have one affected URL. -/
  url : ∀ x ∈ rows, ∀ y ∈ rows, x.key = y.key → x.affectedUrl = y.affectedUrl
  /-- Items that differ in the spelling of the severity, or in a missing title, differ in the
  evidence or the affected URL as well. -/
  spelling : ∀ x ∈ rows, ∀ y ∈ rows, x.enterpriseKey = y.enterpriseKey → x.key = y.key
  sections : ∀ x ∈ distinctBy Row.key rows, x.Unanimous

theorem Row.enterpriseKey_of_key {x y : Row} (hkey : x.key = y.key)
    (hurl : x.affectedUrl = y.affectedUrl) : x.enterpriseKey = y.enterpriseKey := by
  simp only [key, Prod.mk.injEq] at hkey
  obtain ⟨htitle, hseverity, hevidence⟩ := hkey
  rw [enterpriseKey, enterpriseKey, heading, heading, htitle, hseverity, hevidence, hurl]

section Agreement
variable {findings : List Finding} {vulnerabilityChecks : List VulnCheck}

/-- Where nothing is treated differently, the counts are the lengths of the lists. -/
theorem summaryAgrees_of_consistent (h : Consistent (reportRows findings vulnerabilityChecks)) :
    SummaryAgrees (enterpriseSummary findings vulnerabilityChecks)
      (reportSections findings vulnerabilityChecks) := by
  have hkept : countedRows findings vulnerabilityChecks = listedRows findings vulnerabilityChecks :=
    distinctBy_congr fun x hx y hy => ⟨h.spelling x hx y hy,
      fun hkey => Row.enterpriseKey_of_key hkey (h.url x hx y hy hkey)⟩
  refine summaryAgrees_iff_forall.mpr fun kind => ?_
  rw [count_eq, length_list_eq, hkept]
  refine congrArg List.length (List.filter_congr fun x hx => ?_)
  rw [x.enterpriseKind_eq_kind_iff.mpr (h.sections x hx)]

/-- What `add_finding`, `add_vuln` and `detection_status` give an item: a title, a severity in
upper case and one of three statuses, `CONFIRMED` among them for all that passes the strict rule.
Every category that is on the attack surface for the counts is on it for the lists. -/
structure Row.Ordinary (item : Row) : Prop where
  title : item.title.getD "" ≠ ""
  severity : upper item.severity = item.severity
  status : upper item.status ∈ ["CONFIRMED", "POSSIBLE", "INFO"]
  confirmed : item.isConfirmed → upper item.status = "CONFIRMED"
  surface : item.onEnterpriseSurface → item.onSurface

namespace Row.Ordinary
variable {x y : Row}

theorem enterpriseKey_eq (h : x.Ordinary) :
    x.enterpriseKey = (x.title.getD "", x.severity, x.evidence, x.affectedUrl) := by
  have htitle : x.heading = x.title.getD "" := by
    obtain ⟨t, ht⟩ : ∃ t, x.title = some t := by
      cases hx : x.title with
      | none => exact absurd (by rw [hx]; rfl) h.title
      | some t => exact ⟨t, rfl⟩
    have hkept : orElse x.title (some "Finding") = x.title := if_neg h.title
    rw [heading, hkept, ht]
    rfl
  rw [enterpriseKey, htitle, h.severity]

/-- The key of the counts is the finer one. -/
theorem key_of_enterpriseKey (hx : x.Ordinary) (hy : y.Ordinary)
    (h : x.enterpriseKey = y.enterpriseKey) : x.key = y.key := by
  rw [hx.enterpriseKey_eq, hy.enterpriseKey_eq] at h
  simp only [Prod.mk.injEq] at h
  obtain ⟨htitle, hseverity, hevidence, -⟩ := h
  have hsome : ∀ {z : Row}, z.Ordinary → z.title = some (z.title.getD "") := by
    intro z hz
    cases hz' : z.title with
    | none => exact absurd (by rw [hz']; rfl) hz.title
    | some t => rfl
  rw [key, key, hsome hx, hsome hy, htitle, hseverity, hevidence]

theorem enterpriseKind_eq (h : x.Ordinary) : x.enterpriseKind =
    if upper x.status = "CONFIRMED" then .confirmed
    else if upper x.status = "POSSIBLE" then .possible
    else if x.onEnterpriseSurface then .attackSurface
    else .informational := by
  have hstatus := h.status
  simp only [List.mem_cons, List.not_mem_nil, or_false] at hstatus
  rw [enterpriseKind]
  rcases hstatus with hstatus | hstatus | hstatus <;> simp [hstatus]

theorem kind_confirmed (h : x.Ordinary) (hkind : x.kind = .confirmed) :
    x.enterpriseKind = .confirmed := by
  have hconfirmed : x.isConfirmed := by
    rw [kind_eq] at hkind
    split_ifs at hkind
    assumption
  rw [h.enterpriseKind_eq, if_pos (h.confirmed hconfirmed)]

theorem kind_possible (h : x.Ordinary) (hkind : x.kind = .possible) :
    x.enterpriseKind = .possible := by
  have hpossible : upper x.status = "POSSIBLE" := by
    rw [kind_eq] at hkind
    split_ifs at hkind with _ _ _ hboth
    exact hboth.1
  rw [h.enterpriseKind_eq, hpossible, if_neg (by decide), if_pos rfl]

theorem enterpriseKind_ne_hardening (h : x.Ordinary) : x.enterpriseKind ≠ .hardening := by
  rw [h.enterpriseKind_eq]
  split_ifs <;> exact nofun

/-- What the counts put on the attack surface is there in the lists, if it is not hardening. -/
theorem kind_attackSurface (h : x.Ordinary) (hkind : x.enterpriseKind = .attackSurface)
    (hhardening : x.kind ≠ .hardening) : x.kind = .attackSurface := by
  rw [h.enterpriseKind_eq] at hkind
  split_ifs at hkind with hstatus _ hsurface
  have hconfirmed : ¬ x.isConfirmed := fun hc => hstatus (h.confirmed hc)
  rw [kind_eq, if_neg hconfirmed] at hhardening ⊢
  split_ifs at hhardening ⊢ with hhardens honsurface
  · exact absurd rfl hhardening
  · rfl
  · exact absurd (h.surface hsurface) honsurface
  · exact absurd (h.surface hsurface) honsurface

end Row.Ordinary

theorem detectionStatus_mem (severity confidence : Option String) :
    detectionStatus severity confidence ∈ ["CONFIRMED", "POSSIBLE", "INFO"] := by
  unfold detectionStatus
  dsimp only
  split_ifs <;> simp

/-- What passes the strict rule has the status `CONFIRMED`. -/
theorem detectionStatus_of_confirmed {severity : Option String} {confidence evidenceType : String}
    (h : isConfirmedVulnerability (severity.getD "INFO") confidence evidenceType) :
    detectionStatus severity (some confidence) = "CONFIRMED" := by
  obtain ⟨hconfidence, hseverity, -⟩ := isConfirmedVulnerability_iff.mp h
  have hne : ∀ {s t : String}, upper s = t → t ≠ "" → s ≠ "" := by
    rintro s t hs ht rfl
    exact ht (hs.symm.trans (upper_eq_self (by decide)))
  have hsev : severity.getD "INFO" = (orElse severity (some "INFO")).getD "INFO" := by
    unfold orElse
    split
    · next hempty =>
      cases severity with
      | none => rfl
      | some s =>
        have hs : s = "" := hempty
        subst hs
        simp only [List.mem_cons, List.not_mem_nil, or_false] at hseverity
        rcases hseverity with hseverity | hseverity <;> exact absurd rfl (hne hseverity (by decide))
    · rfl
  have hconf : orElse (some confidence) (some "MEDIUM") = some confidence :=
    if_neg (hne hconfidence (by decide))
  simp only [detectionStatus, ← hsev, hconf, Option.getD_some, hconfidence, hseverity]
  rfl

/-- An item with the status of its severity and confidence. -/
theorem Row.ordinary_of_detectionStatus {item : Row} {severity : Option String}
    (hseverity : item.severity = severity.getD "INFO")
    (hstatus : item.status = detectionStatus severity (some item.confidence))
    (htitle : item.title.getD "" ≠ "") (hupper : upper item.severity = item.severity)
    (hsurface : item.onEnterpriseSurface → item.onSurface) : item.Ordinary := by
  have hmem := detectionStatus_mem severity (some item.confidence)
  rw [← hstatus] at hmem
  have hknown : ∀ s ∈ ["CONFIRMED", "POSSIBLE", "INFO"], s ∈ knownStatuses := by decide
  have hself : upper item.status = item.status :=
    upper_of_known (hknown _ hmem)
  refine ⟨htitle, hupper, by rw [hself]; exact hmem, fun hconfirmed => ?_, hsurface⟩
  rw [isConfirmed, hseverity] at hconfirmed
  rw [hself, hstatus, detectionStatus_of_confirmed hconfirmed]

theorem Finding.ordinary_enrich {f : Finding} (hstatus : f.status = none)
    (htitle : f.title.getD "" ≠ "") (hupper : upper f.enrich.row.severity = f.enrich.row.severity)
    (hsurface : f.enrich.row.onEnterpriseSurface → f.enrich.row.onSurface) :
    f.enrich.row.Ordinary := by
  refine Row.ordinary_of_detectionStatus rfl ?_ htitle hupper hsurface
  rw [row, enrich, hstatus]
  rfl

theorem VulnCheck.ordinary_enrich {c : VulnCheck} (hstatus : c.status = none)
    (htitle : c.name.getD "" ≠ "") (hupper : upper c.enrich.row.severity = c.enrich.row.severity)
    (hsurface : c.enrich.row.onEnterpriseSurface → c.enrich.row.onSurface) :
    c.enrich.row.Ordinary := by
  refine Row.ordinary_of_detectionStatus rfl ?_ htitle hupper hsurface
  rw [row, enrich, hstatus]
  rfl

/-- Where counts and lists keep the same ordinary items, and each section has as many of them, both
rules put every item into the same section: none can take the place of another. -/
theorem enterpriseKind_eq_kind {rows : List Row} (hord : ∀ x ∈ rows, x.Ordinary)
    (hcounts : ∀ kind, (rows.filter fun x => x.enterpriseKind = kind).length =
      (rows.filter fun x => x.kind = kind).length) :
    ∀ x ∈ rows, x.enterpriseKind = x.kind := by
  have hconfirmed := of_length_filter_eq (fun x hx => (hord x hx).kind_confirmed)
    (hcounts .confirmed).symm
  have hpossible := of_length_filter_eq (fun x hx => (hord x hx).kind_possible)
    (hcounts .possible).symm
  have hhardening : ∀ x ∈ rows, x.kind ≠ .hardening := fun x hx hkind =>
    (hord x hx).enterpriseKind_ne_hardening (of_length_filter_eq (fun x hx hk =>
      absurd hk (hord x hx).enterpriseKind_ne_hardening) (hcounts .hardening) x hx hkind)
  have himp : ∀ x ∈ rows, x.enterpriseKind = .attackSurface → x.kind = .attackSurface :=
    fun x hx hkind => (hord x hx).kind_attackSurface hkind (hhardening x hx)
  have hattack := of_length_filter_eq himp (hcounts .attackSurface)
  intro x hx
  cases hkind : x.kind with
  | confirmed => exact (hord x hx).kind_confirmed hkind
  | possible => exact (hord x hx).kind_possible hkind
  | hardening => exact absurd hkind (hhardening x hx)
  | attackSurface => exact hattack x hx hkind
  | informational =>
    cases hcounted : x.enterpriseKind with
    | confirmed => exact absurd (hkind.symm.trans (hconfirmed x hx hcounted)) nofun
    | possible => exact absurd (hkind.symm.trans (hpossible x hx hcounted)) nofun
    | hardening => exact absurd hcounted (hord x hx).enterpriseKind_ne_hardening
    | attackSurface => exact absurd (hkind.symm.trans (himp x hx hcounted)) nofun
    | informational => rfl

omit [UnicodeTables] in
/-- Every item is in one section. -/
theorem length_eq_sum_sections (label : Row → SectionKind) (rows : List Row) :
    rows.length = (SectionKind.all.map fun kind =>
      (rows.filter fun x => label x = kind).length).sum := by
  have hperm : (SectionKind.all.flatMap fun kind => rows.filter fun x => label x = kind).Perm
      rows := flatMap_filter_perm (by decide) fun x _ => SectionKind.mem_all (label x)
  rw [← hperm.length_eq, List.length_flatMap]

/-- On ordinary items the counts are the lengths of the lists only where nothing is treated
differently. -/
theorem consistent_of_summaryAgrees
    (hord : ∀ x ∈ reportRows findings vulnerabilityChecks, x.Ordinary)
    (h : SummaryAgrees (enterpriseSummary findings vulnerabilityChecks)
      (reportSections findings vulnerabilityChecks)) :
    Consistent (reportRows findings vulnerabilityChecks) := by
  have hcounts : ∀ kind, ((countedRows findings vulnerabilityChecks).filter fun x =>
      x.enterpriseKind = kind).length =
        ((listedRows findings vulnerabilityChecks).filter fun x => x.kind = kind).length := by
    intro kind
    rw [← count_eq, ← length_list_eq]
    exact summaryAgrees_iff_forall.mp h kind
  have hfiner : ∀ x ∈ reportRows findings vulnerabilityChecks,
      ∀ y ∈ reportRows findings vulnerabilityChecks,
        x.enterpriseKey = y.enterpriseKey → x.key = y.key :=
    fun x hx y hy => (hord x hx).key_of_enterpriseKey (hord y hy)
  have hsub : (listedRows findings vulnerabilityChecks).Sublist
      (countedRows findings vulnerabilityChecks) := distinctBy_sublist_of_finer hfiner
  have hlength : (listedRows findings vulnerabilityChecks).length =
      (countedRows findings vulnerabilityChecks).length := by
    rw [length_eq_sum_sections Row.kind, length_eq_sum_sections Row.enterpriseKind]
    simp only [hcounts]
  have hkept := hsub.eq_of_length hlength
  rw [← hkept] at hcounts
  refine ⟨fun x hx y hy hkey => ?_, hfiner, fun x hx => ?_⟩
  · obtain ⟨a, ha, hax⟩ : ∃ a ∈ countedRows findings vulnerabilityChecks,
      a.enterpriseKey = x.enterpriseKey := exists_mem_distinctBy hx
    obtain ⟨b, hb, hby⟩ : ∃ b ∈ countedRows findings vulnerabilityChecks,
      b.enterpriseKey = y.enterpriseKey := exists_mem_distinctBy hy
    have hsame : a.key = b.key := by
      rw [hfiner a (mem_of_mem_distinctBy ha) x hx hax, hkey,
        hfiner b (mem_of_mem_distinctBy hb) y hy hby]
    rw [← hkept] at ha hb
    cases List.inj_on_of_nodup_map distinctBy_keys_nodup ha hb hsame
    exact congrArg (fun k => k.2.2.2) (hax.symm.trans hby)
  · exact x.enterpriseKind_eq_kind_iff.mp (enterpriseKind_eq_kind
      (fun y hy => hord y (mem_of_mem_distinctBy hy)) hcounts x hx)

/-- The counts are the lengths of the lists where both keys keep the same items and both rules put
each of them into the same section; on the items that `analyze` makes, only there. -/
theorem summary_agrees (findings : List Finding) (vulnerabilityChecks : List VulnCheck) :
    (Consistent (reportRows findings vulnerabilityChecks) →
      SummaryAgrees (enterpriseSummary findings vulnerabilityChecks)
        (reportSections findings vulnerabilityChecks)) ∧
    ((∀ x ∈ reportRows findings vulnerabilityChecks, x.Ordinary) →
      (SummaryAgrees (enterpriseSummary findings vulnerabilityChecks)
          (reportSections findings vulnerabilityChecks) ↔
        Consistent (reportRows findings vulnerabilityChecks))) :=
  ⟨summaryAgrees_of_consistent, fun hord =>
    ⟨consistent_of_summaryAgrees hord, summaryAgrees_of_consistent⟩⟩

end Agreement

def corsFinding : Finding where
  title := "CORS Misconfiguration"
  severity := "MEDIUM"
  category := "CORS"
  evidence := "CORS allows all origins (*)"

def corsCheck : VulnCheck where
  name := "CORS Misconfiguration"
  severity := "MEDIUM"
  category := "CORS"
  evidence := "CORS allows all origins (*)"

omit [UnicodeTables] in
/-- A wildcard origin is reported as a check and as a finding. -/
theorem summary_agrees_cors :
    letI : UnicodeTables := asciiTables
    SummaryAgrees (enterpriseSummary [corsFinding] [corsCheck])
        (reportSections [corsFinding] [corsCheck]) ∧
      Consistent (reportRows [corsFinding] [corsCheck]) := by
  have hsections : letI : UnicodeTables := asciiTables
      ∀ x ∈ distinctBy Row.key (reportRows [corsFinding] [corsCheck]), x.Unanimous := by decide
  let _ : UnicodeTables := asciiTables
  have hord : ∀ x ∈ reportRows [corsFinding] [corsCheck], x.Ordinary := by
    intro x hx
    rcases List.mem_cons.mp hx with rfl | hx
    · exact corsCheck.ordinary_enrich rfl (by decide) (by decide) (by decide)
    · cases List.mem_singleton.mp hx
      exact corsFinding.ordinary_enrich rfl (by decide) (by decide) (by decide)
  have hagrees := (summary_agrees [corsFinding] [corsCheck]).1 ⟨by decide, by decide, hsections⟩
  exact ⟨hagrees, ((summary_agrees [corsFinding] [corsCheck]).2 hord).mp hagrees⟩

omit [UnicodeTables] in
theorem missing_header_disagrees : ¬ ∀ (_ : UnicodeTables) (findings : List Finding)
    (vulnerabilityChecks : List VulnCheck), SummaryAgrees
      (enterpriseSummary findings vulnerabilityChecks)
      (reportSections findings vulnerabilityChecks) := by
  intro h
  let _ := asciiTables
  have hagrees := h asciiTables [{
    title := some "Missing Security Header: Referrer-Policy", severity := some "LOW"
    category := some "Headers", evidence := some "Referrer-Policy" }] []
  exact absurd hagrees.hardening (by decide)

end ThreatScanner.Analyzer
