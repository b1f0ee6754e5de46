import Mathlib.Algebra.Order.BigOperators.Group.List
import Mathlib.Algebra.Order.Group.Nat
import ThreatScanner.Analyzer.Verdict

/-!
# The score as a function of what is confirmed

The score adds up one weight for each confirmed item and is capped. Every confirmed item is high or
critical, so the score and the risk are functions of two counts. What is confirmed depends on the
order of the inputs, however: of the items with one title, severity and evidence only the first is
looked at.
-/

namespace ThreatScanner.Analyzer

variable [UnicodeTables]

/-- What an item of the combined list adds to the score. -/
def Row.strictWeight (item : Row) : Nat :=
  if item.isConfirmed then confirmedWeight (upper item.severity) else 0

/-- The critical items of the confirmed list. -/
def Separated.criticals (separated : Separated) : Nat :=
  separated.confirmedVulnerabilities.countP fun item => upper item.severity = "CRITICAL"

/-- The high items of the confirmed list. -/
def Separated.highs (separated : Separated) : Nat :=
  separated.confirmedVulnerabilities.countP fun item => upper item.severity = "HIGH"

/-- The place of a risk among the four. -/
def riskRank (risk : String) : Nat := ["LOW", "MEDIUM", "HIGH", "CRITICAL"].idxOf risk

/-! ## The sum of the weights -/

theorem Row.strictWeight_of_not_confirmed {item : Row} (h : ¬ item.isConfirmed) :
    item.strictWeight = 0 :=
  if_neg h

theorem Row.le_strictWeight {item : Row} (h : item.isConfirmed) : 30 ≤ item.strictWeight := by
  rw [strictWeight, if_pos h]
  exact confirmedWeight_of_isConfirmed h

/-- Two confirmed items of one key weigh the same, since the severity is part of the key. -/
theorem Row.strictWeight_eq {item other : Row} (hkey : item.key = other.key)
    (hitem : item.isConfirmed) (hother : other.isConfirmed) :
    item.strictWeight = other.strictWeight := by
  have hsev : item.severity = other.severity := congrArg (fun k => k.2.1) hkey
  rw [strictWeight, strictWeight, if_pos hitem, if_pos hother, hsev]

theorem sum_confirmedWeight (rows : List Row) :
    ((rows.filter Row.isConfirmed).map fun item => confirmedWeight (upper item.severity)).sum =
      (rows.map Row.strictWeight).sum := by
  induction rows with
  | nil => rfl
  | cons item rows ih =>
    rw [List.filter_cons, List.map_cons, List.sum_cons, Row.strictWeight]
    split
    · rw [List.map_cons, List.sum_cons, ih]
    · rw [ih, Nat.zero_add]

/-- The score before the cap is the weight of the combined list. -/
theorem calculateStrictScore_eq (findings : List Finding) (vulnerabilityChecks : List VulnCheck) :
    calculateStrictScore (separateResults findings vulnerabilityChecks) =
      min ((combinedRows findings vulnerabilityChecks).map Row.strictWeight).sum 100 := by
  rw [calculateStrictScore, confirmed_separateResults, List.map_map, ← sum_confirmedWeight]
  split
  · next hnil => simp [List.map_eq_nil_iff.mp hnil]
  · rfl

theorem confirmed_severity {findings : List Finding} {vulnerabilityChecks : List VulnCheck}
    {item : Row}
    (h : item ∈ (separateResults findings vulnerabilityChecks).confirmedVulnerabilities) :
    upper item.severity = "CRITICAL" ∨ upper item.severity = "HIGH" := by
  rw [confirmed_separateResults] at h
  obtain ⟨row, hrow, rfl⟩ := List.mem_map.mp h
  obtain ⟨_, hsev, _⟩ := isConfirmedVulnerability_iff.mp (List.mem_filter.mp hrow).2
  simpa using hsev

omit [UnicodeTables] in
theorem sum_map_eq_counts {α : Type} {items : List α} {severity : α → String} (w : String → Nat)
    (h : ∀ item ∈ items, severity item = "CRITICAL" ∨ severity item = "HIGH") :
    (items.map fun item => w (severity item)).sum =
      w "CRITICAL" * items.countP (fun item => severity item = "CRITICAL") +
        w "HIGH" * items.countP fun item => severity item = "HIGH" := by
  induction items with
  | nil => rfl
  | cons item items ih =>
    rw [List.map_cons, List.sum_cons, ih fun i hi => h i (List.mem_cons_of_mem _ hi),
      List.countP_cons, List.countP_cons]
    rcases h item List.mem_cons_self with hsev | hsev <;> simp [hsev, Nat.mul_add] <;> omega

/-- Items that are all critical or high add one weight each for the one and the other. -/
theorem Separated.sum_weights {separated : Separated} (w : String → Nat)
    (h : ∀ item ∈ separated.confirmedVulnerabilities,
      upper item.severity = "CRITICAL" ∨ upper item.severity = "HIGH") :
    (separated.confirmedVulnerabilities.map fun item => w (upper item.severity)).sum =
      w "CRITICAL" * separated.criticals + w "HIGH" * separated.highs :=
  sum_map_eq_counts w h

/-- The score of a confirmed list is a function of the two counts. -/
theorem Separated.score_eq {separated : Separated}
    (h : ∀ item ∈ separated.confirmedVulnerabilities,
      upper item.severity = "CRITICAL" ∨ upper item.severity = "HIGH") :
    calculateStrictScore separated = min 100 (45 * separated.criticals + 30 * separated.highs) := by
  rw [calculateStrictScore, sum_weights confirmedWeight h, Nat.min_comm]
  split
  · next hnil => simp [criticals, highs, hnil]
  · rfl

/-- Nothing is confirmed exactly when both counts are zero. -/
theorem Separated.confirmed_eq_nil_iff {separated : Separated}
    (h : ∀ item ∈ separated.confirmedVulnerabilities,
      upper item.severity = "CRITICAL" ∨ upper item.severity = "HIGH") :
    separated.confirmedVulnerabilities = [] ↔
      separated.criticals = 0 ∧ separated.highs = 0 := by
  constructor
  · intro hnil
    simp [criticals, highs, hnil]
  · rintro ⟨hcritical, hhigh⟩
    refine List.eq_nil_iff_forall_not_mem.mpr fun item hitem => ?_
    rw [criticals, List.countP_eq_zero] at hcritical
    rw [highs, List.countP_eq_zero] at hhigh
    rcases h item hitem with hsev | hsev
    · exact hcritical item hitem (decide_eq_true hsev)
    · exact hhigh item hitem (decide_eq_true hsev)

/-! ## The ladder of the risks -/

omit [UnicodeTables] in
theorem riskFromScore_low {score : Nat} : riskFromScore score = "LOW" ↔ score < 20 := by
  unfold riskFromScore
  split_ifs <;> simp <;> omega

omit [UnicodeTables] in
theorem riskFromScore_medium {score : Nat} :
    riskFromScore score = "MEDIUM" ↔ 20 ≤ score ∧ score < 45 := by
  unfold riskFromScore
  split_ifs <;> simp <;> omega

omit [UnicodeTables] in
theorem riskFromScore_high {score : Nat} :
    riskFromScore score = "HIGH" ↔ 45 ≤ score ∧ score < 75 := by
  unfold riskFromScore
  split_ifs <;> simp <;> omega

omit [UnicodeTables] in
theorem riskFromScore_critical {score : Nat} :
    riskFromScore score = "CRITICAL" ↔ 75 ≤ score := by
  unfold riskFromScore
  split_ifs <;> simp <;> omega

omit [UnicodeTables] in
theorem riskRank_mono {score other : Nat} (h : score ≤ other) :
    riskRank (riskFromScore score) ≤ riskRank (riskFromScore other) := by
  unfold riskFromScore
  split_ifs <;> first | omega | decide

/-! ## The order of the inputs -/

/-- Two lists that differ in the order of the items that satisfy `p`; the others keep their
places. -/
structure Reordered {α : Type} (p : α → Bool) (items items' : List α) : Prop where
  perm : items.Perm items'
  places : items.map (fun a => if p a then none else some a) =
    items'.map fun a => if p a then none else some a

/-- What the items of a list weigh together. -/
def weights (rows : List Row) : Nat :=
  (rows.map fun item => confirmedWeight (upper item.severity)).sum

/-- The items that pass the strict rule, one for each title, severity and evidence. -/
def confirmedInputs (rows : List Row) : List Row :=
  distinctBy Row.key (rows.filter Row.isConfirmed)

/-- The first item with this title, severity and evidence does not pass the strict rule. -/
def hidden (rows : List Row) (key : Option String × String × Option String) : Bool :=
  (rows.find? fun first => first.key = key).any fun first => !first.isConfirmed

/-- No item that passes the strict rule is hidden by one that does not, or those that are not
hidden reach the cap. -/
def EachCounts (rows : List Row) : Prop :=
  (∀ item ∈ rows, item.isConfirmed → hidden rows item.key = false) ∨
    100 ≤ weights ((confirmedInputs rows).filter fun item => !hidden rows item.key)

section Order
variable {rows rows' : List Row} {item : Row}

/-- What an item weighs can be told from its key. -/
theorem weights_eq_of_perm {items items' : List Row}
    (h : (items.map Row.key).Perm (items'.map Row.key)) : weights items = weights items' := by
  have hkeys : ∀ items : List Row,
      weights items = ((items.map Row.key).map fun k => confirmedWeight (upper k.2.1)).sum := by
    intro items
    rw [List.map_map]
    rfl
  rw [hkeys, hkeys, (h.map _).sum_eq]

theorem mem_keys_confirmedInputs {key : Option String × String × Option String} :
    key ∈ (confirmedInputs rows).map Row.key ↔
      ∃ item ∈ rows, item.isConfirmed ∧ item.key = key := by
  rw [List.mem_map, confirmedInputs, exists_key_distinctBy]
  simp only [List.mem_filter, and_assoc]

/-- The confirmed items in another order weigh the same. -/
theorem weights_confirmedInputs (h : (rows.filter Row.isConfirmed).Perm
    (rows'.filter Row.isConfirmed)) :
    weights (confirmedInputs rows) = weights (confirmedInputs rows') := by
  refine weights_eq_of_perm ((List.perm_ext_iff_of_nodup distinctBy_keys_nodup
    distinctBy_keys_nodup).mpr fun key => ?_)
  have hmem : ∀ item, item ∈ rows ∧ item.isConfirmed ↔ item ∈ rows' ∧ item.isConfirmed :=
    fun item => List.mem_filter.symm.trans (h.mem_iff.trans List.mem_filter)
  have hleft : key ∈ (confirmedInputs rows).map Row.key ↔ _ := mem_keys_confirmedInputs
  have hright : key ∈ (confirmedInputs rows').map Row.key ↔ _ := mem_keys_confirmedInputs
  refine hleft.trans (Iff.trans ?_ hright.symm)
  simp only [← and_assoc, hmem]

/-- The kept items that pass the strict rule are, key by key, the confirmed items that are not
hidden. -/
theorem keys_kept : (((distinctBy Row.key rows).filter Row.isConfirmed).map Row.key).Perm
    (((confirmedInputs rows).filter fun item => !hidden rows item.key).map Row.key) := by
  have hnodup : ∀ {items : List Row} (p : Row → Bool),
      (((distinctBy Row.key items).filter p).map Row.key).Nodup := fun p =>
    distinctBy_keys_nodup.sublist (List.filter_sublist.map _)
  refine (List.perm_ext_iff_of_nodup (hnodup _) (hnodup _)).mpr fun key => ?_
  simp only [List.mem_map, List.mem_filter]
  constructor
  · rintro ⟨first, ⟨hkept, hconfirmed⟩, rfl⟩
    have hfirst := (mem_distinctFrom.mp hkept).2
    have hmem := mem_of_mem_distinctBy hkept
    obtain ⟨item, hitem, hkey⟩ : ∃ item ∈ confirmedInputs rows, item.key = first.key :=
      exists_mem_distinctBy (List.mem_filter.mpr ⟨hmem, hconfirmed⟩)
    exact ⟨item, ⟨hitem, by simp [hidden, hkey, hfirst, hconfirmed]⟩, hkey⟩
  · rintro ⟨item, ⟨hitem, hseen⟩, rfl⟩
    have hmem := (List.mem_filter.mp (mem_of_mem_distinctBy hitem)).1
    obtain ⟨first, hkept, hkey⟩ : ∃ first ∈ distinctBy Row.key rows, first.key = item.key :=
      exists_mem_distinctBy hmem
    have hfirst := (mem_distinctFrom.mp hkept).2
    rw [hkey] at hfirst
    exact ⟨first, ⟨hkept, by simpa [hidden, hfirst] using hseen⟩, hkey⟩

/-- The score is what the confirmed items weigh that are not hidden. -/
theorem score_eq_unhidden (findings : List Finding) (vulnerabilityChecks : List VulnCheck) :
    calculateStrictScore (separateResults findings vulnerabilityChecks) =
      min 100 (weights ((confirmedInputs (inputRows findings vulnerabilityChecks)).filter
        fun item => !hidden (inputRows findings vulnerabilityChecks) item.key)) := by
  rw [calculateStrictScore_eq, ← sum_confirmedWeight, ← weights, Nat.min_comm]
  exact congrArg (min 100) (weights_eq_of_perm keys_kept)

theorem weights_split (p : Row → Bool) (items : List Row) :
    weights items = weights (items.filter p) + weights (items.filter fun item => !p item) := by
  rw [weights, ← ((List.filter_append_perm p items).map _).sum_eq, List.map_append, List.sum_append,
    weights, weights]

/-- What is hidden is missing from the score, unless the rest reaches the cap. -/
theorem unhidden_eq_iff : min 100 (weights ((confirmedInputs rows).filter fun item =>
      !hidden rows item.key)) = min 100 (weights (confirmedInputs rows)) ↔ EachCounts rows := by
  have hsplit := weights_split (fun item => hidden rows item.key) (confirmedInputs rows)
  by_cases hall : ∀ item ∈ rows, item.isConfirmed → hidden rows item.key = false
  · have hnone : (confirmedInputs rows).filter (fun item => hidden rows item.key) = [] := by
      refine List.filter_eq_nil_iff.mpr fun item hitem => ?_
      obtain ⟨hmem, hconfirmed⟩ := List.mem_filter.mp (mem_of_mem_distinctBy hitem)
      simp [hall item hmem hconfirmed]
    rw [hnone] at hsplit
    refine iff_of_true ?_ (.inl hall)
    rw [hsplit]
    exact congrArg (min 100) (Nat.zero_add _).symm
  · rw [EachCounts, or_iff_right hall]
    -- a hidden item weighs something
    have hweight : 30 ≤ weights ((confirmedInputs rows).filter fun item =>
        hidden rows item.key) := by
      simp only [not_forall, Bool.not_eq_false] at hall
      obtain ⟨item, hmem, hconfirmed, hhidden⟩ := hall
      obtain ⟨kept, hkept, hkey⟩ : ∃ kept ∈ confirmedInputs rows, kept.key = item.key :=
        exists_mem_distinctBy (List.mem_filter.mpr ⟨hmem, hconfirmed⟩)
      have hpasses := (List.mem_filter.mp (mem_of_mem_distinctBy hkept)).2
      have hin : kept ∈ (confirmedInputs rows).filter fun item => hidden rows item.key :=
        List.mem_filter.mpr ⟨hkept, by rw [hkey, hhidden]⟩
      exact (confirmedWeight_of_isConfirmed hpasses).trans
        (List.single_le_sum (fun _ _ => Nat.zero_le _) _ (List.mem_map_of_mem hin))
    omega

end Order

/-- The score is that of the confirmed items, whatever their order, exactly when each of them
counts. -/
theorem score_eq_confirmedInputs (findings : List Finding)
    (vulnerabilityChecks : List VulnCheck) :
    calculateStrictScore (separateResults findings vulnerabilityChecks) =
        min 100 (weights (confirmedInputs (inputRows findings vulnerabilityChecks))) ↔
      EachCounts (inputRows findings vulnerabilityChecks) := by
  rw [score_eq_unhidden]
  exact unhidden_eq_iff

/-- Other orders of the confirmed items of the two lists are orders of those of the inputs. -/
theorem Reordered.perm_filter {findings findings' : List Finding}
    {vulnerabilityChecks vulnerabilityChecks' : List VulnCheck}
    (hfindings : Reordered (fun item => item.row.isConfirmed) findings findings')
    (hchecks : Reordered (fun item => item.row.isConfirmed) vulnerabilityChecks
      vulnerabilityChecks') :
    ((inputRows findings vulnerabilityChecks).filter Row.isConfirmed).Perm
      ((inputRows findings' vulnerabilityChecks').filter Row.isConfirmed) :=
  ((hchecks.perm.map _).append (hfindings.perm.map _)).filter _

/-- Confirmed items in another order give another score only if one of them does not count. -/
theorem score_reordered {findings findings' : List Finding}
    {vulnerabilityChecks vulnerabilityChecks' : List VulnCheck}
    (hsame : ((inputRows findings vulnerabilityChecks).filter Row.isConfirmed).Perm
      ((inputRows findings' vulnerabilityChecks').filter Row.isConfirmed))
    (hcounts : EachCounts (inputRows findings vulnerabilityChecks)) :
    calculateStrictScore (separateResults findings' vulnerabilityChecks') =
        calculateStrictScore (separateResults findings vulnerabilityChecks) ↔
      EachCounts (inputRows findings' vulnerabilityChecks') := by
  rw [(score_eq_confirmedInputs findings vulnerabilityChecks).mpr hcounts,
    weights_confirmedInputs hsame]
  exact score_eq_confirmedInputs findings' vulnerabilityChecks'

/-- Confirmed lists that differ in their order have one score. -/
theorem score_perm {separated separated' : Separated}
    (h : separated.confirmedVulnerabilities.Perm separated'.confirmedVulnerabilities) :
    calculateStrictScore separated = calculateStrictScore separated' := by
  unfold calculateStrictScore
  rw [(h.map _).sum_eq]
  have hnil : separated.confirmedVulnerabilities = [] ↔
      separated'.confirmedVulnerabilities = [] := by
    rw [← List.length_eq_zero_iff, h.length_eq, List.length_eq_zero_iff]
  simp only [hnil]

/-- Score and risk are functions of the number of critical and of high items that are confirmed,
and the risk grows with both numbers. They do not depend on the order of the confirmed list; on the
order of the confirmed items in the inputs they depend as far as not each of these counts. -/
theorem verdict_of_counts (findings : List Finding) (vulnerabilityChecks : List VulnCheck) :
    let inputs := inputRows findings vulnerabilityChecks
    let out := separateResults findings vulnerabilityChecks
    let c := out.criticals
    let h := out.highs
    let score := calculateStrictScore out
    let risk := riskFromScore score
    (∀ item ∈ out.confirmedVulnerabilities,
      upper item.severity = "CRITICAL" ∨ upper item.severity = "HIGH") ∧
    score = min 100 (45 * c + 30 * h) ∧
    (risk = "LOW" ↔ out.confirmedVulnerabilities = []) ∧
    (risk = "MEDIUM" ↔ c = 0 ∧ h = 1) ∧
    (risk = "HIGH" ↔ (c = 1 ∧ h = 0) ∨ (c = 0 ∧ h = 2)) ∧
    (risk = "CRITICAL" ↔ ¬ (out.confirmedVulnerabilities = [] ∨ (c = 0 ∧ h = 1) ∨
      (c = 1 ∧ h = 0) ∨ (c = 0 ∧ h = 2))) ∧
    (score = min 100 (weights (confirmedInputs inputs)) ↔ EachCounts inputs) ∧
    ∀ findings' vulnerabilityChecks',
      let inputs' := inputRows findings' vulnerabilityChecks'
      let out' := separateResults findings' vulnerabilityChecks'
      (c ≤ out'.criticals → h ≤ out'.highs →
        riskRank risk ≤ riskRank (riskFromScore (calculateStrictScore out'))) ∧
      (out.confirmedVulnerabilities.Perm out'.confirmedVulnerabilities →
        calculateStrictScore out' = score) ∧
      ((inputs.filter Row.isConfirmed).Perm (inputs'.filter Row.isConfirmed) →
        weights (confirmedInputs inputs) = weights (confirmedInputs inputs') ∧
          (EachCounts inputs → (calculateStrictScore out' = score ↔ EachCounts inputs'))) := by
  intro inputs out c h score risk
  have hscore : score = min 100 (45 * c + 30 * h) :=
    Separated.score_eq fun _ => confirmed_severity
  have hnil : out.confirmedVulnerabilities = [] ↔ c = 0 ∧ h = 0 :=
    Separated.confirmed_eq_nil_iff fun _ => confirmed_severity
  refine ⟨fun _ => confirmed_severity, hscore, ?_, ?_, ?_, ?_,
    score_eq_confirmedInputs findings vulnerabilityChecks, fun findings' checks' => ⟨?_, ?_, ?_⟩⟩
  · rw [riskFromScore_low, hscore, hnil]
    omega
  · rw [riskFromScore_medium, hscore]
    omega
  · rw [riskFromScore_high, hscore]
    omega
  · rw [riskFromScore_critical, hscore, hnil]
    omega
  · intro hc hh
    refine riskRank_mono ?_
    rw [hscore, Separated.score_eq fun _ => confirmed_severity]
    omega
  · exact fun hperm => (score_perm hperm).symm
  · exact fun hsame => ⟨weights_confirmedInputs hsame, score_reordered hsame⟩

/-- A check of the given name that shows a database error. -/
def databaseError (name confidence : String) : VulnCheck where
  name := some name
  severity := some "HIGH"
  evidence := some "id"
  confidence := some confidence
  evidenceType := some "database_error_pattern"

omit [UnicodeTables] in
/-- Of two confirmed checks both count while the one with a weaker duplicate comes before it. -/
theorem order_changes_score : ¬ ∀ (_ : UnicodeTables) (findings : List Finding)
    (vulnerabilityChecks vulnerabilityChecks' : List VulnCheck),
    Reordered (fun item => item.row.isConfirmed) vulnerabilityChecks vulnerabilityChecks' →
      calculateStrictScore (separateResults findings vulnerabilityChecks) =
        calculateStrictScore (separateResults findings vulnerabilityChecks') := by
  intro h
  let _ := asciiTables
  have heq := h asciiTables []
    [databaseError "SQL Error Pattern" "HIGH", databaseError "SQL Error Pattern" "LOW",
      databaseError "SQL Timing" "HIGH"]
    [databaseError "SQL Timing" "HIGH", databaseError "SQL Error Pattern" "LOW",
      databaseError "SQL Error Pattern" "HIGH"] ⟨by decide, by decide⟩
  exact absurd heq (by decide)

/-! ## One item more -/

/-- An item added to one of the two lists, between the items before and those after it. -/
inductive Addition where
  | finding (before : List Finding) (item : Finding) (after : List Finding)
    (vulnerabilityChecks : List VulnCheck)
  | check (findings : List Finding) (before : List VulnCheck) (item : VulnCheck)
    (after : List VulnCheck)

namespace Addition

omit [UnicodeTables] in
/-- The findings and checks without the item. -/
def without : Addition → List Finding × List VulnCheck
  | finding before _ after vulnerabilityChecks => (before ++ after, vulnerabilityChecks)
  | check findings before _ after => (findings, before ++ after)

omit [UnicodeTables] in
/-- The findings and checks with the item. -/
def added : Addition → List Finding × List VulnCheck
  | finding before item after vulnerabilityChecks => (before ++ item :: after, vulnerabilityChecks)
  | check findings before item after => (findings, before ++ item :: after)

/-- The item in the combined list. -/
def row : Addition → Row
  | finding _ item _ _ => item.row
  | check _ _ item _ => item.row

/-- What comes before it in the combined list. -/
def earlier : Addition → List Row
  | finding before _ _ vulnerabilityChecks =>
    vulnerabilityChecks.map VulnCheck.row ++ before.map Finding.row
  | check _ before _ _ => before.map VulnCheck.row

/-- What comes after it in the combined list. -/
def later : Addition → List Row
  | finding _ _ after _ => after.map Finding.row
  | check findings _ _ after => after.map VulnCheck.row ++ findings.map Finding.row

/-- The score of findings and checks. -/
def scoreOf (lists : List Finding × List VulnCheck) : Nat :=
  calculateStrictScore (separateResults lists.1 lists.2)

/-- The confirmed items that differ from the added one in title, severity or evidence. -/
def otherConfirmed (a : Addition) : List Row :=
  ((distinctBy Row.key (a.earlier ++ a.later)).filter Row.isConfirmed).filter fun item =>
    item.key ≠ a.row.key

/-- The added item is not confirmed, it comes before every item of its title, severity and
evidence, the first of which was confirmed, and the rest does not reach the cap without it. -/
structure Hides (a : Addition) : Prop where
  first : ∀ item ∈ a.earlier, item.key ≠ a.row.key
  weak : ¬ a.row.isConfirmed
  strong : ∃ item, (a.later.find? fun item => item.key = a.row.key) = some item ∧
    item.isConfirmed
  uncapped : (a.otherConfirmed.map fun item => confirmedWeight (upper item.severity)).sum < 100

theorem scoreOf_without (a : Addition) :
    scoreOf a.without =
      min ((distinctBy Row.key (a.earlier ++ a.later)).map Row.strictWeight).sum 100 := by
  rw [scoreOf, calculateStrictScore_eq, combinedRows]
  cases a <;> simp only [without, earlier, later, List.map_append, List.append_assoc]

theorem scoreOf_added (a : Addition) :
    scoreOf a.added =
      min ((distinctBy Row.key (a.earlier ++ a.row :: a.later)).map Row.strictWeight).sum 100 := by
  rw [scoreOf, calculateStrictScore_eq, combinedRows]
  cases a <;> simp only [added, row, earlier, later, List.map_append, List.map_cons,
    List.append_assoc, List.cons_append]

theorem sum_otherConfirmed (a : Addition) :
    (a.otherConfirmed.map fun item => confirmedWeight (upper item.severity)).sum =
      (((distinctBy Row.key (a.earlier ++ a.later)).filter fun item =>
        item.key ≠ a.row.key).map Row.strictWeight).sum := by
  rw [otherConfirmed, List.filter_filter, ← sum_confirmedWeight, List.filter_filter]
  simp only [Bool.and_comm]

/-- An item that repeats an earlier title, severity and evidence changes nothing. -/
theorem scoreOf_old {a : Addition} (h : ∃ item ∈ a.earlier, item.key = a.row.key) :
    scoreOf a.added = scoreOf a.without := by
  rw [scoreOf_added, scoreOf_without, distinctBy, distinctFrom_insert_old _ _ (.inr h), distinctBy]

/-- An item that comes first takes the place of the first later one of its key. -/
theorem scoreOf_new {a : Addition} (h : ∀ item ∈ a.earlier, item.key ≠ a.row.key) :
    scoreOf a.added = min (a.row.strictWeight +
        (a.otherConfirmed.map fun item => confirmedWeight (upper item.severity)).sum) 100 ∧
      scoreOf a.without = min (((a.later.find? fun item => item.key = a.row.key).map
          Row.strictWeight).getD 0 +
        (a.otherConfirmed.map fun item => confirmedWeight (upper item.severity)).sum) 100 := by
  have hinsert := distinctFrom_insert_new a.earlier a.later List.not_mem_nil h
  have hearlier : (a.earlier.find? fun item => item.key = a.row.key) = none :=
    List.find?_eq_none.mpr fun item hitem => by simpa using h item hitem
  constructor
  · rw [scoreOf_added, sum_otherConfirmed, distinctBy, (hinsert.map _).sum_eq, List.map_cons,
      List.sum_cons]
    rfl
  · rw [scoreOf_without, sum_otherConfirmed, sum_distinctBy_split Row.strictWeight a.row.key,
      List.find?_append, hearlier, Option.none_or]

/-- The first later item of the key weighs no more than the added one, if that is confirmed. -/
theorem later_le_of_confirmed {a : Addition} (h : a.row.isConfirmed) :
    ((a.later.find? fun item => item.key = a.row.key).map Row.strictWeight).getD 0 ≤
      a.row.strictWeight := by
  cases hfirst : a.later.find? fun item => item.key = a.row.key with
  | none => exact Nat.zero_le _
  | some item =>
    have hkey : item.key = a.row.key := by simpa using List.find?_some hfirst
    by_cases hitem : item.isConfirmed
    · exact (Row.strictWeight_eq hkey hitem h).le
    · exact (Row.strictWeight_of_not_confirmed hitem).trans_le (Nat.zero_le _)

/-- The score does not fall when an item is added, unless the item hides a confirmed one. -/
theorem score_grows_iff (a : Addition) : scoreOf a.without ≤ scoreOf a.added ↔ ¬ a.Hides := by
  by_cases hfirst : ∀ item ∈ a.earlier, item.key ≠ a.row.key
  case neg =>
    have hold : ∃ item ∈ a.earlier, item.key = a.row.key := by simpa using hfirst
    exact iff_of_true (scoreOf_old hold).ge fun h => hfirst h.first
  obtain ⟨hadded, hwithout⟩ := scoreOf_new hfirst
  by_cases hweak : a.row.isConfirmed
  · refine iff_of_true ?_ fun h => h.weak hweak
    have hle := later_le_of_confirmed hweak
    omega
  rw [hadded, hwithout, Row.strictWeight_of_not_confirmed hweak]
  cases hlater : a.later.find? fun item => item.key = a.row.key with
  | none =>
    refine iff_of_true le_rfl fun h => ?_
    obtain ⟨item, hitem, _⟩ := h.strong
    exact absurd (hitem.symm.trans hlater) (Option.some_ne_none item)
  | some item =>
    by_cases hstrong : item.isConfirmed
    · have hweight := Row.le_strictWeight hstrong
      simp only [Option.map_some, Option.getD_some]
      constructor
      · intro hle h
        have hlt := h.uncapped
        omega
      · intro h
        have hcapped : ¬ _ < 100 := fun hlt => h ⟨hfirst, hweak, ⟨item, hlater, hstrong⟩, hlt⟩
        omega
    · refine iff_of_true ?_ fun h => ?_
      · rw [Option.map_some, Option.getD_some, Row.strictWeight_of_not_confirmed hstrong]
      · obtain ⟨other, hother, hconfirmed⟩ := h.strong
        rw [hlater, Option.some.injEq] at hother
        exact hstrong (hother ▸ hconfirmed)

end Addition

omit [UnicodeTables] in
omit [UnicodeTables] in
/-- A confirmed database error counts 30, and nothing once a weaker check of the same title,
severity and evidence comes before it. -/
theorem weaker_duplicate_lowers_score : ¬ ∀ (_ : UnicodeTables) (a : Addition),
    Addition.scoreOf a.without ≤ Addition.scoreOf a.added := by
  intro h
  let _ := asciiTables
  have hle := h asciiTables (.check [] [] (databaseError "SQL Error Pattern" "LOW")
    [databaseError "SQL Error Pattern" "HIGH"])
  exact absurd hle (by decide)

end ThreatScanner.Analyzer
