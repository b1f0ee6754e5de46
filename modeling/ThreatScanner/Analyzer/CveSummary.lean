import ThreatScanner.Analyzer.CveLookup
import ThreatScanner.Library.Rounding

/-!
# The summary of the CVEs

`build_cve_intelligence_summary` counts the critical and the high CVEs by the name of the severity
or by the score. The two ranges of the score do not meet, nor do the two names, but a name and a
score may: a CVSS v2 score of 9 or more is named HIGH.
-/

namespace ThreatScanner

namespace Json

/-- From here on an integer would be rounded to 2 ^ 1024. -/
def doubleBound : Nat := 2 ^ 1024 - 2 ^ 970

/-- `float(x)` of a value that is no string. -/
def toFloat (x : Json) : Except PyError ℚ :=
  match x with
  | bool b => .ok (if b then 1 else 0)
  | int n =>
    if doubleBound ≤ n.natAbs then .error ⟨"int too large to convert to float"⟩
    else .ok (n.sign * Rounding.roundToBits 53 (n.natAbs : ℚ))
  | real q => .ok q
  | x => .error ⟨"float() argument must be a string or a real number, not '" ++ x.typeName ++ "'"⟩

theorem orElse_self_orElse (x y : Json) : (x.orElse x).orElse y = x.orElse y := by
  simp only [orElse, ite_self]

theorem doubleBound_pos : 0 < doubleBound := by
  have hpow {m n : ℕ} (h : m < n) : 0 < 2 ^ n - 2 ^ m :=
    Nat.sub_pos_of_lt (Nat.pow_lt_pow_right Nat.one_lt_two h)
  exact hpow (by decide)

/-- Among the numbers only an integer can be too large. -/
theorem toFloat_raises_iff {x : Json} (h : x.number?.isSome = true) :
    (∃ e, x.toFloat = .error e) ↔ ∃ n : Int, x = .int n ∧ doubleBound ≤ n.natAbs := by
  cases x with
  | int n =>
    simp only [toFloat, int.injEq, exists_eq_left']
    split
    · next hlarge => exact iff_of_true ⟨_, rfl⟩ hlarge
    · next hsmall => exact iff_of_false nofun hsmall
  | bool | real => exact iff_of_false nofun nofun
  | null | str | arr | obj => cases h

end Json

namespace Analyzer

variable [UnicodeTables] [JsonText]

/-- A record that `fetch_cves_for_keyword` has built. -/
structure FetchedCve extends CveRecord where
  fetched : ∃ item, cveRecord item = .ok toCveRecord

/-- The records found for one technology. -/
structure FetchedGroup where
  technology : String
  cves : List FetchedCve

/-- An entry of `all_cves`. -/
structure EnrichedCve where
  technology : String
  cve : FetchedCve

/-- `all_cves`. -/
def allCves (cveResults : List FetchedGroup) : List EnrichedCve :=
  cveResults.flatMap fun group => group.cves.map fun cve => ⟨group.technology, cve⟩

/-- `score_key`. -/
def scoreKey (c : EnrichedCve) : Except PyError ℚ :=
  ((c.cve.score.orElse c.cve.cvss.score).orElse (.int 0)).toFloat

/-- `str(c.get("severity", "")).upper() == name`. -/
def named (name : String) (c : EnrichedCve) : Bool := upper (JsonText.text c.cve.severity) = name

/-- The test of `critical`. -/
def isCritical (c : EnrichedCve × ℚ) : Bool := named "CRITICAL" c.1 || 9 ≤ c.2

/-- The test of `high`. -/
def isHigh (c : EnrichedCve × ℚ) : Bool := named "HIGH" c.1 || (7 ≤ c.2 && c.2 < 9)

/-- The test of `public_exploits`. -/
def hasPublicExploit (c : EnrichedCve) : Bool :=
  c.cve.intelligence.exploitIntelligence.publicExploitIndicators

/-- The test of `rce`. -/
def isRce (c : EnrichedCve) : Bool :=
  c.cve.intelligence.attackTypes.contains "Remote Code Execution"

/-- The order of `top`: public exploits first, then the higher score. A CVE that equals one with
public exploits has them too. -/
def outranks (c d : EnrichedCve × ℚ) : Bool :=
  (hasPublicExploit c.1 && !hasPublicExploit d.1) ||
    (hasPublicExploit c.1 == hasPublicExploit d.1 && d.2 ≤ c.2)

structure CveSummary where
  totalCves : Nat
  criticalCount : Nat
  highCount : Nat
  publicExploitIndicatorsCount : Nat
  rceCount : Nat
  topPriority : List EnrichedCve
  note : String

/-- The summary of `all_cves` with their scores. -/
def cveSummary (scored : List (EnrichedCve × ℚ)) : CveSummary where
  totalCves := scored.length
  criticalCount := scored.countP isCritical
  highCount := scored.countP isHigh
  publicExploitIndicatorsCount := scored.countP fun c => hasPublicExploit c.1
  rceCount := scored.countP fun c => isRce c.1
  topPriority := ((scored.mergeSort outranks).take 10).map Prod.fst
  note := "CVE intelligence is advisory unless exact product/version is confirmed by service " ++
    "fingerprinting."

/-- `build_cve_intelligence_summary`. -/
def buildCveIntelligenceSummary (cveResults : List FetchedGroup) : Except PyError CveSummary := do
  let scored ← (allCves cveResults).mapM fun c => do let score ← scoreKey c; .ok (c, score)
  .ok (cveSummary scored)

/-! ## The buckets -/

/-- No CVE is counted both as critical and as high, the two counts stay within the total, and the
total is that of the groups. -/
structure BucketsApart (cveResults : List FetchedGroup) (summary : CveSummary) : Prop where
  apart : ∀ c ∈ allCves cveResults, ∀ score, scoreKey c = .ok score →
    ¬ (isCritical (c, score) = true ∧ isHigh (c, score) = true)
  sum : summary.criticalCount + summary.highCount ≤ summary.totalCves
  total : summary.totalCves = (cveResults.map fun group => group.cves.length).sum

/-- The name of the severity and the score fall into the two buckets. -/
def Straddles (c : EnrichedCve) (score : ℚ) : Prop :=
  (named "CRITICAL" c = true ∧ 7 ≤ score ∧ score < 9) ∨ (named "HIGH" c = true ∧ 9 ≤ score)

variable {cveResults : List FetchedGroup} {summary : CveSummary} {c : EnrichedCve} {score : ℚ}

theorem critical_and_high_iff :
    isCritical (c, score) = true ∧ isHigh (c, score) = true ↔ Straddles c score := by
  have hname : ¬ (named "CRITICAL" c = true ∧ named "HIGH" c = true) := by
    simp only [named, decide_eq_true_eq]
    rintro ⟨hcritical, hhigh⟩
    exact absurd (hcritical.symm.trans hhigh) (by decide)
  have hscore : ¬ (9 ≤ score ∧ score < 9) := fun h => not_lt.mpr h.1 h.2
  simp only [isCritical, isHigh, Straddles, Bool.or_eq_true, Bool.and_eq_true, decide_eq_true_eq]
  tauto

theorem length_allCves :
    (allCves cveResults).length = (cveResults.map fun group => group.cves.length).sum := by
  simp only [allCves, List.length_flatMap, List.length_map]

/-- What is returned counts every CVE, with its score. -/
theorem buildCveIntelligenceSummary_eq_ok :
    buildCveIntelligenceSummary cveResults = .ok summary ↔
      ∃ scored : List (EnrichedCve × ℚ), scored.map Prod.fst = allCves cveResults ∧
        (∀ e ∈ scored, scoreKey e.1 = .ok e.2) ∧ cveSummary scored = summary := by
  simp only [buildCveIntelligenceSummary, bind_eq_ok, mapM_pair_eq_ok, Except.ok.injEq, and_assoc]

omit [UnicodeTables] [JsonText] in
theorem countP_add_le_length {α : Type} {p q : α → Bool} {l : List α}
    (h : ∀ a ∈ l, ¬ (p a = true ∧ q a = true)) : l.countP p + l.countP q ≤ l.length := by
  have hle : l.countP p ≤ l.countP fun a => ¬ q a :=
    List.countP_mono_left fun a ha hp => by simpa [hp] using h a ha
  have hlen : l.length = l.countP q + l.countP fun a => ¬ q a :=
    List.length_eq_countP_add_countP q
  omega

/-- The buckets of a summary do not overlap exactly when no CVE has a name and a score of both. -/
theorem bucketsApart_iff (h : buildCveIntelligenceSummary cveResults = .ok summary) :
    BucketsApart cveResults summary ↔
      ∀ c ∈ allCves cveResults, ∀ score, scoreKey c = .ok score → ¬ Straddles c score := by
  obtain ⟨scored, hfst, hscore, rfl⟩ := buildCveIntelligenceSummary_eq_ok.mp h
  constructor
  · intro hbuckets c hc score hkey hstraddles
    exact hbuckets.apart c hc score hkey (critical_and_high_iff.mpr hstraddles)
  · intro hnone
    refine ⟨fun c hc score hkey hboth => ?_, countP_add_le_length fun e he hboth => ?_, ?_⟩
    · exact hnone c hc score hkey (critical_and_high_iff.mp hboth)
    · have hmem : e.1 ∈ allCves cveResults := hfst ▸ List.mem_map_of_mem he
      exact hnone e.1 hmem e.2 (hscore e he) (critical_and_high_iff.mp hboth)
    · rw [← length_allCves, ← hfst, List.length_map]
      rfl

/-! ## The scores of fetched records -/

/-- The score is an integer that no double is near to. -/
def ScoreTooLarge (c : EnrichedCve) : Prop :=
  ∃ n : Int, c.cve.score = .int n ∧ Json.doubleBound ≤ n.natAbs

omit [UnicodeTables] [JsonText] in
/-- Only `None` and numbers can be compared. -/
theorem number_of_reaches {score : Json} {n : Int} {b : Bool} (h : reaches score n = .ok b) :
    score = .null ∨ score.number?.isSome = true := by
  cases score with
  | null => exact .inl rfl
  | bool | int | real => exact .inr rfl
  | str | arr | obj => cases h

theorem score_of_cveRecord {item : Json} {record : CveRecord} (h : cveRecord item = .ok record) :
    record.score = record.cvss.score ∧
      (record.score = .null ∨ record.score.number?.isSome = true) := by
  simp only [cveRecord, buildCveIntelligence, exposureRisk, bind_eq_ok] at h
  obtain ⟨_, -, _, -, _, -, _, -, _, -, _, -, _, -, _, -, cvss, -, _, -, _, -, _,
    ⟨_, -, _, -, _, -, _, ⟨reached, hreached, -⟩, -⟩, _, -, hrecord⟩ := h
  cases hrecord
  exact ⟨rfl, number_of_reaches hreached⟩

theorem scoreKey_raises_iff : (∃ e, scoreKey c = .error e) ↔ ScoreTooLarge c := by
  obtain ⟨item, hitem⟩ := c.cve.fetched
  obtain ⟨hsame, hnumber⟩ := score_of_cveRecord hitem
  rw [scoreKey, ScoreTooLarge, ← hsame, Json.orElse_self_orElse]
  cases htruthy : c.cve.score.truthy with
  | true =>
    rw [Json.orElse, if_pos htruthy]
    refine Json.toFloat_raises_iff (hnumber.resolve_left fun hnull => ?_)
    rw [hnull] at htruthy
    cases htruthy
  | false =>
    rw [Json.orElse, htruthy, if_neg Bool.false_ne_true, Json.toFloat_raises_iff rfl]
    refine iff_of_false ?_ ?_
    · rintro ⟨n, hn, hlarge⟩
      cases hn
      exact absurd hlarge (Nat.not_le.mpr Json.doubleBound_pos)
    · rintro ⟨n, hn, hlarge⟩
      rw [hn, Json.truthy, bne_eq_false_iff_eq] at htruthy
      rw [htruthy] at hlarge
      exact absurd hlarge (Nat.not_le.mpr Json.doubleBound_pos)

/-- A summary is returned exactly when no score raises. -/
theorem buildCveIntelligenceSummary_returns_iff :
    (∃ summary, buildCveIntelligenceSummary cveResults = .ok summary) ↔
      ∀ c ∈ allCves cveResults, ¬ ScoreTooLarge c := by
  have hloop : ∀ c : EnrichedCve, ¬ ScoreTooLarge c ↔ ∃ e : EnrichedCve × ℚ,
      (do let score ← scoreKey c; .ok (c, score)) = (.ok e : Except PyError _) := by
    intro c
    rw [← scoreKey_raises_iff]
    cases scoreKey c with
    | error e =>
      refine iff_of_false (not_not_intro ⟨e, rfl⟩) ?_
      rintro ⟨_, h⟩
      cases h
    | ok score => exact iff_of_true nofun ⟨_, rfl⟩
  rw [forall₂_congr fun c _ => hloop c, ← exists_mapM_eq_ok]
  constructor
  · rintro ⟨summary, hsummary⟩
    obtain ⟨scored, hscored, -⟩ := bind_eq_ok.mp hsummary
    exact ⟨scored, hscored⟩
  · rintro ⟨scored, hscored⟩
    exact ⟨cveSummary scored, bind_eq_ok.mpr ⟨scored, hscored, rfl⟩⟩

/-- The summary that is returned counts no CVE twice exactly when no CVE straddles the buckets. An
integer score beyond the doubles makes the function raise. -/
theorem cve_buckets_apart_iff (cveResults : List FetchedGroup) :
    Returns (BucketsApart cveResults) (buildCveIntelligenceSummary cveResults) ↔
      (∃ c ∈ allCves cveResults, ScoreTooLarge c) ∨
        ∀ c ∈ allCves cveResults, ∀ score, scoreKey c = .ok score → ¬ Straddles c score := by
  by_cases hlarge : ∃ c ∈ allCves cveResults, ScoreTooLarge c
  · refine iff_of_true (fun summary hsummary => ?_) (.inl hlarge)
    obtain ⟨c, hc, hscore⟩ := hlarge
    exact absurd hscore (buildCveIntelligenceSummary_returns_iff.mp ⟨summary, hsummary⟩ c hc)
  · rw [or_iff_right hlarge]
    obtain ⟨summary, hsummary⟩ := buildCveIntelligenceSummary_returns_iff.mpr fun c hc hscore =>
      hlarge ⟨c, hc, hscore⟩
    rw [← bucketsApart_iff hsummary, hsummary]
    exact ⟨fun h => h summary rfl, returns_ok⟩

/-- A vulnerability with a CVSS v2 score, in a format from which the lookup makes a record. -/
def shellshock : Json :=
  .obj [("cve", .obj [("id", .str "CVE-2014-6271"), ("descriptions", .arr []),
    ("metrics", .obj [("cvssMetricV2", .arr [.obj [("cvssData", .obj [("version", .str "2.0"),
      ("baseScore", .real 10)]), ("baseSeverity", .str "HIGH")]])])])]

omit [UnicodeTables] [JsonText] in
/-- A CVSS v2 score of 10 is named HIGH and counted in both buckets. -/
theorem v2_score_in_both_buckets : ¬ ∀ (_ : UnicodeTables) (_ : JsonText)
    (cveResults : List FetchedGroup),
    Returns (BucketsApart cveResults) (buildCveIntelligenceSummary cveResults) := by
  intro h
  let _ := asciiTables
  let _ := stringText
  obtain ⟨record, hrecord, hsev, hscore⟩ : ∃ record, cveRecord shellshock = .ok record ∧
      record.severity = .str "HIGH" ∧ record.score = .real 10 := ⟨_, rfl, rfl, rfl⟩
  let cve : FetchedCve := ⟨record, shellshock, hrecord⟩
  let groups : List FetchedGroup := [⟨"Bash", [cve]⟩]
  have hkey : scoreKey ⟨"Bash", cve⟩ = .ok 10 := by
    have hvalue : (Json.real 10).truthy = true := by decide
    rw [scoreKey, show cve.score = .real 10 from hscore, Json.orElse, Json.orElse, if_pos hvalue,
      if_pos hvalue]
    rfl
  obtain ⟨summary, hsummary⟩ : ∃ summary, buildCveIntelligenceSummary groups = .ok summary := by
    refine buildCveIntelligenceSummary_returns_iff.mpr fun c hc hlarge => ?_
    obtain ⟨n, hn, -⟩ := hlarge
    cases List.mem_singleton.mp hc
    cases hn.symm.trans hscore
  have hnone := (bucketsApart_iff hsummary).mp (h _ _ groups summary hsummary)
  refine hnone ⟨"Bash", cve⟩ List.mem_cons_self 10 hkey (.inr ⟨?_, by norm_num⟩)
  rw [named, show cve.severity = .str "HIGH" from hsev]
  decide

end Analyzer

end ThreatScanner
