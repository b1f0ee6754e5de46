import ThreatScanner.Analyzer.Quiet

/-!
# What the verdict depends on

The confirmed rows of a scan are those of the three sections that are not quiet. So two scans that
agree on what these three detectors report get the same score and the same risk.
-/

namespace ThreatScanner.Analyzer

open Section

variable [UnicodeTables]

/-- The items of the three detectors with a say in the verdict. -/
def verdictSection (jsSecrets : List JsSecret) (advancedExposures : List Exposure)
    (graphqlIntrospection : Option GraphqlIntrospection) : Section :=
  jsSecretSection jsSecrets ++ exposureSection advancedExposures ++
    graphqlSection graphqlIntrospection

/-! ## Their titles -/

/-- Everything that the section adds bears a title that `p` selects. -/
def Section.Titled (p : Option String → Bool) (s : Section) : Prop :=
  s.All (fun f => p f.title = true) fun c => p c.name = true

section Titles
variable {p : Option String → Bool}

omit [UnicodeTables] in
theorem titled_jsSecret (jsSecrets : List JsSecret)
    (h : ∀ type : String, p (some (secretTitle type)) = true) :
    (jsSecretSection jsSecrets).Titled p :=
  (all_ite (fun _ => all_note _) fun _ => all_empty).append (all_forEach fun secret _ =>
    ⟨List.forall_mem_singleton.mpr (h secret.type), List.forall_mem_singleton.mpr (h secret.type)⟩)

omit [UnicodeTables] in
theorem titled_exposureItems (e : Exposure) :
    (exposureItems e).All (fun f => f.title = some (exposureTitle e.type))
      fun c => c.name = some (exposureTitle e.type) :=
  all_ite (fun _ => ⟨List.forall_mem_singleton.mpr rfl, List.forall_mem_nil _⟩) fun _ =>
    All.append ⟨List.forall_mem_singleton.mpr rfl, List.forall_mem_nil _⟩
      (all_ite (fun _ => ⟨List.forall_mem_nil _, List.forall_mem_singleton.mpr rfl⟩)
        fun _ => all_empty)

omit [UnicodeTables] in
theorem titled_exposure (exposures : List Exposure)
    (h : ∀ e ∈ exposures, p (some (exposureTitle e.type)) = true) :
    (exposureSection exposures).Titled p := by
  refine all_forEach fun e he => ⟨fun f hf => ?_, fun c hc => ?_⟩
  · exact (congrArg p ((titled_exposureItems e).1 f hf)).trans (h e he)
  · exact (congrArg p ((titled_exposureItems e).2 c hc)).trans (h e he)

omit [UnicodeTables] in
theorem titled_graphql (result : Option GraphqlIntrospection)
    (hcheck : p (some "GraphQL Introspection Check") = true)
    (henabled : p (some "GraphQL Introspection Enabled") = true) :
    (graphqlSection result).Titled p := by
  cases result with
  | none => exact all_empty
  | some result =>
    refine All.append ⟨List.forall_mem_singleton.mpr hcheck, List.forall_mem_nil _⟩
      (all_ite (fun _ => ?_) fun _ => all_empty)
    exact ⟨List.forall_mem_nil _, List.forall_mem_singleton.mpr henabled⟩

omit [UnicodeTables] in
theorem watched_secretTitle (type : String) : watched (some (secretTitle type)) = true := by
  rw [watched, startsWith_secretTitle, Bool.true_or, Bool.true_or]

end Titles

/-- Where a reported exposure comes from. -/
theorem exists_of_mem_advancedExposures {scan : Scan} {e : Exposure}
    (h : e ∈ scan.advancedExposures) : ∃ item ∈ advancedExposurePaths, ∃ res,
      scan.exposureResponses item = some res ∧ classifyExposureStatus res item = some e := by
  obtain ⟨item, hitem, h⟩ :=
    List.mem_filterMap.mp (mem_of_mem_distinctBy (Scan.found_of_advancedExposures h))
  obtain ⟨res, hres, h⟩ := Option.bind_eq_some_iff.mp h
  exact ⟨item, hitem, res, hres, h⟩

/-- An exposure bears the path and type of its entry in the table. -/
theorem classifyExposureStatus_type {res : Response} {item : ExposurePath} {e : Exposure}
    (h : classifyExposureStatus res item = some e) : e.path = item.path ∧ e.type = item.type := by
  simp only [classifyExposureStatus] at h
  split_ifs at h <;> cases h <;> exact ⟨rfl, rfl⟩

theorem exposure_type {scan : Scan} {e : Exposure} (h : e ∈ scan.advancedExposures) :
    ∃ item ∈ advancedExposurePaths, e.type = item.type := by
  obtain ⟨item, hitem, res, _, hres⟩ := exists_of_mem_advancedExposures h
  exact ⟨item, hitem, (classifyExposureStatus_type hres).2⟩

variable [EntropyTest]

/-- The items of the scan's three detectors with a say in the verdict. -/
def Scan.verdictSection (scan : Scan) : Section :=
  Analyzer.verdictSection scan.jsSecrets scan.advancedExposures scan.graphqlIntrospection

theorem Scan.titled_jsSecrets (scan : Scan) :
    (jsSecretSection scan.jsSecrets).Titled watched :=
  titled_jsSecret _ watched_secretTitle

omit [EntropyTest] in
theorem Scan.titled_exposures (scan : Scan) :
    (exposureSection scan.advancedExposures).Titled watched := by
  refine titled_exposure _ fun e he => ?_
  obtain ⟨item, hitem, htype⟩ := exposure_type he
  simp only [watched, Bool.or_eq_true, List.any_eq_true, decide_eq_true_eq, htype]
  exact .inl (.inr ⟨item, hitem, rfl⟩)

omit [EntropyTest] in
theorem Scan.titled_graphql (scan : Scan) :
    (graphqlSection scan.graphqlIntrospection).Titled watched :=
  Analyzer.titled_graphql _ (by decide) (by decide)

/-! ## The confirmed rows -/

section Quiet
variable {s : Section}

omit [EntropyTest]

theorem Section.Quiet.filter_findings (h : s.Quiet) :
    (s.findings.filter fun f => watched f.title) = [] :=
  List.filter_eq_nil_iff.mpr fun f hf => by simp [(h.1 f hf).1]

theorem Section.Quiet.filter_checks (h : s.Quiet) :
    (s.vulnerabilityChecks.filter fun c => watched c.name) = [] :=
  List.filter_eq_nil_iff.mpr fun c hc => by simp [(h.2 c hc).1]

omit [UnicodeTables] in
theorem Section.Titled.filter_findings (h : s.Titled watched) :
    (s.findings.filter fun f => watched f.title) = s.findings :=
  List.filter_eq_self.mpr h.1

omit [UnicodeTables] in
theorem Section.Titled.filter_checks (h : s.Titled watched) :
    (s.vulnerabilityChecks.filter fun c => watched c.name) = s.vulnerabilityChecks :=
  List.filter_eq_self.mpr h.2

/-- What passes the strict rule is watched. -/
def Section.StrictWatched (s : Section) : Prop :=
  s.All (fun f => f.strict → watched f.title) fun c => c.strict → watched c.name

theorem Section.Quiet.strictWatched (h : s.Quiet) : s.StrictWatched :=
  ⟨fun f hf hstrict => by simp [(h.1 f hf).2] at hstrict,
    fun c hc hstrict => by simp [(h.2 c hc).2] at hstrict⟩

theorem Section.Titled.strictWatched (h : s.Titled watched) : s.StrictWatched :=
  ⟨fun f hf _ => h.1 f hf, fun c hc _ => h.2 c hc⟩

end Quiet

/-- The confirmed rows are those of the three detectors. -/
theorem confirmedRows_collected (scan : Scan) :
    confirmedRows scan.collected.findings scan.collected.vulnerabilityChecks =
      confirmedRows scan.verdictSection.findings scan.verdictSection.vulnerabilityChecks := by
  obtain ⟨a, b, c, ha, hb, hc, hcollected⟩ := collected_split scan
  have hjs := scan.titled_jsSecrets
  have hexp := scan.titled_exposures
  have hgraphql := scan.titled_graphql
  have hstrict : scan.collected.StrictWatched := by
    rw [hcollected]
    exact ((((ha.strictWatched.append hjs.strictWatched).append hb.strictWatched).append
      hexp.strictWatched).append hgraphql.strictWatched).append hc.strictWatched
  have hfindings : (scan.collected.findings.filter fun f => watched f.title) =
      scan.verdictSection.findings := by
    rw [hcollected]
    simp only [findings_append, List.filter_append, ha.filter_findings, hb.filter_findings,
      hc.filter_findings, hjs.filter_findings, hexp.filter_findings, hgraphql.filter_findings,
      List.nil_append, List.append_nil]
    rfl
  have hchecks : (scan.collected.vulnerabilityChecks.filter fun c => watched c.name) =
      scan.verdictSection.vulnerabilityChecks := by
    rw [hcollected]
    simp only [vulnerabilityChecks_append, List.filter_append, ha.filter_checks, hb.filter_checks,
      hc.filter_checks, hjs.filter_checks, hexp.filter_checks, hgraphql.filter_checks,
      List.nil_append, List.append_nil]
    rfl
  rw [confirmedRows_filter hstrict.1 hstrict.2, hfindings, hchecks]

/-- Two scans that agree on what the three detectors report get the same score and risk, whatever
the other detectors return; that the site answered in both or in neither is not even needed. -/
theorem verdict_of_three_detectors (s t : Scan) (hjs : s.jsSecrets = t.jsSecrets)
    (hexposures : s.advancedExposures = t.advancedExposures)
    (hgraphql : s.graphqlIntrospection = t.graphqlIntrospection) :
    (analyze s).score = (analyze t).score ∧ (analyze s).risk = (analyze t).risk := by
  have hsection : s.verdictSection = t.verdictSection := by
    simp only [Scan.verdictSection, hjs, hexposures, hgraphql]
  have hscore : (analyze s).score = (analyze t).score := by
    simp only [analyze, report_score, confirmedRows_collected, hsection]
  refine ⟨hscore, ?_⟩
  rw [analyze, analyze, report_risk, report_risk]
  exact congrArg riskFromScore hscore

/-- A GraphQL endpoint that answers an introspection query. -/
def introspectionResponse : Response where
  statusCode := 200
  text := "__schema querytype"
  url := "https://example.com/graphql"

/-- An HTTPS site with directory listings and an exposed path. -/
def listingSite : Scan where
  url := "https://example.com"
  ip := "93.184.216.34"
  response := some { statusCode := 200, text := "index of /", url := "https://example.com/" }
  graphqlResponse := some introspectionResponse
  exposedPaths := ["/admin"]

/-- A site that answers with an error over HTTP, with an open SSH port. -/
def failingSite : Scan where
  url := "http://example.org"
  ip := "93.184.216.34"
  response := some { statusCode := 500, text := "", url := "http://example.org/", scheme := "http" }
  graphqlResponse := some introspectionResponse
  openPorts := [{ port := 22, service := "SSH" }]

omit [UnicodeTables] [EntropyTest] in
theorem verdict_of_two_sites : letI := asciiTables; letI : EntropyTest := ⟨fun _ => false⟩
    (analyze listingSite).score = (analyze failingSite).score ∧
      (analyze listingSite).risk = (analyze failingSite).risk :=
  let _ := asciiTables
  let _ : EntropyTest := ⟨fun _ => false⟩
  verdict_of_three_detectors listingSite failingSite rfl rfl rfl

end ThreatScanner.Analyzer
