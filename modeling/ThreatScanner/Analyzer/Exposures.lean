import ThreatScanner.Analyzer.Confirmed

/-!
# How often an exposure is counted

An exposure that passes the strict rule is recorded as a finding and as a vulnerability check whose
evidence texts differ, and GraphQL introspection under two titles, so no deduplication merges the
pair: the confirmed list holds each of them twice.
-/

namespace ThreatScanner.Analyzer

open Section

variable [UnicodeTables]

/-- `is_confirmed_vulnerability` on an exposure. -/
def Exposure.strict (e : Exposure) : Bool :=
  isConfirmedVulnerability e.severity e.confidence e.evidenceType

/-- `is_confirmed_vulnerability` on the result of the introspection query. -/
def GraphqlIntrospection.strict (g : GraphqlIntrospection) : Bool :=
  isConfirmedVulnerability g.severity g.confidence g.evidenceType

/-- `is_confirmed_vulnerability` on a secret. -/
def JsSecret.strict (secret : JsSecret) : Bool :=
  isConfirmedVulnerability secret.severity secret.confidence secret.evidenceType

/-- The number of exposures that pass the strict rule, GraphQL introspection counted as one. -/
def Scan.strictDetections (scan : Scan) : Nat :=
  scan.advancedExposures.countP Exposure.strict +
    scan.graphqlIntrospection.toList.countP GraphqlIntrospection.strict

/-! ## Which exposures pass the strict rule -/

/-- The public OpenAPI schema. -/
structure Exposure.IsSchema (e : Exposure) : Prop where
  type : e.type = "OpenAPI Schema"
  severity : e.severity = "HIGH"
  status : e.status = "POSSIBLE"

/-- The one branch of `classify_exposure_status` with an evidence type that the strict rule
knows. -/
theorem classifyExposureStatus_evidence {res : Response} {item : ExposurePath} {e : Exposure}
    (h : classifyExposureStatus res item = some e) : ordinary e.evidenceType = true ∨
      endsWith item.path "openapi.json" = true ∧ e.severity = "HIGH" ∧ e.status = "POSSIBLE" := by
  simp only [classifyExposureStatus] at h
  split_ifs at h with _ _ hopenapi
  · cases h
    exact .inl (by dsimp only; decide)
  · cases h
    exact .inr ⟨hopenapi.1, rfl, rfl⟩
  all_goals
    cases h
    exact .inl (by dsimp only; decide)

theorem isSchema_of_strict {res : Response} {item : ExposurePath} {e : Exposure}
    (hitem : item ∈ advancedExposurePaths) (h : classifyExposureStatus res item = some e)
    (hstrict : e.strict = true) : e.IsSchema := by
  have hschema : ∀ item ∈ advancedExposurePaths, endsWith item.path "openapi.json" = true →
      item.type = "OpenAPI Schema" := by decide
  rcases classifyExposureStatus_evidence h with hordinary | ⟨hpath, hseverity, hstatus⟩
  · rw [Exposure.strict, not_confirmed_of_ordinary hordinary] at hstrict
    cases hstrict
  · exact ⟨(classifyExposureStatus_type h).2.trans (hschema item hitem hpath), hseverity, hstatus⟩

theorem schema_of_mem {scan : Scan} {e : Exposure} (h : e ∈ scan.advancedExposures)
    (hstrict : e.strict = true) : e.IsSchema := by
  obtain ⟨item, hitem, res, _, hres⟩ := exists_of_mem_advancedExposures h
  exact isSchema_of_strict hitem hres hstrict

/-- Only one probe is for a schema. -/
theorem eq_of_type_schema {scan : Scan} {e e' : Exposure} (h : e ∈ scan.advancedExposures)
    (h' : e' ∈ scan.advancedExposures) (htype : e.type = "OpenAPI Schema")
    (htype' : e'.type = "OpenAPI Schema") : e = e' := by
  have hitems : ∀ item ∈ advancedExposurePaths, ∀ item' ∈ advancedExposurePaths,
      item.type = "OpenAPI Schema" → item'.type = "OpenAPI Schema" → item = item' := by decide
  obtain ⟨item, hitem, res, hres, hclass⟩ := exists_of_mem_advancedExposures h
  obtain ⟨item', hitem', res', hres', hclass'⟩ := exists_of_mem_advancedExposures h'
  obtain rfl := hitems item hitem item' hitem'
    ((classifyExposureStatus_type hclass).2 ▸ htype)
    ((classifyExposureStatus_type hclass').2 ▸ htype')
  cases hres.symm.trans hres'
  exact Option.some.inj (hclass.symm.trans hclass')

theorem exposures_nodup (scan : Scan) : scan.advancedExposures.Nodup := by
  simp only [Scan.advancedExposures]
  split
  · exact distinctBy_keys_nodup.of_map _
  · exact List.nodup_nil

/-- At most one exposure passes the strict rule. -/
theorem strict_exposures (scan : Scan) :
    (scan.advancedExposures.filter Exposure.strict) = [] ∨
      ∃ e, scan.advancedExposures.filter Exposure.strict = [e] ∧ e.IsSchema := by
  cases hlist : scan.advancedExposures.filter Exposure.strict with
  | nil => exact .inl rfl
  | cons e rest =>
    have hmem : ∀ x ∈ e :: rest, x ∈ scan.advancedExposures ∧ x.strict = true := by
      intro x hx
      rw [← hlist] at hx
      exact List.mem_filter.mp hx
    have hschema : ∀ x ∈ e :: rest, x.IsSchema := fun x hx =>
      schema_of_mem (hmem x hx).1 (hmem x hx).2
    have hnodup : (e :: rest).Nodup := hlist ▸ (exposures_nodup scan).filter _
    refine .inr ⟨e, ?_, hschema e List.mem_cons_self⟩
    cases rest with
    | nil => rfl
    | cons e' rest =>
      have he' : e' ∈ e :: e' :: rest := by simp
      have heq : e = e' := eq_of_type_schema (hmem e List.mem_cons_self).1 (hmem e' he').1
        (hschema e List.mem_cons_self).type (hschema e' he').type
      exact absurd (heq ▸ List.mem_cons_self) (List.nodup_cons.mp hnodup).1

/-- An introspection result passes the strict rule when introspection is enabled. -/
theorem enabled_of_strict {scan : Scan} {g : GraphqlIntrospection}
    (h : scan.graphqlIntrospection = some g) (hstrict : g.strict = true) :
    g.enabled = true ∧ g.severity = "HIGH" := by
  obtain ⟨res, _, h⟩ := Option.bind_eq_some_iff.mp (Scan.found_of_graphqlIntrospection h)
  dsimp only at h
  split_ifs at h
  · cases h
    exact ⟨rfl, rfl⟩
  · cases h
    rw [GraphqlIntrospection.strict, not_confirmed_of_ordinary (by dsimp only; decide)] at hstrict
    cases hstrict

/-! ## What is confirmed besides the secrets -/

/-- The titles under which something passes the strict rule. -/
def Scan.strictTitle (scan : Scan) (title : Option String) : Bool :=
  (scan.advancedExposures.any fun e => e.strict && title == some (exposureTitle e.type)) ||
    scan.graphqlIntrospection.any GraphqlIntrospection.strict &&
      [some "GraphQL Introspection Check", some "GraphQL Introspection Enabled"].contains title

theorem strictTitle_cases {scan : Scan} {title : Option String}
    (h : scan.strictTitle title = true) : title ∈ [some "OpenAPI Schema Detected",
      some "GraphQL Introspection Check", some "GraphQL Introspection Enabled"] := by
  simp only [Scan.strictTitle, Bool.or_eq_true, List.any_eq_true, Bool.and_eq_true, beq_iff_eq] at h
  rcases h with ⟨e, he, hstrict, rfl⟩ | ⟨_, h⟩
  · rw [(schema_of_mem he hstrict).type]
    decide
  · exact List.mem_cons_of_mem _ (by simpa using h)

theorem not_strictTitle_secret (scan : Scan) (type : String) :
    scan.strictTitle (some (secretTitle type)) = false := by
  rw [Bool.eq_false_iff]
  intro h
  have hstart := startsWith_secretTitle type
  have hother : ∀ t ∈ ["OpenAPI Schema Detected", "GraphQL Introspection Check",
      "GraphQL Introspection Enabled"], startsWith t "JS Secret Exposure: " = false := by decide
  have hmem : secretTitle type ∈ ["OpenAPI Schema Detected", "GraphQL Introspection Check",
      "GraphQL Introspection Enabled"] := by simpa using strictTitle_cases h
  rw [hother _ hmem] at hstart
  cases hstart

omit [UnicodeTables] in
theorem exposureTitle_injective : Function.Injective exposureTitle := by
  intro type type' h
  exact (String.append_left_inj " Detected").mp h

theorem strictTitle_exposure {scan : Scan} {e : Exposure} (he : e ∈ scan.advancedExposures) :
    scan.strictTitle (some (exposureTitle e.type)) = e.strict := by
  rw [Bool.eq_iff_iff]
  constructor
  · intro h
    simp only [Scan.strictTitle, Bool.or_eq_true, List.any_eq_true, Bool.and_eq_true,
      beq_iff_eq, Option.some.injEq] at h
    rcases h with ⟨e', he', hstrict, htitle⟩ | ⟨_, htitle⟩
    · have htype : e.type = e'.type := exposureTitle_injective htitle
      have hschema := (schema_of_mem he' hstrict).type
      rwa [eq_of_type_schema he he' (htype.trans hschema) hschema]
    · obtain ⟨item, hitem, htype⟩ := exposure_type he
      have hother : ∀ item ∈ advancedExposurePaths, [some "GraphQL Introspection Check",
          some "GraphQL Introspection Enabled"].contains (some (exposureTitle item.type)) =
            false := by decide
      rw [htype, hother item hitem] at htitle
      cases htitle
  · intro h
    simp only [Scan.strictTitle, Bool.or_eq_true, List.any_eq_true, Bool.and_eq_true, beq_iff_eq]
    exact .inl ⟨e, he, h, rfl⟩

theorem strictTitle_graphql {scan : Scan} {g : GraphqlIntrospection} {title : Option String}
    (hg : scan.graphqlIntrospection = some g)
    (htitle : title ∈ [some "GraphQL Introspection Check", some "GraphQL Introspection Enabled"]) :
    scan.strictTitle title = g.strict := by
  have hno : scan.advancedExposures.any
      (fun e => e.strict && title == some (exposureTitle e.type)) = false := by
    rw [List.any_eq_false]
    intro e he h
    simp only [Bool.and_eq_true, beq_iff_eq] at h
    rw [h.2, (schema_of_mem he h.1).type] at htitle
    exact absurd htitle (by decide)
  have hcontains := List.contains_iff_mem.mpr htitle
  rw [Scan.strictTitle, hno, hg, hcontains, Option.any_some, Bool.and_true, Bool.false_or]

/-- The items of the schema and of the introspection, if they pass the strict rule. -/
def Scan.strictSection (scan : Scan) : Section :=
  exposureSection (scan.advancedExposures.filter Exposure.strict) ++
    graphqlSection (scan.graphqlIntrospection.filter GraphqlIntrospection.strict)

theorem strict_exposureItems (e : Exposure) :
    (exposureItems e).All (fun f => f.strict = true → e.strict = true)
      fun c => c.strict = true → e.strict = true := by
  refine all_ite (fun _ => ⟨List.forall_mem_singleton.mpr fun h => ?_, List.forall_mem_nil _⟩)
    fun _ => All.append ⟨List.forall_mem_singleton.mpr fun h => h, List.forall_mem_nil _⟩
      (all_ite (fun _ => ⟨List.forall_mem_nil _, List.forall_mem_singleton.mpr fun h => h⟩)
        fun _ => all_empty)
  rw [Finding.strict, Option.getD_some, not_confirmed_info] at h
  cases h

section Select
variable {scan : Scan}

theorem exposures_strictTitled : (exposureSection scan.advancedExposures).All
    (fun f => f.strict = true → scan.strictTitle f.title = true)
    fun c => c.strict = true → scan.strictTitle c.name = true := by
  refine all_forEach fun e he => ⟨fun f hf h => ?_, fun c hc h => ?_⟩
  · rw [(titled_exposureItems e).1 f hf, strictTitle_exposure he]
    exact (strict_exposureItems e).1 f hf h
  · rw [(titled_exposureItems e).2 c hc, strictTitle_exposure he]
    exact (strict_exposureItems e).2 c hc h

theorem filter_exposures_findings : ((exposureSection scan.advancedExposures).findings.filter
      fun f => scan.strictTitle f.title) =
    (exposureSection (scan.advancedExposures.filter Exposure.strict)).findings :=
  filter_flatMap fun e he f hf => by
    rw [(titled_exposureItems e).1 f hf, strictTitle_exposure he]

theorem filter_exposures_checks :
    ((exposureSection scan.advancedExposures).vulnerabilityChecks.filter
      fun c => scan.strictTitle c.name) =
    (exposureSection (scan.advancedExposures.filter Exposure.strict)).vulnerabilityChecks :=
  filter_flatMap fun e he c hc => by
    rw [(titled_exposureItems e).2 c hc, strictTitle_exposure he]

theorem graphql_strictTitled : (graphqlSection scan.graphqlIntrospection).All
    (fun f => f.strict = true → scan.strictTitle f.title = true)
    fun c => c.strict = true → scan.strictTitle c.name = true := by
  cases hg : scan.graphqlIntrospection with
  | none => exact all_empty
  | some g =>
    have hcheck : scan.strictTitle (some "GraphQL Introspection Check") = g.strict :=
      strictTitle_graphql hg (by decide)
    have henabled : scan.strictTitle (some "GraphQL Introspection Enabled") = g.strict :=
      strictTitle_graphql hg (by decide)
    refine All.append ⟨List.forall_mem_singleton.mpr hcheck.trans, List.forall_mem_nil _⟩
      (all_ite (fun _ => ?_) fun _ => all_empty)
    exact ⟨List.forall_mem_nil _, List.forall_mem_singleton.mpr henabled.trans⟩

omit [UnicodeTables] in
theorem titled_graphqlSection (result : Option GraphqlIntrospection) :
    (graphqlSection result).Titled fun title =>
      [some "GraphQL Introspection Check", some "GraphQL Introspection Enabled"].contains title :=
  titled_graphql result (by decide) (by decide)

theorem filter_graphql :
    ((graphqlSection scan.graphqlIntrospection).findings.filter
        (fun f => scan.strictTitle f.title) =
      (graphqlSection (scan.graphqlIntrospection.filter GraphqlIntrospection.strict)).findings) ∧
    (graphqlSection scan.graphqlIntrospection).vulnerabilityChecks.filter
        (fun c => scan.strictTitle c.name) =
      (graphqlSection (scan.graphqlIntrospection.filter
        GraphqlIntrospection.strict)).vulnerabilityChecks := by
  have htitled := titled_graphqlSection scan.graphqlIntrospection
  cases hg : scan.graphqlIntrospection with
  | none => exact ⟨rfl, rfl⟩
  | some g =>
    rw [hg] at htitled
    have hf : ∀ f ∈ (graphqlSection (some g)).findings, scan.strictTitle f.title = g.strict :=
      fun f hf => strictTitle_graphql hg (List.contains_iff_mem.mp (htitled.1 f hf))
    have hc : ∀ c ∈ (graphqlSection (some g)).vulnerabilityChecks,
        scan.strictTitle c.name = g.strict :=
      fun c hc => strictTitle_graphql hg (List.contains_iff_mem.mp (htitled.2 c hc))
    cases hstrict : g.strict with
    | true =>
      rw [Option.filter_some_pos hstrict]
      exact ⟨List.filter_eq_self.mpr fun f hmem => (hf f hmem).trans hstrict,
        List.filter_eq_self.mpr fun c hmem => (hc c hmem).trans hstrict⟩
    | false =>
      rw [Option.filter_some_neg (by simp [hstrict])]
      exact ⟨List.filter_eq_nil_iff.mpr fun f hmem => by simp [hf f hmem, hstrict],
        List.filter_eq_nil_iff.mpr fun c hmem => by simp [hc c hmem, hstrict]⟩

end Select

section Secrets
variable [EntropyTest] {scan : Scan}

theorem secrets_not_strict (h : ∀ secret ∈ scan.jsSecrets, secret.strict = false) :
    (jsSecretSection scan.jsSecrets).All (fun f => f.strict = false) fun c => c.strict = false :=
  (all_ite (fun _ => all_note _) fun _ => all_empty).append (all_forEach fun secret hmem =>
    have hstrict := h secret (List.mem_of_mem_take hmem)
    ⟨List.forall_mem_singleton.mpr hstrict, List.forall_mem_singleton.mpr hstrict⟩)

theorem secrets_not_titled (scan : Scan) :
    (jsSecretSection scan.jsSecrets).Titled fun title => !scan.strictTitle title :=
  titled_jsSecret _ fun type => by rw [not_strictTitle_secret, Bool.not_false]

theorem filter_secrets_findings :
    ((jsSecretSection scan.jsSecrets).findings.filter fun f => scan.strictTitle f.title) = [] :=
  List.filter_eq_nil_iff.mpr fun f hf => by simpa using (secrets_not_titled scan).1 f hf

theorem filter_secrets_checks : ((jsSecretSection scan.jsSecrets).vulnerabilityChecks.filter
    fun c => scan.strictTitle c.name) = [] :=
  List.filter_eq_nil_iff.mpr fun c hc => by simpa using (secrets_not_titled scan).2 c hc

/-- When no secret passes the strict rule, the confirmed rows are those of the schema and of the
introspection. -/
theorem confirmedRows_strict (h : ∀ secret ∈ scan.jsSecrets, secret.strict = false) :
    confirmedRows scan.collected.findings scan.collected.vulnerabilityChecks =
      confirmedRows scan.strictSection.findings scan.strictSection.vulnerabilityChecks := by
  have hsecrets := secrets_not_strict h
  have htitled : scan.verdictSection.All
      (fun f => f.strict = true → scan.strictTitle f.title = true)
      fun c => c.strict = true → scan.strictTitle c.name = true := by
    refine All.append (All.append ⟨fun f hf hstrict => ?_, fun c hc hstrict => ?_⟩
      exposures_strictTitled) graphql_strictTitled
    · rw [hsecrets.1 f hf] at hstrict
      cases hstrict
    · rw [hsecrets.2 c hc] at hstrict
      cases hstrict
  have hfindings : (scan.verdictSection.findings.filter fun f => scan.strictTitle f.title) =
      scan.strictSection.findings := by
    simp only [Scan.verdictSection, verdictSection, findings_append, List.filter_append,
      filter_secrets_findings, filter_exposures_findings, filter_graphql.1, List.nil_append,
      Scan.strictSection]
  have hchecks : (scan.verdictSection.vulnerabilityChecks.filter
      fun c => scan.strictTitle c.name) = scan.strictSection.vulnerabilityChecks := by
    simp only [Scan.verdictSection, verdictSection, vulnerabilityChecks_append, List.filter_append,
      filter_secrets_checks, filter_exposures_checks, filter_graphql.2, List.nil_append,
      Scan.strictSection]
  rw [confirmedRows_collected, confirmedRows_filter htitled.1 htitled.2, hfindings, hchecks]

end Secrets

/-! ## The pairs are not merged -/

omit [UnicodeTables] in
/-- The evidence texts of the two items for an exposure differ in length. -/
theorem exposure_evidence_ne (url code evidence : String) :
    url ++ " | HTTP " ++ code ++ " | " ++ evidence ≠ url ++ " | " ++ evidence := by
  intro h
  have hlength := congrArg String.length h
  have hhttp : " | HTTP ".length = 8 := by decide
  have hbar : " | ".length = 3 := by decide
  simp only [String.length_append, hhttp, hbar] at hlength
  omega

/-- The two items for the schema. -/
theorem schema_items {e : Exposure} (h : e.IsSchema) (hstrict : e.strict = true) :
    ∃ (f : Finding) (c : VulnCheck), exposureItems e = ⟨[f], [c], []⟩ ∧ f.strict = true ∧
      c.strict = true ∧ c.evidence ≠ f.evidence := by
  have hprotected : e.status ≠ "PROTECTED" := by
    rw [h.status]
    decide
  have hserious : e.severity ∈ ["HIGH", "MEDIUM"] := by
    rw [h.severity]
    decide
  rw [exposureItems, if_neg hprotected, if_pos hserious]
  exact ⟨_, _, rfl, hstrict, hstrict, fun heq =>
    exposure_evidence_ne _ _ _ (Option.some.inj heq)⟩

/-- The two items for an introspection that is enabled. -/
theorem introspection_items {g : GraphqlIntrospection} (henabled : g.enabled = true)
    (hstrict : g.strict = true) : ∃ (f : Finding) (c : VulnCheck),
      graphqlSection (some g) = ⟨[f], [c], []⟩ ∧ f.strict = true ∧ c.strict = true ∧
        c.name ≠ f.title := by
  rw [graphqlSection, if_pos henabled]
  exact ⟨_, _, rfl, hstrict, hstrict, by dsimp only; decide⟩

/-- The items pass the strict rule, and no two of them have one key. -/
structure Section.Unmerged (s : Section) : Prop where
  strict : s.All (fun f => f.strict = true) fun c => c.strict = true
  nodup : (s.vulnerabilityChecks.map (fun c => c.enrich.row.key) ++
    s.findings.map fun f => f.enrich.row.key).Nodup

section Unmerged
variable {s t : Section} {p : Option String → Bool}

/-- The key of an item of the section has a title that `p` selects. -/
theorem Section.Titled.key (h : s.Titled p) : ∀ key ∈ s.vulnerabilityChecks.map
    (fun c => c.enrich.row.key) ++ s.findings.map (fun f => f.enrich.row.key), p key.1 = true := by
  intro key hkey
  rcases List.mem_append.mp hkey with hkey | hkey
  · obtain ⟨c, hc, rfl⟩ := List.mem_map.mp hkey
    exact h.2 c hc
  · obtain ⟨f, hf, rfl⟩ := List.mem_map.mp hkey
    exact h.1 f hf

theorem Section.Unmerged.append (hs : s.Unmerged) (ht : t.Unmerged) (hp : s.Titled p)
    (hq : t.Titled fun title => !p title) : (s ++ t).Unmerged where
  strict := All.append hs.strict ht.strict
  nodup := by
    rw [findings_append, vulnerabilityChecks_append, List.map_append, List.map_append,
      List.append_assoc]
    refine ((List.perm_append_comm_assoc _ _ _).append_left _).nodup_iff.mpr ?_
    rw [← List.append_assoc]
    refine List.nodup_append.mpr ⟨hs.nodup, ht.nodup, fun key hkey key' hkey' heq => ?_⟩
    have hselected := hp.key key hkey
    have hrejected := hq.key key' hkey'
    rw [← heq, hselected] at hrejected
    cases hrejected

theorem Section.Unmerged.length (h : s.Unmerged) :
    (confirmedRows s.findings s.vulnerabilityChecks).length =
      s.vulnerabilityChecks.length + s.findings.length := by
  rw [confirmedRows_eq h.strict.1 h.strict.2 h.nodup, List.length_append, List.length_map,
    List.length_map]

/-- A check and a finding that differ in title or evidence. -/
theorem unmerged_pair {f : Finding} {c : VulnCheck} (hf : f.strict = true) (hc : c.strict = true)
    (hne : c.name ≠ f.title ∨ c.evidence ≠ f.evidence) :
    (⟨[f], [c], []⟩ : Section).Unmerged where
  strict := ⟨List.forall_mem_singleton.mpr hf, List.forall_mem_singleton.mpr hc⟩
  nodup := by
    have hkey : c.enrich.row.key ≠ f.enrich.row.key := by
      intro heq
      rcases hne with hne | hne
      · exact hne (congrArg Prod.fst heq)
      · exact hne (congrArg (fun key => key.2.2) heq)
    simpa using hkey

theorem unmerged_nil : (⟨[], [], []⟩ : Section).Unmerged :=
  ⟨⟨List.forall_mem_nil _, List.forall_mem_nil _⟩, List.nodup_nil⟩

end Unmerged

/-- The section of the strict exposures has a finding and a check for each. -/
theorem unmerged_exposures (scan : Scan) :
    (exposureSection (scan.advancedExposures.filter Exposure.strict)).Unmerged ∧
      (exposureSection (scan.advancedExposures.filter Exposure.strict)).findings.length =
        (scan.advancedExposures.filter Exposure.strict).length ∧
      (exposureSection (scan.advancedExposures.filter Exposure.strict)).vulnerabilityChecks.length =
        (scan.advancedExposures.filter Exposure.strict).length := by
  rcases strict_exposures scan with hexp | ⟨e, hexp, hschema⟩
  · rw [hexp]
    exact ⟨unmerged_nil, rfl, rfl⟩
  · have hstrict : e.strict = true := (List.mem_filter.mp (hexp ▸ List.mem_singleton_self e)).2
    obtain ⟨f, c, hitems, hf, hc, hne⟩ := schema_items hschema hstrict
    have hsection : exposureSection [e] = ⟨[f], [c], []⟩ := by
      simp [exposureSection, forEach, hitems]
    rw [hexp, hsection]
    exact ⟨unmerged_pair hf hc (.inr hne), rfl, rfl⟩

/-- So has the section of a strict introspection. -/
theorem unmerged_graphql (scan : Scan) :
    (graphqlSection (scan.graphqlIntrospection.filter GraphqlIntrospection.strict)).Unmerged ∧
      (graphqlSection (scan.graphqlIntrospection.filter
        GraphqlIntrospection.strict)).findings.length =
          (scan.graphqlIntrospection.filter GraphqlIntrospection.strict).toList.length ∧
      (graphqlSection (scan.graphqlIntrospection.filter
        GraphqlIntrospection.strict)).vulnerabilityChecks.length =
          (scan.graphqlIntrospection.filter GraphqlIntrospection.strict).toList.length := by
  cases hg : scan.graphqlIntrospection.filter GraphqlIntrospection.strict with
  | none => exact ⟨unmerged_nil, rfl, rfl⟩
  | some g =>
    obtain ⟨hmem, hstrict⟩ := Option.filter_eq_some_iff.mp hg
    obtain ⟨f, c, hitems, hf, hc, hne⟩ :=
      introspection_items (enabled_of_strict hmem hstrict).1 hstrict
    rw [hitems]
    exact ⟨unmerged_pair hf hc (.inl hne), rfl, rfl⟩

/-- Each detection that passes the strict rule is confirmed twice. -/
theorem length_confirmedRows_strict {scan : Scan} : (confirmedRows scan.strictSection.findings
    scan.strictSection.vulnerabilityChecks).length = 2 * scan.strictDetections := by
  have hcount : scan.strictDetections = (scan.advancedExposures.filter Exposure.strict).length +
      (scan.graphqlIntrospection.filter GraphqlIntrospection.strict).toList.length := by
    rw [Scan.strictDetections, List.countP_eq_length_filter, List.countP_eq_length_filter,
      Option.toList_filter]
  obtain ⟨hexposures, hfindings, hchecks⟩ := unmerged_exposures scan
  obtain ⟨hgraphql, hfindings', hchecks'⟩ := unmerged_graphql scan
  have hother : ∀ item ∈ advancedExposurePaths, (!([some "GraphQL Introspection Check",
      some "GraphQL Introspection Enabled"].contains (some (exposureTitle item.type)))) = true := by
    decide
  have htitled : (exposureSection (scan.advancedExposures.filter Exposure.strict)).Titled
      fun title => !([some "GraphQL Introspection Check",
        some "GraphQL Introspection Enabled"].contains title) := by
    refine titled_exposure _ fun e he => ?_
    obtain ⟨item, hitem, htype⟩ := exposure_type (List.mem_of_mem_filter he)
    rw [htype]
    exact hother item hitem
  have hunmerged : scan.strictSection.Unmerged :=
    hexposures.append hgraphql htitled (by simpa only [Bool.not_not] using titled_graphqlSection _)
  rw [hunmerged.length, hcount, Scan.strictSection, findings_append, vulnerabilityChecks_append,
    List.length_append, List.length_append, hfindings, hchecks, hfindings', hchecks']
  omega

section Count
variable [EntropyTest] {scan : Scan}

/-- Of the confirmed vulnerabilities each exposure that passes the strict rule gives two. -/
theorem length_confirmed (h : ∀ secret ∈ scan.jsSecrets, secret.strict = false) :
    (analyze scan).separatedResults.confirmedVulnerabilities.length =
      2 * scan.strictDetections := by
  rw [analyze, report_confirmed, List.length_map, confirmedRows_strict h,
    length_confirmedRows_strict]

/-- The confirmed vulnerabilities are as many as the exposures that pass the strict rule exactly
when there are none of either. -/
theorem exposures_counted_once_iff (scan : Scan)
    (h : ∀ secret ∈ scan.jsSecrets, secret.strict = false) :
    (analyze scan).separatedResults.confirmedVulnerabilities.length = scan.strictDetections ↔
      (∀ e ∈ scan.advancedExposures, e.strict = false) ∧
        ∀ g ∈ scan.graphqlIntrospection, g.strict = false := by
  rw [length_confirmed h]
  have hzero : scan.strictDetections = 0 ↔ (∀ e ∈ scan.advancedExposures, e.strict = false) ∧
      ∀ g ∈ scan.graphqlIntrospection, g.strict = false := by
    simp [Scan.strictDetections, List.countP_eq_zero]
  rw [← hzero]
  omega

/-- A site with a public OpenAPI schema. -/
def schemaSite : Scan where
  url := "https://example.com"
  ip := "93.184.216.34"
  response := some { statusCode := 200, text := "", url := "https://example.com/" }
  exposureResponses item :=
    if item.path = "/openapi.json" then
      some {
        statusCode := 200
        text := "\x7b\"openapi\": \"3.1.0\", \"paths\": \x7b\x7d\x7d"
        url := "https://example.com/openapi.json" }
    else none

omit [UnicodeTables] [EntropyTest] in
/-- The schema is one exposure and two confirmed vulnerabilities. -/
theorem schema_counted_twice : ¬ ∀ (_ : UnicodeTables) (_ : EntropyTest) (scan : Scan),
    (∀ secret ∈ scan.jsSecrets, secret.strict = false) →
      (analyze scan).separatedResults.confirmedVulnerabilities.length =
        scan.strictDetections := by
  let _ := asciiTables
  let _ : EntropyTest := ⟨fun _ => false⟩
  intro h
  have hsecrets : ∀ secret ∈ schemaSite.jsSecrets, secret.strict = false := nofun
  have hone : schemaSite.strictDetections = 1 := by decide
  have hcount := h asciiTables ⟨fun _ => false⟩ schemaSite hsecrets
  rw [length_confirmed hsecrets, hone] at hcount
  cases hcount

/-- A site with an admin panel that asks for a password. -/
def adminSite : Scan where
  url := "https://example.com"
  ip := "93.184.216.34"
  response := some { statusCode := 200, text := "", url := "https://example.com/" }
  exposureResponses item :=
    if item.path = "/admin" then
      some { statusCode := 200, text := "admin password", url := "https://example.com/admin" }
    else none

omit [UnicodeTables] [EntropyTest] in
theorem admin_not_counted : letI := asciiTables; letI : EntropyTest := ⟨fun _ => false⟩
    adminSite.advancedExposures ≠ [] ∧
      (analyze adminSite).separatedResults.confirmedVulnerabilities.length =
        adminSite.strictDetections :=
  let _ := asciiTables
  let _ : EntropyTest := ⟨fun _ => false⟩
  ⟨by decide, (exposures_counted_once_iff adminSite nofun).mpr (by decide)⟩

end Count

end ThreatScanner.Analyzer
