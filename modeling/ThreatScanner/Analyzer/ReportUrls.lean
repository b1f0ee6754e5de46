import ThreatScanner.Analyzer.EvidenceUrls

/-!
# Where the URLs of a report come from

The deduplication and the sorting of the items keep every evidence and add none, so the values of
the report that begin like a URL are those of the collected items.
-/

namespace ThreatScanner.Analyzer

/-! ## The fields of the report -/

section Fields
variable [UnicodeTables] {K : String → Prop}

theorem keeps_findingRow {f : Finding} (h : ∀ v ∈ f.urlFields, Keeps K v) :
    ∀ v ∈ f.enrich.row.urlFields, Keeps K v := by
  simp only [Finding.urlFields, List.forall_mem_cons] at h
  obtain ⟨haffected, hurl, hevidence, horiginal, _⟩ := h
  exact List.forall_mem_cons.mpr ⟨keeps_orElse haffected hurl, List.forall_mem_cons.mpr
    ⟨hevidence, List.forall_mem_singleton.mpr horiginal⟩⟩

theorem keeps_checkRow {c : VulnCheck} (h : ∀ v ∈ c.urlFields, Keeps K v) :
    ∀ v ∈ c.enrich.row.urlFields, Keeps K v := by
  simp only [VulnCheck.urlFields, List.forall_mem_cons] at h
  obtain ⟨haffected, hurl, hevidence, horiginal, _⟩ := h
  exact List.forall_mem_cons.mpr ⟨keeps_orElse haffected hurl, List.forall_mem_cons.mpr
    ⟨hevidence, List.forall_mem_singleton.mpr horiginal⟩⟩

variable {findings : List Finding} {vulnerabilityChecks : List VulnCheck}

theorem keeps_finalFindings (h : ∀ f ∈ findings, ∀ v ∈ f.urlFields, Keeps K v) :
    ∀ f ∈ finalFindings findings, ∀ v ∈ f.urlFields, Keeps K v :=
  List.forall_mem_map.mpr fun f hf => h f (mem_of_mem_distinctBy hf)

theorem keeps_finalChecks (h : ∀ c ∈ vulnerabilityChecks, ∀ v ∈ c.urlFields, Keeps K v) :
    ∀ c ∈ finalChecks vulnerabilityChecks, ∀ v ∈ c.urlFields, Keeps K v :=
  List.forall_mem_map.mpr fun c hc => h c (mem_of_mem_distinctBy hc)

theorem keeps_separated (hf : ∀ f ∈ findings, ∀ v ∈ f.urlFields, Keeps K v)
    (hc : ∀ c ∈ vulnerabilityChecks, ∀ v ∈ c.urlFields, Keeps K v) (kind : SectionKind) :
    ∀ row ∈ (separateResults (finalFindings findings) (finalChecks vulnerabilityChecks)).list kind,
      ∀ v ∈ row.urlFields, Keeps K v := by
  rw [list_separateResults]
  refine List.forall_mem_map.mpr fun row hrow => ?_
  rcases mem_combinedRows (List.mem_of_mem_filter hrow) with ⟨c, hmem, rfl⟩ | ⟨f, hmem, rfl⟩
  · exact keeps_checkRow (hc c hmem)
  · exact keeps_findingRow (hf f hmem)

/-- The values of the report are those of the items that were collected. -/
theorem keeps_urlFields [EntropyTest] (scan : Scan) :
    ∀ v ∈ (Outcome.complete scan).urlFields, Keeps scan.Shows v := by
  obtain ⟨hfindings, hchecks⟩ := urlsIn_collected scan
  have hreport : analyze scan = report scan.collected scan.subdomains scan.cveResults
    scan.openPorts := rfl
  generalize scan.collected = collected at hfindings hchecks hreport
  simp only [Outcome.urlFields, hreport, report, List.forall_mem_append, List.forall_mem_flatMap]
  refine ⟨⟨⟨⟨?_, ?_⟩, ?_⟩, ?_⟩, ?_⟩
  · exact fun kind _ => keeps_separated hfindings hchecks kind
  · exact keeps_finalFindings hfindings
  · exact keeps_finalChecks hchecks
  · exact fun e he => List.forall_mem_cons.mpr ⟨keeps_some (shows_exposureUrl scan he),
      List.forall_mem_singleton.mpr (keeps_plain (scan.plain_exposure he))⟩
  · intro check hcheck
    obtain ⟨hplain, haffected⟩ := scan.plain_nikto hcheck
    have hurl : Keeps scan.Shows (some check.url) := keeps_some (shows_niktoUrl scan hcheck)
    exact List.forall_mem_cons.mpr ⟨haffected ▸ hurl, List.forall_mem_cons.mpr
      ⟨hurl, List.forall_mem_singleton.mpr (keeps_plain hplain)⟩⟩

end Fields

/-! ## What is put together stands in the report -/

/-- The evidence of all items. -/
def Section.evidence (s : Section) : List (Option String) :=
  s.findings.map Finding.evidence ++ s.vulnerabilityChecks.map VulnCheck.evidence

section Shown
variable {s t : Section} {x : Option String} {text : String}

theorem mem_evidence_append :
    x ∈ (s ++ t).evidence ↔ x ∈ s.evidence ∨ x ∈ t.evidence := by
  simp only [Section.evidence, Section.findings_append, Section.vulnerabilityChecks_append,
    List.map_append, List.mem_append]
  tauto

theorem mem_evidence_forEach {α : Type} {items : List α} {body : α → Section} {a : α}
    (ha : a ∈ items) (h : x ∈ (body a).evidence) : x ∈ (Section.forEach items body).evidence := by
  rcases List.mem_append.mp h with h | h
  · obtain ⟨f, hf, rfl⟩ := List.mem_map.mp h
    exact List.mem_append_left _ (List.mem_map_of_mem (List.mem_flatMap_of_mem ha hf))
  · obtain ⟨c, hc, rfl⟩ := List.mem_map.mp h
    exact List.mem_append_right _ (List.mem_map_of_mem (List.mem_flatMap_of_mem ha hc))

theorem mem_joined {items : List String} :
    text ∈ joined items ↔ 2 ≤ items.length ∧ text = joinComma items := by
  rw [joined]
  split
  · next h => simp [h]
  · next h => simp [h]

theorem ne_nil_of_joined {items : List String} (h : text ∈ joined items) : items ≠ [] := by
  rintro rfl
  cases h

theorem joinComma_ne_empty {items : List String} (h : text ∈ joined items) : text ≠ "" := by
  obtain ⟨hlength, rfl⟩ := mem_joined.mp h
  match items, hlength with
  | s :: t :: items, _ =>
    intro hempty
    have hchars := congrArg String.length hempty
    simp [joinComma_cons_cons] at hchars

theorem evidence_exposureItems {e : Exposure} (h : text ∈ e.lines) :
    some text ∈ (exposureItems e).evidence := by
  rw [Exposure.lines] at h
  rw [exposureItems]
  split at h
  · cases h
  · next hprotected =>
    rw [if_neg hprotected, mem_evidence_append]
    rcases List.mem_cons.mp h with rfl | h
    · exact .inl List.mem_cons_self
    · split at h
      · next hserious =>
        rw [if_pos hserious, List.mem_singleton.mp h]
        exact .inr List.mem_cons_self
      · cases h

theorem evidence_robots {entries : List String} (h : text ∈ joined entries) :
    some text ∈ (robotsSection entries).evidence := by
  rw [robotsSection, if_neg (ne_nil_of_joined h), (mem_joined.mp h).2]
  exact List.mem_cons_self

theorem evidence_whois {whoisAsn : WhoisAsn} (herror : whoisAsn.error.getD "" = "")
    (h : text ∈ joined whoisAsn.parts) : some text ∈ (whoisSection whoisAsn).evidence := by
  have htext : orElse (some (joinComma whoisAsn.parts)) whoisAsn.ip = some text := by
    rw [← (mem_joined.mp h).2]
    exact if_neg (joinComma_ne_empty h)
  rw [whoisSection, if_pos herror]
  exact List.mem_singleton.mpr htext.symm

theorem evidence_endpoints {endpoints : List ApiEndpoint}
    (h : text ∈ joined ((endpoints.take 5).map ApiEndpoint.endpoint)) :
    some text ∈ (apiEndpointSection endpoints).evidence := by
  have hne : endpoints ≠ [] := by
    rintro rfl
    cases h
  rw [apiEndpointSection, if_neg hne, (mem_joined.mp h).2]
  exact List.mem_cons_self

theorem evidence_methods [UnicodeTables] {httpMethods : List String}
    (h : text ∈ joined (dangerousMethods httpMethods)) :
    some text ∈ (methodSection httpMethods).evidence := by
  have hne : dangerousMethods httpMethods ≠ [] := ne_nil_of_joined h
  rw [methodSection, (mem_joined.mp h).2]
  refine (if_neg hne).symm ▸ mem_evidence_append.mpr (.inr List.mem_cons_self)

theorem evidence_secrets {jsSecrets : List JsSecret} {secret : JsSecret}
    (h : secret ∈ jsSecrets.take 8) :
    some (secretLine secret) ∈ (jsSecretSection jsSecrets).evidence := by
  rw [jsSecretSection, mem_evidence_append]
  exact .inr (mem_evidence_forEach h List.mem_cons_self)

end Shown

section Composed
variable [UnicodeTables] [EntropyTest] {scan : Scan} {text : String}

theorem evidence_site (h : text ∈ scan.siteComposed) : some text ∈ scan.siteSection.evidence := by
  rw [Scan.siteComposed] at h
  rw [Scan.siteSection]
  cases hresponse : scan.response with
  | none =>
    rw [hresponse] at h
    cases h
  | some response =>
    simp only [hresponse, List.mem_append, List.mem_map] at h
    simp only [mem_evidence_append]
    rcases h with (h | ⟨secret, hsecret, rfl⟩) | h
    · simp only [evidence_methods h, or_true, true_or]
    · simp only [evidence_secrets hsecret, or_true, true_or]
    · simp only [evidence_endpoints h, or_true, true_or]

/-- What is put together is the evidence of an item. -/
theorem evidence_collected (h : text ∈ scan.composed) : some text ∈ scan.collected.evidence := by
  rw [Scan.composed] at h
  rw [Scan.collected, Scan.detectorSection]
  simp only [mem_evidence_append]
  simp only [List.mem_append, List.mem_flatMap] at h
  rcases h with ((h | h) | ⟨e, he, h⟩) | h
  · simp only [evidence_site h, true_or]
  · simp only [evidence_robots h, or_true, true_or]
  · have hexposure : some text ∈ (exposureSection scan.advancedExposures).evidence :=
      mem_evidence_forEach he (evidence_exposureItems h)
    simp only [hexposure, or_true, true_or]
  · split at h
    · next herror => simp only [evidence_whois herror h, or_true, true_or]
    · cases h

/-- The deduplication keeps every evidence. -/
theorem mem_urlFields_of_evidence (h : some text ∈ scan.collected.evidence) :
    some text ∈ (Outcome.complete scan).urlFields := by
  have hreport : analyze scan = report scan.collected scan.subdomains scan.cveResults
    scan.openPorts := rfl
  generalize scan.collected = collected at h hreport
  simp only [Outcome.urlFields, hreport, report, List.mem_append, List.mem_flatMap]
  rcases List.mem_append.mp h with h | h
  · obtain ⟨f, hf, hevidence⟩ := List.mem_map.mp h
    obtain ⟨g, hg, hkey⟩ : ∃ g ∈ distinctBy Finding.key collected.findings, g.key = f.key :=
      exists_mem_distinctBy hf
    have hsame : g.evidence = some text := (congrArg (fun k : Key => k.2.2) hkey).trans hevidence
    refine .inl (.inl (.inl (.inr ⟨g.enrich, List.mem_map_of_mem hg, ?_⟩)))
    rw [← hsame]
    exact List.mem_cons_of_mem _ (List.mem_cons_of_mem _ List.mem_cons_self)
  · obtain ⟨c, hc, hevidence⟩ := List.mem_map.mp h
    obtain ⟨d, hd, hkey⟩ : ∃ d ∈ distinctBy VulnCheck.key collected.vulnerabilityChecks,
        d.key = c.key := exists_mem_distinctBy hc
    have hsame : d.evidence = some text := (congrArg (fun k : Key => k.2.2) hkey).trans hevidence
    refine .inl (.inl (.inr ⟨d.enrich, List.mem_map_of_mem hd, ?_⟩))
    rw [← hsame]
    exact List.mem_cons_of_mem _ (List.mem_cons_of_mem _ List.mem_cons_self)

end Composed

namespace Outcome
variable [UnicodeTables] [EntropyTest] {outcome : Outcome} {wayback : Option Wayback} {v : String}

theorem mem_urlValues : v ∈ outcome.urlValues wayback ↔
    (some v ∈ outcome.urlFields ∨ ∃ archive ∈ wayback, some v ∈ archive.urlFields) ∧
      isUrl v = true := by
  simp only [urlValues, List.mem_filterMap, List.mem_append, List.mem_flatMap, Option.mem_toList]
  constructor
  · rintro ⟨x, hx, hfilter⟩
    obtain ⟨rfl, hurl⟩ := Option.filter_eq_some_iff.mp hfilter
    exact ⟨hx, hurl⟩
  · rintro ⟨hx, hurl⟩
    exact ⟨some v, hx, Option.filter_eq_some_iff.mpr ⟨rfl, hurl⟩⟩

/-- A value of the report that begins like a URL was observed, or put together. -/
theorem observed_or_composed (h : some v ∈ outcome.urlFields) (hurl : isUrl v = true) :
    v ∈ outcome.observed ∨ v ∈ outcome.composed := by
  cases outcome with
  | invalid => cases h
  | unresolved target host targetType profile =>
    have hfields : (unresolved target host targetType profile).urlFields =
        [none, none, some host, none, none, none, some host, none] := rfl
    rw [hfields] at h
    simp only [List.mem_cons, Option.some.injEq, reduceCtorEq, false_or, List.not_mem_nil,
      or_false, or_self] at h
    exact .inl (List.mem_singleton.mpr h)
  | complete scan => exact keeps_urlFields scan (some v) h v rfl hurl

/-- A text that is put together stands in the report. -/
theorem mem_urlFields_of_composed (h : v ∈ outcome.composed) : some v ∈ outcome.urlFields := by
  cases outcome with
  | invalid => cases h
  | unresolved => cases h
  | complete scan => exact mem_urlFields_of_evidence (evidence_collected h)

end Outcome

end ThreatScanner.Analyzer
