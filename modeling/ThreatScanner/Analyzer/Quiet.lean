import ThreatScanner.Analyzer.Analyze

/-!
# The sections that have no part in the verdict

Only the sections for JavaScript secrets, exposures and GraphQL introspection can add an item that
passes the strict rule. What any other section adds does not pass it, and bears no title that an
item of these three can bear, so it cannot take the place of one in a deduplication either.
-/

namespace ThreatScanner.Analyzer

/-- The titles of the three sections. -/
def watched : Option String → Bool
  | none => false
  | some title =>
    startsWith title "JS Secret Exposure: " ||
      (advancedExposurePaths.any fun item => title = exposureTitle item.type) ||
      ["GraphQL Introspection Check", "GraphQL Introspection Enabled"].contains title

/-- The first characters of the watched titles. -/
def watchedHeads : List Char := "JSROGALD".toList

theorem head_of_watched {title : String} (h : watched (some title) = true) :
    title.toList.head? ∈ watchedHeads.map some := by
  simp only [watched, startsWith, Bool.or_eq_true, decide_eq_true_eq, List.any_eq_true,
    List.contains_eq_mem] at h
  rcases h with (h | ⟨item, hitem, rfl⟩) | h
  · obtain ⟨rest, hrest⟩ := h
    rw [← hrest]
    exact List.mem_cons_self
  · revert item
    decide
  · revert title
    decide

/-- A title that begins otherwise is not watched, whatever comes after. -/
theorem not_watched_append {start : String} {c : Char} (rest : String)
    (hstart : start.toList.head? = some c) (hc : c ∉ watchedHeads) :
    watched (some (start ++ rest)) = false := by
  rw [Bool.eq_false_iff]
  intro h
  have hhead := head_of_watched h
  rw [String.toList_append, List.head?_append, hstart, Option.some_or] at hhead
  obtain ⟨d, hd, heq⟩ := List.mem_map.mp hhead
  cases heq
  exact hc hd

/-- An evidence type that the strict rule does not know. -/
def ordinary (evidenceType : String) : Bool :=
  isLowerAscii evidenceType && !realConfirmedEvidence.contains evidenceType

/-- A confidence below high. -/
def moderate (confidence : String) : Bool := isUpperAscii confidence && confidence != "HIGH"

section Rule
variable [UnicodeTables]

theorem not_confirmed_of_ordinary {severity confidence evidenceType : String}
    (h : ordinary evidenceType = true) :
    isConfirmedVulnerability severity confidence evidenceType = false := by
  simp only [ordinary, Bool.and_eq_true, Bool.not_eq_true', List.contains_eq_mem,
    decide_eq_false_iff_not] at h
  rw [Bool.eq_false_iff, Ne, isConfirmedVulnerability_iff, lower_eq_self h.1]
  exact fun hconf => h.2 hconf.2.2

theorem not_confirmed_of_moderate {severity confidence evidenceType : String}
    (h : moderate confidence = true) :
    isConfirmedVulnerability severity confidence evidenceType = false := by
  simp only [moderate, Bool.and_eq_true, bne_iff_ne] at h
  rw [Bool.eq_false_iff, Ne, isConfirmedVulnerability_iff, upper_eq_self h.1]
  exact fun hconf => h.2 hconf.1

theorem not_confirmed_info {confidence evidenceType : String} :
    isConfirmedVulnerability "INFO" confidence evidenceType = false := by
  have hinfo : upper "INFO" = "INFO" := upper_eq_self (by decide)
  rw [Bool.eq_false_iff, Ne, isConfirmedVulnerability_iff, hinfo]
  exact fun hconf => absurd hconf.2.1 (by decide)

end Rule

variable [UnicodeTables]

/-- Nothing that the section adds is watched or passes the strict rule. -/
def Section.Quiet (s : Section) : Prop :=
  s.All (fun f => watched f.title = false ∧ f.strict = false)
    fun c => watched c.name = false ∧ c.strict = false

namespace Section

section Quiet
variable {s t : Section} {p : Prop} [Decidable p] {α : Type} {items : List α}
  {body : α → Section} {title severity description : String} {fix evidence : Option String}
  {category confidence evidenceType text : String}

theorem quiet_append (hs : s.Quiet) (ht : t.Quiet) : (s ++ t).Quiet := All.append hs ht

theorem quiet_empty : (∅ : Section).Quiet := all_empty

theorem quiet_note : (note text).Quiet := all_note text

theorem quiet_ite (hs : s.Quiet) (ht : t.Quiet) : (if p then s else t).Quiet :=
  all_ite (fun _ => hs) fun _ => ht

theorem quiet_forEach (h : ∀ a ∈ items, (body a).Quiet) : (forEach items body).Quiet :=
  all_forEach h

theorem quiet_addFinding (ht : watched (some title) = false)
    (hs : isConfirmedVulnerability severity confidence evidenceType = false) :
    (addFinding title severity description fix category evidence confidence
      evidenceType).Quiet :=
  ⟨List.forall_mem_singleton.mpr ⟨ht, hs⟩, List.forall_mem_nil _⟩

theorem quiet_addVuln (ht : watched (some title) = false)
    (hs : isConfirmedVulnerability severity confidence evidenceType = false) :
    (addVuln title severity evidence description fix category confidence evidenceType).Quiet :=
  ⟨List.forall_mem_nil _, List.forall_mem_singleton.mpr ⟨ht, hs⟩⟩

/-- A check with the default confidence and evidence type. -/
theorem quiet_vuln (ht : watched (some title) = false) :
    (addVuln title severity evidence description fix category).Quiet :=
  quiet_addVuln ht (not_confirmed_of_ordinary (by decide))

/-- A finding with the default confidence and evidence type. -/
theorem quiet_finding (ht : watched (some title) = false) :
    (addFinding title severity description fix category evidence).Quiet :=
  quiet_addFinding ht (not_confirmed_of_ordinary (by decide))

end Quiet

/-! ## The site's own response -/

section Site
variable (response : Response)

theorem quiet_unreachable (url : String) : (unreachableSection url).Quiet :=
  quiet_append (quiet_append quiet_note (quiet_vuln (by decide))) (quiet_finding (by decide))

theorem quiet_http : (httpSection response).Quiet :=
  quiet_ite (quiet_append (quiet_append quiet_note (quiet_vuln (by decide)))
    (quiet_finding (by decide))) quiet_empty

theorem quiet_status : (statusSection response).Quiet :=
  quiet_ite (quiet_vuln (by decide)) (quiet_ite (quiet_vuln (by decide)) quiet_empty)

theorem quiet_securityHeader : (securityHeaderSection response).Quiet := by
  have htitle : ∀ h ∈ securityHeaders,
      watched (some ("Missing Security Header: " ++ h.1)) = false := by decide
  refine quiet_forEach fun h hmem => quiet_ite quiet_empty ?_
  exact quiet_append (quiet_append quiet_note
    (quiet_addVuln (htitle h hmem) (not_confirmed_of_ordinary (by decide))))
    (quiet_finding (htitle h hmem))

theorem quiet_disclosure : (disclosureSection response).Quiet :=
  quiet_append
    (quiet_ite quiet_empty (quiet_append (quiet_append quiet_note (quiet_vuln (by decide)))
      (quiet_finding (by decide))))
    (quiet_ite quiet_empty (quiet_append (quiet_append quiet_note (quiet_vuln (by decide)))
      (quiet_finding (by decide))))

theorem quiet_cookie : (cookieSection response).Quiet :=
  quiet_ite quiet_empty (quiet_append (quiet_append
    (quiet_ite quiet_empty (quiet_append quiet_note (quiet_vuln (by decide))))
    (quiet_ite quiet_empty (quiet_append quiet_note (quiet_vuln (by decide)))))
    (quiet_ite quiet_empty (quiet_append quiet_note (quiet_vuln (by decide)))))

theorem quiet_cors (corsIssues : List String) : (corsSection corsIssues).Quiet :=
  quiet_forEach fun _ _ => quiet_append (quiet_append quiet_note (quiet_vuln (by decide)))
    (quiet_finding (by decide))

theorem quiet_method (httpMethods : List String) : (methodSection httpMethods).Quiet :=
  quiet_ite quiet_empty (quiet_append
    (quiet_append quiet_note (quiet_forEach fun _ _ => quiet_vuln (by decide)))
    (quiet_finding (by decide)))

/-- What the five classes of API endpoints are called. -/
theorem watched_category (endpoint : String) :
    watched (some ((classifyApiEndpoint endpoint).category ++ " Reference Discovered")) =
      false := by
  simp only [classifyApiEndpoint]
  split_ifs <;> dsimp only <;> decide

theorem quiet_apiEndpoint (endpoints : List String) :
    (apiEndpointSection (endpoints.map classifyApiEndpoint)).Quiet := by
  refine quiet_ite quiet_empty (quiet_append (quiet_finding (by decide)) ?_)
  refine quiet_forEach fun e he => quiet_ite ?_ quiet_empty
  obtain ⟨endpoint, _, rfl⟩ := List.mem_map.mp (List.mem_of_mem_take he)
  exact quiet_addFinding (watched_category endpoint) (not_confirmed_of_ordinary (by decide))

omit [UnicodeTables] in
/-- The results of the SQL injection validation are never of high confidence. -/
theorem sqli_result {baseUrl : String} {observe : String × String → Option PairObservation}
    {item : ValidationResult} (h : item ∈ validateSqliBehavior baseUrl observe) :
    watched (some item.type) = false ∧ moderate item.confidence = true := by
  obtain ⟨⟨truthy, falsy⟩, _, h⟩ := List.mem_filterMap.mp (mem_of_mem_distinctBy h)
  obtain ⟨seen, _, h⟩ := Option.bind_eq_some_iff.mp h
  split_ifs at h <;> cases h <;> dsimp only <;> decide

theorem quiet_sqli (baseUrl : String) (observe : String × String → Option PairObservation) :
    (sqliSection (validateSqliBehavior baseUrl observe)).Quiet := by
  refine quiet_forEach fun item hitem => ?_
  obtain ⟨htype, hconf⟩ := sqli_result hitem
  exact quiet_append (quiet_addVuln htype (not_confirmed_of_moderate hconf))
    (quiet_addFinding htype (not_confirmed_of_moderate hconf))

theorem xss_result {baseUrl : String} {responses : String → Option Response}
    {item : ValidationResult} (h : item ∈ validateXssReflection baseUrl responses) :
    watched (some item.type) = false ∧ moderate item.confidence = true := by
  obtain ⟨payload, _, h⟩ := List.mem_filterMap.mp (mem_of_mem_distinctBy h)
  obtain ⟨res, _, h⟩ := Option.bind_eq_some_iff.mp h
  obtain ⟨context, _, rfl⟩ := Option.map_eq_some_iff.mp h
  dsimp only
  split_ifs <;> decide

theorem quiet_xss (baseUrl : String) (responses : String → Option Response) :
    (xssSection (validateXssReflection baseUrl responses)).Quiet := by
  refine quiet_forEach fun item hitem => ?_
  obtain ⟨htype, hconf⟩ := xss_result hitem
  exact quiet_append (quiet_addFinding htype (not_confirmed_of_moderate hconf))
    (quiet_ite (quiet_addVuln (by decide) (not_confirmed_of_moderate hconf)) quiet_empty)

theorem quiet_directoryListing (pageText : String) : (directoryListingSection pageText).Quiet :=
  quiet_ite (quiet_append (quiet_append quiet_note (quiet_vuln (by decide)))
    (quiet_finding (by decide))) quiet_empty

end Site

/-! ## The other detectors -/

theorem quiet_ssl (ssl : SslResult) : (sslSection ssl).Quiet :=
  quiet_ite quiet_empty (quiet_append (quiet_append quiet_note (quiet_vuln (by decide)))
    (quiet_finding (by decide)))

theorem quiet_dns (issues : List String) : (dnsSection issues).Quiet :=
  quiet_forEach fun _ _ => quiet_ite (quiet_append
    (quiet_append quiet_note (quiet_vuln (by decide))) (quiet_finding (by decide))) quiet_empty

theorem quiet_robots (entries : List String) : (robotsSection entries).Quiet :=
  quiet_ite quiet_empty (quiet_append (quiet_append quiet_note (quiet_vuln (by decide)))
    (quiet_finding (by decide)))

theorem quiet_securityTxt (present : Bool) : (securityTxtSection present).Quiet :=
  quiet_ite quiet_empty (quiet_finding (by decide))

theorem quiet_exposedPath (paths : List String) : (exposedPathSection paths).Quiet :=
  quiet_forEach fun _ _ => quiet_append quiet_note (quiet_vuln (by decide))

/-- What is found at a Nikto-like path bears the path's name. -/
theorem nikto_name {responses : NiktoPath → Option Response} {check : NiktoCheck}
    (h : check ∈ checkNiktoPaths responses) : ∃ item ∈ niktoPaths, check.name = item.name := by
  obtain ⟨item, hitem, h⟩ := List.mem_filterMap.mp h
  obtain ⟨res, _, h⟩ := Option.bind_eq_some_iff.mp h
  dsimp only at h
  split_ifs at h
  cases h
  exact ⟨item, hitem, rfl⟩

theorem quiet_nikto (responses : NiktoPath → Option Response) :
    (niktoSection (checkNiktoPaths responses)).Quiet := by
  have hname : ∀ item ∈ niktoPaths, watched (some item.name) = false := by decide
  refine quiet_forEach fun check hcheck => ?_
  obtain ⟨item, hitem, heq⟩ := nikto_name hcheck
  have hwatched : watched (some check.name) = false := heq ▸ hname item hitem
  exact quiet_append (quiet_append quiet_note (quiet_vuln hwatched)) (quiet_finding hwatched)

theorem quiet_dirsearch (result : DirsearchResult) : (dirsearchSection result).Quiet :=
  quiet_ite (quiet_append (quiet_append quiet_note (quiet_vuln (by decide)))
    (quiet_finding (by decide))) quiet_empty

theorem quiet_wpscan (result : WpscanResult) : (wpscanSection result).Quiet := by
  refine quiet_ite (quiet_append (quiet_append (quiet_append quiet_note
    (quiet_vuln (by decide))) (quiet_finding (by decide))) ?_) quiet_empty
  refine quiet_forEach fun item _ => quiet_finding ?_
  rw [String.append_assoc, String.append_assoc]
  exact not_watched_append (c := 'W') _ (by decide) (by decide)

theorem quiet_riskyPort (ports : List OpenPort) : (riskyPortSection ports).Quiet :=
  quiet_ite quiet_empty (quiet_append (quiet_append quiet_note (quiet_vuln (by decide)))
    (quiet_finding (by decide)))

theorem quiet_subdomain (subdomains : List Subdomain) : (subdomainSection subdomains).Quiet :=
  quiet_ite quiet_empty (quiet_finding (by decide))

theorem quiet_whois (whoisAsn : WhoisAsn) : (whoisSection whoisAsn).Quiet :=
  quiet_ite (quiet_finding (by decide)) quiet_empty

theorem quiet_ipTarget (isIp : Bool) (reverseDns : Option String) (ip : String) :
    (ipTargetSection isIp reverseDns ip).Quiet :=
  quiet_ite (quiet_addFinding (by decide) (not_confirmed_of_ordinary (by decide))) quiet_empty

theorem quiet_cveItems (versioned : Bool) (technology : String) (cve : Cve) :
    (cveItems versioned technology cve).Quiet := by
  have htitle : watched (some ("CVE Intelligence: " ++ showOption cve.id)) = false :=
    not_watched_append (c := 'C') _ (by decide) (by decide)
  have htype {severity confidence : String} :
      isConfirmedVulnerability severity confidence "cve_intelligence" = false :=
    not_confirmed_of_ordinary (by decide)
  exact ⟨List.forall_mem_singleton.mpr ⟨htitle, htype⟩,
    List.forall_mem_singleton.mpr ⟨htitle, htype⟩⟩

theorem quiet_cve (groups : List CveGroup) (techText : String) :
    (cveSection groups techText).Quiet :=
  quiet_forEach fun _ _ => quiet_forEach fun cve _ => quiet_cveItems _ _ cve

end Section

/-! ## What is left -/

open Section

section Split
variable (scan : Scan)

theorem Scan.quiet_apiEndpoints : (apiEndpointSection scan.classifiedEndpoints).Quiet := by
  simp only [Scan.classifiedEndpoints]
  split
  · exact quiet_apiEndpoint scan.apiEndpoints
  · exact quiet_apiEndpoint []

theorem Scan.quiet_sqliResults (response : Response) :
    (sqliSection (scan.sqliResults response)).Quiet := by
  simp only [Scan.sqliResults]
  split
  · exact quiet_sqli _ _
  · exact quiet_forEach nofun

theorem Scan.quiet_xssResults (response : Response) :
    (xssSection (scan.xssResults response)).Quiet := by
  simp only [Scan.xssResults]
  split
  · exact quiet_xss _ _
  · exact quiet_forEach nofun

theorem Scan.quiet_niktoChecks : (niktoSection scan.niktoChecks).Quiet := by
  simp only [Scan.niktoChecks]
  split
  · exact quiet_nikto _
  · exact quiet_forEach nofun

variable [EntropyTest]

theorem Scan.jsSecrets_of_unanswered (h : scan.response = none) : scan.jsSecrets = [] := by
  simp [Scan.jsSecrets, h]

theorem siteSection_split : ∃ before after : Section, before.Quiet ∧ after.Quiet ∧
    scan.siteSection = before ++ jsSecretSection scan.jsSecrets ++ after := by
  cases hresponse : scan.response with
  | none =>
    refine ⟨unreachableSection scan.url, ∅, quiet_unreachable _, quiet_empty, ?_⟩
    rw [scan.jsSecrets_of_unanswered hresponse]
    simp only [Scan.siteSection, hresponse]
    rfl
  | some response =>
    refine ⟨httpSection response ++ (statusSection response ++ (securityHeaderSection response ++
        (disclosureSection response ++ (cookieSection response ++ (corsSection
          (checkCors response) ++ methodSection (checkHttpMethods scan.optionsResponse)))))),
      apiEndpointSection scan.classifiedEndpoints ++ (sqliSection (scan.sqliResults response) ++
        (xssSection (scan.xssResults response) ++ directoryListingSection (lower response.text))),
      ?_, ?_, ?_⟩
    · exact quiet_append (quiet_http _) (quiet_append (quiet_status _)
        (quiet_append (quiet_securityHeader _) (quiet_append (quiet_disclosure _)
          (quiet_append (quiet_cookie _) (quiet_append (quiet_cors _) (quiet_method _))))))
    · exact quiet_append scan.quiet_apiEndpoints (quiet_append (scan.quiet_sqliResults _)
        (quiet_append (scan.quiet_xssResults _) (quiet_directoryListing _)))
    · simp only [Scan.siteSection, hresponse, append_assoc]

/-- What `analyze` collects besides the items of the three sections is quiet. -/
theorem collected_split : ∃ before between after : Section,
    before.Quiet ∧ between.Quiet ∧ after.Quiet ∧
      scan.collected = before ++ jsSecretSection scan.jsSecrets ++ between ++
        exposureSection scan.advancedExposures ++ graphqlSection scan.graphqlIntrospection ++
          after := by
  obtain ⟨before, rest, hbefore, hrest, hsite⟩ := siteSection_split scan
  refine ⟨before, rest ++ (sslSection scan.ssl ++ (dnsSection scan.dnsIssues ++
      (robotsSection scan.robotsEntries ++ (securityTxtSection scan.securityTxtExists ++
        (exposedPathSection scan.exposedPaths ++ (niktoSection scan.niktoChecks ++
          (dirsearchSection scan.dirsearch ++ wpscanSection scan.wpscan))))))),
    riskyPortSection scan.openPorts ++ (subdomainSection scan.subdomains ++
      (whoisSection scan.whoisAsn ++ (ipTargetSection scan.isIp scan.reverseDns scan.ip ++
        cveSection scan.cveResults scan.techText))), hbefore, ?_, ?_, ?_⟩
  · exact quiet_append hrest (quiet_append (quiet_ssl _) (quiet_append (quiet_dns _)
      (quiet_append (quiet_robots _) (quiet_append (quiet_securityTxt _)
        (quiet_append (quiet_exposedPath _) (quiet_append scan.quiet_niktoChecks
          (quiet_append (quiet_dirsearch _) (quiet_wpscan _))))))))
  · exact quiet_append (quiet_riskyPort _) (quiet_append (quiet_subdomain _)
      (quiet_append (quiet_whois _) (quiet_append (quiet_ipTarget _ _ _) (quiet_cve _ _))))
  · simp only [Scan.collected, Scan.detectorSection, hsite, append_assoc]

end Split

end ThreatScanner.Analyzer
