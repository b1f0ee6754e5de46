import ThreatScanner.Analyzer.Confirmed
import ThreatScanner.Analyzer.Enterprise
import ThreatScanner.Analyzer.ReportJson

/-!
# The values of a report that begin like a URL

Four fields of an item may hold a URL, `evidence` among them. Most evidence is a fixed text or a
value that a detector observed; the rest `analyze` puts together from several values, and such a
text begins like a URL when its first value does.
-/

namespace ThreatScanner.Analyzer

/-- `value.startswith("http://") or value.startswith("https://")`. -/
def isUrl (s : String) : Bool := startsWith s "http://" || startsWith s "https://"

/-! ## The fields -/

def Finding.urlFields (item : Finding) : List (Option String) :=
  [item.affectedUrl, item.url, item.evidence, item.originalUrl]

def VulnCheck.urlFields (item : VulnCheck) : List (Option String) :=
  [item.affectedUrl, item.url, item.evidence, item.originalUrl]

def Row.urlFields (item : Row) : List (Option String) :=
  [item.affectedUrl, item.evidence, item.originalUrl]

def Exposure.urlFields (item : Exposure) : List (Option String) := [item.url, item.evidence]

def NiktoCheck.urlFields (item : NiktoCheck) : List (Option String) :=
  [item.affectedUrl, item.url, item.evidence]

def Wayback.urlFields (wayback : Wayback) : List (Option String) :=
  (wayback.interestingUrls ++ wayback.parameterizedUrls).map fun item => some item.url

/-! ## Observed and composed texts -/

/-- The text for some values, when there is more than one. -/
def joined (items : List String) : List String := if 2 ≤ items.length then [joinComma items] else []

/-- `dangerous_methods`. -/
def dangerousMethods [UnicodeTables] (httpMethods : List String) : List String :=
  httpMethods.filter fun m => upper m ∈ ["PUT", "DELETE", "TRACE", "CONNECT"]

/-- The values that the evidence for the owner of the address names. -/
def WhoisAsn.parts (whoisAsn : WhoisAsn) : List String :=
  [whoisAsn.asn, whoisAsn.organization, whoisAsn.isp, whoisAsn.country].filterMap fun x =>
    if x.getD "" = "" then none else x

def WpscanFinding.values (item : WpscanFinding) : List String :=
  item.reference.toList ++ item.fixedIn.toList ++ [item.component]

/-- The lines of evidence for an exposure. -/
def Exposure.lines (exposure : Exposure) : List String :=
  if exposure.status = "PROTECTED" then []
  else
    (exposure.url ++ " | " ++ exposure.evidence) ::
    if exposure.severity ∈ ["HIGH", "MEDIUM"] then
      [exposure.url ++ " | HTTP " ++ toString exposure.statusCode ++ " | " ++ exposure.evidence]
    else []

section Texts
variable [UnicodeTables] [EntropyTest]

/-- What the site's own response gives. -/
def Scan.siteObserved (scan : Scan) : List String :=
  match scan.response with
  | none => [scan.url]
  | some response => response.url :: (response.header "Set-Cookie").toList ++
    checkHttpMethods scan.optionsResponse ++ scan.apiEndpoints

/-- The values of a scan that stand in the report as they were observed. -/
def Scan.observed (scan : Scan) : List String :=
  scan.siteObserved ++ scan.ssl.expires.toList ++ scan.dnsIssues ++ scan.robotsEntries ++
  scan.exposedPaths ++ scan.niktoChecks.map NiktoCheck.url ++
  scan.wpscan.findings.flatMap WpscanFinding.values ++
  scan.advancedExposures.map Exposure.url ++ scan.whoisAsn.parts ++ scan.whoisAsn.ip.toList ++
  scan.reverseDns.toList ++ [scan.ip] ++
  scan.cveResults.flatMap fun group => group.cves.map Cve.url

def Scan.siteComposed (scan : Scan) : List String :=
  match scan.response with
  | none => []
  | some _ => joined (dangerousMethods (checkHttpMethods scan.optionsResponse)) ++
    (scan.jsSecrets.take 8).map secretLine ++
    joined ((scan.classifiedEndpoints.take 5).map ApiEndpoint.endpoint)

/-- The evidence of a scan that is put together from several values. -/
def Scan.composed (scan : Scan) : List String :=
  scan.siteComposed ++ joined scan.robotsEntries ++ scan.advancedExposures.flatMap Exposure.lines ++
  if scan.whoisAsn.error.getD "" = "" then joined scan.whoisAsn.parts else []

namespace Outcome

def observed : Outcome → List String
  | invalid .. => []
  | unresolved _ host _ _ => [host]
  | complete scan => scan.observed

def composed : Outcome → List String
  | invalid .. | unresolved .. => []
  | complete scan => scan.composed

/-- The fields of the report, in the order of its sections. -/
def urlFields : Outcome → List (Option String)
  | invalid .. => []
  | unresolved target host targetType profile =>
    let report := unresolvedReport target host targetType profile
    report.findings.flatMap Finding.urlFields ++
      report.vulnerabilityChecks.flatMap VulnCheck.urlFields
  | complete scan =>
    let report := analyze scan
    ([.confirmed, .possible, .hardening, .attackSurface].flatMap fun kind =>
        (report.separatedResults.list kind).flatMap Row.urlFields) ++
      report.findings.flatMap Finding.urlFields ++
      report.vulnerabilityChecks.flatMap VulnCheck.urlFields ++
      scan.advancedExposures.flatMap Exposure.urlFields ++
      scan.niktoChecks.flatMap NiktoCheck.urlFields

/-- The values among them that begin like a URL, those of the archive last. -/
def urlValues (outcome : Outcome) (wayback : Option Wayback) : List String :=
  (outcome.urlFields ++ wayback.toList.flatMap Wayback.urlFields).filterMap (Option.filter isUrl)

end Outcome

end Texts

/-! ## Texts that do not begin like a URL -/

/-- The text begins with a character that no URL begins with. -/
def plain (s : String) : Bool := s.toList.head?.any fun c => c ≠ 'h'

section Plain
variable {s t : String}

theorem plain_iff : plain s = true ↔ ∃ c cs, s.toList = c :: cs ∧ c ≠ 'h' := by
  rw [plain]
  cases s.toList with
  | nil => simp
  | cons c cs => simp

theorem not_isUrl_of_plain (h : plain s = true) : isUrl s = false := by
  obtain ⟨c, cs, hs, hne⟩ := plain_iff.mp h
  have hnot : ∀ start : String, start.toList.head? = some 'h' → startsWith s start = false := by
    intro start hstart
    obtain ⟨rest, hrest⟩ := List.head?_eq_some_iff.mp hstart
    rw [startsWith, decide_eq_false_iff_not, hs, hrest, List.cons_prefix_cons]
    exact fun hprefix => hne hprefix.1.symm
  rw [isUrl, hnot _ (by decide), hnot _ (by decide), Bool.or_false]

theorem plain_append (h : plain s = true) : plain (s ++ t) = true := by
  obtain ⟨c, cs, hs, hne⟩ := plain_iff.mp h
  exact plain_iff.mpr ⟨c, cs ++ t.toList, by rw [String.toList_append, hs, List.cons_append], hne⟩

theorem joinComma_singleton : joinComma [s] = s := String.intercalate_singleton

theorem joinComma_cons_cons (items : List String) :
    joinComma (s :: t :: items) = s ++ ", " ++ joinComma (t :: items) :=
  String.intercalate_cons_cons

theorem plain_joinComma {items : List String} (h : plain s = true) :
    plain (joinComma (s :: items)) = true := by
  cases items with
  | nil => rwa [joinComma_singleton]
  | cons t items =>
    rw [joinComma_cons_cons]
    exact plain_append (plain_append h)

end Plain

/-! ## What the sections add -/

/-- The value is of the kind `K` if it begins like a URL. -/
def Keeps (K : String → Prop) (value : Option String) : Prop := ∀ v ∈ value, isUrl v = true → K v

section Keeps
variable {K : String → Prop} {s t : String} {x y : Option String} {items : List String}

theorem keeps_none : Keeps K none := nofun

theorem keeps_some (h : K s) : Keeps K (some s) := by
  rintro _ ⟨⟩ _
  exact h

theorem keeps_plain (h : plain s = true) : Keeps K (some s) := by
  rintro _ ⟨⟩ hurl
  exact absurd (hurl.symm.trans (not_isUrl_of_plain h)) (by decide)

theorem keeps_of_forall (h : ∀ v ∈ x, K v) : Keeps K x := fun v hv _ => h v hv

theorem keeps_orElse (hx : Keeps K x) (hy : Keeps K y) : Keeps K (orElse x y) := by
  rw [orElse]
  split
  · exact hy
  · exact hx

theorem keeps_empty : Keeps K (some "") := by
  rintro _ ⟨⟩ hurl
  exact absurd hurl (by decide)

theorem keeps_joinComma (hitems : ∀ v ∈ items, K v) (hjoined : ∀ v ∈ joined items, K v) :
    Keeps K (some (joinComma items)) := by
  match items with
  | [] => exact keeps_empty
  | [s] =>
    rw [joinComma_singleton]
    exact keeps_some (hitems s List.mem_cons_self)
  | _ :: _ :: _ => exact keeps_some (hjoined _ List.mem_cons_self)

end Keeps

namespace Section

/-- What begins like a URL in the items of the section is of the kind `K`. -/
def UrlsIn (K : String → Prop) (s : Section) : Prop :=
  s.All (fun f => ∀ v ∈ f.urlFields, Keeps K v) fun c => ∀ v ∈ c.urlFields, Keeps K v

section Rules
variable {K : String → Prop} {s t : Section} {p : Prop} [Decidable p]
  {title severity description : String} {fix evidence : Option String}
  {category confidence evidenceType text : String}

theorem urlsIn_append (hs : s.UrlsIn K) (ht : t.UrlsIn K) : (s ++ t).UrlsIn K := All.append hs ht

theorem urlsIn_ite (hs : s.UrlsIn K) (ht : t.UrlsIn K) : (if p then s else t).UrlsIn K :=
  all_ite (fun _ => hs) fun _ => ht

/-- Of the four fields the two calls set `evidence` only. -/
theorem keeps_evidence_only (h : Keeps K evidence) :
    ∀ v ∈ [none, none, evidence, none], Keeps K v := by
  simpa [keeps_none] using h

theorem urlsIn_finding (h : Keeps K evidence) :
    (addFinding title severity description fix category evidence confidence
      evidenceType).UrlsIn K :=
  ⟨List.forall_mem_singleton.mpr (keeps_evidence_only h), List.forall_mem_nil _⟩

theorem urlsIn_vuln (h : Keeps K evidence) :
    (addVuln title severity evidence description fix category confidence evidenceType).UrlsIn K :=
  ⟨List.forall_mem_nil _, List.forall_mem_singleton.mpr (keeps_evidence_only h)⟩

/-- A note, a check and a finding. -/
theorem urlsIn_noted {severity' category' confidence' evidenceType' title' description' : String}
    {fix' evidence' : Option String} (h : Keeps K evidence) (h' : Keeps K evidence') :
    (note text ++ addVuln title severity evidence description fix category confidence
      evidenceType ++ addFinding title' severity' description' fix' category' evidence' confidence'
        evidenceType').UrlsIn K :=
  urlsIn_append (urlsIn_append (all_note text) (urlsIn_vuln h)) (urlsIn_finding h')

end Rules

/-! ## The site's own response -/

section Site
variable {K : String → Prop} (response : Response)

theorem urlsIn_unreachable {url : String} (h : K url) : (unreachableSection url).UrlsIn K :=
  urlsIn_noted (keeps_some h) (keeps_some h)

theorem urlsIn_http (h : K response.url) : (httpSection response).UrlsIn K :=
  urlsIn_ite (urlsIn_noted (keeps_some h) (keeps_some h)) all_empty

theorem urlsIn_status : (statusSection response).UrlsIn K := by
  have hcode (text : String) : Keeps K (some ("HTTP " ++ text)) :=
    keeps_plain (plain_append (by decide))
  exact urlsIn_ite (urlsIn_vuln (hcode _)) (urlsIn_ite (urlsIn_vuln (hcode _)) all_empty)

theorem urlsIn_securityHeader : (securityHeaderSection response).UrlsIn K := by
  have hplain : ∀ h ∈ securityHeaders, plain h.1 = true := by decide
  refine all_forEach fun h hmem => urlsIn_ite all_empty ?_
  have hkeep := keeps_plain (K := K) (plain_append (t := " not present") (hplain h hmem))
  exact urlsIn_noted hkeep hkeep

theorem urlsIn_disclosure : (disclosureSection response).UrlsIn K := by
  have hserver (text : String) : Keeps K (some ("Server: " ++ text)) :=
    keeps_plain (plain_append (by decide))
  have hpowered (text : String) : Keeps K (some ("X-Powered-By: " ++ text)) :=
    keeps_plain (plain_append (by decide))
  exact urlsIn_append (urlsIn_ite all_empty (urlsIn_noted (hserver _) (hserver _)))
    (urlsIn_ite all_empty (urlsIn_noted (hpowered _) (hpowered _)))

theorem urlsIn_cookie (h : ∀ v ∈ response.header "Set-Cookie", K v) :
    (cookieSection response).UrlsIn K := by
  have hcookies : Keeps K (some ((response.header "Set-Cookie").getD "")) := by
    cases hheader : response.header "Set-Cookie" with
    | none => exact keeps_empty
    | some cookies => exact keeps_some (h cookies hheader)
  have hflag {p : Bool} {text name severity impact fix : String} : Section.UrlsIn K
      (if p = true then ∅ else note text ++ addVuln name severity
        (some ((response.header "Set-Cookie").getD "")) impact fix "Cookies") :=
    urlsIn_ite all_empty (urlsIn_append (all_note _) (urlsIn_vuln hcookies))
  exact urlsIn_ite all_empty (urlsIn_append (urlsIn_append hflag hflag) hflag)

theorem urlsIn_cors {corsIssues : List String} (h : ∀ issue ∈ corsIssues, plain issue = true) :
    (corsSection corsIssues).UrlsIn K :=
  all_forEach fun issue hissue =>
    urlsIn_noted (keeps_plain (h issue hissue)) (keeps_plain (h issue hissue))

theorem urlsIn_method [UnicodeTables] {httpMethods : List String} (h : ∀ m ∈ httpMethods, K m)
    (hjoined : ∀ text ∈ joined (dangerousMethods httpMethods), K text) :
    (methodSection httpMethods).UrlsIn K := by
  have hdangerous : ∀ m ∈ dangerousMethods httpMethods, K m :=
    fun m hm => h m (List.mem_of_mem_filter hm)
  refine urlsIn_ite all_empty (urlsIn_append (urlsIn_append (all_note _) ?_) ?_)
  · exact all_forEach fun m hm => urlsIn_vuln (keeps_some (hdangerous m hm))
  · exact urlsIn_finding (keeps_joinComma hdangerous hjoined)

theorem urlsIn_jsSecret {jsSecrets : List JsSecret}
    (h : ∀ secret ∈ jsSecrets.take 8, K (secretLine secret)) :
    (jsSecretSection jsSecrets).UrlsIn K :=
  urlsIn_append (urlsIn_ite (all_note _) all_empty) (all_forEach fun secret hmem =>
    urlsIn_append (urlsIn_vuln (keeps_some (h secret hmem)))
      (urlsIn_finding (keeps_some (h secret hmem))))

theorem urlsIn_apiEndpoint {endpoints : List ApiEndpoint} (h : ∀ e ∈ endpoints, K e.endpoint)
    (hjoined : ∀ text ∈ joined ((endpoints.take 5).map ApiEndpoint.endpoint), K text) :
    (apiEndpointSection endpoints).UrlsIn K := by
  refine urlsIn_ite all_empty (urlsIn_append (urlsIn_finding (keeps_joinComma ?_ hjoined)) ?_)
  · exact List.forall_mem_map.mpr fun e he => h e (List.mem_of_mem_take he)
  · exact all_forEach fun e he => urlsIn_ite
      (urlsIn_finding (keeps_some (h e (List.mem_of_mem_take he)))) all_empty

theorem urlsIn_sqli {results : List ValidationResult}
    (h : ∀ item ∈ results, plain item.evidence = true) : (sqliSection results).UrlsIn K :=
  all_forEach fun item hitem => urlsIn_append (urlsIn_vuln (keeps_plain (h item hitem)))
    (urlsIn_finding (keeps_plain (h item hitem)))

theorem urlsIn_xss {results : List ValidationResult}
    (h : ∀ item ∈ results, plain item.evidence = true) : (xssSection results).UrlsIn K :=
  all_forEach fun item hitem => urlsIn_append (urlsIn_finding (keeps_plain (h item hitem)))
    (urlsIn_ite (urlsIn_vuln (keeps_plain (h item hitem))) all_empty)

theorem urlsIn_directoryListing (pageText : String) :
    (directoryListingSection pageText).UrlsIn K :=
  urlsIn_ite (urlsIn_noted (keeps_plain (by decide)) (keeps_plain (by decide))) all_empty

end Site

/-! ## The other detectors -/

section Detectors
variable {K : String → Prop}

theorem urlsIn_ssl {ssl : SslResult} (h : ∀ v ∈ ssl.expires, K v) :
    (sslSection ssl).UrlsIn K := by
  have hexpires : Keeps K (some (showOption ssl.expires)) := by
    cases hvalue : ssl.expires with
    | none => exact keeps_plain (by decide)
    | some expires => exact keeps_some (h expires hvalue)
  exact urlsIn_ite all_empty (urlsIn_noted hexpires hexpires)

theorem urlsIn_dns {issues : List String} (h : ∀ issue ∈ issues, K issue) :
    (dnsSection issues).UrlsIn K :=
  all_forEach fun issue hissue => urlsIn_ite
    (urlsIn_noted (keeps_some (h issue hissue)) (keeps_some (h issue hissue))) all_empty

theorem urlsIn_robots {entries : List String} (h : ∀ entry ∈ entries, K entry)
    (hjoined : ∀ text ∈ joined entries, K text) : (robotsSection entries).UrlsIn K :=
  urlsIn_ite all_empty
    (urlsIn_noted (keeps_joinComma h hjoined) (keeps_joinComma h hjoined))

theorem urlsIn_securityTxt (present : Bool) : (securityTxtSection present).UrlsIn K :=
  urlsIn_ite all_empty (urlsIn_finding keeps_none)

theorem urlsIn_exposedPath {paths : List String} (h : ∀ path ∈ paths, K path) :
    (exposedPathSection paths).UrlsIn K :=
  all_forEach fun path hpath => urlsIn_append (all_note _) (urlsIn_vuln (keeps_some (h path hpath)))

theorem urlsIn_nikto {checks : List NiktoCheck}
    (h : ∀ check ∈ checks, plain check.evidence = true ∧ K check.url) :
    (niktoSection checks).UrlsIn K :=
  all_forEach fun check hcheck =>
    urlsIn_noted (keeps_plain (h check hcheck).1) (keeps_some (h check hcheck).2)

theorem urlsIn_dirsearch (result : DirsearchResult) : (dirsearchSection result).UrlsIn K :=
  urlsIn_ite (urlsIn_noted (keeps_plain (plain_append (plain_append (by decide))))
    (keeps_plain (plain_append (by decide)))) all_empty

theorem urlsIn_wpscan {result : WpscanResult}
    (h : ∀ item ∈ result.findings, ∀ v ∈ item.values, K v) : (wpscanSection result).UrlsIn K := by
  refine urlsIn_ite (urlsIn_append (urlsIn_noted ?_ ?_) (all_forEach fun item hitem => ?_))
    all_empty
  · exact keeps_plain (plain_append (plain_append (plain_append (plain_append (plain_append
      (by decide))))))
  · exact keeps_plain (plain_append (by decide))
  · have hvalues := h item (List.mem_of_mem_take hitem)
    simp only [WpscanFinding.values, List.forall_mem_append, Option.mem_toList] at hvalues
    obtain ⟨⟨hreference, hfixed⟩, hcomponent⟩ := hvalues
    exact urlsIn_finding (keeps_orElse
      (keeps_orElse (keeps_of_forall hreference) (keeps_of_forall hfixed))
      (keeps_some (hcomponent _ List.mem_cons_self)))

theorem urlsIn_exposure {exposures : List Exposure}
    (h : ∀ e ∈ exposures, plain e.evidence = true ∧ ∀ text ∈ e.lines, K text) :
    (exposureSection exposures).UrlsIn K := by
  refine all_forEach fun e he => ?_
  obtain ⟨hplain, hlines⟩ := h e he
  rw [Exposure.lines] at hlines
  rw [exposureItems]
  by_cases hprotected : e.status = "PROTECTED"
  · rw [if_pos hprotected]
    exact urlsIn_finding (keeps_plain hplain)
  · rw [if_neg hprotected, List.forall_mem_cons] at hlines
    rw [if_neg hprotected]
    refine urlsIn_append (urlsIn_finding (keeps_some hlines.1)) (all_ite (fun hserious => ?_)
      fun _ => all_empty)
    rw [if_pos hserious, List.forall_mem_singleton] at hlines
    exact urlsIn_vuln (keeps_some hlines.2)

theorem urlsIn_graphql {introspection : Option GraphqlIntrospection}
    (h : ∀ result ∈ introspection, plain result.evidence = true) :
    (graphqlSection introspection).UrlsIn K := by
  cases introspection with
  | none => exact all_empty
  | some result =>
    have hkeep : Keeps K (some result.evidence) := keeps_plain (h result rfl)
    exact urlsIn_append (urlsIn_finding hkeep) (urlsIn_ite (urlsIn_vuln hkeep) all_empty)

/-- The text for the ports begins with the number of the first. -/
theorem urlsIn_riskyPort (ports : List OpenPort) : (riskyPortSection ports).UrlsIn K := by
  have hplain : ∀ port ∈ riskyPorts, plain (toString port) = true := by decide
  rw [riskyPortSection]
  cases hrisky : ports.filter fun p => p.port ∈ riskyPorts with
  | nil => exact all_empty
  | cons p risky =>
    have hp : p ∈ ports.filter fun p => p.port ∈ riskyPorts := hrisky ▸ List.mem_cons_self
    have hport := hplain p.port (by simpa using (List.mem_filter.mp hp).2)
    have hfirst : plain (toString p.port ++ " (" ++ p.service ++ ")") = true :=
      plain_append (plain_append (plain_append hport))
    have hkeep : Keeps K (some (joinComma
        ((p :: risky).map fun p => toString p.port ++ " (" ++ p.service ++ ")"))) :=
      keeps_plain (plain_joinComma hfirst)
    exact urlsIn_ite all_empty (urlsIn_noted hkeep hkeep)

theorem urlsIn_subdomain (subdomains : List Subdomain) : (subdomainSection subdomains).UrlsIn K :=
  urlsIn_ite all_empty (urlsIn_finding keeps_none)

theorem urlsIn_whois {whoisAsn : WhoisAsn} (h : ∀ v ∈ whoisAsn.parts, K v)
    (hip : ∀ v ∈ whoisAsn.ip, K v)
    (hjoined : whoisAsn.error.getD "" = "" → ∀ text ∈ joined whoisAsn.parts, K text) :
    (whoisSection whoisAsn).UrlsIn K :=
  all_ite (fun herror => urlsIn_finding
    (keeps_orElse (keeps_joinComma h (hjoined herror)) (keeps_of_forall hip))) fun _ => all_empty

theorem urlsIn_ipTarget {isIp : Bool} {reverseDns : Option String} {ip : String}
    (hreverse : ∀ v ∈ reverseDns, K v) (hip : K ip) :
    (ipTargetSection isIp reverseDns ip).UrlsIn K :=
  urlsIn_ite (urlsIn_finding (keeps_orElse (keeps_of_forall hreverse) (keeps_some hip))) all_empty

theorem urlsIn_cve {cveResults : List CveGroup} {techText : String} [UnicodeTables]
    (h : ∀ group ∈ cveResults, ∀ cve ∈ group.cves, K cve.url) :
    (cveSection cveResults techText).UrlsIn K := by
  refine all_forEach fun group hgroup => all_forEach fun cve hcve => ?_
  have hurl : Keeps K (some cve.url) := keeps_some (h group hgroup cve hcve)
  have hevidence : Keeps K (some (cveEvidence group.technology cve)) := by
    refine keeps_plain ?_
    unfold cveEvidence
    iterate 11 refine plain_append ?_
    decide
  have hfields : ∀ v ∈ [some cve.url, none, some (cveEvidence group.technology cve), none],
      Keeps K v := by
    simp [keeps_none, hurl, hevidence]
  exact ⟨List.forall_mem_singleton.mpr hfields, List.forall_mem_singleton.mpr hfields⟩

end Detectors

end Section

/-! ## The evidence of the detectors -/

theorem plain_sqliResult {baseUrl : String} {observe : String × String → Option PairObservation}
    {item : ValidationResult} (h : item ∈ validateSqliBehavior baseUrl observe) :
    plain item.evidence = true := by
  obtain ⟨⟨truthy, falsy⟩, _, h⟩ := List.mem_filterMap.mp (mem_of_mem_distinctBy h)
  obtain ⟨seen, _, h⟩ := Option.bind_eq_some_iff.mp h
  split_ifs at h <;> cases h
  · exact plain_append (plain_append (plain_append (by decide)))
  · exact plain_append (by decide)

section Evidence
variable [UnicodeTables]

theorem endpoint_classifyApiEndpoint (endpoint : String) :
    (classifyApiEndpoint endpoint).endpoint = endpoint := by
  simp only [classifyApiEndpoint]
  split_ifs <;> rfl

theorem plain_xssResult {baseUrl : String} {responses : String → Option Response}
    {item : ValidationResult} (h : item ∈ validateXssReflection baseUrl responses) :
    plain item.evidence = true := by
  obtain ⟨payload, _, h⟩ := List.mem_filterMap.mp (mem_of_mem_distinctBy h)
  obtain ⟨res, _, h⟩ := Option.bind_eq_some_iff.mp h
  obtain ⟨context, _, rfl⟩ := Option.map_eq_some_iff.mp h
  exact plain_append (plain_append (plain_append (by decide)))

theorem plain_niktoCheck {responses : NiktoPath → Option Response} {check : NiktoCheck}
    (h : check ∈ checkNiktoPaths responses) :
    plain check.evidence = true ∧ check.affectedUrl = check.url := by
  obtain ⟨item, _, h⟩ := List.mem_filterMap.mp h
  obtain ⟨res, _, h⟩ := Option.bind_eq_some_iff.mp h
  dsimp only at h
  split_ifs at h
  cases h
  exact ⟨plain_append (plain_append (plain_append (by decide))), rfl⟩

theorem plain_classified {res : Response} {item : ExposurePath} {e : Exposure}
    (h : classifyExposureStatus res item = some e) : plain e.evidence = true := by
  have hschema : plain "OpenAPI schema appears publicly accessible." = true := by decide
  have hlogin (text : String) : plain ("HTTP 200 with indicators: " ++ text) = true :=
    plain_append (by decide)
  have hredirect (text : String) : plain ("Redirects to " ++ text) = true :=
    plain_append (by decide)
  simp only [classifyExposureStatus] at h
  split at h
  · cases h
    exact plain_append (plain_append (by decide))
  split at h
  · cases h
  split at h
  · cases h
    exact hschema
  split at h
  · cases h
    exact hlogin _
  split at h <;> cases h
  exact hredirect _

theorem plain_introspection {res : Option Response} {result : GraphqlIntrospection}
    (h : checkGraphqlIntrospection res = some result) : plain result.evidence = true := by
  have henabled : plain "GraphQL introspection appears enabled publicly." = true := by decide
  obtain ⟨response, _, h⟩ := Option.bind_eq_some_iff.mp h
  dsimp only at h
  split_ifs at h <;> cases h
  · exact henabled
  · exact plain_append (plain_append (by decide))

theorem plain_cors (response : Response) :
    ∀ issue ∈ checkCors response, plain issue = true := by
  intro issue h
  rcases List.mem_append.mp h with h | h
  all_goals
    split at h
    · rw [List.mem_singleton.mp h]
      decide
    · cases h

variable (scan : Scan)

theorem Scan.plain_exposure {e : Exposure} (h : e ∈ scan.advancedExposures) :
    plain e.evidence = true := by
  obtain ⟨item, _, res, _, hres⟩ := exists_of_mem_advancedExposures h
  exact plain_classified hres

theorem Scan.plain_nikto {check : NiktoCheck} (h : check ∈ scan.niktoChecks) :
    plain check.evidence = true ∧ check.affectedUrl = check.url :=
  plain_niktoCheck (Scan.found_of_niktoChecks h)

end Evidence

/-! ## What all sections add -/

section Collected
open Section
variable [UnicodeTables] [EntropyTest] (scan : Scan)

/-- The text is a value of the scan or put together from several. -/
def Scan.Shows (v : String) : Prop := v ∈ scan.observed ∨ v ∈ scan.composed

theorem urlsIn_site : scan.siteSection.UrlsIn scan.Shows := by
  have hobserved : ∀ v ∈ scan.siteObserved, scan.Shows v := fun v hv => by
    simp [Scan.Shows, Scan.observed, hv]
  have hcomposed : ∀ v ∈ scan.siteComposed, scan.Shows v := fun v hv => by
    simp [Scan.Shows, Scan.composed, hv]
  simp only [Scan.siteSection]
  simp only [Scan.siteObserved, Scan.siteComposed] at hobserved hcomposed
  cases hresponse : scan.response with
  | none =>
    rw [hresponse] at hobserved
    exact urlsIn_unreachable (hobserved _ List.mem_cons_self)
  | some response =>
    simp only [hresponse, List.cons_append, List.forall_mem_cons, List.forall_mem_append,
      Option.mem_toList, List.forall_mem_map] at hobserved hcomposed
    obtain ⟨hurl, ⟨hcookie, hmethods⟩, hendpoints⟩ := hobserved
    obtain ⟨⟨hjoinedMethods, hsecrets⟩, hjoinedEndpoints⟩ := hcomposed
    have hclassified : ∀ e ∈ scan.classifiedEndpoints, scan.Shows e.endpoint := by
      simp only [Scan.classifiedEndpoints]
      split
      · exact List.forall_mem_map.mpr fun endpoint h =>
          (endpoint_classifyApiEndpoint endpoint).symm ▸ hendpoints endpoint h
      · exact List.forall_mem_nil _
    have hsqli : ∀ item ∈ scan.sqliResults response, plain item.evidence = true :=
      fun item h => plain_sqliResult (Scan.found_of_sqliResults h)
    have hxss : ∀ item ∈ scan.xssResults response, plain item.evidence = true :=
      fun item h => plain_xssResult (Scan.found_of_xssResults h)
    exact urlsIn_append (urlsIn_append (urlsIn_append (urlsIn_append (urlsIn_append
      (urlsIn_append (urlsIn_append (urlsIn_append (urlsIn_append (urlsIn_append (urlsIn_append
        (urlsIn_http _ hurl) (urlsIn_status _)) (urlsIn_securityHeader _)) (urlsIn_disclosure _))
        (urlsIn_cookie _ hcookie)) (urlsIn_cors (plain_cors _)))
        (urlsIn_method hmethods hjoinedMethods)) (urlsIn_jsSecret hsecrets))
        (urlsIn_apiEndpoint hclassified hjoinedEndpoints)) (urlsIn_sqli hsqli)) (urlsIn_xss hxss))
        (urlsIn_directoryListing _)

theorem urlsIn_collected : scan.collected.UrlsIn scan.Shows := by
  have hobserved : ∀ v ∈ scan.observed, scan.Shows v := fun _ => .inl
  have hcomposed : ∀ v ∈ scan.composed, scan.Shows v := fun _ => .inr
  simp only [Scan.observed, Scan.composed, List.forall_mem_append, Option.mem_toList,
    List.forall_mem_map, List.forall_mem_flatMap, List.forall_mem_singleton] at hobserved hcomposed
  obtain ⟨⟨⟨⟨⟨⟨⟨⟨⟨⟨⟨⟨_, hssl⟩, hdns⟩, hrobots⟩, hpaths⟩, hnikto⟩, hwpscan⟩, hexposure⟩, hparts⟩,
    hip⟩, hreverse⟩, haddress⟩, hcve⟩ := hobserved
  obtain ⟨⟨⟨_, hrobotsJoined⟩, hlines⟩, hwhois⟩ := hcomposed
  have hintrospection : ∀ result ∈ scan.graphqlIntrospection, plain result.evidence = true :=
    fun result h => plain_introspection (Scan.found_of_graphqlIntrospection h)
  exact urlsIn_append (urlsIn_append (urlsIn_append (urlsIn_append (urlsIn_append (urlsIn_append
    (urlsIn_append (urlsIn_append (urlsIn_append (urlsIn_append (urlsIn_append (urlsIn_append
      (urlsIn_append (urlsIn_append (urlsIn_append (urlsIn_site _) (urlsIn_ssl hssl))
      (urlsIn_dns hdns)) (urlsIn_robots hrobots hrobotsJoined)) (urlsIn_securityTxt _))
      (urlsIn_exposedPath hpaths))
      (urlsIn_nikto fun check h => ⟨(scan.plain_nikto h).1, hnikto check h⟩))
      (urlsIn_dirsearch _)) (urlsIn_wpscan hwpscan))
      (urlsIn_exposure fun e h => ⟨scan.plain_exposure h, hlines e h⟩))
      (urlsIn_graphql hintrospection)) (urlsIn_riskyPort _)) (urlsIn_subdomain _))
      (urlsIn_whois hparts hip fun herror => by rwa [if_pos herror] at hwhois))
      (urlsIn_ipTarget hreverse haddress)) (urlsIn_cve hcve)

theorem shows_exposureUrl {e : Exposure} (h : e ∈ scan.advancedExposures) : scan.Shows e.url := by
  have hmem := List.mem_map_of_mem (f := Exposure.url) h
  simp only [Scan.Shows, Scan.observed, List.mem_append, hmem, true_or, or_true]

theorem shows_niktoUrl {check : NiktoCheck} (h : check ∈ scan.niktoChecks) :
    scan.Shows check.url := by
  have hmem := List.mem_map_of_mem (f := NiktoCheck.url) h
  simp only [Scan.Shows, Scan.observed, List.mem_append, hmem, true_or, or_true]

end Collected

end ThreatScanner.Analyzer
