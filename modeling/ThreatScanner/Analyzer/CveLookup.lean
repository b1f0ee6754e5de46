import ThreatScanner.Python.Values

/-!
# The CVE lookup

`fetch_cves_for_keyword` turns each vulnerability of a response of the NVD into a record and stops
at the first that raises, with the records so far. `extract_cve_references` takes `references` for
an object that holds `referenceData`; in the API that is asked it is an array, which has no `get`.
-/

namespace ThreatScanner.Analyzer

/-- What `extract_cvss_data` returns. -/
structure CvssData where
  version : Json := .null
  score : Json := .null
  severity : Json := .str "UNKNOWN"
  vector : Json := .null
  attackVector : Json := .null
  attackComplexity : Json := .null
  privilegesRequired : Json := .null
  userInteraction : Json := .null
  scope : Json := .null
  confidentiality : Json := .null
  integrity : Json := .null
  availability : Json := .null

/-- The keys of the metrics, with the text that stands for the version when it is not given. -/
def cvssKeys : List (String × String) :=
  [("cvssMetricV40", "CVSS v40"), ("cvssMetricV31", "CVSS v31"), ("cvssMetricV30", "CVSS v30"),
   ("cvssMetricV2", "CVSS v2")]

/-- The data of the first metric under a key. -/
def cvssOfMetric (item : Json) (versionText : String) : Except PyError CvssData := do
  let cvss ← item.get "cvssData" (.obj [])
  let version ← cvss.get "version"
  let score ← cvss.get "baseScore"
  let baseSeverity ← cvss.get "baseSeverity"
  let itemSeverity ← item.get "baseSeverity"
  let vector ← cvss.get "vectorString"
  let attackVector ← cvss.get "attackVector"
  let attackComplexity ← cvss.get "attackComplexity"
  let privilegesRequired ← cvss.get "privilegesRequired"
  let userInteraction ← cvss.get "userInteraction"
  let scope ← cvss.get "scope"
  let confidentiality ← cvss.get "confidentialityImpact"
  let integrity ← cvss.get "integrityImpact"
  let availability ← cvss.get "availabilityImpact"
  .ok {
    version := version.orElse (.str versionText)
    score, vector, attackVector, attackComplexity, privilegesRequired, userInteraction, scope
    severity := (baseSeverity.orElse itemSeverity).orElse (.str "UNKNOWN")
    confidentiality, integrity, availability }

/-- The loop of `extract_cvss_data`. -/
def firstCvss (metrics : Json) : List (String × String) → Except PyError CvssData
  | [] => .ok {}
  | (key, versionText) :: rest => do
    if ← metrics.hasKey key then
      let entries ← metrics.item key
      if entries.truthy then cvssOfMetric (← entries.first) versionText
      else firstCvss metrics rest
    else firstCvss metrics rest

/-- `extract_cvss_data`. -/
def extractCvssData (metrics : Json) : Except PyError CvssData :=
  firstCvss (metrics.orElse (.obj [])) cvssKeys

/-- `x.get(key, []) or []`, as what is looped over. -/
def listAt (x : Json) (key : String) : Except PyError (List Json) := do
  let value ← x.get key (.arr [])
  (value.orElse (.arr [])).iterate

/-- The inner loop of `extract_cwe_list`. -/
def addWeaknesses : List Json → List Json → Except PyError (List Json)
  | [], weaknesses => .ok weaknesses
  | desc :: rest, weaknesses => do
    let value ← desc.get "value"
    if value.truthy && !(weaknesses.any fun w => w.eq value) then
      addWeaknesses rest (weaknesses ++ [value])
    else addWeaknesses rest weaknesses

/-- `extract_cwe_list`. -/
def extractCweList (cve : Json) : Except PyError (List Json) := do
  let items ← listAt cve "weaknesses"
  items.foldlM (fun weaknesses weakness => do
    let descs ← listAt weakness "description"
    addWeaknesses descs weaknesses) []

structure Reference where
  url : Json
  source : Json
  tags : Json

/-- The body of the loop of `extract_cve_references`. -/
def referenceOf (ref : Json) : Except PyError (Option Reference) := do
  let url ← ref.get "url"
  let source ← ref.get "source"
  let tags ← ref.get "tags" (.arr [])
  .ok (if url.truthy then some ⟨url, source, tags.orElse (.arr [])⟩ else none)

/-- `extract_cve_references`. -/
def extractCveReferences (cve : Json) : Except PyError (List Reference) := do
  let references ← cve.get "references" (.obj [])
  let items ← listAt references "referenceData"
  let refs ← items.mapM referenceOf
  .ok ((refs.filterMap id).take 20)

/-! ## The intelligence of a CVE -/

section Intelligence
variable [UnicodeTables] [JsonText]

/-- `rules`: the attack types with the texts that tell them. -/
def attackRules : List (String × List String) :=
  [("Remote Code Execution",
      ["remote code execution", "rce", "execute arbitrary code", "code execution"]),
   ("Authentication Bypass",
      ["authentication bypass", "auth bypass", "bypass authentication", "unauthenticated"]),
   ("Privilege Escalation", ["privilege escalation", "escalate privileges", "gain privileges"]),
   ("Directory Traversal / LFI",
      ["directory traversal", "path traversal", "local file inclusion", "lfi",
       "read arbitrary file"]),
   ("SQL Injection", ["sql injection", "sqli"]),
   ("Cross-Site Scripting", ["cross-site scripting", "xss"]),
   ("SSRF", ["server-side request forgery", "ssrf"]),
   ("Deserialization", ["deserialization", "unserialize", "pickle"]),
   ("Information Disclosure",
      ["information disclosure", "sensitive information", "exposure", "leak"]),
   ("Denial of Service", ["denial of service", "dos", "crash", "resource exhaustion"])]

/-- `classify_cve_attack_type`. -/
def classifyCveAttackType (description : Json) (weaknesses : List Json) :
    Except PyError (List String) := do
  let text ← description.lowered
  let weaknessesText := lower (String.intercalate " " (weaknesses.map JsonText.text))
  let combined := text ++ " " ++ weaknessesText
  let detected := (attackRules.filter fun rule =>
    rule.2.any fun pattern => contains combined pattern).map Prod.fst
  .ok (if detected = [] then ["General Vulnerability"] else detected)

/-- `search_links`. -/
structure SearchLinks where
  nvd : String
  githubPocSearch : String
  exploitDbSearch : String
  googleSearch : String

/-- What `analyze_public_exploit_intel` returns. -/
structure ExploitIntel where
  publicExploitIndicators : Bool
  githubPocReference : Bool
  exploitDbReference : Bool
  metasploitReference : Bool
  exploitability : String
  searchLinks : SearchLinks

def exploitKeywords : List String :=
  ["exploit", "proof of concept", "poc", "metasploit", "packetstorm", "exploit-db", "0day",
   "weaponized"]

/-- The text of a reference in `ref_text`. -/
def Reference.text (ref : Reference) : Except PyError String := do
  let tags ← (ref.tags.orElse (.arr [])).joinSpace
  .ok (JsonText.text ref.url ++ " " ++ tags)

def searchLinks (cveId : Json) : Except PyError SearchLinks := do
  let id := JsonText.text cveId
  let number ← if cveId.truthy then cveId.replaced "CVE-" "" else .ok ""
  .ok {
    nvd := "https://nvd.nist.gov/vuln/detail/" ++ id
    githubPocSearch := "https://github.com/search?q=" ++ id ++ "+poc&type=repositories"
    exploitDbSearch := "https://www.exploit-db.com/search?cve=" ++ number
    googleSearch := "https://www.google.com/search?q=" ++ id ++ "+exploit+poc" }

/-- `analyze_public_exploit_intel`. -/
def analyzePublicExploitIntel (cveId : Json) (refs : List Reference) (description : Json) :
    Except PyError ExploitIntel := do
  let description ← description.lowered
  let texts ← refs.mapM Reference.text
  let refText := lower (String.intercalate " " texts)
  let urls := refs.map fun ref => lower (JsonText.text ref.url)
  let githubPoc := urls.any fun url => contains url "github.com"
  let exploitDb := urls.any fun url => contains url "exploit-db.com"
  let metasploit := contains refText "metasploit"
  let publicExploit := exploitKeywords.any fun k => contains refText k || contains description k
  let links ← searchLinks cveId
  .ok {
    publicExploitIndicators := publicExploit || githubPoc || exploitDb || metasploit
    githubPocReference := githubPoc
    exploitDbReference := exploitDb
    metasploitReference := metasploit
    exploitability :=
      if exploitDb || metasploit then "HIGH"
      else if publicExploit || githubPoc then "MEDIUM"
      else "UNKNOWN"
    searchLinks := links }

/-- What `estimate_patch_guidance` returns. -/
structure PatchGuidance where
  patchSignalFound : Bool
  guidance : String
  vendorOrAdvisoryRefs : List String

/-- `estimate_patch_guidance`. -/
def estimatePatchGuidance (description : Json) (refs : List Reference) :
    Except PyError PatchGuidance := do
  let text ← description.lowered
  let urls := refs.map fun ref => JsonText.text ref.url
  .ok {
    patchSignalFound := ["fixed", "patched", "upgrade", "update", "prior to", "before",
      "version"].any fun w => contains text w
    guidance := "Update to the latest patched version from the vendor. " ++
      "Verify the detected product version before marking this CVE applicable."
    vendorOrAdvisoryRefs := (urls.filter fun url =>
      ["github.com", "gitlab", "vendor", "advisory", "security"].any fun x =>
        contains (lower url) x).take 5 }

/-- What `build_cve_intelligence` returns. -/
structure CveIntelligence where
  attackTypes : List String
  cvss : CvssData
  weaknesses : List Json
  exploitIntelligence : ExploitIntel
  patch : PatchGuidance
  internetExposureRisk : String

/-- `score is not None and score >= n`. -/
def reaches (score : Json) (n : Int) : Except PyError Bool :=
  match score with
  | .null => .ok false
  | score => score.atLeast n

/-- `internet_exposure_risk`, before the exploits are taken into account. -/
def exposureRisk (score : Json) : Except PyError String := do
  if ← reaches score 9 then .ok "CRITICAL"
  else if ← reaches score 7 then .ok "HIGH"
  else if ← reaches score 4 then .ok "MEDIUM"
  else .ok "LOW"

/-- `build_cve_intelligence`. -/
def buildCveIntelligence (cveId description : Json) (cvss : CvssData) (weaknesses : List Json)
    (references : List Reference) : Except PyError CveIntelligence := do
  let attackTypes ← classifyCveAttackType description weaknesses
  let exploitIntel ← analyzePublicExploitIntel cveId references description
  let patch ← estimatePatchGuidance description references
  let severity := cvss.severity.orElse (.str "UNKNOWN")
  let risk ← exposureRisk cvss.score
  let risk :=
    if exploitIntel.exploitability = "HIGH" ∧ risk ∈ ["HIGH", "MEDIUM"] then
      if severity.eq (.str "CRITICAL") then "CRITICAL" else "HIGH"
    else risk
  .ok { attackTypes, cvss, weaknesses, exploitIntelligence := exploitIntel, patch,
        internetExposureRisk := risk }

/-! ## The lookup -/

/-- A record of `fetch_cves_for_keyword`. -/
structure CveRecord where
  id : Json
  published : Json
  lastModified : Json
  severity : Json
  score : Json
  cvssVector : Json
  cvss : CvssData
  weaknesses : List Json
  references : List Reference
  description : Json
  url : String
  intelligence : CveIntelligence
  exploitability : String
  publicExploitIndicators : Bool
  attackTypes : List String
  patchGuidance : String

/-- The loop over the descriptions: that of the first English one. -/
def englishDescription : List Json → Except PyError Json
  | [] => .ok (.str "No description")
  | d :: rest => do
    let lang ← d.get "lang"
    if lang.eq (.str "en") then
      let value ← d.get "value"
      .ok (value.orElse (.str "No description"))
    else englishDescription rest

/-- `description[:500] + "..." if len(description) > 500 else description`. -/
def shortDescription (description : Json) : Except PyError Json := do
  if (← description.len) > 500 then
    match ← description.take 500 with
    | .str s => .ok (.str (s ++ "..."))
    | _ => .error ⟨"can only concatenate list (not \"str\") to list"⟩
  else .ok description

/-- The body of the loop over the vulnerabilities. -/
def cveRecord (item : Json) : Except PyError CveRecord := do
  let cve ← item.get "cve" (.obj [])
  let cveId ← cve.get "id"
  let published ← cve.get "published"
  let lastModified ← cve.get "lastModified"
  let descriptions ← cve.get "descriptions" (.arr [])
  let description ← englishDescription (← descriptions.iterate)
  let metrics ← cve.get "metrics" (.obj [])
  let cvss ← extractCvssData metrics
  let weaknesses ← extractCweList cve
  let references ← extractCveReferences cve
  let intelligence ← buildCveIntelligence cveId description cvss weaknesses references
  let short ← shortDescription description
  .ok {
    id := cveId
    published, lastModified
    severity := cvss.severity
    score := cvss.score
    cvssVector := cvss.vector
    cvss, weaknesses, references
    description := short
    url := "https://nvd.nist.gov/vuln/detail/" ++ JsonText.text cveId
    intelligence
    exploitability := intelligence.exploitIntelligence.exploitability
    publicExploitIndicators := intelligence.exploitIntelligence.publicExploitIndicators
    attackTypes := intelligence.attackTypes
    patchGuidance := intelligence.patch.guidance }

/-- The loop over the vulnerabilities: the records before the first exception. -/
def collectRecords : List Json → List CveRecord
  | [] => []
  | item :: rest =>
    match cveRecord item with
    | .error _ => []
    | .ok record => record :: collectRecords rest

/-- A response of the NVD; `body` is `none` when it is not JSON. -/
structure NvdResponse where
  statusCode : Nat
  body : Option Json

/-- The records of a decoded body. -/
def recordsOf (data : Json) : List CveRecord :=
  match (do (← data.get "vulnerabilities" (.arr [])).iterate : Except PyError (List Json)) with
  | .error _ => []
  | .ok items => collectRecords items

/-- `fetch_cves_for_keyword`; `none` stands for a request that raises. -/
def fetchCvesForKeyword : Option NvdResponse → List CveRecord
  | none => []
  | some response =>
    if response.statusCode ≠ 200 then []
    else
      match response.body with
      | none => []
      | some data => recordsOf data

/-! ## Which vulnerabilities are returned -/

/-- The record shows the id, the score and the severity of the vulnerability. -/
def Describes (item : Json) (record : CveRecord) : Prop :=
  ∃ cve metrics cvss, item.get "cve" (.obj []) = .ok cve ∧ cve.get "id" = .ok record.id ∧
    cve.get "metrics" (.obj []) = .ok metrics ∧ extractCvssData metrics = .ok cvss ∧
    record.score = cvss.score ∧ record.severity = cvss.severity

/-- One record for each vulnerability, in order. -/
def ReturnsEach (items : List Json) (records : List CveRecord) : Prop :=
  List.Forall₂ Describes items records

variable {item : Json} {items : List Json}

theorem cveRecord_describes {record : CveRecord} (h : cveRecord item = .ok record) :
    Describes item record := by
  simp only [cveRecord, bind_eq_ok] at h
  obtain ⟨cve, hcve, cveId, hid, published, -, lastModified, -, descriptions, -, texts, -,
    description, -, metrics, hmetrics, cvss, hcvss, weaknesses, -, references, -, intelligence, -,
    short, -, hrecord⟩ := h
  cases hrecord
  exact ⟨cve, metrics, cvss, hcve, hid, hmetrics, hcvss, rfl, rfl⟩

/-- The loop returns every vulnerability exactly when none of them raises. -/
theorem returnsEach_collectRecords :
    ReturnsEach items (collectRecords items) ↔ ∀ item ∈ items, ∃ record, cveRecord item =
      .ok record := by
  induction items with
  | nil => exact iff_of_true .nil nofun
  | cons item rest ih =>
    rw [List.forall_mem_cons, ← ih, collectRecords]
    cases hrecord : cveRecord item with
    | error e =>
      refine iff_of_false (fun h => ?_) ?_
      · cases h
      · rintro ⟨⟨record, h⟩, -⟩
        cases h
    | ok record =>
      rw [ReturnsEach, List.forall₂_cons]
      exact and_congr_left' (iff_of_true (cveRecord_describes hrecord) ⟨record, rfl⟩)

/-- A vulnerability as the API gives it: it holds a CVE whose references are an array. -/
def ApiVulnerability (item : Json) : Prop :=
  ∃ entries cve references, item = .obj entries ∧ entries.lookup "cve" = some (.obj cve) ∧
    cve.lookup "references" = some (.arr references)

omit [UnicodeTables] [JsonText] in
theorem extractCveReferences_array {cve : List (String × Json)} {references : List Json}
    (h : cve.lookup "references" = some (.arr references)) :
    extractCveReferences (.obj cve) = .error ⟨"'list' object has no attribute 'get'"⟩ := by
  simp only [extractCveReferences, Json.get, h, Option.getD_some, listAt, bind, Except.bind]
  rfl

/-- No vulnerability of the API gets a record. -/
theorem cveRecord_api (h : ApiVulnerability item) (record : CveRecord) :
    cveRecord item ≠ .ok record := by
  obtain ⟨entries, cve, references, rfl, hcve, hreferences⟩ := h
  intro hrecord
  simp only [cveRecord, bind_eq_ok] at hrecord
  obtain ⟨found, hfound, -, -, -, -, -, -, -, -, -, -, -, -, -, -, -, -, -, -, refs, hrefs, -⟩ :=
    hrecord
  rw [Json.get, hcve, Option.getD_some] at hfound
  cases hfound
  rw [extractCveReferences_array hreferences] at hrefs
  cases hrefs

theorem fetchCves_eq {data : List (String × Json)}
    (hitems : data.lookup "vulnerabilities" = some (.arr items)) :
    fetchCvesForKeyword (some ⟨200, some (.obj data)⟩) = collectRecords items := by
  simp only [fetchCvesForKeyword, recordsOf, Json.get, hitems]
  rfl

/-- Whatever the response, all its vulnerabilities are returned when none of them raises. -/
theorem fetchCves_returnsEach {data : List (String × Json)}
    (hitems : data.lookup "vulnerabilities" = some (.arr items)) :
    ReturnsEach items (fetchCvesForKeyword (some ⟨200, some (.obj data)⟩)) ↔
      ∀ item ∈ items, ∃ record, cveRecord item = .ok record := by
  rw [fetchCves_eq hitems]
  exact returnsEach_collectRecords

/-- The vulnerabilities of a response are returned exactly when there are none. -/
theorem cves_returned_iff (data : List (String × Json)) (items : List Json)
    (hitems : data.lookup "vulnerabilities" = some (.arr items))
    (hapi : ∀ item ∈ items, ApiVulnerability item) :
    ReturnsEach items (fetchCvesForKeyword (some ⟨200, some (.obj data)⟩)) ↔ items = [] := by
  rw [fetchCves_returnsEach hitems]
  constructor
  · intro h
    cases items with
    | nil => rfl
    | cons item rest =>
      obtain ⟨record, hrecord⟩ := h item List.mem_cons_self
      exact (cveRecord_api (hapi item List.mem_cons_self) record hrecord).elim
  · rintro rfl
    exact nofun

/-- A vulnerability with one reference, in the format of the API. -/
def log4shell : Json :=
  .obj [("cve", .obj [("id", .str "CVE-2021-44228"), ("descriptions", .arr []),
    ("metrics", .obj [("cvssMetricV31", .arr [.obj [("cvssData", .obj [("version", .str "3.1"),
      ("baseScore", .int 10), ("baseSeverity", .str "CRITICAL")])]])]),
    ("references", .arr [.obj [("url", .str "https://logging.apache.org/log4j/2.x/security.html"),
      ("source", .str "security@apache.org")]])])]

omit [UnicodeTables] [JsonText] in
theorem log4shell_api : ∀ item ∈ [log4shell], ApiVulnerability item :=
  List.forall_mem_singleton.mpr ⟨_, _, _, rfl, rfl, rfl⟩

omit [UnicodeTables] [JsonText] in
theorem cves_returned_iff_log4shell : letI := asciiTables; letI := stringText
    ¬ ReturnsEach [log4shell] (fetchCvesForKeyword
      (some ⟨200, some (.obj [("vulnerabilities", .arr [log4shell])])⟩)) :=
  let _ := asciiTables
  let _ := stringText
  fun h => List.cons_ne_nil _ _ ((cves_returned_iff _ [log4shell] rfl log4shell_api).mp h)

omit [UnicodeTables] [JsonText] in
/-- The lookup returns nothing for a response with one vulnerability. -/
theorem log4shell_not_returned : ¬ ∀ (_ : UnicodeTables) (_ : JsonText)
    (data : List (String × Json)) (items : List Json),
    data.lookup "vulnerabilities" = some (.arr items) → (∀ item ∈ items, ApiVulnerability item) →
      ReturnsEach items (fetchCvesForKeyword (some ⟨200, some (.obj data)⟩)) := by
  intro h
  let _ := asciiTables
  let _ := stringText
  have hreturned := h asciiTables stringText [("vulnerabilities", .arr [log4shell])] [log4shell] rfl
    log4shell_api
  obtain ⟨record, hrecord⟩ := (fetchCves_returnsEach rfl).mp hreturned log4shell
    List.mem_cons_self
  exact cveRecord_api (log4shell_api _ List.mem_cons_self) record hrecord

end Intelligence

end ThreatScanner.Analyzer
