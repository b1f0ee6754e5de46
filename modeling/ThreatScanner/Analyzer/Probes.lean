import ThreatScanner.Analyzer.Detectors
import ThreatScanner.Python.Query

/-!
# Probing the parameters of a URL

`inject_param` writes a payload into a parameter of a URL, and `run_kxss_like_checks` requests URLs
with a harmless marker in each of their parameters and looks for it in the responses. A request
differs from a URL of the list in one parameter only.
-/

namespace ThreatScanner.Analyzer

section Probes
variable [UnicodeData]

/-- `inject_param`. -/
def injectParam (url paramName payload : String) : Option String :=
  match urlparse url.toList with
  | .error _ => none
  | .ok parsed =>
    let qs := (parseQs parsed.query).set paramName.toList [payload.toList]
    some (String.ofList (urlunparse { parsed with query := urlencode qs }))

/-- `KXSS_TEST_PAYLOAD`. -/
def kxssTestPayload : String := "kxss_reflect_12345"

/-- `reflected_context_light`. -/
def reflectedContextLight (body payload : String) : Option String :=
  (find payload.toList body.toList).map fun index =>
    let stop := min body.toList.length (index + payload.toList.length + 120)
    let ctx := lower (String.ofList ((body.toList.take stop).drop (index - 120)))
    if contains ctx "<script" then "script_context"
    else if ["href=", "src=", "value=", "data-"].any (contains ctx) then "attribute_context"
    else if contains ctx "<" && contains ctx ">" then "html_context"
    else "text_context"

/-- A URL that `run_kxss_like_checks` takes up, with the parameters that it tests. -/
def kxssCandidate (u : String) : Option (String × List String) :=
  match urlparse u.toList with
  | .error _ => none
  | .ok parsed =>
    let keys := (parseQs parsed.query).keys
    if webSchemes.contains parsed.scheme ∧ parsed.netloc ≠ [] ∧ keys ≠ [] then
      some (u, (keys.take 4).map String.ofList)
    else none

def kxssCandidates (urls : List String) : List (String × List String) :=
  (urls.filterMap kxssCandidate).take 25

/-- An entry of `meta`. -/
structure KxssRequest where
  originalUrl : String
  testUrl : String
  param : String

/-- The requests of `run_kxss_like_checks`, in their order. -/
def kxssRequests (urls : List String) : List KxssRequest :=
  (kxssCandidates urls).flatMap fun (url, params) => params.filterMap fun param =>
    ((injectParam url param kxssTestPayload).filter (· ≠ "")).map fun testUrl =>
      { originalUrl := url, testUrl, param }

structure KxssResult where
  type : String := "KXSS-like Reflected Parameter"
  name : String := "KXSS-like Reflected Parameter"
  severity : String
  status : String
  confidence : String
  category : String := "KXSS / Reflected Input"
  parameter : String
  originalUrl : String
  affectedUrl : String
  fixLocation : String
  evidenceType : String
  evidence : String
  impact : String :=
    "Reflected input may become exploitable XSS if output is not contextually encoded."
  description : String := "A URL parameter reflected the test marker. Manual review is required " ++
    "to confirm exploitability."
  fix : String := "Apply context-aware output encoding, validate input, and enforce a strong " ++
    "Content-Security-Policy."

def kxssResult (request : KxssRequest) (context : String) : KxssResult :=
  let risky := context ∈ ["attribute_context", "html_context", "script_context"]
  { severity := if risky then "MEDIUM" else "LOW"
    status := if risky then "POSSIBLE" else "INFO"
    confidence := if risky then "MEDIUM" else "LOW"
    parameter := request.param
    originalUrl := request.originalUrl
    affectedUrl := request.testUrl
    fixLocation := "Query parameter: " ++ request.param
    evidenceType := context
    evidence := "Harmless marker reflected in " ++ context ++ " for parameter '" ++
      request.param ++ "'." }

def KxssResult.key (result : KxssResult) : String × String × String :=
  (result.affectedUrl, result.parameter, result.evidenceType)

/-- `run_kxss_like_checks`, for the text that answers each request, if any does. -/
def runKxssLikeChecks (answers : ℕ → KxssRequest → Option String) (urls : List String) :
    List KxssResult :=
  distinctBy KxssResult.key ((kxssRequests urls).zipIdx.filterMap fun (request, i) =>
    (answers i request).bind fun text =>
      (reflectedContextLight text kxssTestPayload).map (kxssResult request))

/-- The second URL is the first with one more value, in place of those that the parameter has. -/
def Injects (url paramName payload url' : String) : Prop :=
  ∃ p p', urlparse url.toList = .ok p ∧ urlparse url'.toList = .ok p' ∧
    p' = { p with query := p'.query } ∧
    parseQs p'.query = (parseQs p.query).set paramName.toList [payload.toList]

variable {p : ParseResult} {url test paramName payload : String}

/-- The payload is the only value of the parameter in a web URL that it is written into, and nothing
else has changed. -/
theorem inject_param_exact (hparse : urlparse url.toList = .ok p) (hscheme : p.scheme ∈ webSchemes)
    (hnetloc : p.netloc ≠ []) (paramName payload : String) :
    ∃ url', injectParam url paramName payload = some url' ∧ Injects url paramName payload url' := by
  have hweb := isWeb_of_urlparse hparse hscheme hnetloc
  have hfilled : ((parseQs p.query).set paramName.toList [payload.toList]).Filled :=
    filled_parseQs.set (List.cons_ne_nil _ _)
  generalize hqs : (parseQs p.query).set paramName.toList [payload.toList] = qs at hfilled
  have hwritten : { p with query := urlencode qs }.IsWeb :=
    hweb.with_query (fun c hc => (isKept_urlencode hc).1) fun hc => (isKept_urlencode hc).2 rfl
  refine ⟨String.ofList (urlunparse { p with query := urlencode qs }), ?_, p,
    { p with query := urlencode qs }, hparse, ?_, rfl, ?_⟩
  · rw [injectParam, hparse, ← hqs]
  · rw [String.toList_ofList, urlparse_urlunparse hwritten]
  · rw [parseQs_urlencode hfilled, hqs]

omit [UnicodeData] in
/-- A search page with another query. -/
theorem inject_param_exact_search :
    ∃ url', @injectParam asciiData "http://a.example/s?q=1&b=%20" "q" "x y" = some url' ∧
      @Injects asciiData "http://a.example/s?q=1&b=%20" "q" "x y" url' := by
  have hparse : @urlparse asciiData "http://a.example/s?q=1&b=%20".toList =
      .ok ⟨"http".toList, "a.example".toList, "/s".toList, [], "q=1&b=%20".toList, []⟩ := by rfl
  exact @inject_param_exact asciiData _ _ hparse (by decide) (by decide) "q" "x y"

/-! ## The checks -/

/-- A request for one parameter of a URL of the list, with the marker as its only value. -/
structure KxssRequest.Tests (request : KxssRequest) (urls : List String) : Prop where
  listed : request.originalUrl ∈ urls
  web : ∃ p, urlparse request.originalUrl.toList = .ok p ∧ p.scheme ∈ webSchemes ∧ p.netloc ≠ [] ∧
    request.param.toList ∈ (parseQs p.query).keys
  injects : Injects request.originalUrl request.param kxssTestPayload request.testUrl

variable {urls : List String} {request : KxssRequest} {candidate : String × List String}
  {answers : ℕ → KxssRequest → Option String} {body payload : String}

theorem ne_empty_of_injects (hparse : urlparse url.toList = .ok p) (hscheme : p.scheme ∈ webSchemes)
    (h : Injects url paramName payload test) : test ≠ "" := by
  rintro rfl
  obtain ⟨q, q', hq, hq', hsame, -⟩ := h
  cases hparse.symm.trans hq
  have hempty : urlparse "".toList = .ok ⟨[], [], [], [], [], []⟩ := rfl
  cases hempty.symm.trans hq'
  rw [← (congrArg ParseResult.scheme hsame : [] = p.scheme)] at hscheme
  exact absurd hscheme (by decide)

theorem mem_kxssCandidates (h : candidate ∈ kxssCandidates urls) : candidate.1 ∈ urls ∧
    ∃ p, urlparse candidate.1.toList = .ok p ∧ p.scheme ∈ webSchemes ∧ p.netloc ≠ [] ∧
      candidate.2 = ((parseQs p.query).keys.take 4).map String.ofList := by
  obtain ⟨u, hu, hcandidate⟩ := List.mem_filterMap.mp (List.mem_of_mem_take h)
  unfold kxssCandidate at hcandidate
  split at hcandidate
  · cases hcandidate
  · next p hparse =>
    dsimp only at hcandidate
    split at hcandidate
    · next hweb =>
      cases hcandidate
      exact ⟨hu, p, hparse, List.contains_iff_mem.mp hweb.1, hweb.2.1, rfl⟩
    · cases hcandidate

/-- Every parameter that a URL is taken up with is tested. -/
theorem exists_kxssRequest (h : candidate ∈ kxssCandidates urls) {param : String}
    (hparam : param ∈ candidate.2) :
    ∃ request ∈ kxssRequests urls, request.originalUrl = candidate.1 ∧ request.param = param := by
  obtain ⟨-, p, hparse, hscheme, hnetloc, -⟩ := mem_kxssCandidates h
  obtain ⟨test, htest, hinjects⟩ := inject_param_exact hparse hscheme hnetloc param
    kxssTestPayload
  have hne : test ≠ "" := ne_empty_of_injects hparse hscheme hinjects
  refine ⟨⟨candidate.1, test, param⟩, List.mem_flatMap.mpr ⟨candidate, h, ?_⟩, rfl, rfl⟩
  refine List.mem_filterMap.mpr ⟨param, hparam, ?_⟩
  rw [htest, Option.filter_some, if_pos (by simpa using hne), Option.map_some]

theorem tests_of_mem (h : request ∈ kxssRequests urls) : request.Tests urls := by
  obtain ⟨candidate, hcandidate, h⟩ := List.mem_flatMap.mp h
  obtain ⟨param, hparam, h⟩ := List.mem_filterMap.mp h
  obtain ⟨hlisted, p, hparse, hscheme, hnetloc, hparams⟩ := mem_kxssCandidates hcandidate
  obtain ⟨test, htest, hinjects⟩ := inject_param_exact hparse hscheme hnetloc param
    kxssTestPayload
  rw [htest] at h
  obtain ⟨url', hurl', rfl⟩ := Option.map_eq_some_iff.mp h
  cases (Option.filter_eq_some_iff.mp hurl').1
  refine ⟨hlisted, ⟨p, hparse, hscheme, hnetloc, ?_⟩, hinjects⟩
  rw [hparams] at hparam
  obtain ⟨key, hkey, rfl⟩ := List.mem_map.mp hparam
  rw [String.toList_ofList]
  exact List.mem_of_mem_take hkey

omit [UnicodeData] in
theorem length_flatMap_le {α β : Type*} {f : α → List β} {as : List α} {n : ℕ}
    (h : ∀ a ∈ as, (f a).length ≤ n) : (as.flatMap f).length ≤ as.length * n := by
  induction as with
  | nil => exact Nat.zero_le _
  | cons a as ih =>
    rw [List.flatMap_cons, List.length_append, List.length_cons, Nat.succ_mul, Nat.add_comm]
    exact Nat.add_le_add (ih fun a ha => h a (List.mem_cons_of_mem _ ha)) (h a List.mem_cons_self)

/-- Twenty-five URLs with four parameters each. -/
theorem length_kxssRequests_le : (kxssRequests urls).length ≤ 100 := by
  have htested : ∀ candidate ∈ kxssCandidates urls, candidate.2.length ≤ 4 := by
    intro candidate h
    obtain ⟨-, p, -, -, -, hparams⟩ := mem_kxssCandidates h
    rw [hparams, List.length_map]
    exact List.length_take_le _ _
  have hurls : (kxssCandidates urls).length ≤ 25 := List.length_take_le _ _
  refine Nat.le_trans (length_flatMap_le fun candidate h => ?_) (Nat.mul_le_mul_right 4 hurls)
  exact Nat.le_trans (List.length_filterMap_le _ _) (htested candidate h)

theorem reflectedContextLight_isSome :
    (∃ context, reflectedContextLight body payload = some context) ↔
      payload.toList <:+: body.toList := by
  rw [← exists_find_iff]
  constructor
  · rintro ⟨context, h⟩
    obtain ⟨i, hi, -⟩ := Option.map_eq_some_iff.mp h
    exact ⟨i, hi⟩
  · rintro ⟨i, hi⟩
    exact ⟨_, Option.map_eq_some_iff.mpr ⟨i, hi, rfl⟩⟩

/-- What the checks do, whatever answers their requests. -/
structure KxssChecked (answers : ℕ → KxssRequest → Option String) (urls : List String)
    (results : List KxssResult) : Prop where
  budget : (kxssRequests urls).length ≤ 100
  tests : ∀ request ∈ kxssRequests urls, request.Tests urls
  covered : ∀ candidate ∈ kxssCandidates urls, ∀ param ∈ candidate.2,
    ∃ request ∈ kxssRequests urls, request.originalUrl = candidate.1 ∧ request.param = param
  sound : ∀ result ∈ results, ∃ i request text context, (kxssRequests urls)[i]? = some request ∧
    answers i request = some text ∧ kxssTestPayload.toList <:+: text.toList ∧
    reflectedContextLight text kxssTestPayload = some context ∧ result = kxssResult request context
  complete : ∀ i request text, (kxssRequests urls)[i]? = some request →
    answers i request = some text → kxssTestPayload.toList <:+: text.toList →
    ∃ result ∈ results, result.affectedUrl = request.testUrl ∧ result.parameter = request.param ∧
      reflectedContextLight text kxssTestPayload = some result.evidenceType
  once : (results.map KxssResult.key).Nodup

/-- The checks report the requests whose answer has the marker in it, each once. -/
theorem kxss_checked (answers : ℕ → KxssRequest → Option String) (urls : List String) :
    KxssChecked answers urls (runKxssLikeChecks answers urls) where
  budget := length_kxssRequests_le
  tests _ := tests_of_mem
  covered _ hcandidate _ := exists_kxssRequest hcandidate
  sound result h := by
    obtain ⟨⟨request, i⟩, hrequest, hresult⟩ := List.mem_filterMap.mp (mem_of_mem_distinctBy h)
    obtain ⟨text, htext, hresult⟩ := Option.bind_eq_some_iff.mp hresult
    obtain ⟨context, hcontext, rfl⟩ := Option.map_eq_some_iff.mp hresult
    exact ⟨i, request, text, context, List.mem_zipIdx_iff_getElem?.mp hrequest, htext,
      reflectedContextLight_isSome.mp ⟨context, hcontext⟩, hcontext, rfl⟩
  complete i request text hrequest htext hmarker := by
    obtain ⟨context, hcontext⟩ := reflectedContextLight_isSome.mpr hmarker
    have hmem : kxssResult request context ∈ (kxssRequests urls).zipIdx.filterMap
        fun (request, i) => (answers i request).bind fun text =>
          (reflectedContextLight text kxssTestPayload).map (kxssResult request) := by
      refine List.mem_filterMap.mpr ⟨(request, i), List.mem_zipIdx_iff_getElem?.mpr hrequest, ?_⟩
      simp only [htext, hcontext, Option.bind_some, Option.map_some]
    obtain ⟨result, hresult, hkey⟩ : ∃ result ∈ runKxssLikeChecks answers urls,
        result.key = (kxssResult request context).key := exists_mem_distinctBy hmem
    have hsame : (result.affectedUrl, result.parameter, result.evidenceType) =
        (request.testUrl, request.param, context) := hkey
    simp only [Prod.mk.injEq] at hsame
    exact ⟨result, hresult, hsame.1, hsame.2.1, by rw [hcontext, hsame.2.2]⟩
  once := distinctBy_keys_nodup

end Probes

end ThreatScanner.Analyzer
