import ThreatScanner.Analyzer.Exits
import ThreatScanner.Library.Distinct
import ThreatScanner.Python.Url

/-!
# The requests of a page

`run_runtime_discovery_v3` opens the target in a browser and listens to what the page asks for and
complains about. Only the first request for an address counts, whatever it is made with, and a
visit that fails keeps what it has heard, but counts nothing of it.
-/

namespace ThreatScanner.Analyzer

/-- A request of the page. -/
structure PageRequest where
  method : String
  url : String
  resourceType : String

/-- What the handlers of the page are called with. -/
inductive BrowserEvent where
  | console (type text : String)
  | request (req : PageRequest)

/-- An entry of `network_requests`. -/
structure RequestItem where
  method : String
  url : String
  resourceType : String
  path : String
  source : String := "playwright_runtime"

/-- An entry of `api_endpoints`. -/
structure RuntimeEndpoint where
  endpoint : String
  method : String
  source : String := "playwright_runtime"
  severity : String
  category : String := "Runtime Network"
  status : String := "INFO"
  confidence : String := "HIGH"
  affectedUrl : String
  fixLocation : String
  evidence : String
  fix : String := "Review runtime endpoint exposure and make sure authentication, " ++
    "authorization, and input validation are enforced."

def RuntimeEndpoint.key (e : RuntimeEndpoint) : String × String := (e.endpoint, e.method)

/-- An entry of `console_errors`. -/
structure ConsoleError where
  type : String
  text : String

/-- An entry of `forms`: the action, the method, and the name and type of each field. -/
structure RuntimeForm where
  action : String
  method : String
  inputs : List (Option String × String)

/-- An entry of `possible_secrets`. -/
structure RuntimeSecret where
  pattern : String
  severity : String := "INFO"
  confidence : String := "LOW"
  evidence : String := "Keyword pattern appeared in rendered DOM. Manual review required."
  fix : String := "Do not expose real secrets in frontend HTML or JavaScript. Move secrets to " ++
    "backend environment variables."

/-- `summary`. -/
structure RuntimeSummary where
  totalNetworkRequests : ℕ := 0
  apiEndpoints : ℕ := 0
  forms : ℕ := 0
  jsFiles : ℕ := 0
  consoleErrors : ℕ := 0
  possibleSecrets : ℕ := 0

/-- What `run_runtime_discovery_v3` returns. -/
structure RuntimeDiscovery where
  enabled : Bool := true
  engine : String := "playwright-chromium"
  finalUrl : Option String := none
  title : Option String := none
  statusCode : Option ℕ := none
  networkRequests : List RequestItem := []
  apiEndpoints : List RuntimeEndpoint := []
  forms : List RuntimeForm := []
  jsFiles : List String := []
  consoleErrors : List ConsoleError := []
  possibleSecrets : List RuntimeSecret := []
  summary : RuntimeSummary := {}
  error : Option String := none

/-- What is read from the page once it has been opened. The content and the forms may fail. -/
structure PageReading where
  finalUrl : String
  title : String
  statusCode : Option ℕ
  content : Option String
  forms : Option (List RuntimeForm)

/-- A visit: it ends before the handlers are set, at the title, when the browser is closed, or
well. -/
inductive Visit where
  | unopened (message : String)
  | untitled (events : List BrowserEvent) (finalUrl message : String)
  | unclosed (events : List BrowserEvent) (page : PageReading) (message : String)
  | closed (events : List BrowserEvent) (page : PageReading)

section Definitions
variable [UnicodeData]

/-- `s[:n]`. -/
def cut (n : ℕ) (s : String) : String := String.ofList (s.toList.take n)

/-- `looks_like_endpoint`. -/
def looksLikeEndpoint (value : String) : Bool :=
  let v := lower (String.ofList (strip value.toList))
  let bad := ["data:", "javascript:", "mailto:", "tel:", "blob:", "about:", "#", "\x7b", "\x7d",
    "function", "return "]
  let indicators := ["/api", "api/", "/v1", "/v2", "/v3", "graphql", "openapi", "swagger",
    "auth", "login", "logout", "token", "session", "user", "account",
    "search", "query", "redirect", "callback", "admin", "dashboard",
    "webhook", "upload", "download", ".json", ".xml"]
  let starts := ["api/", "v1/", "v2/", "v3/", "graphql", "auth/", "user/", "users/", "account/"]
  if v.toList.length < 2 || v.toList.length > 500 then false
  else if bad.any (startsWith v) then false
  else if ["http://", "https://", "/"].any (startsWith v) && indicators.any (contains v) then true
  else if starts.any (startsWith v) then true
  else contains v "?" && contains v "="

/-- `endpoint_severity`. -/
def endpointSeverity (endpoint : String) : String :=
  let e := lower endpoint
  if [".env", ".git", "secret", "token", "debug", "internal", "private", "admin", "swagger",
    "openapi"].any (contains e) then "MEDIUM"
  else if ["/api/", "graphql", "auth", "login", "redirect", "callback"].any (contains e) then "LOW"
  else "INFO"

def requestItem (req : PageRequest) (path : String) : RequestItem where
  method := req.method
  url := cut 600 req.url
  resourceType := req.resourceType
  path := path

def runtimeEndpoint (req : PageRequest) (path : String) : RuntimeEndpoint where
  endpoint := cut 600 req.url
  method := req.method
  severity := endpointSeverity req.url
  affectedUrl := cut 600 req.url
  fixLocation := path
  evidence := "Runtime " ++ req.method ++ " request captured by Chromium."

def PageRequest.isScript (req : PageRequest) : Bool :=
  req.resourceType == "script" ||
    endsWith (String.ofList (before '?' (lower req.url).toList)) ".js"

/-- `is_api`. -/
def PageRequest.isApi (req : PageRequest) (path : String) : Bool :=
  let path := lower path
  looksLikeEndpoint req.url || contains path "/api/" || startsWith path "/api" ||
    ["graphql", "openapi", "swagger", "ajax", "rest"].any (contains path)

/-- What the handlers have gathered: the sets of addresses, and the lists of `result`. -/
structure Heard where
  seenRequests : List String := []
  seenApi : List String := []
  seenJs : List String := []
  networkRequests : List RequestItem := []
  apiEndpoints : List RuntimeEndpoint := []
  jsFiles : List String := []
  consoleErrors : List ConsoleError := []

/-- The script part of `on_request`. -/
def Heard.addScript (out : Heard) (req : PageRequest) : Heard :=
  if req.isScript && !out.seenJs.contains req.url then
    { out with seenJs := req.url :: out.seenJs, jsFiles := out.jsFiles ++ [cut 600 req.url] }
  else out

/-- The endpoint part of `on_request`. -/
def Heard.addEndpoint (out : Heard) (req : PageRequest) (path : String) : Heard :=
  if req.isApi path && !out.seenApi.contains req.url then
    { out with
      seenApi := req.url :: out.seenApi
      apiEndpoints := out.apiEndpoints ++ [runtimeEndpoint req path] }
  else out

/-- `on_request`. An address that cannot be parsed has been seen all the same. -/
def Heard.onRequest (out : Heard) (req : PageRequest) : Heard :=
  if out.seenRequests.contains req.url then out
  else
    let out := { out with seenRequests := req.url :: out.seenRequests }
    match urlparse req.url.toList with
    | .error _ => out
    | .ok parsed =>
      let path := String.ofList parsed.path
      let out := { out with networkRequests := out.networkRequests ++ [requestItem req path] }
      (out.addScript req).addEndpoint req path

/-- `on_console`. -/
def Heard.onConsole (out : Heard) (type text : String) : Heard :=
  if ["error", "warning"].contains type then
    { out with consoleErrors := out.consoleErrors ++ [{ type, text := cut 300 text }] }
  else out

def Heard.on (out : Heard) : BrowserEvent → Heard
  | .console type text => out.onConsole type text
  | .request req => out.onRequest req

/-- `RUNTIME_SECRET_PATTERNS`. -/
def runtimeSecretPatterns : List String :=
  ["api_key", "apikey", "access_token", "client_secret", "bearer ",
    "authorization", "aws_access_key", "private_key", "secret=", "token="]

def runtimeSecrets (html : String) : List RuntimeSecret :=
  (runtimeSecretPatterns.filter (contains (lower html))).map fun pattern => { pattern }

/-- `result` with what has been heard. -/
def RuntimeDiscovery.hear (result : RuntimeDiscovery) (events : List BrowserEvent) :
    RuntimeDiscovery :=
  let heard := events.foldl Heard.on {}
  { result with
    networkRequests := heard.networkRequests
    apiEndpoints := heard.apiEndpoints
    jsFiles := heard.jsFiles
    consoleErrors := heard.consoleErrors }

/-- `result` with what has been read. -/
def RuntimeDiscovery.read (result : RuntimeDiscovery) (page : PageReading) : RuntimeDiscovery :=
  { result with
    finalUrl := some page.finalUrl
    title := some page.title
    statusCode := page.statusCode
    forms := page.forms.getD []
    possibleSecrets := runtimeSecrets (page.content.getD "") }

/-- The handler of every exception. -/
def RuntimeDiscovery.fail (result : RuntimeDiscovery) (message : String) : RuntimeDiscovery :=
  { result with enabled := false, error := some message }

def RuntimeDiscovery.counts (result : RuntimeDiscovery) : RuntimeSummary where
  totalNetworkRequests := result.networkRequests.length
  apiEndpoints := result.apiEndpoints.length
  forms := result.forms.length
  jsFiles := result.jsFiles.length
  consoleErrors := result.consoleErrors.length
  possibleSecrets := result.possibleSecrets.length

/-- The lists are cut, and then counted. -/
def RuntimeDiscovery.finish (result : RuntimeDiscovery) : RuntimeDiscovery :=
  let networkRequests := result.networkRequests.take 100
  let apiEndpoints := distinctBy RuntimeEndpoint.key (result.apiEndpoints.take 50)
  let forms := result.forms.take 30
  let jsFiles := (distinctBy id result.jsFiles).take 40
  let consoleErrors := result.consoleErrors.take 25
  let possibleSecrets := distinctBy RuntimeSecret.pattern (result.possibleSecrets.take 25)
  let result := { result with
    networkRequests, apiEndpoints, forms, jsFiles, consoleErrors, possibleSecrets }
  { result with summary := result.counts }

end Definitions

/-! ## The requests that count -/

section Requests
variable [UnicodeData]

def requestsOf (events : List BrowserEvent) : List PageRequest :=
  events.filterMap fun
    | .request req => some req
    | .console .. => none

/-- A request for an address that can be parsed, with its path. -/
def PageRequest.located (req : PageRequest) : Option (PageRequest × String) :=
  match urlparse req.url.toList with
  | .error _ => none
  | .ok parsed => some (req, String.ofList parsed.path)

/-- The first request for each address. -/
def firstRequests (events : List BrowserEvent) : List (PageRequest × String) :=
  (distinctBy PageRequest.url (requestsOf events)).filterMap PageRequest.located

def complaintsOf (events : List BrowserEvent) : List ConsoleError :=
  events.filterMap fun
    | .console type text =>
      if ["error", "warning"].contains type then some { type, text := cut 300 text } else none
    | .request _ => none

/-- The lists hold what the events say, and the sets let the first request for an address pass. -/
structure Heard.Follows (out : Heard) (events : List BrowserEvent) : Prop where
  seen : ∀ url, url ∈ out.seenRequests ↔ url ∈ (requestsOf events).map PageRequest.url
  seenJs : ∀ url ∈ out.seenJs, url ∈ out.seenRequests
  seenApi : ∀ url ∈ out.seenApi, url ∈ out.seenRequests
  requests : out.networkRequests = (firstRequests events).map fun r => requestItem r.1 r.2
  scripts : out.jsFiles = ((firstRequests events).filter (·.1.isScript)).map (cut 600 ·.1.url)
  endpoints : out.apiEndpoints =
    ((firstRequests events).filter fun r => r.1.isApi r.2).map fun r => runtimeEndpoint r.1 r.2
  complaints : out.consoleErrors = complaintsOf events

variable {out : Heard} {events : List BrowserEvent} {req : PageRequest} {path : String}

omit [UnicodeData] in
theorem requestsOf_concat : requestsOf (events ++ [.request req]) = requestsOf events ++ [req] := by
  rw [requestsOf, List.filterMap_append]
  rfl

/-- A request for an address that has been requested does not count. -/
theorem firstRequests_again (h : req.url ∈ (requestsOf events).map PageRequest.url) :
    firstRequests (events ++ [.request req]) = firstRequests events := by
  rw [firstRequests, requestsOf_concat, distinctBy_concat, if_pos h]
  rfl

theorem firstRequests_new (h : req.url ∉ (requestsOf events).map PageRequest.url) :
    firstRequests (events ++ [.request req]) = firstRequests events ++ req.located.toList := by
  rw [firstRequests, requestsOf_concat, distinctBy_concat, if_neg h, List.filterMap_append]
  cases hlocated : req.located with
  | none => rw [List.filterMap_cons_none hlocated]; rfl
  | some r => rw [List.filterMap_cons_some hlocated]; rfl

/-- The later parts of `on_request`, for an address that is new. -/
theorem Heard.addScript_eq (h : req.url ∉ out.seenJs) : out.addScript req =
    { out with
      seenJs := if req.isScript then req.url :: out.seenJs else out.seenJs
      jsFiles := out.jsFiles ++ if req.isScript then [cut 600 req.url] else [] } := by
  rw [Heard.addScript]
  cases hscript : req.isScript <;> simp [h]

theorem Heard.addEndpoint_eq (h : req.url ∉ out.seenApi) : out.addEndpoint req path =
    { out with
      seenApi := if req.isApi path then req.url :: out.seenApi else out.seenApi
      apiEndpoints := out.apiEndpoints ++
        if req.isApi path then [runtimeEndpoint req path] else [] } := by
  rw [Heard.addEndpoint]
  cases hapi : req.isApi path <;> simp [h]

omit [UnicodeData] in
theorem forall_mem_ite_cons {α : Type*} {a : α} {as bs : List α} {p : Bool}
    (h : ∀ b ∈ as, b ∈ bs) : ∀ b ∈ if p then a :: as else as, b ∈ a :: bs := by
  intro b hb
  split at hb
  · exact List.cons_subset_cons a h hb
  · exact List.mem_cons_of_mem a (h b hb)

theorem Heard.follows_nil : Heard.Follows {} [] where
  seen _ := Iff.rfl
  seenJs _ h := h
  seenApi _ h := h
  requests := rfl
  scripts := rfl
  endpoints := rfl
  complaints := rfl

/-- An event that leaves the requests that count alone. -/
theorem Heard.Follows.skip {events' : List BrowserEvent} {seenRequests : List String}
    {consoleErrors : List ConsoleError} (h : out.Follows events)
    (hfirst : firstRequests events' = firstRequests events)
    (hseen : ∀ url, url ∈ seenRequests ↔ url ∈ (requestsOf events').map PageRequest.url)
    (hkeep : ∀ url ∈ out.seenRequests, url ∈ seenRequests)
    (hcomplaints : consoleErrors = complaintsOf events') :
    Heard.Follows { out with seenRequests, consoleErrors } events' where
  seen := hseen
  seenJs url hurl := hkeep url (h.seenJs url hurl)
  seenApi url hurl := hkeep url (h.seenApi url hurl)
  requests := by rw [hfirst]; exact h.requests
  scripts := by rw [hfirst]; exact h.scripts
  endpoints := by rw [hfirst]; exact h.endpoints
  complaints := hcomplaints

theorem Heard.Follows.onConsole (h : out.Follows events) (type text : String) :
    (out.onConsole type text).Follows (events ++ [.console type text]) := by
  have hrequests : requestsOf (events ++ [.console type text]) = requestsOf events := by
    rw [requestsOf, List.filterMap_append]
    exact List.append_nil _
  have hfirst : firstRequests (events ++ [.console type text]) = firstRequests events := by
    rw [firstRequests, hrequests, firstRequests]
  have hseen : ∀ url, url ∈ out.seenRequests ↔
      url ∈ (requestsOf (events ++ [.console type text])).map PageRequest.url := by
    rw [hrequests]
    exact h.seen
  have hcomplaints : complaintsOf (events ++ [.console type text]) = complaintsOf events ++
      if ["error", "warning"].contains type then [{ type, text := cut 300 text }] else [] := by
    rw [complaintsOf, List.filterMap_append, complaintsOf]
    split <;> simp_all
  rw [← h.complaints] at hcomplaints
  rw [Heard.onConsole]
  split
  · next hbad =>
    rw [if_pos hbad] at hcomplaints
    exact h.skip hfirst hseen (fun _ => id) hcomplaints.symm
  · next hgood =>
    rw [if_neg hgood, List.append_nil] at hcomplaints
    exact h.skip hfirst hseen (fun _ => id) hcomplaints.symm

theorem Heard.Follows.onRequest (h : out.Follows events) (req : PageRequest) :
    (out.onRequest req).Follows (events ++ [.request req]) := by
  have hcomplaints : out.consoleErrors = complaintsOf (events ++ [.request req]) := by
    rw [h.complaints, complaintsOf, complaintsOf, List.filterMap_append]
    exact (List.append_nil _).symm
  have hseen : ∀ url, url ∈ req.url :: out.seenRequests ↔
      url ∈ (requestsOf (events ++ [.request req])).map PageRequest.url := by
    intro url
    rw [requestsOf_concat, List.map_append, List.mem_append, ← h.seen, List.mem_cons, or_comm]
    simp
  rw [Heard.onRequest]
  by_cases hold : req.url ∈ out.seenRequests
  · rw [if_pos (List.contains_iff_mem.mpr hold)]
    refine h.skip (firstRequests_again ((h.seen _).mp hold)) (fun url => ?_) (fun _ => id)
      hcomplaints
    rw [← hseen, List.mem_cons]
    exact ⟨.inr, fun hmem => hmem.elim (fun heq => heq ▸ hold) id⟩
  · rw [if_neg fun hmem => hold (List.contains_iff_mem.mp hmem)]
    have hfirst := firstRequests_new fun hmem => hold ((h.seen _).mpr hmem)
    have hjs : req.url ∉ out.seenJs := fun hmem => hold (h.seenJs _ hmem)
    have hapi : req.url ∉ out.seenApi := fun hmem => hold (h.seenApi _ hmem)
    cases hparsed : urlparse req.url.toList with
    | error e =>
      have hnone : req.located = none := by rw [PageRequest.located, hparsed]
      rw [hnone, Option.toList_none, List.append_nil] at hfirst
      exact h.skip hfirst hseen (fun _ => List.mem_cons_of_mem _) hcomplaints
    | ok parsed =>
      have hsome : req.located = some (req, String.ofList parsed.path) := by
        rw [PageRequest.located, hparsed]
      rw [hsome, Option.toList_some] at hfirst
      simp only []
      rw [Heard.addScript_eq (by exact hjs), Heard.addEndpoint_eq (by exact hapi)]
      exact {
        seen := hseen
        seenJs := forall_mem_ite_cons h.seenJs
        seenApi := forall_mem_ite_cons h.seenApi
        requests := by
          rw [hfirst, List.map_append, ← h.requests]
          rfl
        scripts := by
          rw [hfirst, List.filter_append, List.map_append, ← h.scripts, List.filter_singleton]
          simp only
          split <;> simp_all
        endpoints := by
          rw [hfirst, List.filter_append, List.map_append, ← h.endpoints, List.filter_singleton]
          simp only
          split <;> simp_all
        complaints := hcomplaints }

theorem Heard.Follows.on (h : out.Follows events) (e : BrowserEvent) :
    (out.on e).Follows (events ++ [e]) := by
  cases e with
  | console type text => exact h.onConsole type text
  | request req => exact h.onRequest req

theorem Heard.Follows.foldl (h : out.Follows events) (more : List BrowserEvent) :
    (more.foldl Heard.on out).Follows (events ++ more) := by
  induction more generalizing out events with
  | nil => rwa [List.append_nil]
  | cons e more ih =>
    rw [List.foldl_cons, List.append_cons]
    exact ih (h.on e)

end Requests

/-! ## The result -/

section Result
variable [UnicodeData]

def Visit.events : Visit → List BrowserEvent
  | .unopened _ => []
  | .untitled events .. => events
  | .unclosed events .. => events
  | .closed events _ => events

/-- What has been read of the page. -/
def Visit.page : Visit → Option PageReading
  | .unclosed _ page _ => some page
  | .closed _ page => some page
  | _ => none

def Visit.ended : Visit → Bool
  | .closed .. => true
  | _ => false

/-- The first `n` items, of a visit that has ended well. -/
def Visit.limit {α : Type} (v : Visit) (n : ℕ) (items : List α) : List α :=
  if v.ended then items.take n else items

/-- The first item of each key, of a visit that has ended well. -/
def Visit.once {α κ : Type} [DecidableEq κ] (v : Visit) (key : α → κ) (items : List α) : List α :=
  if v.ended then distinctBy key items else items

/-- What the result says of a visit. Only one that has ended well is cut and counted. -/
structure RuntimeDiscovery.Reports (result : RuntimeDiscovery) (v : Visit) : Prop where
  requests : result.networkRequests =
    (v.limit 100 (firstRequests v.events)).map fun r => requestItem r.1 r.2
  endpoints : result.apiEndpoints = v.once RuntimeEndpoint.key
    ((v.limit 50 ((firstRequests v.events).filter fun r => r.1.isApi r.2)).map
      fun r => runtimeEndpoint r.1 r.2)
  scripts : result.jsFiles = v.limit 40 (v.once id
    (((firstRequests v.events).filter (·.1.isScript)).map (cut 600 ·.1.url)))
  complaints : result.consoleErrors = v.limit 25 (complaintsOf v.events)
  forms : result.forms = v.limit 30 ((v.page.bind PageReading.forms).getD [])
  secrets : result.possibleSecrets =
    v.page.elim [] fun page => runtimeSecrets (page.content.getD "")
  summary : result.summary = if v.ended then result.counts else {}
  enabled : result.enabled = v.ended
  error : result.error = none ↔ v.ended = true

theorem heard_follows (events : List BrowserEvent) :
    (events.foldl Heard.on {}).Follows events := Heard.follows_nil.foldl events

/-- The patterns are few and differ, so that all that are found are kept. -/
theorem distinct_runtimeSecrets (html : String) :
    distinctBy RuntimeSecret.pattern ((runtimeSecrets html).take 25) = runtimeSecrets html := by
  have hpatterns : (runtimeSecrets html).map RuntimeSecret.pattern =
      runtimeSecretPatterns.filter (contains (lower html)) := by
    rw [runtimeSecrets, List.map_map]
    exact List.map_id _
  have hlength : (runtimeSecrets html).length ≤ 25 := by
    rw [runtimeSecrets, List.length_map]
    exact (List.length_filter_le _ _).trans (by decide)
  have hnodup : runtimeSecretPatterns.Nodup := by decide
  rw [List.take_of_length_le hlength]
  apply distinctBy_eq_self
  rw [hpatterns]
  exact hnodup.filter _

theorem Reports.unopened (message : String) :
    (RuntimeDiscovery.fail {} message).Reports (.unopened message) where
  requests := rfl
  endpoints := rfl
  scripts := rfl
  complaints := rfl
  forms := rfl
  secrets := rfl
  summary := rfl
  enabled := rfl
  error := by simp [RuntimeDiscovery.fail, Visit.ended]

theorem Reports.untitled (events : List BrowserEvent) (finalUrl message : String) :
    ((RuntimeDiscovery.hear { finalUrl := some finalUrl } events).fail message).Reports
      (.untitled events finalUrl message) where
  requests := (heard_follows events).requests
  endpoints := (heard_follows events).endpoints
  scripts := (heard_follows events).scripts
  complaints := (heard_follows events).complaints
  forms := rfl
  secrets := rfl
  summary := rfl
  enabled := rfl
  error := by simp [RuntimeDiscovery.fail, Visit.ended]

theorem Reports.unclosed (events : List BrowserEvent) (page : PageReading) (message : String) :
    (((RuntimeDiscovery.hear {} events).read page).fail message).Reports
      (.unclosed events page message) where
  requests := (heard_follows events).requests
  endpoints := (heard_follows events).endpoints
  scripts := (heard_follows events).scripts
  complaints := (heard_follows events).complaints
  forms := rfl
  secrets := rfl
  summary := rfl
  enabled := rfl
  error := by simp [RuntimeDiscovery.fail, Visit.ended]

theorem Reports.closed (events : List BrowserEvent) (page : PageReading) :
    ((RuntimeDiscovery.hear {} events).read page).finish.Reports (.closed events page) where
  requests := by
    have h := (heard_follows events).requests
    exact (congrArg (List.take 100) h).trans List.map_take.symm
  endpoints := by
    have h := (heard_follows events).endpoints
    exact congrArg (distinctBy RuntimeEndpoint.key)
      ((congrArg (List.take 50) h).trans List.map_take.symm)
  scripts := congrArg (fun urls => (distinctBy id urls).take 40) (heard_follows events).scripts
  complaints := congrArg (List.take 25) (heard_follows events).complaints
  forms := rfl
  secrets := distinct_runtimeSecrets _
  summary := rfl
  enabled := rfl
  error := iff_of_true rfl rfl

end Result

end ThreatScanner.Analyzer
