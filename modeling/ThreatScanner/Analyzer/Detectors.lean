import ThreatScanner.Analyzer.Results
import ThreatScanner.Library.Distinct
import ThreatScanner.Python.Text

/-!
# The detectors whose verdicts `analyze` passes on

These detectors choose the severity, confidence and evidence type of what they report themselves,
from the responses to their requests: the probes for exposed endpoints and GraphQL introspection,
the Nikto-like paths, the classification of API endpoints and the SQL injection and XSS
validation. A response that did not arrive is `none`.
-/

namespace ThreatScanner.Analyzer

variable [UnicodeTables]

/-! ## Exposed endpoints -/

/-- An entry of `ADVANCED_EXPOSURE_PATHS`. -/
structure ExposurePath where
  path : String
  type : String
  category : String
  riskIfPublic : String
  keywords : List String
deriving DecidableEq

/-- `ADVANCED_EXPOSURE_PATHS`. -/
def advancedExposurePaths : List ExposurePath :=
  [{ path := "/docs", type := "Swagger / FastAPI Docs", category := "API Documentation"
     riskIfPublic := "HIGH"
     keywords := ["swagger ui", "openapi", "fastapi", "api documentation"] },
   { path := "/redoc", type := "ReDoc API Docs", category := "API Documentation"
     riskIfPublic := "HIGH"
     keywords := ["redoc", "openapi"] },
   { path := "/openapi.json", type := "OpenAPI Schema", category := "API Documentation"
     riskIfPublic := "HIGH"
     keywords := ["openapi", "paths", "components", "schemas"] },
   { path := "/swagger", type := "Swagger Endpoint", category := "API Documentation"
     riskIfPublic := "HIGH"
     keywords := ["swagger", "openapi"] },
   { path := "/swagger-ui.html", type := "Swagger UI", category := "API Documentation"
     riskIfPublic := "HIGH"
     keywords := ["swagger ui", "openapi"] },
   { path := "/graphql", type := "GraphQL Endpoint", category := "GraphQL"
     riskIfPublic := "MEDIUM"
     keywords := ["graphql", "query", "mutation", "errors"] },
   { path := "/graphiql", type := "GraphiQL Console", category := "GraphQL"
     riskIfPublic := "HIGH"
     keywords := ["graphiql", "graphql"] },
   { path := "/admin", type := "Admin Panel", category := "Admin/Auth"
     riskIfPublic := "MEDIUM"
     keywords := ["admin", "dashboard", "login", "password", "sign in"] },
   { path := "/admin/", type := "Admin Panel", category := "Admin/Auth"
     riskIfPublic := "MEDIUM"
     keywords := ["admin", "dashboard", "login", "password", "sign in"] },
   { path := "/login", type := "Login Page", category := "Admin/Auth"
     riskIfPublic := "INFO"
     keywords := ["login", "password", "username", "sign in"] },
   { path := "/debug", type := "Debug Endpoint", category := "Debug"
     riskIfPublic := "HIGH"
     keywords := ["debug", "traceback", "stack trace", "exception", "environment"] },
   { path := "/api/docs", type := "API Docs", category := "API Documentation"
     riskIfPublic := "HIGH"
     keywords := ["swagger", "openapi", "api"] }]

structure Exposure where
  path : String
  type : String
  category : String
  severity : String
  statusCode : Nat
  status : String
  confidence : String
  evidenceType : String
  evidence : String
  fix : String
  url : String
deriving DecidableEq

/-- `classify_exposure_status` on a response, with the `url` that `check_advanced_exposures`
adds. -/
def classifyExposureStatus (res : Response) (item : ExposurePath) : Option Exposure :=
  let statusCode := res.statusCode
  let body := String.ofList ((lower res.text).toList.take 6000)
  let headers := lower res.headersText
  let keywordHits := item.keywords.filter fun kw =>
    contains body (lower kw) || contains headers (lower kw)
  if statusCode ∈ [401, 403] then
    some {
      path := item.path
      type := item.type
      category := item.category
      severity := "INFO"
      statusCode := statusCode
      status := "PROTECTED"
      confidence := "HIGH"
      evidenceType := "status_code"
      evidence := "HTTP " ++ toString statusCode ++ " indicates access control is present."
      fix := "Protected endpoint detected. Keep authentication and authorization enabled."
      url := res.url }
  else if statusCode ∈ [404, 410] then none
  else if endsWith item.path "openapi.json" ∧ statusCode = 200 ∧ contains body "openapi" ∧
      contains body "paths" then
    some {
      path := item.path
      type := item.type
      category := item.category
      severity := "HIGH"
      statusCode := statusCode
      status := "POSSIBLE"
      confidence := "HIGH"
      evidenceType := "public_schema"
      evidence := "OpenAPI schema appears publicly accessible."
      fix := "Restrict OpenAPI schema in production or protect it behind authentication."
      url := res.url }
  else if statusCode = 200 ∧ keywordHits ≠ [] then
    let severity := if item.category = "Admin/Auth" ∧ item.type = "Login Page" then "INFO"
      else item.riskIfPublic
    some {
      path := item.path
      type := item.type
      category := item.category
      severity := severity
      statusCode := statusCode
      status := if severity ∈ ["HIGH", "MEDIUM"] then "POSSIBLE" else "INFO"
      confidence := if keywordHits.length ≥ 2 then "HIGH" else "MEDIUM"
      evidenceType := "keyword_status_match"
      evidence := "HTTP 200 with indicators: " ++ joinComma (keywordHits.take 5)
      fix := "Review whether this endpoint should be public. Add authentication, IP " ++
        "allowlisting, or disable it in production."
      url := res.url }
  else if statusCode ∈ [301, 302, 307, 308] then
    some {
      path := item.path
      type := item.type
      category := item.category
      severity := "INFO"
      statusCode := statusCode
      status := "INFO"
      confidence := "MEDIUM"
      evidenceType := "redirect"
      evidence := "Redirects to " ++ (res.header "location").getD ""
      fix := "Verify redirected endpoint is intended and protected if sensitive."
      url := res.url }
  else none

/-- `check_advanced_exposures`, for the responses to its requests. -/
def checkAdvancedExposures (responses : ExposurePath → Option Response) : List Exposure :=
  distinctBy (fun finding => (finding.path, finding.type, finding.statusCode))
    (advancedExposurePaths.filterMap fun item =>
      (responses item).bind fun res => classifyExposureStatus res item)

/-! ## GraphQL introspection -/

structure GraphqlIntrospection where
  endpoint : String
  url : String
  enabled : Bool
  severity : String
  status : String
  confidence : String
  evidenceType : String
  evidence : String
  fix : String
deriving DecidableEq

/-- `check_graphql_introspection`, for the response to its query. -/
def checkGraphqlIntrospection (res : Option Response) : Option GraphqlIntrospection :=
  res.bind fun res =>
    let text := lower res.text
    if res.statusCode ∈ [404, 405] then none
    else if res.statusCode = 200 ∧ contains text "__schema" ∧ contains text "querytype" then
      some {
        endpoint := "/graphql"
        url := res.url
        enabled := true
        severity := "HIGH"
        status := "POSSIBLE"
        confidence := "HIGH"
        evidenceType := "graphql_introspection"
        evidence := "GraphQL introspection appears enabled publicly."
        fix := "Disable GraphQL introspection in production unless explicitly needed and " ++
          "protected." }
    else if res.statusCode ∈ [401, 403] then
      some {
        endpoint := "/graphql"
        url := res.url
        enabled := false
        severity := "INFO"
        status := "PROTECTED"
        confidence := "HIGH"
        evidenceType := "status_code"
        evidence := "GraphQL endpoint returned HTTP " ++ toString res.statusCode ++ "."
        fix := "GraphQL endpoint appears protected. Keep access controls enabled." }
    else none

/-! ## Nikto-like paths -/

/-- An entry of `NIKTO_PATHS`. -/
structure NiktoPath where
  path : String
  name : String
  severity : String
  keywords : List String
  fix : String
deriving DecidableEq

/-- `NIKTO_PATHS`. -/
def niktoPaths : List NiktoPath :=
  [{ path := "/phpmyadmin/", name := "phpMyAdmin Exposed", severity := "HIGH"
     keywords := ["phpmyadmin", "pma_username"]
     fix := "Restrict phpMyAdmin access by IP, VPN, or remove it from public internet." },
   { path := "/wp-login.php", name := "WordPress Login Exposed", severity := "MEDIUM"
     keywords := ["wordpress", "wp-submit", "wp-login"]
     fix := "Protect WordPress login with rate limiting, MFA, and WAF rules." },
   { path := "/wp-admin/", name := "WordPress Admin Exposed", severity := "MEDIUM"
     keywords := ["wordpress", "wp-admin", "login"]
     fix := "Restrict admin access and enable strong authentication." },
   { path := "/server-status", name := "Apache Server Status Exposed", severity := "HIGH"
     keywords := ["apache server status", "server uptime", "total accesses"]
     fix := "Disable server-status or restrict it to localhost/admin IPs." },
   { path := "/.env", name := ".env File Exposed", severity := "HIGH"
     keywords := ["app_key", "db_password", "secret", "password", "database_url"]
     fix := "Remove .env from public web root immediately." },
   { path := "/.git/config", name := "Git Config Exposed", severity := "HIGH"
     keywords := ["[core]", "repositoryformatversion"]
     fix := "Block access to .git directory and remove it from public web root." },
   { path := "/backup.zip", name := "Backup File Exposed", severity := "HIGH"
     keywords := []
     fix := "Remove public backup files from the server." },
   { path := "/backup.sql", name := "Database Backup Exposed", severity := "HIGH"
     keywords := []
     fix := "Remove public database backups from the server." },
   { path := "/database.sql", name := "Database Dump Exposed", severity := "HIGH"
     keywords := []
     fix := "Remove public SQL dumps from the server." },
   { path := "/debug", name := "Debug Page Exposed", severity := "MEDIUM"
     keywords := ["debug", "traceback", "exception", "stack trace"]
     fix := "Disable debug mode in production." },
   { path := "/phpinfo.php", name := "PHP Info Page Exposed", severity := "HIGH"
     keywords := ["php version", "phpinfo"]
     fix := "Remove phpinfo.php from production." },
   { path := "/config.php", name := "Config File Exposed", severity := "HIGH"
     keywords := ["db_password", "database", "password", "secret"]
     fix := "Move configuration files outside the web root." },
   { path := "/admin/", name := "Admin Panel Exposed", severity := "MEDIUM"
     keywords := ["admin", "login", "password"]
     fix := "Protect admin panels with authentication, MFA, and IP restrictions." }]

structure NiktoCheck where
  name : String
  severity : String
  path : String
  status : Nat
  url : String
  evidence : String
  fix : String
  affectedUrl : String
  fixLocation : String
deriving DecidableEq

/-- `check_nikto_paths`, for the responses to its requests. -/
def checkNiktoPaths (responses : NiktoPath → Option Response) : List NiktoCheck :=
  niktoPaths.filterMap fun item =>
    (responses item).bind fun res =>
      let text := lower res.text
      if res.statusCode = 200 ∧
          (item.keywords = [] ∨ item.keywords.any fun keyword => contains text (lower keyword)) then
        some {
          name := item.name
          severity := item.severity
          path := item.path
          status := res.statusCode
          url := res.url
          evidence := "Matched " ++ item.path ++ " with HTTP " ++ toString res.statusCode
          fix := item.fix
          affectedUrl := res.url
          fixLocation := item.path }
      else none

/-! ## API endpoints -/

structure ApiEndpoint where
  endpoint : String
  category : String
  severity : String
  status : String
  confidence : String
deriving DecidableEq

/-- `classify_api_endpoint`, with the endpoint that it is for. -/
def classifyApiEndpoint (endpoint : String) : ApiEndpoint :=
  let e := lower endpoint
  let mentions (words : List String) : Bool := words.any fun x => contains e x
  if mentions ["swagger", "openapi", "docs", "redoc"] then
    ⟨endpoint, "API Documentation", "MEDIUM", "POSSIBLE", "MEDIUM"⟩
  else if mentions ["admin", "internal", "private", "debug"] then
    ⟨endpoint, "Sensitive API", "LOW", "INFO", "LOW"⟩
  else if mentions ["login", "auth", "token", "session"] then
    ⟨endpoint, "Auth API", "INFO", "INFO", "MEDIUM"⟩
  else if contains e "graphql" then ⟨endpoint, "GraphQL", "MEDIUM", "POSSIBLE", "MEDIUM"⟩
  else ⟨endpoint, "API Endpoint", "INFO", "INFO", "LOW"⟩

/-! ## SQL injection and XSS validation -/

/-- A result of the validation engine. -/
structure ValidationResult where
  type : String
  severity : String
  status : String
  confidence : String
  evidenceType : String
  evidence : String
  fix : String
  affectedUrl : Option String := none
  fixLocation : Option String := none
deriving DecidableEq

def queryUrl (baseUrl parameter payload : String) : String :=
  baseUrl ++ (if contains baseUrl "?" then "&" else "?") ++ parameter ++ "=" ++ payload

/-- What the responses to a pair of payloads show. -/
structure PairObservation where
  sqlError : Bool
  trueDiff : Nat
  falseDiff : Nat
  pairDelta : Nat

/-- `payload_pairs` of `validate_sqli_behavior`. -/
def payloadPairs : List (String × String) :=
  [("' OR '1'='1", "' OR '1'='2"), ("1 OR 1=1", "1 OR 1=2")]

/-- `validate_sqli_behavior`, for what is observed of each pair of payloads. -/
def validateSqliBehavior (baseUrl : String)
    (observe : String × String → Option PairObservation) : List ValidationResult :=
  distinctBy (fun result => (result.type, result.evidenceType))
    (payloadPairs.filterMap fun (truthy, falsy) =>
      (observe (truthy, falsy)).bind fun seen =>
        if seen.sqlError then
          some {
            type := "SQL Error Pattern"
            severity := "MEDIUM"
            status := "POSSIBLE"
            confidence := "MEDIUM"
            evidenceType := "database_error_pattern"
            evidence := "Database error pattern observed with payload pair: " ++ truthy ++ " / " ++
              falsy
            fix := "Use parameterized queries and suppress detailed database errors in production."
            affectedUrl := queryUrl baseUrl "scan_test" truthy
            fixLocation := "Query parameter: scan_test" }
        else if seen.trueDiff ≥ 25 ∧ seen.falseDiff ≥ 25 ∧ seen.pairDelta > 80 then
          some {
            type := "Behavioral SQLi Difference"
            severity := "MEDIUM"
            status := "POSSIBLE"
            confidence := "LOW"
            evidenceType := "response_diff"
            evidence := "Truthy/falsy payloads changed response characteristics. Length delta: " ++
              toString seen.pairDelta
            fix := "Manually verify parameter handling. Use parameterized queries and strong " ++
              "input validation." }
        else none)

/-- `reflected_context`. -/
def reflectedContext (body payload : String) : Option String :=
  (find payload.toList body.toList).map fun index =>
    let stop := min body.toList.length (index + payload.toList.length + 80)
    let context := String.ofList ((body.toList.take stop).drop (index - 80))
    if contains (lower context) "<script" then "script_context"
    else if contains (lower context) "href=" || contains (lower context) "src=" then
      "attribute_context"
    else if contains context "<" && contains context ">" then "html_context"
    else "text_context"

/-- `payloads` of `validate_xss_reflection`. -/
def xssPayloads : List String := ["xsstest123", "<svg/onload=alert(1)>"]

/-- `validate_xss_reflection`, for the response to each payload. -/
def validateXssReflection (baseUrl : String) (responses : String → Option Response) :
    List ValidationResult :=
  distinctBy (fun result => (result.type, result.evidenceType))
    (xssPayloads.filterMap fun payload =>
      (responses payload).bind fun res =>
        (reflectedContext res.text payload).map fun context =>
          let risky := context ∈ ["script_context", "attribute_context", "html_context"] ∧
            startsWith payload "<svg"
          { type := "Reflected Input"
            severity := if risky then "MEDIUM" else "LOW"
            status := if risky then "POSSIBLE" else "INFO"
            confidence := if risky then "MEDIUM" else "LOW"
            evidenceType := context
            evidence := "Payload reflected in " ++ context ++ ": " ++ payload
            fix := "Escape output based on context, sanitize input, and use a strong " ++
              "Content-Security-Policy."
            affectedUrl := queryUrl baseUrl "scan_xss" payload
            fixLocation := "Query parameter: scan_xss" })

end ThreatScanner.Analyzer
