import ThreatScanner.Analyzer.Detectors
import ThreatScanner.Analyzer.Findings
import ThreatScanner.Analyzer.Secrets

/-!
# The sections of `analyze`

A `Scan` is what `analyze` has of a host that resolves: the profile, the responses to its own
requests and the results of the other detectors. Each section is a stretch of `analyze`, in the
order of the source.
-/

namespace ThreatScanner.Analyzer

inductive Profile where
  | quick
  | full
  | deep
deriving DecidableEq

/-- `profile in ["full", "deep"]`. -/
def Profile.thorough : Profile → Bool
  | quick => false
  | full | deep => true

structure Scan where
  url : String
  ip : String
  /-- `target_type == "ip"`. -/
  isIp : Bool := false
  profile : Profile := .full
  response : Option Response := none
  optionsResponse : Option Response := none
  ssl : SslResult := ⟨true, none⟩
  dnsIssues : List String := []
  robotsEntries : List String := []
  securityTxtExists : Bool := true
  whoisAsn : WhoisAsn := {}
  reverseDns : Option String := none
  subdomains : List Subdomain := []
  niktoResponses : NiktoPath → Option Response := fun _ => none
  exposureResponses : ExposurePath → Option Response := fun _ => none
  graphqlResponse : Option Response := none
  openPorts : List OpenPort := []
  exposedPaths : List String := []
  technologies : List String := []
  wpscan : WpscanResult := {}
  dirsearch : DirsearchResult := {}
  cveResults : List CveGroup := []
  jsFiles : List (String × Option Response) := []
  apiEndpoints : List String := []
  sqlPairs : String × String → Option PairObservation := fun _ => none
  xssResponses : String → Option Response := fun _ => none

variable [UnicodeTables]

/-- `check_cors`. -/
def checkCors (response : Response) : List String :=
  let origin := response.header "Access-Control-Allow-Origin"
  let credentials := (response.header "Access-Control-Allow-Credentials").getD ""
  (if origin = some "*" then ["CORS allows all origins (*)"] else []) ++
    if origin = some "*" ∧ lower credentials = "true" then
      ["Dangerous CORS configuration: wildcard origin with credentials"]
    else []

/-- `check_http_methods`. -/
def checkHttpMethods (optionsResponse : Option Response) : List String :=
  match optionsResponse with
  | none => []
  | some res =>
    let allow := orElse (res.header "Allow") (res.header "Access-Control-Allow-Methods")
    if allow.getD "" = "" then []
    else ((allow.getD "").toList.splitOn ',').map fun m => String.ofList (strip m)

open Pattern in
/-- The patterns of `has_version_info`. -/
def versionPatterns : List Pattern :=
  let digits : Pattern := .rep (chars [('0', '9')]) 1 none
  [cat [digits, lit ".", digits], cat [lit "version", spaces, digits],
    cat [lit "nginx/", .one (chars [('0', '9')])], cat [lit "apache/", .one (chars [('0', '9')])],
    cat [lit "php/", .one (chars [('0', '9')])]]

/-- `has_version_info`. -/
def hasVersionInfo (text : String) : Bool :=
  versionPatterns.any fun p => searches p (lower text)

/-- `SECURITY_HEADERS`: the name, the severity and the fix. -/
def securityHeaders : List (String × String × String) :=
  [("Content-Security-Policy", "MEDIUM", "Add a strong Content-Security-Policy header."),
   ("X-Frame-Options", "MEDIUM", "Add X-Frame-Options: DENY or SAMEORIGIN."),
   ("X-Content-Type-Options", "LOW", "Add X-Content-Type-Options: nosniff."),
   ("Strict-Transport-Security", "MEDIUM", "Add Strict-Transport-Security header."),
   ("Referrer-Policy", "LOW", "Add Referrer-Policy header."),
   ("Permissions-Policy", "LOW", "Add Permissions-Policy header.")]

/-- `RISKY_PORTS`. -/
def riskyPorts : List Nat := [21, 22, 25, 3306, 5432, 6379, 27017]

open Section

/-! ## The site's own response -/

def unreachableSection (url : String) : Section :=
  note "Website is not reachable" ++
  addVuln "Website Not Reachable" "MEDIUM" url "Scanner could not connect to the website."
    "Check server, DNS, firewall, and hosting status." "Availability" ++
  addFinding "Website Not Reachable" "MEDIUM" "The scanner could not connect to the website."
    "Check server availability, firewall rules, DNS, and hosting status." "Availability" url

def httpSection (response : Response) : Section :=
  if response.scheme = "http" then
    note "Website uses HTTP instead of HTTPS" ++
    addVuln "HTTP Without HTTPS" "MEDIUM" response.url "Traffic may be intercepted or modified."
      "Force HTTPS redirection and enable HSTS." "SSL/TLS" ++
    addFinding "HTTP Used Instead of HTTPS" "MEDIUM"
      "The website is accessible over insecure HTTP."
      "Redirect all HTTP traffic to HTTPS and enable a valid SSL certificate." "SSL/TLS"
      response.url
  else ∅

def statusSection (response : Response) : Section :=
  if response.statusCode ≥ 500 then
    addVuln "Server Error" "MEDIUM" (some ("HTTP " ++ toString response.statusCode))
      "Server-side errors may reveal instability or misconfiguration."
      "Review backend logs and server configuration." "HTTP"
  else if response.statusCode ≥ 400 then
    addVuln "Client Error" "LOW" (some ("HTTP " ++ toString response.statusCode))
      "The requested page returns an error." "Review URL routing and access controls." "HTTP"
  else ∅

def securityHeaderSection (response : Response) : Section :=
  forEach securityHeaders fun (header, severity, fix) =>
    if (response.header header).isSome then ∅
    else
      note ("Missing security header: " ++ header) ++
      addVuln ("Missing Security Header: " ++ header) severity (some (header ++ " not present"))
        "Missing browser security controls may increase attack surface." fix "Headers" "HIGH"
        "header_check" ++
      addFinding ("Missing Security Header: " ++ header) severity
        ("The response does not include the " ++ header ++ " security header.") fix "Headers"
        (some (header ++ " not present"))

def disclosureSection (response : Response) : Section :=
  let server := (response.header "Server").getD ""
  let powered := (response.header "X-Powered-By").getD ""
  (if server = "" then ∅
  else
    note ("Server header exposed: " ++ server) ++
    addVuln "Server Header Disclosure" "LOW" (some ("Server: " ++ server))
      "Attackers may identify server technology." "Hide or reduce server version information."
      "Headers" ++
    addFinding "Server Header Exposed" "LOW"
      ("The server reveals technology information: " ++ server ++ ".")
      "Hide or minimize server version headers to reduce information disclosure." "Headers"
      (some ("Server: " ++ server))) ++
  if powered = "" then ∅
  else
    note ("Technology header exposed: " ++ powered) ++
    addVuln "Technology Disclosure" "LOW" (some ("X-Powered-By: " ++ powered))
      "Application technology is exposed." "Remove X-Powered-By header." "Headers" ++
    addFinding "Technology Header Exposed" "LOW"
      ("The application reveals technology information: " ++ powered ++ ".")
      "Remove X-Powered-By headers from the web server or framework." "Headers"
      (some ("X-Powered-By: " ++ powered))

def cookieSection (response : Response) : Section :=
  let cookies := (response.header "Set-Cookie").getD ""
  if cookies = "" then ∅
  else
    (if contains cookies "HttpOnly" then ∅
    else
      note "Cookie missing HttpOnly flag" ++
      addVuln "Cookie Missing HttpOnly" "MEDIUM" cookies "JavaScript may access sensitive cookies."
        "Set HttpOnly flag on sensitive cookies." "Cookies") ++
    (if contains cookies "Secure" then ∅
    else
      note "Cookie missing Secure flag" ++
      addVuln "Cookie Missing Secure" "MEDIUM" cookies
        "Cookies may be sent over insecure connections." "Set Secure flag on cookies."
        "Cookies") ++
    if contains cookies "SameSite" then ∅
    else
      note "Cookie missing SameSite flag" ++
      addVuln "Cookie Missing SameSite" "LOW" cookies "May increase CSRF risk."
        "Set SameSite=Lax or SameSite=Strict." "Cookies"

def corsSection (corsIssues : List String) : Section :=
  forEach corsIssues fun issue =>
    note issue ++
    addVuln "CORS Misconfiguration" "MEDIUM" issue
      "Overly permissive CORS may allow untrusted origins."
      "Restrict CORS to trusted domains only." "CORS" ++
    addFinding "CORS Misconfiguration" "MEDIUM" issue
      "Restrict Access-Control-Allow-Origin to trusted domains only." "CORS" issue

def methodSection (httpMethods : List String) : Section :=
  let dangerousMethods := httpMethods.filter fun m =>
    upper m ∈ ["PUT", "DELETE", "TRACE", "CONNECT"]
  if dangerousMethods = [] then ∅
  else
    note ("Potentially dangerous HTTP methods enabled: " ++ joinComma dangerousMethods) ++
    (forEach dangerousMethods fun method =>
      addVuln "Dangerous HTTP Method Enabled" "MEDIUM" method
        "Unsafe HTTP methods may allow unintended actions."
        "Disable unused HTTP methods such as PUT, DELETE, TRACE, CONNECT." "HTTP Methods") ++
    addFinding "Dangerous HTTP Methods" "MEDIUM"
      "Some HTTP methods may allow unsafe operations if not protected."
      "Disable unused HTTP methods at the web server or application layer." "HTTP Methods"
      (joinComma dangerousMethods)

/-- `strong_secret_types` of `analyze`. -/
def strongSecretTypes : List String :=
  ["AWS Access Key", "Private Key Marker", "GitHub Token", "Slack Token"]

/-- The title of the two items for a secret. -/
def secretTitle (type : String) : String := "JS Secret Exposure: " ++ type

omit [UnicodeTables] in
theorem startsWith_secretTitle (type : String) :
    startsWith (secretTitle type) "JS Secret Exposure: " = true := startsWith_append _ type

/-- The evidence of the two items for a secret. -/
def secretLine (secret : JsSecret) : String :=
  secret.url ++ " | Evidence: " ++ secret.evidence ++ " | Context: " ++ secret.context

def jsSecretSection (jsSecrets : List JsSecret) : Section :=
  (if jsSecrets.any fun x => strongSecretTypes.contains x.type then
    note "Possible secrets exposed in JavaScript files" else ∅) ++
  forEach (jsSecrets.take 8) fun secret =>
    addVuln (secretTitle secret.type) secret.severity (secretLine secret)
      "Public JavaScript appears to contain a secret or credential-like value." secret.fix
      "JavaScript Secrets" secret.confidence secret.evidenceType ++
    addFinding (secretTitle secret.type) secret.severity
      "A public JavaScript file contains a secret or credential-like value." secret.fix
      "JavaScript Secrets" (secretLine secret) secret.confidence secret.evidenceType

def apiEndpointSection (apiEndpoints : List ApiEndpoint) : Section :=
  if apiEndpoints = [] then ∅
  else
    addFinding "API Endpoints Discovered" "INFO"
      (toString apiEndpoints.length ++ " possible API endpoints were discovered.")
      (some ("Review exposed endpoints and ensure authentication, authorization, and rate " ++
        "limiting are enabled.")) "Attack Surface"
      (joinComma ((apiEndpoints.take 5).map ApiEndpoint.endpoint)) ++
    forEach (apiEndpoints.take 15) fun endpoint =>
      if endpoint.severity ∈ ["HIGH", "MEDIUM"] then
        addFinding (endpoint.category ++ " Reference Discovered") endpoint.severity
          "A potentially sensitive API reference was discovered in frontend content."
          (some ("Verify the endpoint requires authentication and remove unused internal " ++
            "references from public JavaScript.")) "Attack Surface" endpoint.endpoint
          endpoint.confidence "frontend_reference"
      else ∅

def sqliSection (results : List ValidationResult) : Section :=
  forEach results fun item =>
    addVuln item.type item.severity item.evidence
      "The scanner observed behavior that may indicate unsafe database input handling." item.fix
      "Injection" item.confidence item.evidenceType ++
    addFinding item.type item.severity
      "Evidence-based SQL injection validation produced a suspicious result." item.fix "Injection"
      item.evidence item.confidence item.evidenceType

def xssSection (results : List ValidationResult) : Section :=
  forEach results fun item =>
    addFinding item.type item.severity "Input reflection was tested with context analysis."
      item.fix "XSS" item.evidence item.confidence item.evidenceType ++
    if item.status = "POSSIBLE" then
      addVuln "Possible Reflected XSS" item.severity item.evidence
        "The payload was reflected in a potentially executable HTML context." item.fix "XSS"
        item.confidence item.evidenceType
    else ∅

def directoryListingSection (pageText : String) : Section :=
  if contains pageText "index of /" || contains pageText "directory listing" then
    note "Directory listing appears to be enabled" ++
    addVuln "Directory Listing Enabled" "HIGH" "Page contains directory listing indicators."
      "Files and folders may be publicly exposed." "Disable directory listing on the web server."
      "Exposure" ++
    addFinding "Directory Listing Enabled" "HIGH"
      "The website appears to expose directory listings."
      "Disable directory listing in the web server configuration." "Exposure" "index of /"
  else ∅

/-! ## The other detectors -/

def sslSection (ssl : SslResult) : Section :=
  if ssl.valid then ∅
  else
    note "SSL certificate problem or HTTPS unavailable" ++
    addVuln "SSL/TLS Problem" "MEDIUM" (showOption ssl.expires)
      "Users may be exposed to insecure or broken HTTPS."
      "Install a valid TLS certificate and ensure HTTPS is correctly configured." "SSL/TLS" ++
    addFinding "SSL Problem" "MEDIUM"
      "The website has an SSL/TLS issue or HTTPS is not available."
      "Install a valid TLS certificate and ensure HTTPS is correctly configured." "SSL/TLS"
      (showOption ssl.expires)

def dnsSection (issues : List String) : Section :=
  forEach issues fun issue =>
    if contains issue "SPF" || contains issue "DMARC" then
      note issue ++
      addVuln "DNS Email Security Issue" "LOW" issue
        "Missing email security records may increase spoofing risk."
        "Configure SPF and DMARC records." "DNS" ++
      addFinding "DNS Email Security Issue" "LOW" issue
        "Configure SPF and DMARC records to reduce email spoofing risk." "DNS" issue
    else ∅

def robotsSection (suspiciousEntries : List String) : Section :=
  if suspiciousEntries = [] then ∅
  else
    note "robots.txt contains potentially sensitive entries" ++
    addVuln "Suspicious robots.txt Entries" "LOW" (joinComma suspiciousEntries)
      "robots.txt may reveal sensitive paths."
      "Avoid exposing sensitive path names and protect routes with authentication." "Robots" ++
    addFinding "Suspicious robots.txt Entries" "LOW"
      "robots.txt contains paths that may reveal sensitive areas."
      "Avoid exposing sensitive path names in robots.txt and protect sensitive routes." "Robots"
      (joinComma suspiciousEntries)

def securityTxtSection (present : Bool) : Section :=
  if present then ∅
  else
    addFinding "security.txt Not Found" "INFO" "The website does not expose a security.txt file."
      "Add /.well-known/security.txt with a security contact and disclosure policy."
      "Security Policy"

def exposedPathSection (exposedPaths : List String) : Section :=
  forEach exposedPaths fun path =>
    note ("Sensitive path exposed: " ++ path) ++
    addVuln "Sensitive Path Exposed" "HIGH" path
      "Sensitive files or admin paths may be publicly accessible."
      "Remove exposed files or restrict access with authentication." "Exposure"

def niktoSection (niktoChecks : List NiktoCheck) : Section :=
  forEach niktoChecks fun item =>
    note item.name ++
    addVuln item.name item.severity item.evidence
      ("Potential exposure detected at " ++ item.path) item.fix "Nikto-like" ++
    addFinding item.name item.severity item.evidence item.fix "Nikto-like" item.url

def dirsearchSection (result : DirsearchResult) : Section :=
  if result.executed ∧ result.totalPaths > 0 then
    note ("Dirsearch found " ++ toString result.totalPaths ++ " WordPress paths") ++
    -- The call leaves out the impact, so the fix and the category move up by one place.
    addVuln "WordPress Directory Discovery" "INFO"
      (some ("Dirsearch found " ++ toString result.totalPaths ++ " WordPress-related paths."))
      "Review the discovered paths and restrict access if they should not be public."
      "WordPress" ++
    addFinding "WordPress Directory Discovery" "INFO"
      "Dirsearch uncovered publicly reachable WordPress-related paths that should be reviewed."
      "Review the discovered paths and restrict access if they should not be public."
      "WordPress" (some ("Paths found: " ++ toString result.totalPaths))
  else ∅

def wpscanSection (result : WpscanResult) : Section :=
  let total := result.totalVulnerabilities
  let severity := if total ≥ 3 then "HIGH" else "MEDIUM"
  if result.executed ∧ total > 0 then
    note ("WPScan detected " ++ toString total ++ " WordPress vulnerabilities") ++
    addVuln "WPScan Vulnerabilities Detected" severity
      (some ("Core: " ++ toString result.coreVulnerabilities ++ " | Plugins: " ++
        toString result.pluginVulnerabilities ++ " | Themes: " ++
        toString result.themeVulnerabilities))
      "WPScan found known vulnerabilities in WordPress components."
      "Update WordPress core, plugins, and themes to patched versions." "WordPress" ++
    addFinding "WPScan Vulnerabilities Detected" severity
      "WPScan found known vulnerabilities in WordPress components."
      "Update WordPress core, plugins, and themes to patched versions." "WordPress"
      (some ("Total: " ++ toString total)) ++
    forEach (result.findings.take 8) fun item =>
      addFinding ("WPScan: " ++ item.componentType ++ " " ++ item.component)
        (if item.fixedIn.getD "" = "" then "HIGH" else "MEDIUM")
        ((orElse item.title (some "WordPress vulnerability detected")).getD "")
        "Upgrade to a secure version and verify hardening settings." "WordPress"
        (orElse (orElse item.reference item.fixedIn) (some item.component))
  else ∅

/-- The title of the two items for an exposure. -/
def exposureTitle (type : String) : String := type ++ " Detected"

/-- The body of the loop over the exposures. -/
def exposureItems (exposure : Exposure) : Section :=
  if exposure.status = "PROTECTED" then
    addFinding (exposureTitle exposure.type) "INFO"
      "A sensitive or administrative endpoint exists but appears protected." exposure.fix
      exposure.category exposure.evidence exposure.confidence exposure.evidenceType
  else
    addFinding (exposureTitle exposure.type) exposure.severity
      ("A sensitive, administrative, debug, API documentation, or GraphQL endpoint may be " ++
        "publicly reachable.") exposure.fix exposure.category
      (some (exposure.url ++ " | " ++ exposure.evidence)) exposure.confidence
      exposure.evidenceType ++
    if exposure.severity ∈ ["HIGH", "MEDIUM"] then
      addVuln (exposureTitle exposure.type) exposure.severity
        (some (exposure.url ++ " | HTTP " ++ toString exposure.statusCode ++ " | " ++
          exposure.evidence))
        ("Publicly exposed sensitive endpoints may increase attack surface and leak internal " ++
          "API structure.") exposure.fix exposure.category exposure.confidence
        exposure.evidenceType
    else ∅

def exposureSection (advancedExposures : List Exposure) : Section :=
  forEach advancedExposures exposureItems

def graphqlSection (graphqlIntrospection : Option GraphqlIntrospection) : Section :=
  match graphqlIntrospection with
  | none => ∅
  | some result =>
    addFinding "GraphQL Introspection Check" result.severity
      "GraphQL introspection status was tested." result.fix "GraphQL" result.evidence
      result.confidence result.evidenceType ++
    if result.enabled then
      addVuln "GraphQL Introspection Enabled" result.severity result.evidence
        "Public GraphQL introspection can reveal schema structure and help attackers map the API."
        result.fix "GraphQL" result.confidence result.evidenceType
    else ∅

def riskyPortSection (openPorts : List OpenPort) : Section :=
  let riskyOpen := openPorts.filter fun p => p.port ∈ riskyPorts
  let portsText := joinComma (riskyOpen.map fun p => toString p.port ++ " (" ++ p.service ++ ")")
  if riskyOpen = [] then ∅
  else
    note ("Risky open ports detected: " ++ portsText) ++
    addVuln "Risky Open Ports" "MEDIUM" portsText
      "Potentially risky service ports are reachable from the internet."
      "Close unused ports or restrict them with firewall rules." "Ports" ++
    addFinding "Risky Open Ports" "MEDIUM"
      "Potentially risky service ports are reachable from the internet."
      "Close unused ports or restrict them with firewall rules and IP allowlists." "Ports"
      portsText

def subdomainSection (subdomains : List Subdomain) : Section :=
  if subdomains = [] then ∅
  else
    addFinding "Subdomains Discovered" "INFO"
      (toString subdomains.length ++ " common subdomains were discovered.")
      "Review discovered subdomains and ensure unused environments are removed or protected."
      "Subdomains"

def whoisSection (whoisAsn : WhoisAsn) : Section :=
  if whoisAsn.error.getD "" = "" then
    let parts := [whoisAsn.asn, whoisAsn.organization, whoisAsn.isp, whoisAsn.country].filterMap
      fun x => if x.getD "" = "" then none else x
    addFinding "Whois / ASN Information Collected" "INFO"
      "Public network ownership and ASN information was collected for the target IP."
      (some ("Review hosting provider, ASN, and geolocation information for asset inventory and " ++
        "exposure tracking.")) "Whois/ASN" (orElse (some (joinComma parts)) whoisAsn.ip)
  else ∅

def ipTargetSection (isIp : Bool) (reverseDns : Option String) (ip : String) : Section :=
  if isIp then
    addFinding "IP Target Scan" "INFO"
      "The scanner analyzed a raw IP address instead of a domain name."
      (some ("Review exposed services, ports, reverse DNS, and ensure admin/login panels are " ++
        "not publicly reachable.")) "IP Intelligence" (orElse reverseDns (some ip))
        "HIGH" "target_type"
  else ∅

/-! ## CVE intelligence -/

/-- The `evidence` of the two items for a CVE. -/
def cveEvidence (technology : String) (cve : Cve) : String :=
  let score := match cve.score with
    | some n => if n.value = 0 then "N/A" else n.text
    | none => "N/A"
  let exploitability := orElse (orElse cve.exploitability cve.intelligence.exploitability)
    (some "UNKNOWN")
  let publicExploit := cve.publicExploitIndicators || cve.intelligence.publicExploitIndicators
  let attackTypes := cve.intelligence.attackTypes
  "Technology: " ++ technology ++ " | CVSS: " ++ score ++ " | Exploitability: " ++
    exploitability.getD "" ++ " | Public exploit indicators: " ++
    (if publicExploit then "YES" else "NO") ++ " | Attack types: " ++
    (if attackTypes = [] then "General" else joinComma (attackTypes.take 4)) ++ " | NVD: " ++
    cve.url

/-- The body of the loop over the CVEs of a technology. -/
def cveItems (versioned : Bool) (technology : String) (cve : Cve) : Section :=
  let publicExploit := cve.publicExploitIndicators || cve.intelligence.publicExploitIndicators
  let severity := if versioned then cve.severity else "INFO"
  let status := if versioned then "POSSIBLE" else "INFO"
  let confidence :=
    if publicExploit ∧ severity ∈ ["CRITICAL", "HIGH"] ∧ versioned then "HIGH"
    else if versioned then "MEDIUM" else "LOW"
  let fix := orElse cve.patchGuidance
    (some ("Verify the exact affected product/version, then update to the latest patched " ++
      "release or apply vendor mitigations."))
  let added :=
    addVuln ("CVE Intelligence: " ++ showOption cve.id) severity (cveEvidence technology cve)
      (cve.description.getD "No description") fix "CVE Intelligence" confidence
      "cve_intelligence" ++
    addFinding ("CVE Intelligence: " ++ showOption cve.id) severity
      ("Technology: " ++ technology ++ " | " ++ showOption cve.description) fix "CVE Intelligence"
      (cveEvidence technology cve) confidence "cve_intelligence"
  { added with
    findings := added.findings.map fun item =>
      { item with status := some status, affectedUrl := some cve.url }
    vulnerabilityChecks := added.vulnerabilityChecks.map fun item =>
      { item with status := some status, affectedUrl := some cve.url } }

def cveSection (cveResults : List CveGroup) (techText : String) : Section :=
  forEach cveResults fun item =>
    forEach item.cves (cveItems (hasVersionInfo techText) item.technology)

end ThreatScanner.Analyzer
