import Mathlib.Data.Rat.Defs

/-!
# What the detectors hand to `analyze`

Records for the results that `analyze` reads. Those of the detectors whose work is outside this
development (name resolution, TLS, ports, WPScan, the CVE and whois services) may hold any values
of their types.
-/

namespace ThreatScanner.Analyzer

/-- A response of the HTTP client. `header` looks a header up whatever its case, `headersText` is
`str(res.headers)`. -/
structure Response where
  statusCode : Nat
  text : String
  url : String
  scheme : String := "https"
  header : String → Option String := fun _ => none
  headersText : String := "Headers([])"

/-- A number of a JSON document, with the text that `str` gives for it. -/
structure Number where
  value : ℚ
  text : String
deriving DecidableEq

structure Subdomain where
  subdomain : Option String
  ips : List String
  http : Bool
  https : Bool
  statusCode : Option Nat
  finalUrl : Option String
deriving DecidableEq

/-- An open port, as `check_port` or `run_nmap_scan` reports it. -/
structure OpenPort where
  port : Nat
  protocol : Option String := none
  state : Option String := none
  service : String
  product : Option String := none
  version : Option String := none
  extraInfo : Option String := none
  banner : Option String := none
  risk : Option String := none
  source : Option String := none
deriving DecidableEq

/-- The `intelligence` of a CVE. -/
structure Intelligence where
  attackTypes : List String := []
  exploitability : Option String := none
  publicExploitIndicators : Bool := false
deriving DecidableEq

structure Cve where
  id : Option String
  severity : String
  score : Option Number := none
  published : Option String := none
  description : Option String := none
  url : String
  intelligence : Intelligence := {}
  exploitability : Option String := none
  publicExploitIndicators : Bool := false
  patchGuidance : Option String := none
deriving DecidableEq

/-- The CVEs found for one technology. -/
structure CveGroup where
  technology : String
  cves : List Cve
deriving DecidableEq

structure WhoisAsn where
  error : Option String := none
  asn : Option String := none
  organization : Option String := none
  isp : Option String := none
  country : Option String := none
  ip : Option String := none

structure WpscanFinding where
  componentType : String
  component : String
  title : Option String
  fixedIn : Option String
  reference : Option String

structure WpscanResult where
  executed : Bool := false
  totalVulnerabilities : Nat := 0
  coreVulnerabilities : Nat := 0
  pluginVulnerabilities : Nat := 0
  themeVulnerabilities : Nat := 0
  findings : List WpscanFinding := []

structure DirsearchResult where
  executed : Bool := false
  totalPaths : Nat := 0

/-- `expires` holds the error when the certificate is not valid. -/
structure SslResult where
  valid : Bool
  expires : Option String

end ThreatScanner.Analyzer
