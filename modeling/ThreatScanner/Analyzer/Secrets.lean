import ThreatScanner.Analyzer.Results
import ThreatScanner.Library.Distinct
import ThreatScanner.Library.Masking
import ThreatScanner.Python.Pattern

/-!
# Secrets in JavaScript files

`detect_js_secrets` runs the patterns of `JS_SECRET_RULES` over a text, drops what looks like a
false positive, and reports up to three matches of each rule, with the value masked and the text
around it as context. `check_js_secrets` does so for each script of a page.
-/

namespace ThreatScanner.Analyzer

structure JsSecretRule where
  type : String
  severity : String
  confidence : String
  evidenceType : String
  regex : Pattern
  fix : String

open Pattern in
/-- `JS_SECRET_RULES`. -/
def jsSecretRules : List JsSecretRule :=
  [{ type := "Private Key"
     severity := "CRITICAL"
     confidence := "HIGH"
     evidenceType := "private_key_exposed"
     regex := cat [lit "-----BEGIN", spaces1,
       opt (.alt (cat [lit "RSA", spaces1]) (.alt (cat [lit "DSA", spaces1])
         (.alt (cat [lit "EC", spaces1]) (cat [lit "OPENSSH", spaces1])))),
       lit "PRIVATE", spaces1, lit "KEY-----"]
     fix := "Remove the private key from public files immediately, rotate the key, and store it " ++
       "only in backend secrets/environment variables." },
   { type := "AWS Access Key"
     severity := "HIGH"
     confidence := "HIGH"
     evidenceType := "real_secret_exposed"
     regex := cat [.boundary, lit "AKIA",
       .rep (chars [('0', '9'), ('A', 'Z')]) 16 (some 16), .boundary]
     fix := "Revoke/rotate the AWS key immediately. Never ship cloud credentials in frontend " ++
       "JavaScript." },
   { type := "GitHub Token"
     severity := "HIGH"
     confidence := "HIGH"
     evidenceType := "real_secret_exposed"
     regex := cat [.boundary, lit "gh",
       .one (chars [('p', 'p'), ('o', 'o'), ('u', 'u'), ('s', 's'), ('r', 'r')]), lit "_",
       .rep (chars (alnum ++ [('_', '_')])) 20 none, .boundary]
     fix := "Revoke the GitHub token immediately and move it to backend-only configuration." },
   { type := "Slack Token"
     severity := "HIGH"
     confidence := "HIGH"
     evidenceType := "real_secret_exposed"
     regex := cat [.boundary, lit "xox",
       .one (chars [('b', 'b'), ('a', 'a'), ('p', 'p'), ('r', 'r'), ('s', 's')]), lit "-",
       .rep (chars (alnum ++ [('-', '-')])) 20 none, .boundary]
     fix := "Revoke the Slack token and store it server-side only." },
   { type := "Stripe Secret Key"
     severity := "HIGH"
     confidence := "HIGH"
     evidenceType := "real_secret_exposed"
     regex := cat [.boundary, lit "sk_", .alt (lit "live") (lit "test"), lit "_",
       .rep (chars alnum) 20 none, .boundary]
     fix := "Rotate the Stripe secret key and move all secret-key usage to the backend." },
   { type := "JWT Token"
     severity := "HIGH"
     confidence := "HIGH"
     evidenceType := "real_secret_exposed"
     regex := cat [.boundary, lit "eyJ",
       .rep (chars (alnum ++ [('_', '_'), ('-', '-')])) 10 none, lit ".",
       .rep (chars (alnum ++ [('_', '_'), ('-', '-')])) 10 none, lit ".",
       .rep (chars (alnum ++ [('_', '_'), ('-', '-')])) 10 none, .boundary]
     fix := "Do not embed JWT/session tokens in frontend bundles. Rotate exposed tokens and " ++
       "keep them server-side or short-lived." },
   { type := "Bearer Token"
     severity := "HIGH"
     confidence := "MEDIUM"
     evidenceType := "credential_pattern"
     regex := cat [lit "Bearer", spaces1,
       .rep (chars (alnum ++ [('-', '-'), ('.', '.'), ('_', '_'), ('~', '~'), ('+', '+'),
         ('/', '/')])) 32 none, .rep (chars [('=', '=')]) 0 (some 2)]
     fix := "Review and rotate the token if valid. Bearer tokens should not be hardcoded in " ++
       "frontend code." },
   { type := "Google API Key"
     severity := "MEDIUM"
     confidence := "MEDIUM"
     evidenceType := "credential_pattern"
     regex := cat [.boundary, lit "AIza",
       .rep (chars (alnum ++ [('-', '-'), ('_', '_')])) 35 (some 35), .boundary]
     fix := "Restrict the Google API key by HTTP referrer/API scope and move sensitive " ++
       "operations to the backend." },
   { type := "Firebase API Key"
     severity := "MEDIUM"
     confidence := "MEDIUM"
     evidenceType := "credential_pattern"
     regex := cat [.boundary, lit "apiKey", spaces, assign, spaces, quote, quoted 30, quote]
     fix := "Firebase config can be public, but review database/storage rules and restrict " ++
       "allowed domains." },
   { type := "Possible Secret Assignment"
     severity := "MEDIUM"
     confidence := "MEDIUM"
     evidenceType := "credential_like_value"
     regex := cat [.boundary,
       .group (.alt (lit "secret") (.alt (lit "token")
         (.alt (cat [lit "api", joiner, lit "key"]) (.alt (cat [lit "access", joiner, lit "key"])
           (.alt (cat [lit "client", joiner, lit "secret"])
             (.alt (cat [lit "auth", joiner, lit "token"])
               (cat [lit "refresh", joiner, lit "token"]))))))),
       .boundary, spaces, assign, spaces, quote, quoted 24, quote]
     fix := "Review this value. If it is a real secret, rotate it and move it to backend " ++
       "environment variables." }]

/-! ## False positives -/

/-- `JS_SECRET_SAFE_WORDS`. -/
def jsSecretSafeWords : List String :=
  ["example", "sample", "demo", "test", "testing", "placeholder", "your_", "insert_",
    "replace_me", "changeme", "change_me", "dummy", "fake", "mock", "localhost", "127.0.0.1",
    "undefined", "null", "xxxx", "xxxxx", "*****", "<", ">", "analytics", "metric", "metrics",
    "tracking", "telemetry", "globalheader", "global-header", "apple", "cdn", "assets",
    "available", "enabled", "disabled", "locale", "language", "version", "build", "bundle",
    "chunk", "module", "config", "public", "client", "browser", "window", "document"]

/-- `JS_SECRET_PUBLIC_CONFIG_KEYS`. -/
def jsSecretPublicConfigKeys : List String :=
  ["api", "apis", "apiurl", "api_url", "apiendpoint", "api_endpoint", "analytics", "metrics",
    "tracking", "telemetry", "locale", "language", "region", "country", "environment", "env",
    "mode", "version", "build", "clientid", "client_id", "projectid", "project_id"]

/-- The test `secret_entropy(compact) < 3.5`, which is made in floating point. -/
class EntropyTest where
  low : List Char → Bool

variable [UnicodeTables]

/-- `is_probably_public_config`. -/
def isProbablyPublicConfig (keyName value : List Char) : Bool :=
  let key := String.ofList
    ((lower (String.ofList keyName)).toList.map fun c => if c = '-' then '_' else c)
  let valueL := lower (String.ofList value)
  jsSecretPublicConfigKeys.contains key ||
    (["analytics", "metric", "tracking", "telemetry", "locale", "version", "config"].any
      fun k => contains key k) ||
    ["globalheader", "analytics", "metrics", "locale", "available=", "enabled=", "false",
      "true"].any fun x => contains valueL x

/-- `strong_types`. -/
def strongTypes : List String :=
  ["Private Key", "AWS Access Key", "GitHub Token", "Slack Token", "Stripe Secret Key",
    "JWT Token"]

variable [EntropyTest]

/-- `is_probably_false_positive`. -/
def isProbablyFalsePositive (value keyName : List Char) (ruleType : String) : Bool :=
  let value := strip value
  let low := lower (String.ofList value)
  let compact := value.filter Char.isAlphanum
  if value = [] then true
  else if ruleType ∈ strongTypes then false
  else if ruleType = "Possible Secret Assignment" ∧
      (compact.length < 28 ∨ EntropyTest.low compact ∨ isProbablyPublicConfig keyName value) then
    true
  else if compact.length < 20 then true
  else if jsSecretSafeWords.any fun word => contains low word then true
  else if ["http://", "https://", "/", "./", "../"].any fun start => startsWith low start then true
  else if compact ≠ [] ∧ (lower (String.ofList compact)).toList.eraseDups.length ≤ 3 ∧
      compact.length > 10 then true
  -- `[A-Za-z0-9_-]{1,18}` on letters and digits
  else if compact ≠ [] ∧ compact.length ≤ 18 then true
  else false

/-! ## Detection -/

/-- `mask_secret`. -/
def maskSecret (value : List Char) : List Char :=
  let value := strip value
  if value.length ≤ 10 then "***".toList
  else value.take 6 ++ "...".toList ++ value.drop (value.length - 4)

/-- `_extract_secret_value`. -/
def extractSecretValue (found : Found Char) : List Char × List Char :=
  match found.captures with
  | first :: second :: _ => (second.getD [], first.getD [])
  | [first] => (first.getD [], [])
  | [] => (found.taken, [])

def secretValue (found : Found Char) : List Char := (extractSecretValue found).1

/-- `js_text[left:right]` around a match. -/
def secretWindow (jsText : List Char) (found : Found Char) : List Char :=
  (jsText.take (found.start + found.taken.length + 70)).drop (found.start - 70)

/-- `build_secret_context`. -/
def buildSecretContext (jsText : List Char) (found : Found Char) (rawValue : List Char) :
    List Char :=
  (replace (secretWindow jsText found) rawValue (maskSecret rawValue)).take 260

structure JsSecret where
  type : String
  title : String
  severity : String
  confidence : String
  status : String
  category : String
  url : String
  source : String
  affectedUrl : String
  evidence : String
  context : String
  evidenceType : String
  fix : String
  fixLocation : String
  keyName : Option String
deriving DecidableEq

/-- The finding for a match. -/
def jsSecret (rule : JsSecretRule) (jsText : List Char) (jsUrl : String) (found : Found Char) :
    JsSecret :=
  let (rawValue, keyName) := extractSecretValue found
  { type := rule.type
    title := "JS Secret Exposure: " ++ rule.type
    severity := rule.severity
    confidence := rule.confidence
    status :=
      if rule.evidenceType ∈ ["private_key_exposed", "real_secret_exposed"] then "CONFIRMED"
      else "POSSIBLE"
    category := "JavaScript Secrets"
    url := jsUrl
    source := jsUrl
    affectedUrl := jsUrl
    evidence := String.ofList (maskSecret rawValue)
    context := String.ofList (buildSecretContext jsText found rawValue)
    evidenceType := rule.evidenceType
    fix := rule.fix
    fixLocation := jsUrl
    keyName := if keyName = [] then none else some (String.ofList keyName) }

/-- The matches of a rule that are reported. -/
def reportedMatches (rule : JsSecretRule) (jsText : List Char) : List (Found Char) :=
  ((rule.regex.finditer CharClass.mem isWord jsText).filter fun found =>
    let (rawValue, keyName) := extractSecretValue found
    !isProbablyFalsePositive rawValue keyName rule.type).take 3

/-- `detect_js_secrets`. -/
def detectJsSecrets (jsText : List Char) (jsUrl : String) : List JsSecret :=
  jsSecretRules.flatMap fun rule =>
    (reportedMatches rule jsText).map (jsSecret rule jsText jsUrl)

/-- `check_js_secrets`, for the scripts of the page and the responses to fetching them. -/
def checkJsSecrets (files : List (String × Option Response)) : List JsSecret :=
  distinctBy (fun secret => (secret.type, secret.url, secret.evidence))
    (files.flatMap fun (jsUrl, res) =>
      match res with
      | none => []
      | some res =>
        let contentType := lower ((res.header "content-type").getD "")
        let path := String.ofList ((lower jsUrl).toList.takeWhile (· ≠ '?'))
        if res.statusCode ≠ 200 then []
        else if !contains contentType "javascript" && !contains contentType "ecmascript" &&
            !endsWith path ".js" then []
        else detectJsSecrets (res.text.toList.take 500000) jsUrl)

end ThreatScanner.Analyzer
