import ThreatScanner.Analyzer.Detectors
import ThreatScanner.Library.Rounding
import ThreatScanner.Python.Pattern

/-!
# The validation of SQL injection

`validate_sqli_behavior` fetches a page as it is and with pairs of payloads in a parameter of its
own. It looks for error messages of databases in the two pages of a pair and, when there are none,
compares them with the page as it is. The error messages are not looked for in the page as it is.
-/

namespace ThreatScanner.Analyzer

/-- The characters of `\d`, from the tables of the interpreter. -/
class DecimalDigits where
  isDecimal : Char → Bool
  isDecimal_ascii : ∀ c : Char, c.toNat < 128 → isDecimal c = c.isDigit

export DecimalDigits (isDecimal)

/-- The digits of ASCII. -/
@[reducible] def asciiDigits : DecimalDigits where
  isDecimal := Char.isDigit
  isDecimal_ascii _ _ := rfl

/-- `re.sub` of a class of characters, at least `lo` in a row. -/
def subRuns (cls : Char → Bool) (lo : Nat) (new : String) (text : List Char) : List Char :=
  Regex.sub (fun (p : Char → Bool) c => p c) (fun _ => false) (.rep cls lo none) new.toList text

/-- `normalize_body_for_diff`. -/
def normalizeBodyForDiff [DecimalDigits] (body : String) : List Char :=
  let body := subRuns isSpace 1 " " body.toList
  let body := subRuns isDecimal 2 "N" body
  let body := subRuns (Pattern.chars [('a', 'f'), ('0', '9')]).mem 16 "HASH" body
  body.take 50000

/-- The text begins with `start`, which has no upper-case letters, under `re.IGNORECASE`. -/
def startsFolded (start : String) (text : List Char) : Bool :=
  (text.take start.toList.length).map foldCase = start.toList

/-- What `(.*?)</title>` captures at the head of a text. -/
def beforeTitleEnd : List Char → Option (List Char)
  | [] => none
  | c :: cs =>
    if startsFolded "</title>" (c :: cs) then some []
    else if c = '\n' then none
    else (beforeTitleEnd cs).map (c :: ·)

/-- What `<title[^>]*>(.*?)</title>` captures at the head of a text. -/
def titleHere (text : List Char) : Option (List Char) :=
  if startsFolded "<title" text then
    match (text.drop 6).dropWhile (· ≠ '>') with
    | [] => none
    | _ :: rest => beforeTitleEnd rest
  else none

/-- What `re.search` of the title captures. -/
def searchTitle : List Char → Option (List Char)
  | [] => none
  | c :: cs => titleHere (c :: cs) <|> searchTitle cs

/-- What `response_fingerprint` returns. -/
structure Fingerprint where
  statusCode : Nat
  length : Nat
  wordCount : Nat
  title : Option (List Char)
  body : List Char
deriving DecidableEq

/-- `response_fingerprint` of a response that arrived. -/
def responseFingerprint [DecimalDigits] (res : Response) : Fingerprint :=
  let body := normalizeBodyForDiff res.text
  { statusCode := res.statusCode
    length := body.length
    wordCount := ((body.splitOnP isSpace).filter (· ≠ [])).length
    title := (searchTitle body).map strip
    body }

open Rounding in
/-- `diff_score`, whose ratio and bounds are doubles. -/
def diffScore (base test : Fingerprint) : Nat :=
  let baseLen := max base.length 1
  let ratio : ℚ := roundToBits 53 (|(baseLen : ℚ) - test.length| / baseLen)
  let score := if base.statusCode ≠ test.statusCode then 30 else 0
  let score := score +
    if ratio > roundToBits 53 (45 / 100) then 35
    else if ratio > roundToBits 53 (25 / 100) then 25
    else if ratio > roundToBits 53 (12 / 100) then 12
    else 0
  let score := score + if base.title ≠ test.title then 10 else 0
  min score 100

/-- `patterns` of `contains_sql_error`. -/
def sqlErrorPatterns : List String :=
  ["sql syntax", "mysql_fetch", "mysql error", "syntax error", "unclosed quotation", "odbc sql",
    "postgresql", "sqlite error", "sqlstate", "you have an error in your sql syntax",
    "warning: mysql", "ora-", "microsoft ole db", "native client", "database error", "pg_query"]

/-- `contains_sql_error`. -/
def containsSqlError [UnicodeTables] (body : String) : Bool :=
  sqlErrorPatterns.any fun pattern => contains (lower body) pattern

variable [UnicodeTables] [DecimalDigits]

/-- What `validate_sqli_behavior` observes of a pair of payloads, `get` being `safe_get`. -/
def observePair (get : String → Option Response) (baseUrl : String) (pair : String × String) :
    Option PairObservation := do
  let baseline ← get baseUrl
  let trueRes ← get (queryUrl baseUrl "scan_test" pair.1)
  let falseRes ← get (queryUrl baseUrl "scan_test" pair.2)
  let baseFp := responseFingerprint baseline
  let trueFp := responseFingerprint trueRes
  let falseFp := responseFingerprint falseRes
  some {
    sqlError := containsSqlError trueRes.text || containsSqlError falseRes.text
    trueDiff := diffScore baseFp trueFp
    falseDiff := diffScore baseFp falseFp
    pairDelta := ((trueFp.length : Int) - falseFp.length).natAbs }

/-- `validate_sqli_behavior` for a server that answers with `get`. -/
def validateSqliOn (get : String → Option Response) (baseUrl : String) : List ValidationResult :=
  validateSqliBehavior baseUrl (observePair get baseUrl)

/-! ## A parameter that the server ignores -/

/-- Status and text of a response. -/
def Response.page (res : Response) : Nat × String := (res.statusCode, res.text)

/-- The server answers with one page, with or without the parameter. -/
def IgnoresParameter (get : String → Option Response) (baseUrl : String) : Prop :=
  ∀ payload, (get (queryUrl baseUrl "scan_test" payload)).map Response.page =
    (get baseUrl).map Response.page

variable {get : String → Option Response} {baseUrl : String}

omit [UnicodeTables] in
theorem fingerprint_congr {res res' : Response} (h : res.page = res'.page) :
    responseFingerprint res = responseFingerprint res' := by
  obtain ⟨hstatus, htext⟩ := Prod.ext_iff.mp h
  have hstatus : res.statusCode = res'.statusCode := hstatus
  have htext : res.text = res'.text := htext
  simp only [responseFingerprint, hstatus, htext]

/-- What is observed of a pair when the parameter is ignored. -/
theorem observePair_ignored (h : IgnoresParameter get baseUrl) (pair : String × String) :
    (observePair get baseUrl pair).map (fun seen => (seen.sqlError, seen.pairDelta)) =
      (get baseUrl).map fun res => (containsSqlError res.text, 0) := by
  have htrue := h pair.1
  have hfalse := h pair.2
  unfold observePair
  cases hbase : get baseUrl with
  | none => rfl
  | some base =>
    rw [hbase] at htrue hfalse
    obtain ⟨trueRes, htrueRes, htruePage⟩ := Option.map_eq_some_iff.mp htrue
    obtain ⟨falseRes, hfalseRes, hfalsePage⟩ := Option.map_eq_some_iff.mp hfalse
    have htrueText : trueRes.text = base.text := congrArg Prod.snd htruePage
    have hfalseText : falseRes.text = base.text := congrArg Prod.snd hfalsePage
    have hfingerprint := fingerprint_congr (htruePage.trans hfalsePage.symm)
    simp [htrueRes, hfalseRes, htrueText, hfalseText, hfingerprint]

omit [UnicodeTables] [DecimalDigits] in
/-- Nothing is reported when no pair shows an error message or a difference. -/
theorem validateSqliBehavior_eq_nil_iff {observe : String × String → Option PairObservation} :
    validateSqliBehavior baseUrl observe = [] ↔ ∀ pair ∈ payloadPairs, ∀ seen,
      observe pair = some seen → seen.sqlError = false ∧
        ¬ (seen.trueDiff ≥ 25 ∧ seen.falseDiff ≥ 25 ∧ seen.pairDelta > 80) := by
  rw [validateSqliBehavior, distinctBy_eq_nil, List.filterMap_eq_nil_iff]
  refine forall₂_congr fun pair _ => ?_
  rw [Option.bind_eq_none_iff]
  refine forall₂_congr fun seen _ => ?_
  cases seen.sqlError <;> simp

/-- An error message on the page is taken for an answer to the payloads. -/
theorem reported_of_error (h : IgnoresParameter get baseUrl) {page : Response}
    (hpage : get baseUrl = some page) (herror : containsSqlError page.text = true) :
    validateSqliOn get baseUrl ≠ [] := by
  intro hnil
  have hseen := observePair_ignored h ("' OR '1'='1", "' OR '1'='2")
  rw [hpage, Option.map_some] at hseen
  obtain ⟨seen, hpair, hfields⟩ := Option.map_eq_some_iff.mp hseen
  obtain ⟨hquiet, _⟩ := validateSqliBehavior_eq_nil_iff.mp hnil _ List.mem_cons_self seen hpair
  have hsame : seen.sqlError = containsSqlError page.text := congrArg Prod.fst hfields
  exact Bool.false_ne_true (hquiet.symm.trans (hsame.trans herror))

/-- For a server that ignores the parameter nothing is reported exactly when the page contains none
of the error messages. -/
theorem ignored_parameter_iff (h : IgnoresParameter get baseUrl) :
    validateSqliOn get baseUrl = [] ↔
      ∀ page, get baseUrl = some page → containsSqlError page.text = false := by
  constructor
  · intro hnil page hpage
    rw [← Bool.not_eq_true]
    exact fun herror => reported_of_error h hpage herror hnil
  · intro hpage
    refine validateSqliBehavior_eq_nil_iff.mpr fun pair _ seen hpair => ?_
    have hseen := observePair_ignored h pair
    rw [hpair, Option.map_some] at hseen
    obtain ⟨page, hget, hfields⟩ := Option.map_eq_some_iff.mp hseen.symm
    obtain ⟨herror, hdelta⟩ := Prod.ext_iff.mp hfields
    refine ⟨herror.symm.trans (hpage page hget), fun hdiff => ?_⟩
    have hzero : (0 : Nat) = seen.pairDelta := hdelta
    omega

/-- A server that answers every request with one text. -/
def staticServer (text : String) (url : String) : Option Response :=
  some { statusCode := 200, text, url }

omit [UnicodeTables] [DecimalDigits] in
theorem staticServer_ignores (text baseUrl : String) :
    IgnoresParameter (staticServer text) baseUrl := fun _ => rfl

omit [UnicodeTables] [DecimalDigits] in
theorem plain_page_not_reported : letI := asciiTables; letI := asciiDigits
    validateSqliOn (staticServer "Welcome") "https://example.com/" = [] := by
  let _ := asciiTables
  let _ := asciiDigits
  refine (ignored_parameter_iff (staticServer_ignores _ _)).mpr fun page hpage => ?_
  cases hpage
  decide

omit [UnicodeTables] [DecimalDigits] in
/-- A page about a database is reported, although the server ignores the parameter. -/
theorem database_page_reported : ¬ ∀ (_ : UnicodeTables) (_ : DecimalDigits)
    (get : String → Option Response) (baseUrl : String), IgnoresParameter get baseUrl →
      validateSqliOn get baseUrl = [] := by
  intro h
  let _ := asciiTables
  let _ := asciiDigits
  have hignores := staticServer_ignores "Our service runs on PostgreSQL." "https://example.com/"
  exact reported_of_error hignores rfl (by decide) (h asciiTables asciiDigits _ _ hignores)

end ThreatScanner.Analyzer
