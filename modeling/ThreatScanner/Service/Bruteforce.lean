import ThreatScanner.Analyzer.Exits
import ThreatScanner.Analyzer.Wpscan
import ThreatScanner.Library.Redaction
import ThreatScanner.Python.Pattern

/-!
# Guessing a password

`run_wpscan_bruteforce` lets WPScan try the passwords of a list and looks for one in what it
writes. An exception of the process may name the command, which has the token in it, and so the
token is taken out of the message, here as in `run_wpscan_scan`.
-/

namespace ThreatScanner.Service

open Analyzer (normalizeTarget processError runWpscanScan WpscanCall WpscanScan)
open Pattern

/-- What `run_wpscan_bruteforce` returns. -/
structure BruteforceResult where
  executed : Bool := false
  target : String
  username : String
  passwordFile : String
  status : String := "failed"
  foundPassword : Option String := none
  error : Option String := none
  message : Option String := none
  rawOutput : Option String := none

/-! ## The list -/

/-- Where password lists are looked for: the two variables of the environment, the candidates that
were set when the module was loaded, and what the file system says. -/
structure WordlistPlaces where
  wordlistPath : Option String
  passwordListPath : Option String
  candidates : List (Option String)
  defaultPath : String
  expandUser : String → String
  pathExists : String → Bool

def stripped (path : String) : String := String.ofList (strip path.toList)

/-- The paths that somebody has asked for. -/
def explicitPaths (places : WordlistPlaces) (customPath : Option String) : List String :=
  let given := [customPath, orElse places.wordlistPath places.passwordListPath]
  (given.map fun path => stripped (path.getD "")).filter (· ≠ "")

/-- The list that `get_wordlist_path` comes upon. -/
def findWordlist (places : WordlistPlaces) (customPath : Option String) : Option String :=
  (((explicitPaths places customPath).map places.expandUser).find? (· ≠ "")).or
    (((places.candidates.filter (·.getD "" ≠ "")).map fun path =>
      places.expandUser (stripped (path.getD ""))).find? places.pathExists)

/-- `os.path.exists` on the list. The default list is written when it is missing. -/
def wordlistExists (places : WordlistPlaces) (customPath : Option String) : Bool :=
  (findWordlist places customPath).all places.pathExists

/-! ## The guess -/

/-- What `subprocess.run` gives: an exception, or the exit code and the output. -/
inductive GuessOutcome where
  | raised (message : String)
  | completed (returncode : ℤ) (stdout stderr : String)

/-- A call of `run_wpscan_bruteforce`, with the token of the environment and what comes of the
process. -/
structure GuessCall where
  target : String
  username : String
  customPath : Option String
  places : WordlistPlaces
  token : String
  outcome : GuessOutcome

def isQuote (c : Char) : Bool := c == '\'' || c == '"'

section Guess
variable [UnicodeTables]

/-- The output of the process. -/
def outputText (stdout stderr : String) : List Char := stdout.toList ++ '\n' :: stderr.toList

end Guess

/-! ## The token -/

/-- The text has the word in it. -/
def Shows (word text : String) : Prop := word.toList <:+: text.toList

/-- A token that the marker cannot be read into. -/
structure IsToken (token : String) : Prop where
  nonempty : token ≠ ""
  opening : '[' ∉ token.toList
  closing : ']' ∉ token.toList

variable {token message : String}

def timeoutText : String := "Command '['wpscan', '--api-token', 's3cr3t']' timed out"

def timedOut : GuessCall where
  target := "blog.example"
  username := "admin"
  customPath := some "/tmp/words.txt"
  places := {
    wordlistPath := none, passwordListPath := none, candidates := [], defaultPath := "/words.txt"
    expandUser := id, pathExists := fun _ => true }
  token := "s3cr3t"
  outcome := .raised timeoutText

/-- A word of a text, out of its quotes. -/
structure IsWordOf (output password : List Char) : Prop where
  nonempty : password ≠ []
  stands : password <:+: output
  spaces : ∀ c ∈ password, isSpace c = false
  first : ∀ c ∈ password.head?, isQuote c = false
  last : ∀ c ∈ password.getLast?, isQuote c = false

variable {output password : List Char}

/-- The process has run to its end, with this output. -/
def Completed (call : GuessCall) (returncode : ℤ) (output : List Char) : Prop :=
  call.username ≠ "" ∧ wordlistExists call.places call.customPath = true ∧
    ∃ stdout stderr, call.outcome = .completed returncode stdout stderr ∧
      outputText stdout stderr = output

/-- What the result says of the call. -/
structure BruteforceResult.Reports (result : BruteforceResult) (call : GuessCall) : Prop where
  executed : result.executed = true ↔ ∃ returncode output, Completed call returncode output
  failed : result.executed = false ↔ result.status = "failed"
  error : result.executed = false ↔ result.error.isSome = true
  success : result.foundPassword.isSome = true ↔ result.status = "success"
  found : ∀ password, result.foundPassword = some password → ∃ returncode output,
    Completed call returncode output ∧ IsWordOf output password.toList
  missed : ∀ returncode output, Completed call returncode output → result.foundPassword = none →
    result.status = if returncode = 0 then "completed" else "no-match"

end ThreatScanner.Service
