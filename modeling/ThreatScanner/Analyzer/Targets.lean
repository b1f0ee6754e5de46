import ThreatScanner.Analyzer.Exits
import ThreatScanner.Python.Url

/-!
# What a target is read as

The text a user types becomes a URL by a prefix, and the URL parser of the standard library says
which host it names. `get_hostname` and `get_http_candidates` are taken here with that parser, so
what they return is a matter of the authority: the text behind the scheme, up to the path.
-/

namespace ThreatScanner.Analyzer

/-- The second scheme of `get_http_candidates`. -/
def otherScheme (first : List Char) : List Char :=
  if first = "https".toList then "http".toList else "https".toList

/-- The port in a candidate, where 0 counts as none. -/
def portText : Option Nat → List Char
  | none | some 0 => []
  | some port => ':' :: Nat.toDigits 10 port

def candidate (scheme host port path : List Char) : List Char :=
  scheme ++ "://".toList ++ host ++ port ++ path

/-- The path of a candidate, with the query. -/
def candidatePath (parsed : ParseResult) : List Char :=
  if parsed.query = [] then parsed.path else parsed.path ++ '?' :: parsed.query

/-- The two candidates for a URL with a host, each of them once. -/
def candidates (parsed : ParseResult) (host : List Char) (port : Option Nat) : List (List Char) :=
  let first := if parsed.scheme = [] then "https".toList else parsed.scheme
  let candidates :=
    [candidate first host (portText port) (candidatePath parsed),
      candidate (otherScheme first) host (portText port) (candidatePath parsed)]
  candidates.foldl (fun output item => if item ∈ output then output else output ++ [item]) []

section Functions
variable [UnicodeData]

/-- What `analyze` asks of the standard library, with the URL and address parsers in place. -/
def urlNetwork (gethostbyname : String → Option String) : Network where
  hostname url := (urlparse url.toList).map fun parsed => parsed.hostname.map String.ofList
  isIpAddress value := (ipAddress value.toList).isSome
  gethostbyname

/-- `get_http_candidates`. -/
def getHttpCandidates (target : String) : Except PyError (List String) := do
  let parsed ← urlparse (normalizeTarget target).toList
  let host := parsed.hostname.getD []
  if host = [] then .ok []
  else do
    let port ← parsed.port
    .ok ((candidates parsed host port).map String.ofList)

end Functions

/-! ## The normalised target -/

section Normalized
variable {target : String} {text : List Char}

/-- The scheme that `normalize_target` leaves or puts in front of a stripped target. -/
def ownScheme (text : List Char) : List Char :=
  if "http://".toList <+: text then "http".toList else "https".toList

/-- The text behind it and the slashes. -/
def behindScheme (text : List Char) : List Char :=
  if "http://".toList <+: text then text.drop 7
  else if "https://".toList <+: text then text.drop 8
  else text

theorem ownScheme_mem (text : List Char) : ownScheme text ∈ webSchemes := by
  rw [ownScheme]
  split
  · exact List.mem_cons_self
  · exact List.mem_cons_of_mem _ List.mem_cons_self

theorem startsWith_ofList {start : String} :
    startsWith (String.ofList text) start = true ↔ start.toList <+: text := by
  rw [startsWith, String.toList_ofList, decide_eq_true_iff]

theorem normalizeTarget_of_strip_nil (h : strip target.toList = []) :
    normalizeTarget target = "" := by
  rw [normalizeTarget, h]
  rfl

/-- A target is left as it is when it starts with a scheme in lower case, and prefixed else. -/
theorem normalizeTarget_of_strip (h : strip target.toList ≠ []) :
    normalizeTarget target =
      if "http://".toList <+: strip target.toList ∨ "https://".toList <+: strip target.toList then
        String.ofList (strip target.toList)
      else String.ofList ("https://".toList ++ strip target.toList) := by
  have hempty : String.ofList (strip target.toList) ≠ "" := fun heq =>
    h (by rw [← String.toList_ofList (l := strip target.toList), heq]; rfl)
  rw [String.ofList_append, String.ofList_toList]
  simp only [normalizeTarget, hempty, if_false, Bool.or_eq_true, startsWith_ofList]

theorem normalizeTarget_toList (h : strip target.toList ≠ []) :
    (normalizeTarget target).toList = ownScheme (strip target.toList) ++ ':' :: '/' :: '/' ::
      behindScheme (strip target.toList) := by
  rw [normalizeTarget_of_strip h]
  generalize strip target.toList = text
  by_cases hhttp : "http://".toList <+: text
  · rw [if_pos (.inl hhttp), ownScheme, behindScheme, if_pos hhttp, if_pos hhttp]
    obtain ⟨tail, rfl⟩ := hhttp
    rw [String.toList_ofList]
    rfl
  by_cases hhttps : "https://".toList <+: text
  · rw [if_pos (.inr hhttps), ownScheme, behindScheme, if_neg hhttp, if_neg hhttp, if_pos hhttps]
    obtain ⟨tail, rfl⟩ := hhttps
    rw [String.toList_ofList]
    rfl
  · rw [if_neg (not_or_intro hhttp hhttps), ownScheme, behindScheme, if_neg hhttp, if_neg hhttp,
      if_neg hhttps, String.toList_ofList]
    rfl

/-- The authority of a target. -/
def authority (target : String) : List Char :=
  (splitNetloc (removeUnsafe (behindScheme (strip target.toList)))).1

/-- What `urlparse` makes of a target whose authority passes its checks. -/
def targetResult (target : String) : ParseResult :=
  if strip target.toList = [] then ⟨[], [], [], [], [], []⟩
  else webResult (ownScheme (strip target.toList))
    (removeUnsafe (behindScheme (strip target.toList)))

theorem netloc_targetResult : (targetResult target).netloc = authority target := by
  rw [targetResult, authority]
  split
  · next h =>
    rw [h]
    rfl
  · rfl

variable [UnicodeData]

theorem isNetloc_nil : IsNetloc [] where
  balanced := by simp
  bracketed := nofun
  normal := nofun

theorem urlparse_target {p : ParseResult} :
    urlparse (normalizeTarget target).toList = .ok p ↔
      IsNetloc (authority target) ∧ targetResult target = p := by
  by_cases h : strip target.toList = []
  · have hparse : urlparse [] = .ok ⟨[], [], [], [], [], []⟩ := rfl
    have hauthority : authority target = [] := by
      rw [authority, h]
      rfl
    rw [normalizeTarget_of_strip_nil h, String.toList_empty, hparse, Except.ok.injEq, targetResult,
      if_pos h, hauthority, and_iff_right isNetloc_nil]
  · rw [normalizeTarget_toList h, urlparse_web_eq_ok (ownScheme_mem _), targetResult, if_neg h,
      authority]

end Normalized

/-! ## Targets that are read without an exception -/

section Returns
variable [UnicodeData] {target : String} {gethostbyname : String → Option String}

theorem hostname_eq_none {p : ParseResult} : p.hostname = none ↔ (hostInfo p.netloc).1 = [] := by
  rw [ParseResult.hostname]
  split <;> simp [*]

theorem hostname_eq_some {p : ParseResult} {host : List Char} :
    p.hostname = some host ↔
      (hostInfo p.netloc).1 ≠ [] ∧ lowerHost (hostInfo p.netloc).1 = host := by
  rw [ParseResult.hostname]
  split <;> simp [*]

theorem hostname_ne_nil {p : ParseResult} {host : List Char} (h : p.hostname = some host) :
    host ≠ [] := by
  obtain ⟨hne, rfl⟩ := hostname_eq_some.mp h
  exact lowerHost_ne_nil hne

theorem getHostname_eq_ok {host : Option String} :
    getHostname (urlNetwork gethostbyname) target = .ok host ↔
      IsNetloc (authority target) ∧ (targetResult target).hostname.map String.ofList = host := by
  have hkept : ∀ p : ParseResult, (p.hostname.map String.ofList).filter (· ≠ "") =
      p.hostname.map String.ofList := by
    intro p
    cases hhost : p.hostname with
    | none => rfl
    | some host =>
      have hne : String.ofList host ≠ "" := fun h =>
        hostname_ne_nil hhost (by rw [← String.toList_ofList (l := host), h]; rfl)
      exact Option.filter_some_pos (by simpa using hne)
  have hmap : ∀ {x : Except PyError ParseResult} {name : Option String},
      x.map (fun parsed => parsed.hostname.map String.ofList) = .ok name ↔
        ∃ p, x = .ok p ∧ p.hostname.map String.ofList = name := by
    intro x name
    cases x <;> simp [Except.map]
  simp only [getHostname, urlNetwork, bind_eq_ok, hmap, urlparse_target, Except.ok.injEq]
  constructor
  · rintro ⟨_, ⟨_, ⟨hnetloc, rfl⟩, rfl⟩, hhost⟩
    exact ⟨hnetloc, (hkept _).symm.trans hhost⟩
  · rintro ⟨hnetloc, hhost⟩
    exact ⟨_, ⟨_, ⟨hnetloc, rfl⟩, rfl⟩, (hkept _).trans hhost⟩

/-- A text that `port` returns for. -/
def IsPort (port : List Char) : Prop :=
  port = [] ∨ port.all Char.isDigit = true ∧ port.length ≤ maxStrDigits ∧
    Nat.ofDigitChars 10 port 0 ≤ 65535

theorem parsePort_returns {port : List Char} : (∃ n, parsePort port = .ok n) ↔ IsPort port := by
  rw [parsePort, IsPort]
  split
  · next h => exact iff_of_true ⟨none, rfl⟩ (.inl h)
  next hne =>
  split
  · next hdigits => exact iff_of_false nofun (by simp_all)
  split
  · next hlong => exact iff_of_false nofun (by simp only [hne, false_or]; omega)
  split
  · next hlarge => exact iff_of_false nofun (by simp only [hne, false_or]; omega)
  · next hdigits hlong hlarge =>
    exact iff_of_true ⟨_, rfl⟩ (.inr ⟨by simpa using hdigits, Nat.le_of_not_lt hlong,
      Nat.le_of_not_lt hlarge⟩)

section Candidates
variable {p : ParseResult} {host : List Char}

theorem getHttpCandidates_of_no_host (hparse : urlparse (normalizeTarget target).toList = .ok p)
    (hhost : p.hostname = none) : getHttpCandidates target = .ok [] := by
  simp only [getHttpCandidates, hparse, hhost, bind, Except.bind, Option.getD_none, if_true]

theorem getHttpCandidates_of_host (hparse : urlparse (normalizeTarget target).toList = .ok p)
    (hhost : p.hostname = some host) : getHttpCandidates target =
      p.port.map fun port => (candidates p host port).map String.ofList := by
  have hne := hostname_ne_nil hhost
  simp only [getHttpCandidates, hparse, hhost, bind, Except.bind, Option.getD_some, hne, if_false]
  cases p.port <;> rfl

end Candidates

theorem getHttpCandidates_returns :
    (∃ urls, getHttpCandidates target = .ok urls) ↔ IsNetloc (authority target) ∧
      ((hostInfo (authority target)).1 ≠ [] → IsPort (hostInfo (authority target)).2) := by
  by_cases hnetloc : IsNetloc (authority target)
  · have hparse := urlparse_target.mpr ⟨hnetloc, rfl⟩
    rw [and_iff_right hnetloc, ← parsePort_returns, ← netloc_targetResult, ne_eq,
      ← hostname_eq_none]
    cases hhost : (targetResult target).hostname with
    | none =>
      rw [getHttpCandidates_of_no_host hparse hhost]
      exact iff_of_true ⟨_, rfl⟩ fun h => absurd rfl h
    | some host =>
      rw [getHttpCandidates_of_host hparse hhost, ParseResult.port]
      cases parsePort (hostInfo (targetResult target).netloc).2 <;> simp [Except.map]
  · refine iff_of_false ?_ fun h => hnetloc h.1
    rintro ⟨urls, h⟩
    obtain ⟨p, hparse, _⟩ := bind_eq_ok.mp h
    exact hnetloc (urlparse_target.mp hparse).1

/-- Both functions return for the targets with a well-formed authority and no others. -/
theorem target_read_iff (gethostbyname : String → Option String) (target : String) :
    ((∃ host, getHostname (urlNetwork gethostbyname) target = .ok host) ∧
      ∃ urls, getHttpCandidates target = .ok urls) ↔
    IsNetloc (authority target) ∧
      ((hostInfo (authority target)).1 ≠ [] → IsPort (hostInfo (authority target)).2) := by
  rw [getHttpCandidates_returns]
  refine ⟨fun h => h.2, fun h => ⟨⟨_, getHostname_eq_ok.mpr ⟨h.1, rfl⟩⟩, h⟩⟩

omit [UnicodeData] in
/-- A bracket that is not closed raises before the target is looked at. -/
theorem open_bracket_raises : ¬ ∀ (_ : UnicodeData) (gethostbyname : String → Option String)
    (target : String), (∃ host, getHostname (urlNetwork gethostbyname) target = .ok host) ∧
      ∃ urls, getHttpCandidates target = .ok urls := by
  let _ := asciiData
  intro h
  obtain ⟨⟨host, hhost⟩, _⟩ := h asciiData (fun _ => none) "http://["
  have hraised : getHostname (urlNetwork fun _ => none) "http://[" =
      .error ⟨"Invalid IPv6 URL"⟩ := rfl
  rw [hraised] at hhost
  cases hhost

end Returns

/-! ## Plain authorities -/

/-- A character of a port with its colon. -/
def IsPortChar (c : Char) : Prop := c = ':' ∨ c.isDigit = true

section PortChar
variable {c : Char} {port : List Char}

theorem IsPortChar.isKept (h : IsPortChar c) : IsKept c := by
  rcases h with rfl | hdigit
  · exact ⟨rfl, rfl⟩
  · exact isKept_of_isAlphanum (Bool.or_eq_true_iff.mpr (.inr hdigit))

theorem IsPortChar.toNat (h : IsPortChar c) : 33 ≤ c.toNat ∧ c.toNat ≤ 122 := by
  rcases h with rfl | hdigit
  · decide
  · obtain ⟨hlow, hhigh⟩ := toNat_of_isDigit hdigit
    omega

theorem not_mem_port (hport : ∀ c ∈ port, IsPortChar c) (h : c ∈ ['@', '[', ']']) : c ∉ port := by
  intro hmem
  simp only [List.mem_cons, List.not_mem_nil, or_false] at h
  rcases h with rfl | rfl | rfl <;> exact absurd (hport _ hmem) (by simp [IsPortChar])

end PortChar

section Plain
variable {gethostbyname : String → Option String} {target : String} {host port : List Char}

theorem hostInfo_plain (hclear : ∀ c ∈ ['@', '[', ']'], c ∉ host ++ port) (hcolon : ':' ∉ host)
    (hport : ∀ c ∈ port.head?, c = ':') : (hostInfo (host ++ port)).1 = host := by
  rw [hostInfo_of_not_mem (hclear '@' (by decide)) (hclear '[' (by decide))]
  cases port with
  | nil => rw [List.append_nil, before_of_not_mem hcolon]
  | cons c port => rw [hport c rfl, before_append hcolon]

variable [UnicodeData]

theorem isNetloc_plain (hclear : ∀ c ∈ ['@', '[', ']'], c ∉ host ++ port)
    (hnormal : ∀ c ∈ host ++ port, HidesNoDelimiter c) : IsNetloc (host ++ port) where
  balanced := iff_of_false (hclear '[' (by decide)) (hclear ']' (by decide))
  bracketed h := absurd h (hclear '[' (by decide))
  normal := hnormal

/-- The host in an authority without brackets, user and zone. -/
theorem getHostname_plain (hauthority : authority target = host ++ port)
    (hclear : ∀ c ∈ ['@', '[', ']'], c ∉ host ++ port) (hhost : ':' ∉ host ∧ '%' ∉ host)
    (hport : ∀ c ∈ port.head?, c = ':') (hne : host ≠ [])
    (hnormal : ∀ c ∈ host ++ port, HidesNoDelimiter c) :
    getHostname (urlNetwork gethostbyname) target = .ok (some (lower (String.ofList host))) := by
  refine getHostname_eq_ok.mpr ⟨hauthority ▸ isNetloc_plain hclear hnormal, ?_⟩
  rw [ParseResult.hostname, netloc_targetResult, hauthority, hostInfo_plain hclear hhost.1 hport,
    if_neg hne, lowerHost_of_not_mem hhost.2, Option.map_some, lowerText, String.ofList_toList]

end Plain

end ThreatScanner.Analyzer
