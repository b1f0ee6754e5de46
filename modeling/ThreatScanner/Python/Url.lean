import ThreatScanner.Python.IpAddress
import ThreatScanner.Python.Json

/-!
# `urllib.parse.urlparse`

The URL parser of CPython 3.11 on texts. It raises for brackets that do not hold an address and for
a character of the authority that turns into a delimiter under NFKC; the port of what it returns
raises when it is read and is not a port.
-/

namespace ThreatScanner

/-- The characters that no authority may have under NFKC. -/
def netlocDelimiters : List Char := ['/', '?', '#', '@', ':']

/-- Those that `_checknetloc` takes out first, as they already end a part of the authority. -/
def ignoredDelimiters : List Char := ['@', ':', '#', '?']

/-- The tables behind `str.lower`, `unicodedata.normalize('NFKC', s)` and `repr`, with the laws that
URLs rest on: which ASCII characters a lower-cased text has, and that a text has a delimiter under
NFKC only through a character that has one. -/
class UnicodeData extends UnicodeTables where
  nfkc : List Char → List Char
  repr : String → String
  lower_eq_empty : ∀ s, lower s = "" → s = ""
  lower_lower : ∀ s, lower (lower s) = lower s
  mem_lower : ∀ (s : String) (c : Char), c.toNat < 128 → c.isAlpha = false →
    (c ∈ (lower s).toList ↔ c ∈ s.toList)
  mem_nfkc : ∀ c ∈ netlocDelimiters, ∀ s, c ∈ nfkc s ↔ ∃ x ∈ s, c ∈ nfkc [x]
  nfkc_lower : ∀ c ∈ netlocDelimiters, ∀ s : String, ∀ x ∈ (lower s).toList,
    c ∈ nfkc [x] → ∃ y ∈ s.toList, c ∈ nfkc [y]
  nfkc_ascii : ∀ c : Char, c.toNat < 128 → nfkc [c] = [c]

export UnicodeData (nfkc)

theorem isAlpha_of_mem_netlocDelimiters {c : Char} (h : c ∈ netlocDelimiters) :
    c.isAlpha = false := by
  have hall : (netlocDelimiters.all fun c => !c.isAlpha) = true := by decide
  simpa using List.all_eq_true.mp hall c h

/-- The tables cut down to ASCII, where every text is in its normal form. -/
@[reducible] def asciiData : UnicodeData where
  toUnicodeTables := asciiTables
  nfkc s := s
  repr s := "'" ++ s ++ "'"
  lower_eq_empty s h := by
    have hmap : (String.ofList (s.toList.map Char.toLower)).toList = [] := congrArg String.toList h
    rw [String.toList_ofList, List.map_eq_nil_iff] at hmap
    exact String.toList_eq_nil_iff.mp hmap
  lower_lower s := by
    change String.ofList ((String.ofList (s.toList.map Char.toLower)).toList.map Char.toLower) =
      String.ofList (s.toList.map Char.toLower)
    rw [String.toList_ofList, List.map_map]
    exact congrArg String.ofList (List.map_congr_left fun c _ => toLower_toLower c)
  mem_lower s c _ hc := by
    change c ∈ (String.ofList (s.toList.map Char.toLower)).toList ↔ c ∈ s.toList
    rw [String.toList_ofList]
    exact mem_map_toLower hc
  mem_nfkc c _ s := by simp
  nfkc_lower c hc s x hx hmem := by
    cases List.mem_singleton.mp hmem
    change c ∈ (String.ofList (s.toList.map Char.toLower)).toList at hx
    rw [String.toList_ofList] at hx
    exact ⟨c, (mem_map_toLower (isAlpha_of_mem_netlocDelimiters hc)).mp hx, hmem⟩
  nfkc_ascii _ _ := rfl

/-! ## The parser -/

/-- `s.partition(sep)[0]`. -/
def before (sep : Char) (s : List Char) : List Char := s.takeWhile (· ≠ sep)

/-- `s.partition(sep)[2]`. -/
def behind (sep : Char) (s : List Char) : List Char := (s.dropWhile (· ≠ sep)).drop 1

/-- `s.rpartition(sep)[2]`. -/
def behindLast (sep : Char) (s : List Char) : List Char := s.rtakeWhile (· ≠ sep)

/-- The lists of `urllib.parse` that `urlparse` consults. -/
def usesParams : List String :=
  ["", "ftp", "hdl", "prospero", "http", "imap", "https", "shttp", "rtsp", "rtsps", "rtspu", "sip",
    "sips", "mms", "sftp", "tel"]

def isSchemeChar (c : Char) : Bool := c.isAlphanum || ['+', '-', '.'].contains c

/-- The C0 control characters and the space. -/
def isC0OrSpace (c : Char) : Bool := decide (c.toNat ≤ 0x20)

/-- The characters of `_UNSAFE_URL_BYTES_TO_REMOVE`. -/
def isUnsafe (c : Char) : Bool := ['\t', '\r', '\n'].contains c

def removeUnsafe (url : List Char) : List Char := url.filter (!isUnsafe ·)

/-- The characters that end the authority. -/
def isDelimiter (c : Char) : Bool := ['/', '?', '#'].contains c

/-- `_splitnetloc`. -/
def splitNetloc (url : List Char) : List Char × List Char :=
  (url.takeWhile (!isDelimiter ·), url.dropWhile (!isDelimiter ·))

section Parse
variable [UnicodeData]

def lowerText (s : List Char) : List Char := (lower (String.ofList s)).toList

/-- The scheme in front of the first colon. -/
def splitScheme (url : List Char) : List Char × List Char :=
  if ':' ∈ url ∧ (before ':' url).head?.any Char.isAlpha ∧ (before ':' url).all isSchemeChar then
    (lowerText (before ':' url), behind ':' url)
  else ([], url)

/-- Whether `\Av[a-fA-F0-9]+\..+\Z` matches. -/
def isFutureAddress : List Char → Bool
  | 'v' :: text =>
    text.takeWhile isHexDigit ≠ [] &&
      match text.dropWhile isHexDigit with
      | '.' :: tail => tail ≠ [] && !tail.contains '\n'
      | _ => false
  | _ => false

/-- `_check_bracketed_host`. -/
def checkBracketedHost (hostname : List Char) : Except PyError Unit :=
  if hostname.head? = some 'v' then
    if isFutureAddress hostname then .ok () else .error ⟨"IPvFuture address is invalid"⟩
  else match ipAddress hostname with
    | none => .error ⟨UnicodeData.repr (String.ofList hostname) ++
        " does not appear to be an IPv4 or IPv6 address"⟩
    | some (.v4 _) => .error ⟨"An IPv4 address cannot be in brackets"⟩
    | some (.v6 _ _) => .ok ()

def checkBrackets (netloc : List Char) : Except PyError Unit :=
  if '[' ∈ netloc ∧ ']' ∉ netloc ∨ ']' ∈ netloc ∧ '[' ∉ netloc then .error ⟨"Invalid IPv6 URL"⟩
  else if '[' ∈ netloc then checkBracketedHost (before ']' (behind '[' netloc))
  else .ok ()

/-- `_checknetloc`. -/
def checkNetloc (netloc : List Char) : Except PyError Unit :=
  let n := netloc.filter fun c => !ignoredDelimiters.contains c
  if netloc.all fun c => decide (c.toNat < 128) then .ok ()
  else if n = nfkc n then .ok ()
  else if netlocDelimiters.any (nfkc n).contains then
    .error ⟨"netloc '" ++ String.ofList netloc ++
      "' contains invalid characters under NFKC normalization"⟩
  else .ok ()

/-- The authority behind `//`, and the rest. -/
def readNetloc (url : List Char) : Except PyError (List Char × List Char) :=
  if url.take 2 = ['/', '/'] then do
    let (netloc, url) := splitNetloc (url.drop 2)
    checkBrackets netloc
    .ok (netloc, url)
  else .ok ([], url)

structure SplitResult where
  scheme : List Char
  netloc : List Char
  path : List Char
  query : List Char
  fragment : List Char

/-- `urlsplit`. -/
def urlsplit (url : List Char) : Except PyError SplitResult := do
  let (scheme, url) := splitScheme (removeUnsafe (url.dropWhile isC0OrSpace))
  let (netloc, url) ← readNetloc url
  checkNetloc netloc
  .ok {
    scheme
    netloc
    path := before '?' (before '#' url)
    query := behind '?' (before '#' url)
    fragment := behind '#' url }

/-- `_splitparams`: the parameters of the last segment, all of the path without a slash. -/
def splitParams (path : List Char) : List Char × List Char :=
  let segment := behindLast '/' path
  if ';' ∈ segment then
    (path.rdropWhile (· ≠ '/') ++ before ';' segment, behind ';' segment)
  else (path, [])

structure ParseResult where
  scheme : List Char
  netloc : List Char
  path : List Char
  params : List Char
  query : List Char
  fragment : List Char

/-- The result of `urlsplit` with the parameters taken out of the path. -/
def SplitResult.withParams (s : SplitResult) : ParseResult :=
  let split := String.ofList s.scheme ∈ usesParams ∧ ';' ∈ s.path
  { s with
    path := if split then (splitParams s.path).1 else s.path
    params := if split then (splitParams s.path).2 else [] }

/-- `urlparse`. -/
def urlparse (url : List Char) : Except PyError ParseResult :=
  (urlsplit url).map SplitResult.withParams

/-- `_hostinfo`, with an empty text for a port of `None`. -/
def hostInfo (netloc : List Char) : List Char × List Char :=
  let hostinfo := behindLast '@' netloc
  if '[' ∈ hostinfo then
    (before ']' (behind '[' hostinfo), behind ':' (behind ']' (behind '[' hostinfo)))
  else (before ':' hostinfo, behind ':' hostinfo)

/-- A host in lower case up to the zone. -/
def lowerHost (hostname : List Char) : List Char :=
  lowerText (before '%' hostname) ++ hostname.dropWhile (· ≠ '%')

/-- `hostname`. -/
def ParseResult.hostname (p : ParseResult) : Option (List Char) :=
  if (hostInfo p.netloc).1 = [] then none else some (lowerHost (hostInfo p.netloc).1)

/-- `sys.get_int_max_str_digits()`. -/
def maxStrDigits : Nat := 4300

/-- The port that a text without a leading colon stands for. -/
def parsePort (port : List Char) : Except PyError (Option Nat) :=
  if port = [] then .ok none
  else if !port.all Char.isDigit then
    .error ⟨"Port could not be cast to integer value as " ++ UnicodeData.repr (String.ofList port)⟩
  else if maxStrDigits < port.length then
    .error ⟨"Exceeds the limit (4300 digits) for integer string conversion: value has " ++
      toString port.length ++ " digits; use sys.set_int_max_str_digits() to increase the limit"⟩
  else if 65535 < Nat.ofDigitChars 10 port 0 then .error ⟨"Port out of range 0-65535"⟩
  else .ok (some (Nat.ofDigitChars 10 port 0))

/-- `port`. -/
def ParseResult.port (p : ParseResult) : Except PyError (Option Nat) :=
  parsePort (hostInfo p.netloc).2

end Parse

/-! ## Cutting a text at a separator -/

section Cut
variable {sep c : Char} {s t : List Char}

theorem all_ne (h : sep ∉ s) : ∀ c ∈ s, decide (c ≠ sep) = true :=
  fun _ hc => decide_eq_true (ne_of_mem_of_not_mem hc h)

theorem before_append (h : sep ∉ s) : before sep (s ++ sep :: t) = s := by
  rw [before, List.takeWhile_append_of_pos (all_ne h), List.takeWhile_cons_of_neg (by simp),
    List.append_nil]

theorem behind_append (h : sep ∉ s) : behind sep (s ++ sep :: t) = t := by
  rw [behind, List.dropWhile_append_of_pos (all_ne h), List.dropWhile_cons_of_neg (by simp),
    List.drop_one, List.tail_cons]

theorem before_of_not_mem (h : sep ∉ s) : before sep s = s :=
  List.takeWhile_eq_self_iff.mpr (all_ne h)

theorem behind_of_not_mem (h : sep ∉ s) : behind sep s = [] := by
  have hdrop : s.dropWhile (· ≠ sep) = [] := List.dropWhile_eq_nil_iff.mpr (all_ne h)
  rw [behind, hdrop, List.drop_nil]

theorem mem_of_mem_before (h : c ∈ before sep s) : c ∈ s :=
  (List.takeWhile_sublist _).subset h

theorem mem_of_mem_behind (h : c ∈ behind sep s) : c ∈ s :=
  (List.dropWhile_sublist _).subset (List.mem_of_mem_drop h)

theorem not_mem_before : sep ∉ before sep s := by
  intro h
  simpa using List.mem_takeWhile_imp h

theorem mem_of_mem_behindLast (h : c ∈ behindLast sep s) : c ∈ s :=
  (List.rtakeWhile_suffix _ s).subset h

theorem not_mem_behindLast : sep ∉ behindLast sep s := by
  intro h
  simpa using List.mem_rtakeWhile_imp h

theorem behindLast_of_not_mem (h : sep ∉ s) : behindLast sep s = s :=
  List.rtakeWhile_eq_self_iff.mpr (all_ne h)

theorem before_append_behind (h : sep ∈ s) : before sep s ++ sep :: behind sep s = s := by
  have hwhole := List.takeWhile_append_dropWhile (p := (· ≠ sep)) (l := s)
  have hhead := List.head?_dropWhile_not (· ≠ sep) s
  cases hrest : s.dropWhile (· ≠ sep) with
  | nil => exact absurd (List.dropWhile_eq_nil_iff.mp hrest sep h) (by simp)
  | cons c rest =>
    rw [hrest] at hwhole hhead
    have hc : c = sep := by simpa using hhead
    rw [hc] at hwhole
    rw [before, behind, hrest, List.drop_one, List.tail_cons, hwhole]

theorem before_append_of_mem (h : sep ∈ s) : before sep (s ++ t) = before sep s := by
  conv_lhs => rw [← before_append_behind h, List.append_assoc, List.cons_append,
    before_append not_mem_before]

theorem behind_append_of_not_mem (h : sep ∉ s) : behind sep (s ++ t) = behind sep t := by
  rw [behind, List.dropWhile_append_of_pos (all_ne h), ← behind]

/-- The last separator of a text is in its second part when there is one. -/
theorem mem_of_mem_behindLast_append (h : sep ∈ t) (hc : c ∈ behindLast sep (s ++ t)) : c ∈ t := by
  rcases List.suffix_or_suffix_of_suffix (List.rtakeWhile_suffix (· ≠ sep) (s ++ t))
    (List.suffix_append s t) with hsuffix | hsuffix
  · exact hsuffix.subset hc
  · exact absurd (hsuffix.subset h) not_mem_behindLast

theorem takeWhile_dropWhile {α : Type*} (p : α → Bool) (l : List α) :
    (l.dropWhile p).takeWhile p = [] := by
  have hhead := List.head?_dropWhile_not p l
  cases hrest : l.dropWhile p with
  | nil => rfl
  | cons a rest =>
    rw [hrest] at hhead
    exact List.takeWhile_cons_of_neg (by simpa using hhead)

/-- A text cut behind its last separator and continued without one. -/
theorem behindLast_append (h : sep ∉ t) : behindLast sep (s.rdropWhile (· ≠ sep) ++ t) = t := by
  have hreverse : ∀ c ∈ t.reverse, decide (c ≠ sep) = true :=
    all_ne fun hmem => h (List.mem_reverse.mp hmem)
  rw [behindLast, List.rtakeWhile, List.reverse_append, List.takeWhile_append_of_pos hreverse,
    List.rdropWhile, List.reverse_reverse, takeWhile_dropWhile, List.append_nil,
    List.reverse_reverse]

end Cut

section Params
variable {path : List Char}

theorem splitParams_of_not_mem (h : ';' ∉ path) : splitParams path = (path, []) := by
  rw [splitParams, if_neg fun hmem => h (mem_of_mem_behindLast hmem)]

theorem splitParams_prefix : (splitParams path).1 <+: path := by
  rw [splitParams]
  split
  · have hwhole := List.rdropWhile_append_rtakeWhile (p := (· ≠ '/')) (l := path)
    conv_rhs => rw [← hwhole]
    exact (List.prefix_append_right_inj _).mpr (List.takeWhile_prefix _)
  · exact List.prefix_rfl

/-- A path without its parameters has none. -/
theorem splitParams_splitParams :
    splitParams (splitParams path).1 = ((splitParams path).1, []) := by
  by_cases h : ';' ∈ behindLast '/' path
  · have hslash : '/' ∉ before ';' (behindLast '/' path) :=
      fun hmem => not_mem_behindLast (mem_of_mem_before hmem)
    have hsplit : (splitParams path).1 =
        path.rdropWhile (· ≠ '/') ++ before ';' (behindLast '/' path) := by
      rw [splitParams, if_pos h]
    have hlast : behindLast '/' (splitParams path).1 = before ';' (behindLast '/' path) := by
      rw [hsplit, behindLast_append hslash]
    rw [splitParams, hlast, if_neg not_mem_before]
  · have hsplit : splitParams path = (path, []) := by rw [splitParams, if_neg h]
    rw [hsplit, hsplit]

end Params

/-! ## The check of the authority -/

section Authority
variable {netloc : List Char} {c : Char}

/-- The characters that `_checknetloc` normalises are no delimiters. -/
theorem not_mem_checked (hslash : '/' ∉ netloc) (hd : c ∈ netlocDelimiters) :
    c ∉ netloc.filter fun c => !ignoredDelimiters.contains c := by
  intro hmem
  obtain ⟨hmem, hkept⟩ := List.mem_filter.mp hmem
  simp only [netlocDelimiters, List.mem_cons, List.not_mem_nil, or_false] at hd
  rcases hd with rfl | rfl | rfl | rfl | rfl
  · exact hslash hmem
  all_goals simp [ignoredDelimiters] at hkept

theorem mem_checked (h : c ∈ netloc) (hbig : 128 ≤ c.toNat) :
    c ∈ netloc.filter fun c => !ignoredDelimiters.contains c := by
  refine List.mem_filter.mpr ⟨h, ?_⟩
  simp only [List.contains_eq_mem, Bool.not_eq_true', decide_eq_false_iff_not]
  intro hmem
  simp only [ignoredDelimiters, List.mem_cons, List.not_mem_nil, or_false] at hmem
  rcases hmem with rfl | rfl | rfl | rfl <;> exact absurd hbig (by decide)

variable [UnicodeData]

/-- The character has no delimiter under NFKC, unless it is one itself. -/
def HidesNoDelimiter (c : Char) : Prop := 128 ≤ c.toNat → ∀ d ∈ netlocDelimiters, d ∉ nfkc [c]

theorem hidesNoDelimiter_of_lt (h : c.toNat < 128) : HidesNoDelimiter c :=
  fun hbig => absurd h (Nat.not_lt.mpr hbig)

theorem exists_mem_nfkc_iff (hslash : '/' ∉ netloc) :
    (∃ d ∈ netlocDelimiters, d ∈ nfkc (netloc.filter fun c => !ignoredDelimiters.contains c)) ↔
      ∃ c ∈ netloc, ¬ HidesNoDelimiter c := by
  constructor
  · rintro ⟨d, hd, hmem⟩
    obtain ⟨c, hc, hdc⟩ := (UnicodeData.mem_nfkc d hd _).mp hmem
    refine ⟨c, (List.mem_filter.mp hc).1, fun hclean => ?_⟩
    by_cases hbig : 128 ≤ c.toNat
    · exact hclean hbig d hd hdc
    · rw [UnicodeData.nfkc_ascii c (Nat.lt_of_not_le hbig), List.mem_singleton] at hdc
      exact not_mem_checked hslash hd (hdc ▸ hc)
  · rintro ⟨c, hc, hhides⟩
    simp only [HidesNoDelimiter, not_forall, not_not] at hhides
    obtain ⟨hbig, d, hd, hdc⟩ := hhides
    exact ⟨d, hd, (UnicodeData.mem_nfkc d hd _).mpr ⟨c, mem_checked hc hbig, hdc⟩⟩

/-- An authority passes when none of its characters hides a delimiter. -/
theorem checkNetloc_eq_ok (hslash : '/' ∉ netloc) :
    checkNetloc netloc = .ok () ↔ ∀ c ∈ netloc, HidesNoDelimiter c := by
  have hhidden := exists_mem_nfkc_iff hslash
  have hnone : (¬ ∃ c ∈ netloc, ¬ HidesNoDelimiter c) ↔ ∀ c ∈ netloc, HidesNoDelimiter c := by
    simp only [not_exists, not_and, not_not]
  rw [← hnone, ← hhidden, checkNetloc]
  split
  · next hascii =>
    refine iff_of_true rfl (mt hhidden.mp ?_)
    rintro ⟨c, hc, hhides⟩
    exact hhides (hidesNoDelimiter_of_lt (of_decide_eq_true (List.all_eq_true.mp hascii c hc)))
  split
  · next hsame =>
    refine iff_of_true rfl ?_
    rintro ⟨d, hd, hmem⟩
    rw [← hsame] at hmem
    exact not_mem_checked hslash hd hmem
  split
  · next hany =>
    obtain ⟨d, hd, hmem⟩ := List.any_eq_true.mp hany
    exact iff_of_false nofun fun h => h ⟨d, hd, by simpa using hmem⟩
  · next hany =>
    refine iff_of_true rfl ?_
    rintro ⟨d, hd, hmem⟩
    exact hany (List.any_eq_true.mpr ⟨d, hd, by simpa using hmem⟩)

omit [UnicodeData] in
theorem not_isDelimiter_of_mem {text : List Char} (h : c ∈ (splitNetloc text).1) :
    isDelimiter c = false := by
  simpa using List.mem_takeWhile_imp h

/-- What stands in brackets is a future address or an IPv6 address. -/
def IsBracketedHost (hostname : List Char) : Prop :=
  if hostname.head? = some 'v' then isFutureAddress hostname = true
  else ∃ ip scopeId, ipAddress hostname = some (.v6 ip scopeId)

theorem checkBracketedHost_eq_ok {hostname : List Char} :
    checkBracketedHost hostname = .ok () ↔ IsBracketedHost hostname := by
  rw [checkBracketedHost, IsBracketedHost]
  split
  · split <;> simp_all
  · cases ipAddress hostname with
    | none => simp
    | some address => cases address <;> simp

theorem checkBrackets_eq_ok :
    checkBrackets netloc = .ok () ↔ ('[' ∈ netloc ↔ ']' ∈ netloc) ∧
      ('[' ∈ netloc → IsBracketedHost (before ']' (behind '[' netloc))) := by
  rw [checkBrackets]
  by_cases hopen : '[' ∈ netloc <;> by_cases hclose : ']' ∈ netloc <;>
    simp [hopen, hclose, checkBracketedHost_eq_ok]

/-- An authority that `urlsplit` lets pass. -/
structure IsNetloc (netloc : List Char) : Prop where
  balanced : '[' ∈ netloc ↔ ']' ∈ netloc
  bracketed : '[' ∈ netloc → IsBracketedHost (before ']' (behind '[' netloc))
  normal : ∀ c ∈ netloc, HidesNoDelimiter c

theorem checks_eq_ok {text : List Char} :
    checkBrackets (splitNetloc text).1 = .ok () ∧ checkNetloc (splitNetloc text).1 = .ok () ↔
      IsNetloc (splitNetloc text).1 := by
  have hslash : '/' ∉ (splitNetloc text).1 := fun h => by cases not_isDelimiter_of_mem h
  rw [checkBrackets_eq_ok, checkNetloc_eq_ok hslash]
  exact ⟨fun ⟨⟨hbalanced, hbracketed⟩, hnormal⟩ => ⟨hbalanced, hbracketed, hnormal⟩,
    fun h => ⟨⟨h.balanced, h.bracketed⟩, h.normal⟩⟩

end Authority

/-! ## Hosts -/

section Host
variable [UnicodeData] {netloc host : List Char} {c : Char}

theorem mem_lowerText (hsmall : c.toNat < 128) (halpha : c.isAlpha = false) :
    c ∈ lowerText host ↔ c ∈ host := by
  rw [lowerText, UnicodeData.mem_lower _ c hsmall halpha, String.toList_ofList]

theorem lowerText_lowerText : lowerText (lowerText host) = lowerText host := by
  rw [lowerText, lowerText, String.ofList_toList, UnicodeData.lower_lower]

theorem lowerText_eq_nil (h : lowerText host = []) : host = [] := by
  have hempty := UnicodeData.lower_eq_empty (String.ofList host) (String.toList_eq_nil_iff.mp h)
  rwa [← String.toList_eq_nil_iff, String.toList_ofList] at hempty

theorem not_mem_lowerText_before : '%' ∉ lowerText (before '%' host) :=
  fun h => not_mem_before ((mem_lowerText (by decide) rfl).mp h)

theorem lowerHost_of_not_mem (h : '%' ∉ host) : lowerHost host = lowerText host := by
  rw [lowerHost, before_of_not_mem h, List.dropWhile_eq_nil_iff.mpr (all_ne h), List.append_nil]

theorem mem_lowerHost (hsmall : c.toNat < 128) (halpha : c.isAlpha = false) :
    c ∈ lowerHost host ↔ c ∈ host := by
  conv_rhs => rw [← List.takeWhile_append_dropWhile (p := (· ≠ '%')) (l := host)]
  rw [lowerHost, List.mem_append, List.mem_append, mem_lowerText hsmall halpha, before]

theorem lowerHost_ne_nil (h : host ≠ []) : lowerHost host ≠ [] := by
  intro hnil
  obtain ⟨hlower, hdrop⟩ := List.append_eq_nil_iff.mp hnil
  have hbefore : host.takeWhile (· ≠ '%') = [] := lowerText_eq_nil hlower
  refine h ?_
  rw [← List.takeWhile_append_dropWhile (p := (· ≠ '%')) (l := host), hbefore, hdrop,
    List.append_nil]

theorem lowerHost_lowerHost : lowerHost (lowerHost host) = lowerHost host := by
  have hbefore : before '%' (lowerHost host) = lowerText (before '%' host) := by
    rw [before, lowerHost, List.takeWhile_append_of_pos (all_ne not_mem_lowerText_before),
      takeWhile_dropWhile, List.append_nil]
  have hrest : (lowerHost host).dropWhile (· ≠ '%') = host.dropWhile (· ≠ '%') := by
    rw [lowerHost, List.dropWhile_append_of_pos (all_ne not_mem_lowerText_before),
      List.dropWhile_idempotent]
  rw [lowerHost, hbefore, hrest, lowerText_lowerText, ← lowerHost]

/-- A host that is lower-cased does not come to hide a delimiter. -/
theorem lowerHost_normal (hnormal : ∀ c ∈ host, HidesNoDelimiter c)
    (hclear : ∀ d ∈ netlocDelimiters, d ∉ host) : ∀ c ∈ lowerHost host, HidesNoDelimiter c := by
  intro c hc
  rcases List.mem_append.mp hc with hc | hc
  · intro _ d hd hdc
    obtain ⟨y, hy, hdy⟩ := UnicodeData.nfkc_lower d hd _ c hc hdc
    rw [String.toList_ofList] at hy
    by_cases hbig : 128 ≤ y.toNat
    · exact hnormal y (mem_of_mem_before hy) hbig d hd hdy
    · rw [UnicodeData.nfkc_ascii y (Nat.lt_of_not_le hbig), List.mem_singleton] at hdy
      exact hclear d hd (mem_of_mem_before (hdy ▸ hy))
  · exact hnormal c ((List.dropWhile_sublist _).subset hc)

omit [UnicodeData] in
theorem hostInfo_of_not_mem (hat : '@' ∉ netloc) (hopen : '[' ∉ netloc) :
    hostInfo netloc = (before ':' netloc, behind ':' netloc) := by
  rw [hostInfo, behindLast_of_not_mem hat, if_neg hopen]

omit [UnicodeData] in
theorem mem_of_mem_hostInfo (h : c ∈ (hostInfo netloc).1) : c ∈ behindLast '@' netloc := by
  rw [hostInfo] at h
  split at h
  · exact mem_of_mem_behind (mem_of_mem_before h)
  · exact mem_of_mem_before h

omit [UnicodeData] in
/-- No host has both brackets. -/
theorem hostInfo_brackets (h : '[' ∈ (hostInfo netloc).1) : ']' ∉ (hostInfo netloc).1 := by
  have hopen := mem_of_mem_hostInfo h
  rw [hostInfo, if_pos hopen]
  exact not_mem_before

end Host

/-! ## Web URLs -/

section Web
variable {scheme rest text path query netloc tail : List Char} {c : Char}

/-- The two schemes of a scan. -/
def webSchemes : List (List Char) := ["http".toList, "https".toList]

/-- What `urlparse` makes of the text behind the `//` of a web URL. -/
def webResult (scheme text : List Char) : ParseResult :=
  SplitResult.withParams {
    scheme
    netloc := (splitNetloc text).1
    path := before '?' (before '#' (splitNetloc text).2)
    query := behind '?' (before '#' (splitNetloc text).2)
    fragment := behind '#' (splitNetloc text).2 }

theorem withParams_web {s : SplitResult} (h : s.scheme ∈ webSchemes) :
    s.withParams = { s with path := (splitParams s.path).1, params := (splitParams s.path).2 } := by
  have hscheme : ∀ scheme ∈ webSchemes, String.ofList scheme ∈ usesParams := by decide
  by_cases hparams : ';' ∈ s.path
  · simp only [SplitResult.withParams, hscheme _ h, hparams, and_self, if_true]
  · simp only [SplitResult.withParams, hparams, and_false, if_false, splitParams_of_not_mem hparams]

/-- A path and a query as `urlparse` finds them in a web URL. -/
structure IsResource (path query : List Char) : Prop where
  safe : ∀ c ∈ path ++ query, isUnsafe c = false
  rooted : ∀ c ∈ path.head?, c = '/'
  path_clear : '?' ∉ path ∧ '#' ∉ path
  query_clear : '#' ∉ query
  no_params : splitParams path = (path, [])

theorem isUnsafe_of_mem (h : c ∈ removeUnsafe rest) : isUnsafe c = false := by
  simpa using List.of_mem_filter h

theorem mem_of_mem_splitNetloc (h : c ∈ (splitNetloc text).2) : c ∈ text :=
  (List.dropWhile_sublist _).subset h

/-- The text behind an authority is empty or starts with a delimiter. -/
theorem isDelimiter_of_head (h : c ∈ (splitNetloc text).2.head?) : isDelimiter c = true := by
  have hhead := List.head?_dropWhile_not (!isDelimiter ·) text
  rw [splitNetloc] at h
  rw [Option.mem_def.mp h] at hhead
  simpa using hhead

theorem mem_delimiters (h : isDelimiter c = true) : c = '/' ∨ c = '?' ∨ c = '#' := by
  simpa [isDelimiter] using h

/-- A character that the parser neither removes nor stops at. -/
def IsKept (c : Char) : Prop := isUnsafe c = false ∧ isDelimiter c = false

theorem isKept_iff : IsKept c ↔ c ∉ ['\t', '\r', '\n', '/', '?', '#'] := by
  simp [IsKept, isUnsafe, isDelimiter, and_assoc]

theorem isKept_of_isAlphanum (h : c.isAlphanum = true) : IsKept c := by
  have hnone : (['\t', '\r', '\n', '/', '?', '#'].all fun c => !c.isAlphanum) = true := by decide
  refine isKept_iff.mpr fun hc => ?_
  simpa [h] using List.all_eq_true.mp hnone c hc

theorem splitNetloc_append (hnetloc : ∀ c ∈ netloc, isDelimiter c = false)
    (htail : ∀ c ∈ tail.head?, isDelimiter c = true) :
    splitNetloc (netloc ++ tail) = (netloc, tail) := by
  have hkept : ∀ c ∈ netloc, (!isDelimiter c) = true := fun c hc => by rw [hnetloc c hc]; rfl
  rw [splitNetloc, List.takeWhile_append_of_pos hkept, List.dropWhile_append_of_pos hkept]
  cases tail with
  | nil => rw [List.takeWhile_nil, List.dropWhile_nil, List.append_nil]
  | cons c tail => simp [htail c rfl]

/-- A path written with its query shows where each of them ends. -/
theorem IsResource.written (h : IsResource path query)
    (htail : (if query = [] then path else path ++ '?' :: query) = tail) :
    (∀ c ∈ tail, isUnsafe c = false) ∧ (∀ c ∈ tail.head?, isDelimiter c = true) ∧ '#' ∉ tail ∧
      before '?' tail = path ∧ behind '?' tail = query := by
  have hrooted : ∀ c ∈ path.head?, isDelimiter c = true := fun c hc => by rw [h.rooted c hc]; rfl
  split at htail
  · next hquery =>
    subst htail hquery
    exact ⟨fun c hc => h.safe c (List.mem_append_left _ hc), hrooted, h.path_clear.2,
      before_of_not_mem h.path_clear.1, behind_of_not_mem h.path_clear.1⟩
  · subst htail
    refine ⟨fun c hc => ?_, fun c hc => ?_, fun hmem => ?_, before_append h.path_clear.1,
      behind_append h.path_clear.1⟩
    · rcases List.mem_append.mp hc with hc | hc
      · exact h.safe c (List.mem_append_left _ hc)
      · rcases List.mem_cons.mp hc with rfl | hc
        · rfl
        · exact h.safe c (List.mem_append_right _ hc)
    · cases path with
      | nil =>
        cases hc
        rfl
      | cons d path => exact hrooted c hc
    · rcases List.mem_append.mp hmem with hmem | hmem
      · exact h.path_clear.2 hmem
      · exact (List.mem_cons.mp hmem).elim nofun h.query_clear

theorem removeUnsafe_eq_self (h : ∀ c ∈ text, isUnsafe c = false) : removeUnsafe text = text :=
  List.filter_eq_self.mpr fun c hc => by rw [h c hc]; rfl

/-- What may stand in an authority is kept in it. -/
theorem netloc_append (hnetloc : ∀ c ∈ netloc, IsKept c) :
    (splitNetloc (removeUnsafe (netloc ++ rest))).1 =
      netloc ++ (splitNetloc (removeUnsafe rest)).1 := by
  have hself : removeUnsafe netloc = netloc := removeUnsafe_eq_self fun c hc => (hnetloc c hc).1
  have hkept : ∀ c ∈ netloc, (!isDelimiter c) = true := fun c hc => by rw [(hnetloc c hc).2]; rfl
  rw [removeUnsafe, List.filter_append, ← removeUnsafe, ← removeUnsafe, hself, splitNetloc,
    List.takeWhile_append_of_pos hkept, splitNetloc]

/-- And it ends where a delimiter follows. -/
theorem netloc_of_append (hnetloc : ∀ c ∈ netloc, IsKept c)
    (htail : ∀ c ∈ tail.head?, isDelimiter c = true) :
    (splitNetloc (removeUnsafe (netloc ++ tail))).1 = netloc := by
  have hnone : (splitNetloc (removeUnsafe tail)).1 = [] := by
    cases tail with
    | nil => rfl
    | cons d tail =>
      have hstop := htail d rfl
      have hkept : (!isUnsafe d) = true := by
        rcases mem_delimiters hstop with rfl | rfl | rfl <;> rfl
      have hfilter : removeUnsafe (d :: tail) = d :: removeUnsafe tail :=
        List.filter_cons_of_pos hkept
      simp [hfilter, splitNetloc, hstop]
  rw [netloc_append hnetloc, hnone, List.append_nil]

theorem isResource_webResult (h : scheme ∈ webSchemes) :
    IsResource (webResult scheme (removeUnsafe rest)).path
      (webResult scheme (removeUnsafe rest)).query := by
  generalize htail : (splitNetloc (removeUnsafe rest)).2 = tail
  have hsafe : ∀ c ∈ tail, isUnsafe c = false :=
    fun c hc => isUnsafe_of_mem (mem_of_mem_splitNetloc (htail ▸ hc))
  have hsplit : before '?' (before '#' tail) <+: tail :=
    (List.takeWhile_prefix _).trans (List.takeWhile_prefix _)
  have hprefix : (splitParams (before '?' (before '#' tail))).1 <+: before '?' (before '#' tail) :=
    splitParams_prefix
  have hpath := hprefix.subset
  have hclear : '?' ∉ (splitParams (before '?' (before '#' tail))).1 ∧
      '#' ∉ (splitParams (before '?' (before '#' tail))).1 :=
    ⟨fun hmem => not_mem_before (hpath hmem),
      fun hmem => not_mem_before (mem_of_mem_before (hpath hmem))⟩
  rw [webResult, withParams_web h, htail]
  refine {
    safe := fun c hc => ?_
    rooted := fun c hc => ?_
    path_clear := hclear
    query_clear := fun hmem => not_mem_before (mem_of_mem_behind hmem)
    no_params := splitParams_splitParams }
  · rcases List.mem_append.mp hc with hc | hc
    · exact hsafe c (hsplit.subset (hpath hc))
    · exact hsafe c (mem_of_mem_before (mem_of_mem_behind hc))
  · have hmem : c ∈ (splitParams (before '?' (before '#' tail))).1 := List.mem_of_head? hc
    have hhead : c ∈ tail.head? := by
      obtain ⟨behind, heq⟩ := hprefix.trans hsplit
      rw [← heq, List.head?_append, Option.mem_def.mp hc]
      rfl
    rw [← htail] at hhead
    rcases mem_delimiters (isDelimiter_of_head hhead) with rfl | rfl | rfl
    · rfl
    · exact absurd hmem hclear.1
    · exact absurd hmem hclear.2

variable [UnicodeData]

theorem splitScheme_web (h : scheme ∈ webSchemes) :
    splitScheme (scheme ++ ':' :: text) = (scheme, text) := by
  have hcolon : ∀ scheme ∈ webSchemes, ':' ∉ scheme := by decide
  have hshape : ∀ scheme ∈ webSchemes,
      scheme.head?.any Char.isAlpha = true ∧ scheme.all isSchemeChar = true := by decide
  have hlower : lowerText scheme = scheme := by
    have hself : ∀ scheme ∈ webSchemes, isLowerAscii (String.ofList scheme) = true := by decide
    rw [lowerText, lower_eq_self (hself scheme h), String.toList_ofList]
  rw [splitScheme, before_append (hcolon scheme h), behind_append (hcolon scheme h), hlower,
    if_pos ⟨List.mem_append_right _ List.mem_cons_self, hshape scheme h⟩]

omit [UnicodeData] in
/-- Nothing of the scheme and the slashes is removed. -/
theorem cleaned_web (h : scheme ∈ webSchemes) :
    removeUnsafe ((scheme ++ ':' :: '/' :: '/' :: rest).dropWhile isC0OrSpace) =
      scheme ++ ':' :: '/' :: '/' :: removeUnsafe rest := by
  simp only [webSchemes, List.mem_cons, List.not_mem_nil, or_false] at h
  rcases h with rfl | rfl <;> rfl

theorem readNetloc_slashes {r : List Char × List Char} :
    readNetloc ('/' :: '/' :: text) = .ok r ↔
      checkBrackets (splitNetloc text).1 = .ok () ∧ splitNetloc text = r := by
  have htake : ('/' :: '/' :: text).take 2 = ['/', '/'] := rfl
  simp only [readNetloc, htake, if_true, List.drop_succ_cons, List.drop_zero, bind_eq_ok,
    Except.ok.injEq]
  exact ⟨fun ⟨_, hchecked, heq⟩ => ⟨hchecked, heq⟩, fun ⟨hchecked, heq⟩ => ⟨(), hchecked, heq⟩⟩

/-- A web URL is parsed when its authority is one. -/
theorem urlparse_web_eq_ok {p : ParseResult} (h : scheme ∈ webSchemes) :
    urlparse (scheme ++ ':' :: '/' :: '/' :: rest) = .ok p ↔
      IsNetloc (splitNetloc (removeUnsafe rest)).1 ∧ webResult scheme (removeUnsafe rest) = p := by
  have hmap : ∀ {x : Except PyError SplitResult}, x.map SplitResult.withParams = .ok p ↔
      ∃ s, x = .ok s ∧ s.withParams = p := by
    intro x
    cases x <;> simp [Except.map]
  simp only [urlparse, hmap, urlsplit, cleaned_web h, splitScheme_web h, bind_eq_ok,
    readNetloc_slashes, Except.ok.injEq, ← checks_eq_ok]
  constructor
  · rintro ⟨s, ⟨_, ⟨hbrackets, rfl⟩, _, hnetloc, rfl⟩, hp⟩
    exact ⟨⟨hbrackets, hnetloc⟩, hp⟩
  · rintro ⟨⟨hbrackets, hnetloc⟩, hp⟩
    exact ⟨_, ⟨_, ⟨hbrackets, rfl⟩, (), hnetloc, rfl⟩, hp⟩

/-- A web URL put together from its parts is taken apart into them. -/
theorem urlparse_rebuilt {p : ParseResult} (h : scheme ∈ webSchemes)
    (hnetloc : ∀ c ∈ netloc, IsKept c)
    (hresource : IsResource path query) :
    urlparse (scheme ++ ':' :: '/' :: '/' ::
        (netloc ++ if query = [] then path else path ++ '?' :: query)) = .ok p ↔
      IsNetloc netloc ∧
        { scheme, netloc, path, params := [], query, fragment := [] } = p := by
  generalize htail : (if query = [] then path else path ++ '?' :: query) = tail
  obtain ⟨hsafe, hhead, hhash, hpath, hquery⟩ := hresource.written htail
  have hclean : removeUnsafe (netloc ++ tail) = netloc ++ tail :=
    removeUnsafe_eq_self fun c hc =>
      (List.mem_append.mp hc).elim (fun hc => (hnetloc c hc).1) (hsafe c)
  have hsplit : splitNetloc (netloc ++ tail) = (netloc, tail) :=
    splitNetloc_append (fun c hc => (hnetloc c hc).2) hhead
  rw [urlparse_web_eq_ok h, hclean, webResult, withParams_web h, hsplit, before_of_not_mem hhash,
    behind_of_not_mem hhash, hpath, hquery, hresource.no_params]

end Web

end ThreatScanner
