import ThreatScanner.Library.FormCoding
import ThreatScanner.Library.MultiDict
import ThreatScanner.Python.Url

/-!
# Queries and written URLs

`parse_qs` and `urlencode` on the query of a URL, and `urlunparse`, of CPython 3.11. A dictionary of
fields that is written as a query is read back, and so are the parts of a web URL that `urlparse`
has found.
-/

namespace ThreatScanner

open FormCoding

/-! ## Fields -/

/-- The fields of a query, each with its values. -/
abbrev Fields := Dict (List Char) (List (List Char))

/-- A field without an equals sign has an empty value. -/
def readField (piece : List Char) : List Char × List Char :=
  (unquote (before '=' piece), unquote (behind '=' piece))

/-- `parse_qsl`, with the blank values kept. -/
def parseQsl (query : List Char) : List (List Char × List Char) :=
  ((query.splitOn '&').filter (· ≠ [])).map readField

/-- `parse_qs`, with the blank values kept. -/
def parseQs (query : List Char) : Fields := Dict.collect (parseQsl query)

def writeField (e : List Char × List Char) : List Char := quote e.1 ++ '=' :: quote e.2

/-- `urlencode`, with a field for each value. -/
def urlencode (d : Fields) : List Char := ['&'].intercalate (d.pairs.map writeField)

section Fields
variable {c : Char} {s : List Char} {e : List Char × List Char} {d : Fields}

theorem isKept_quote (h : c ∈ quote s) : isUnsafe c = false ∧ c ∉ ['#', '&', '='] := by
  have hnone : (['\t', '\r', '\n', '#', '&', '='].all fun c =>
      !(isSafe c || c == '%' || c == '+')) = true := by decide
  have hkept : c ∉ ['\t', '\r', '\n', '#', '&', '='] := by
    intro hc
    have hwritten := mem_quote h
    have hno := List.all_eq_true.mp hnone c hc
    simp only [Bool.not_eq_true', Bool.or_eq_false_iff, beq_eq_false_iff_ne] at hno
    obtain ⟨⟨hsafe, hpercent⟩, hplus⟩ := hno
    simp [hsafe, hpercent, hplus] at hwritten
  simpa [isUnsafe, and_assoc] using hkept

theorem not_mem_writeField : '&' ∉ writeField e := by
  intro h
  rcases List.mem_append.mp h with h | h
  · exact (isKept_quote h).2 (by decide)
  · rcases List.mem_cons.mp h with h | h
    · exact absurd h (by decide)
    · exact (isKept_quote h).2 (by decide)

theorem readField_writeField : readField (writeField e) = e := by
  have hno : '=' ∉ quote e.1 := fun h => (isKept_quote h).2 (by decide)
  rw [readField, writeField, before_append hno, behind_append hno, unquote_quote, unquote_quote]

theorem parseQsl_intercalate (es : List (List Char × List Char)) :
    parseQsl (['&'].intercalate (es.map writeField)) = es := by
  have hread : (es.map writeField).map readField = es := by
    have hinverse : readField ∘ writeField = id := funext fun e => readField_writeField
    rw [List.map_map, hinverse, List.map_id]
  have hfilled : (es.map writeField).filter (· ≠ []) = es.map writeField := by
    refine List.filter_eq_self.mpr fun piece hpiece => ?_
    obtain ⟨e, -, rfl⟩ := List.mem_map.mp hpiece
    simp [writeField]
  rcases eq_or_ne es [] with rfl | hne
  · rfl
  · have hclear : ∀ piece ∈ es.map writeField, '&' ∉ piece := by
      intro piece hpiece
      obtain ⟨e, -, rfl⟩ := List.mem_map.mp hpiece
      exact not_mem_writeField
    rw [parseQsl, List.splitOn_intercalate '&' hclear (by simpa using hne), hfilled, hread]

/-- The fields that are written are read back, if each has a value. -/
theorem parseQs_urlencode (h : d.Filled) : parseQs (urlencode d) = d := by
  rw [parseQs, urlencode, parseQsl_intercalate, Dict.collect_pairs h]

theorem parseQsl_append {q : List Char} : parseQsl (s ++ '&' :: q) = parseQsl s ++ parseQsl q := by
  rw [parseQsl, List.splitOn_append_cons_self, List.filter_append, List.map_append, parseQsl,
    parseQsl]

theorem parseQsl_eq_nil : parseQsl s = [] ↔ (parseQs s).keys = [] :=
  Dict.keys_collect_eq_nil.symm

theorem parseQsl_writeField : parseQsl (writeField e) = [e] := by
  have hsingle : ['&'].intercalate [writeField e] = writeField e := List.intercalate_singleton
  rw [← hsingle]
  exact parseQsl_intercalate [e]

theorem filled_parseQs : (parseQs s).Filled := Dict.filled_collect _

theorem mem_intercalate {sep : List Char} {pieces : List (List Char)}
    (h : c ∈ sep.intercalate pieces) : c ∈ sep ∨ ∃ piece ∈ pieces, c ∈ piece := by
  induction pieces with
  | nil => exact absurd h List.not_mem_nil
  | cons piece pieces ih =>
    cases pieces with
    | nil => exact .inr ⟨piece, List.mem_cons_self, by simpa using h⟩
    | cons next pieces =>
      rw [List.intercalate_cons_cons, List.append_assoc, List.mem_append, List.mem_append] at h
      rcases h with h | h | h
      · exact .inr ⟨piece, List.mem_cons_self, h⟩
      · exact .inl h
      · exact (ih h).imp_right fun ⟨x, hx, hc⟩ => ⟨x, List.mem_cons_of_mem _ hx, hc⟩

theorem isKept_urlencode (h : c ∈ urlencode d) : isUnsafe c = false ∧ c ≠ '#' := by
  rcases mem_intercalate h with h | ⟨piece, hpiece, h⟩
  · rw [List.mem_singleton.mp h]
    decide
  · obtain ⟨e, -, rfl⟩ := List.mem_map.mp hpiece
    rcases List.mem_append.mp h with h | h
    · exact (isKept_quote h).imp_right fun hno heq => hno (heq ▸ List.mem_cons_self)
    · rcases List.mem_cons.mp h with rfl | h
      · decide
      · exact (isKept_quote h).imp_right fun hno heq => hno (heq ▸ List.mem_cons_self)

end Fields

/-! ## Written URLs -/

/-- A part behind its separator; an empty one is left out. -/
def part (sep : Char) (s : List Char) : List Char := if s = [] then [] else sep :: s

def usesNetloc : List String :=
  ["", "ftp", "http", "gopher", "nntp", "telnet", "imap", "wais", "file", "mms", "https", "shttp",
    "snews", "prospero", "rtsp", "rtsps", "rtspu", "rsync", "svn", "svn+ssh", "sftp", "nfs", "git",
    "git+ssh", "ws", "wss", "itms-services"]

/-- `urlunsplit`. -/
def urlunsplit (s : SplitResult) : List Char :=
  let rooted := if s.path ≠ [] ∧ s.path.head? ≠ some '/' then '/' :: s.path else s.path
  let url :=
    if s.netloc ≠ [] ∨
        s.scheme ≠ [] ∧ String.ofList s.scheme ∈ usesNetloc ∧ s.path.take 2 ≠ ['/', '/'] then
      '/' :: '/' :: (s.netloc ++ rooted)
    else s.path
  (if s.scheme = [] then url else s.scheme ++ ':' :: url) ++ part '?' s.query ++ part '#' s.fragment

/-- The path with the parameters of its last segment. -/
def ParseResult.fullPath (p : ParseResult) : List Char := p.path ++ part ';' p.params

/-- `urlunparse`. -/
def urlunparse (p : ParseResult) : List Char := urlunsplit { p with path := p.fullPath }

section Part
variable {sep c : Char} {s t : List Char}

theorem before_part (h : sep ∉ s) : before sep (s ++ part sep t) = s := by
  unfold part
  split
  · rw [List.append_nil, before_of_not_mem h]
  · exact before_append h

theorem behind_part (h : sep ∉ s) : behind sep (s ++ part sep t) = t := by
  unfold part
  split
  · next ht => rw [List.append_nil, behind_of_not_mem h, ht]
  · exact behind_append h

theorem mem_part (h : c ∈ part sep t) : c = sep ∨ c ∈ t := by
  unfold part at h
  split at h
  · exact absurd h List.not_mem_nil
  · exact List.mem_cons.mp h

theorem head_part (h : c ∈ (part sep t).head?) : c = sep := by
  unfold part at h
  split at h
  · cases h
  · exact (Option.some.inj h).symm

theorem splitParams_append (h : (splitParams s).2 ≠ []) :
    (splitParams s).1 ++ ';' :: (splitParams s).2 = s := by
  by_cases hmem : ';' ∈ behindLast '/' s
  · have hsplit : splitParams s = (s.rdropWhile (· ≠ '/') ++ before ';' (behindLast '/' s),
        behind ';' (behindLast '/' s)) := by rw [splitParams, if_pos hmem]
    rw [hsplit, List.append_assoc, before_append_behind hmem]
    exact List.rdropWhile_append_rtakeWhile
  · rw [splitParams, if_neg hmem] at h
    exact absurd rfl h

end Part

/-- The parts of a web URL, as `urlparse` finds them. -/
structure ParseResult.IsWeb [UnicodeData] (p : ParseResult) : Prop where
  scheme : p.scheme ∈ webSchemes
  netloc_ne : p.netloc ≠ []
  netloc : IsNetloc p.netloc
  kept : ∀ c ∈ p.netloc, IsKept c
  rooted : ∀ c ∈ p.fullPath.head?, c = '/'
  params : splitParams p.fullPath = (p.path, p.params)
  clear : '?' ∉ p.fullPath ∧ '#' ∉ p.fullPath ∧ '#' ∉ p.query
  safe : ∀ c ∈ p.fullPath ++ p.query ++ p.fragment, isUnsafe c = false

section Web
variable [UnicodeData] {p : ParseResult} {url q : List Char} {c : Char}

theorem ParseResult.IsWeb.with_query (h : p.IsWeb) (hsafe : ∀ c ∈ q, isUnsafe c = false)
    (hclear : '#' ∉ q) : { p with query := q }.IsWeb where
  scheme := h.scheme
  netloc_ne := h.netloc_ne
  netloc := h.netloc
  kept := h.kept
  rooted := h.rooted
  params := h.params
  clear := ⟨h.clear.1, h.clear.2.1, hclear⟩
  safe c hc := by
    rcases List.mem_append.mp hc with hc | hc
    · rcases List.mem_append.mp hc with hc | hc
      · exact h.safe c (List.mem_append_left _ (List.mem_append_left _ hc))
      · exact hsafe c hc
    · exact h.safe c (List.mem_append_right _ hc)

/-- What stands behind the authority of a web URL. -/
def ParseResult.tail (p : ParseResult) : List Char :=
  p.fullPath ++ part '?' p.query ++ part '#' p.fragment

theorem urlunparse_web (h : p.IsWeb) :
    urlunparse p = p.scheme ++ ':' :: '/' :: '/' :: (p.netloc ++ p.tail) := by
  have hscheme : p.scheme ≠ [] := by
    intro hnil
    have hweb := h.scheme
    rw [hnil] at hweb
    exact absurd hweb (by decide)
  have hrooted : ¬ (p.fullPath ≠ [] ∧ p.fullPath.head? ≠ some '/') := by
    rintro ⟨hne, hhead⟩
    obtain ⟨c, path, hpath⟩ := List.exists_cons_of_ne_nil hne
    rw [hpath] at hhead
    exact hhead (congrArg some (h.rooted c (by rw [hpath]; rfl)))
  simp only [urlunparse, urlunsplit, if_neg hrooted, if_neg hscheme, if_pos (Or.inl h.netloc_ne),
    ParseResult.tail, List.append_assoc, List.cons_append]

theorem ParseResult.IsWeb.safe_tail (h : p.IsWeb) (hc : c ∈ p.tail) : isUnsafe c = false := by
  rcases List.mem_append.mp hc with hc | hc
  · rcases List.mem_append.mp hc with hc | hc
    · exact h.safe c (List.mem_append_left _ (List.mem_append_left _ hc))
    · rcases mem_part hc with rfl | hc
      · rfl
      · exact h.safe c (List.mem_append_left _ (List.mem_append_right _ hc))
  · rcases mem_part hc with rfl | hc
    · rfl
    · exact h.safe c (List.mem_append_right _ hc)

omit [UnicodeData] in
theorem head_append {P : Char → Prop} {s t : List Char} (hs : ∀ c ∈ s.head?, P c)
    (ht : ∀ c ∈ t.head?, P c) : ∀ c ∈ (s ++ t).head?, P c := by
  cases s with
  | nil => exact ht
  | cons d s => exact hs

theorem ParseResult.IsWeb.head_tail (h : p.IsWeb) :
    ∀ c ∈ p.tail.head?, isDelimiter c = true := by
  refine head_append (head_append (fun c hc => ?_) fun c hc => ?_) fun c hc => ?_
  · rw [h.rooted c hc]
    rfl
  · rw [head_part hc]
    rfl
  · rw [head_part hc]
    rfl

/-- A written web URL has the parts that it is written from. -/
theorem urlparse_urlunparse (h : p.IsWeb) : urlparse (urlunparse p) = .ok p := by
  have hclean : removeUnsafe (p.netloc ++ p.tail) = p.netloc ++ p.tail :=
    removeUnsafe_eq_self fun c hc =>
      (List.mem_append.mp hc).elim (fun hc => (h.kept c hc).1) h.safe_tail
  have hsplit : splitNetloc (p.netloc ++ p.tail) = (p.netloc, p.tail) :=
    splitNetloc_append (fun c hc => (h.kept c hc).2) h.head_tail
  have hquery : '#' ∉ p.fullPath ++ part '?' p.query := by
    intro hc
    rcases List.mem_append.mp hc with hc | hc
    · exact h.clear.2.1 hc
    · rcases mem_part hc with hc | hc
      · exact absurd hc (by decide)
      · exact h.clear.2.2 hc
  have hbefore : before '#' p.tail = p.fullPath ++ part '?' p.query := before_part hquery
  have hbehind : behind '#' p.tail = p.fragment := behind_part hquery
  rw [urlunparse_web h, urlparse_web_eq_ok h.scheme, hclean, hsplit]
  refine ⟨h.netloc, ?_⟩
  rw [webResult, withParams_web h.scheme, hsplit, hbefore, hbehind, before_part h.clear.1,
    behind_part h.clear.1, h.params]

/-- The parts of a web URL from what stands behind its authority. -/
def partsOf (scheme netloc tail : List Char) : ParseResult where
  scheme := scheme
  netloc := netloc
  path := (splitParams (before '?' (before '#' tail))).1
  params := (splitParams (before '?' (before '#' tail))).2
  query := behind '?' (before '#' tail)
  fragment := behind '#' tail

omit [UnicodeData] in
theorem webResult_eq {scheme rest : List Char} (h : scheme ∈ webSchemes) :
    webResult scheme rest = partsOf scheme (splitNetloc rest).1 (splitNetloc rest).2 := by
  rw [webResult, withParams_web h, partsOf]

/-- And what `urlparse` finds behind a web scheme and an authority is a web URL. -/
theorem isWeb_webResult {scheme rest : List Char} (hscheme : scheme ∈ webSchemes)
    (hsafe : ∀ c ∈ rest, isUnsafe c = false) (hnetloc : IsNetloc (splitNetloc rest).1)
    (hne : (splitNetloc rest).1 ≠ []) : (webResult scheme rest).IsWeb := by
  generalize htail : (splitNetloc rest).2 = tail
  have hrest : ∀ c ∈ tail, isUnsafe c = false :=
    fun c hc => hsafe c (mem_of_mem_splitNetloc (htail ▸ hc))
  have hparsed : webResult scheme rest = partsOf scheme (splitNetloc rest).1 tail := by
    rw [webResult_eq hscheme, htail]
  rw [partsOf] at hparsed
  generalize hpath : before '?' (before '#' tail) = path at hparsed
  have hfull : (webResult scheme rest).fullPath <+: path ∧
      splitParams (webResult scheme rest).fullPath = splitParams path := by
    rw [hparsed, ParseResult.fullPath]
    dsimp only
    by_cases hparams : (splitParams path).2 = []
    · rw [hparams, part, if_pos rfl, List.append_nil, splitParams_splitParams]
      have hstart : (splitParams path).1 <+: path := splitParams_prefix
      exact ⟨hstart, Prod.ext rfl hparams.symm⟩
    · rw [part, if_neg hparams, splitParams_append hparams]
      exact ⟨List.prefix_rfl, rfl⟩
  have hmem : ∀ c ∈ (webResult scheme rest).fullPath, c ∈ path := fun c hc => hfull.1.subset hc
  have hquestion : '?' ∉ (webResult scheme rest).fullPath :=
    fun hc => not_mem_before (hpath ▸ hmem _ hc)
  have hhash : '#' ∉ (webResult scheme rest).fullPath :=
    fun hc => not_mem_before (mem_of_mem_before (hpath ▸ hmem _ hc))
  have hbefore : path <+: tail :=
    hpath ▸ (List.takeWhile_prefix _).trans (List.takeWhile_prefix _)
  refine {
    scheme := by rwa [hparsed]
    netloc_ne := by rwa [hparsed]
    netloc := by rwa [hparsed]
    kept := fun c hc => ?_
    rooted := fun c hc => ?_
    params := by rw [hfull.2, hparsed]
    clear := ⟨hquestion, hhash, fun hc => ?_⟩
    safe := fun c hc => ?_ }
  · rw [hparsed] at hc
    exact ⟨hsafe c ((List.takeWhile_prefix _).subset hc), not_isDelimiter_of_mem hc⟩
  · obtain ⟨more, heq⟩ := hfull.1.trans hbefore
    have hhead : c ∈ (splitNetloc rest).2.head? := by
      rw [htail, ← heq, List.head?_append, Option.mem_def.mp hc]
      rfl
    rcases mem_delimiters (isDelimiter_of_head hhead) with rfl | rfl | rfl
    · rfl
    · exact absurd (List.mem_of_head? hc) hquestion
    · exact absurd (List.mem_of_head? hc) hhash
  · rw [hparsed] at hc
    exact not_mem_before (mem_of_mem_behind hc)
  · rcases List.mem_append.mp hc with hc | hc
    · rcases List.mem_append.mp hc with hc | hc
      · exact hrest c (hbefore.subset (hmem c hc))
      · rw [hparsed] at hc
        exact hrest c (mem_of_mem_before (mem_of_mem_behind hc))
    · rw [hparsed] at hc
      exact hrest c (mem_of_mem_behind hc)

/-- A text that is read as a web URL: the part behind the two slashes, when the characters that the
parser takes out are gone. -/
def IsWebText (url scheme rest : List Char) : Prop :=
  ∃ written, removeUnsafe (url.dropWhile isC0OrSpace) = written ++ ':' :: '/' :: '/' :: rest ∧
    written.head?.any Char.isAlpha = true ∧ written.all isSchemeChar = true ∧
    lowerText written = scheme

omit [UnicodeData] in
theorem not_mem_of_isSchemeChar {s : List Char} (h : s.all isSchemeChar = true)
    (hc : isSchemeChar c = false) : c ∉ s := by
  intro hmem
  rw [List.all_eq_true.mp h c hmem] at hc
  cases hc

theorem urlparse_webText {scheme rest : List Char} (h : IsWebText url scheme rest) :
    urlparse url = .ok p ↔ IsNetloc (splitNetloc rest).1 ∧ webResult scheme rest = p := by
  obtain ⟨written, hcleaned, hhead, hall, rfl⟩ := h
  have hcolon : ':' ∉ written := not_mem_of_isSchemeChar hall (by decide)
  have hsplit : splitScheme (removeUnsafe (url.dropWhile isC0OrSpace)) =
      (lowerText written, '/' :: '/' :: rest) := by
    rw [hcleaned, splitScheme, before_append hcolon, behind_append hcolon,
      if_pos ⟨List.mem_append_right _ List.mem_cons_self, hhead, hall⟩]
  have hmap : ∀ {x : Except PyError SplitResult}, x.map SplitResult.withParams = .ok p ↔
      ∃ s, x = .ok s ∧ s.withParams = p := by
    intro x
    cases x <;> simp [Except.map]
  simp only [urlparse, hmap, urlsplit, hsplit, bind_eq_ok, readNetloc_slashes, Except.ok.injEq,
    ← checks_eq_ok]
  constructor
  · rintro ⟨s, ⟨_, ⟨hbrackets, rfl⟩, _, hnetloc, rfl⟩, hp⟩
    exact ⟨⟨hbrackets, hnetloc⟩, hp⟩
  · rintro ⟨⟨hbrackets, hnetloc⟩, hp⟩
    exact ⟨_, ⟨_, ⟨hbrackets, rfl⟩, (), hnetloc, rfl⟩, hp⟩

/-- Only such a text has a web scheme and an authority. -/
theorem exists_isWebText (h : urlparse url = .ok p) (hscheme : p.scheme ∈ webSchemes)
    (hne : p.netloc ≠ []) : ∃ rest, IsWebText url p.scheme rest := by
  cases hsplit : urlsplit url with
  | error e => rw [urlparse, hsplit] at h; cases h
  | ok s =>
    rw [urlparse, hsplit] at h
    cases h
    unfold IsWebText
    generalize hcleaned : removeUnsafe (url.dropWhile isC0OrSpace) = cleaned
    simp only [urlsplit, hcleaned, bind_eq_ok, Except.ok.injEq] at hsplit
    obtain ⟨⟨netloc, tail⟩, hread, _, -, rfl⟩ := hsplit
    have hslashes : (splitScheme cleaned).2.take 2 = ['/', '/'] := by
      by_contra hnot
      rw [readNetloc, if_neg hnot] at hread
      cases hread
      exact hne rfl
    have hbehind := List.take_append_drop 2 (splitScheme cleaned).2
    rw [hslashes] at hbehind
    refine ⟨(splitScheme cleaned).2.drop 2, before ':' cleaned, ?_⟩
    change (splitScheme cleaned).1 ∈ webSchemes at hscheme
    change _ ∧ _ ∧ _ ∧ _ = (splitScheme cleaned).1
    unfold splitScheme at hscheme hbehind ⊢
    split at hscheme
    · next hshape =>
      rw [if_pos hshape] at hbehind ⊢
      refine ⟨?_, hshape.2.1, hshape.2.2, rfl⟩
      calc cleaned = before ':' cleaned ++ ':' :: behind ':' cleaned :=
            (before_append_behind hshape.1).symm
        _ = _ := congrArg (fun text => before ':' cleaned ++ ':' :: text) hbehind.symm
    · exact absurd hscheme (show ([] : List Char) ∉ webSchemes by decide)

theorem IsWebText.append {scheme rest more : List Char} (h : IsWebText url scheme rest)
    (hmore : ∀ c ∈ more, isUnsafe c = false) :
    IsWebText (url ++ more) scheme (rest ++ more) := by
  obtain ⟨written, hcleaned, hshape⟩ := h
  refine ⟨written, ?_, hshape⟩
  have hne : (url.dropWhile isC0OrSpace).isEmpty = false := by
    cases hdrop : url.dropWhile isC0OrSpace with
    | nil =>
      rw [hdrop] at hcleaned
      exact absurd hcleaned.symm (List.append_ne_nil_of_right_ne_nil _ (List.cons_ne_nil _ _))
    | cons c url => rfl
  rw [List.dropWhile_append, hne, if_neg (by simp), removeUnsafe, List.filter_append,
    ← removeUnsafe, ← removeUnsafe, hcleaned, removeUnsafe_eq_self hmore, List.append_assoc]
  rfl

/-- The separators of a query and a fragment stand behind the slashes. -/
theorem IsWebText.mem_iff {scheme rest : List Char} (h : IsWebText url scheme rest)
    (hc : c ∈ ['?', '#']) : c ∈ url ↔ c ∈ rest := by
  obtain ⟨written, hcleaned, -, hall, -⟩ := h
  have hkept : isC0OrSpace c = false ∧ isUnsafe c = false ∧ isSchemeChar c = false ∧ c ≠ ':' ∧
      c ≠ '/' := by
    simp only [List.mem_cons, List.not_mem_nil, or_false] at hc
    rcases hc with rfl | rfl <;> decide
  obtain ⟨hblank, hsafe, hscheme, hcolon, hslash⟩ := hkept
  have hdrop : c ∈ url ↔ c ∈ url.dropWhile isC0OrSpace := by
    conv_lhs => rw [← List.takeWhile_append_dropWhile (p := isC0OrSpace) (l := url)]
    refine List.mem_append.trans (or_iff_right fun htake => ?_)
    rw [List.mem_takeWhile_imp htake] at hblank
    cases hblank
  have hfilter : c ∈ url.dropWhile isC0OrSpace ↔ c ∈ removeUnsafe (url.dropWhile isC0OrSpace) := by
    rw [removeUnsafe, List.mem_filter, hsafe]
    exact (and_iff_left rfl).symm
  rw [hdrop, hfilter, hcleaned, List.mem_append, List.mem_cons, List.mem_cons, List.mem_cons]
  simp only [not_mem_of_isSchemeChar hall hscheme, hcolon, hslash, false_or]

theorem isWeb_of_urlparse (h : urlparse url = .ok p) (hscheme : p.scheme ∈ webSchemes)
    (hne : p.netloc ≠ []) : p.IsWeb := by
  obtain ⟨rest, hweb⟩ := exists_isWebText h hscheme hne
  obtain ⟨hnetloc, hp⟩ := (urlparse_webText hweb).mp h
  obtain ⟨written, hcleaned, -⟩ := hweb
  have hsafe : ∀ c ∈ rest, isUnsafe c = false := by
    intro c hc
    refine isUnsafe_of_mem (?_ : c ∈ removeUnsafe (url.dropWhile isC0OrSpace))
    rw [hcleaned]
    exact List.mem_append_right _ (List.mem_cons_of_mem _ (List.mem_cons_of_mem _
      (List.mem_cons_of_mem _ hc)))
  rw [← hp] at hne ⊢
  exact isWeb_webResult hscheme hsafe hnetloc hne

omit [UnicodeData] in
theorem behind_append_of_mem {sep : Char} {s t : List Char} (h : sep ∈ s) :
    behind sep (s ++ t) = behind sep s ++ t := by
  conv_lhs => rw [← before_append_behind h, List.append_assoc, List.cons_append,
    behind_append not_mem_before]

omit [UnicodeData] in
/-- Text behind an authority that has ended is no part of it. -/
theorem splitNetloc_append_tail {text more : List Char}
    (h : (splitNetloc text).2 ≠ [] ∨ ∀ c ∈ more.head?, isDelimiter c = true) :
    splitNetloc (text ++ more) = ((splitNetloc text).1, (splitNetloc text).2 ++ more) := by
  have hwhole : (splitNetloc text).1 ++ (splitNetloc text).2 = text :=
    List.takeWhile_append_dropWhile
  have hhead : ∀ c ∈ (splitNetloc text).2.head?, isDelimiter c = true :=
    fun c hc => isDelimiter_of_head hc
  conv_lhs => rw [← hwhole, List.append_assoc]
  refine splitNetloc_append (fun c => not_isDelimiter_of_mem) ?_
  cases htail : (splitNetloc text).2 with
  | nil => exact h.resolve_left fun hne => hne htail
  | cons d tail =>
    rw [htail] at hhead
    exact hhead

/-- A web URL cut behind its authority, and how it is read with more text at its end. -/
structure ReadsTail (url : List Char) (p : ParseResult) (tail : List Char) : Prop where
  parts : p = partsOf p.scheme p.netloc tail
  mem_iff : ∀ c ∈ ['?', '#'], c ∈ url ↔ c ∈ tail
  append : ∀ more, (∀ c ∈ more, isUnsafe c = false) →
    (tail ≠ [] ∨ ∀ c ∈ more.head?, isDelimiter c = true) →
    urlparse (url ++ more) = .ok (partsOf p.scheme p.netloc (tail ++ more))

theorem exists_readsTail (h : urlparse url = .ok p) (hscheme : p.scheme ∈ webSchemes)
    (hne : p.netloc ≠ []) : ∃ tail, ReadsTail url p tail := by
  obtain ⟨rest, hweb⟩ := exists_isWebText h hscheme hne
  obtain ⟨hnetloc, hp⟩ := (urlparse_webText hweb).mp h
  rw [webResult_eq hscheme] at hp
  have hauthority : p.netloc = (splitNetloc rest).1 := by rw [← hp]; rfl
  refine ⟨(splitNetloc rest).2, ?_, fun c hc => ?_, fun more hmore hend => ?_⟩
  · rw [hauthority, hp]
  · have hstop : isDelimiter c = true := by
      simp only [List.mem_cons, List.not_mem_nil, or_false] at hc
      rcases hc with rfl | rfl <;> rfl
    rw [hweb.mem_iff hc]
    conv_lhs => rw [← List.takeWhile_append_dropWhile (p := (!isDelimiter ·)) (l := rest)]
    refine List.mem_append.trans (or_iff_right fun hmem => ?_)
    rw [not_isDelimiter_of_mem hmem] at hstop
    cases hstop
  · have hsplit := splitNetloc_append_tail hend
    rw [urlparse_webText (hweb.append hmore), webResult_eq hscheme, hsplit, hauthority]
    exact ⟨hnetloc, rfl⟩

end Web

end ThreatScanner
