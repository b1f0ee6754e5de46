import ThreatScanner.Analyzer.Probes

/-!
# Mined parameters

`mine_parameters_from_urls` and `build_parameter_candidates` collect leads from URLs: a parameter of
the query each, or made-up ones where there is no query and the path looks like an endpoint. The
test URL of a lead from a query has the marker in the parameter. That of a made-up one is the URL
with more text at its end, which is not always a parameter.
-/

namespace ThreatScanner.Analyzer

/-- A parameter and where it may be tested. -/
structure ParameterLead where
  url : String
  parameter : String
  source : String
  testUrl : Option String
  severity : String
  category : String := "Parameter Miner"
  status : String := "INFO"
  confidence : String
  affectedUrl : Option String
  fixLocation : String
  evidence : String
  fix : String

/-- What the two miners do not share: the parts of a path that make it an endpoint, the parameters
that are made up, the bound on the leads, and their texts around the name of the parameter. -/
structure MinerRules where
  paths : List String
  names : List String
  limit : ℕ
  existingEvidence : String → String
  generatedEvidence : String → String
  generatedFix : String

def ParameterLead.key (lead : ParameterLead) : Option String × String :=
  (lead.testUrl, lead.parameter)

section Leads
variable [UnicodeData]

def existingLead (rules : MinerRules) (url key : String) : ParameterLead :=
  let testUrl := injectParam url key kxssTestPayload
  { url
    parameter := key
    source := "existing_query"
    testUrl
    severity := "LOW"
    confidence := "MEDIUM"
    affectedUrl := testUrl
    fixLocation := "Query parameter: " ++ key
    evidence := rules.existingEvidence key
    fix := "Validate and contextually encode this parameter wherever it is reflected or used." }

/-- The text that is put at the end of a URL with this query. -/
def generatedQuery (query : List Char) (key : String) : List Char :=
  (if query = [] then '?' else '&') :: writeField (key.toList, kxssTestPayload.toList)

def generatedLead (rules : MinerRules) (url : String) (query : List Char) (key : String) :
    ParameterLead :=
  let testUrl := some (String.ofList (url.toList ++ generatedQuery query key))
  { url
    parameter := key
    source := "generated_candidate"
    testUrl
    severity := "INFO"
    confidence := "LOW"
    affectedUrl := testUrl
    fixLocation := "Candidate query parameter: " ++ key
    evidence := rules.generatedEvidence key
    fix := rules.generatedFix }

/-- The leads from one URL. -/
def urlLeads (rules : MinerRules) (url : String) : List ParameterLead :=
  match urlparse url.toList with
  | .error _ => []
  | .ok parsed =>
    let keys := (parseQs parsed.query).keys
    if keys ≠ [] then keys.map fun key => existingLead rules url (String.ofList key)
    else if rules.paths.any (contains (String.ofList (lowerText parsed.path))) then
      rules.names.map (generatedLead rules url parsed.query)
    else []

def mineLeads (rules : MinerRules) (urls : List String) : List ParameterLead :=
  (distinctBy ParameterLead.key (urls.flatMap (urlLeads rules))).take rules.limit

def mineRules : MinerRules where
  paths := ["/search", "/api", "/login", "/redirect", "/callback"]
  names := ["q", "s", "search", "query"]
  limit := 60
  existingEvidence key := "Parameter '" ++ key ++ "' discovered in URL."
  generatedEvidence key := "Candidate parameter '" ++ key ++
    "' generated for testing based on path pattern."
  generatedFix := "Only treat generated candidates as leads. Verify manually before remediation."

/-- `mine_parameters_from_urls`. -/
def mineParametersFromUrls (urls : List String) : List ParameterLead := mineLeads mineRules urls

def candidateRules : MinerRules where
  paths := ["search", "api", "login", "redirect", "callback", "user", "account"]
  names := ["q", "s", "search", "query", "id"]
  limit := 100
  existingEvidence key := "Existing parameter '" ++ key ++ "' discovered."
  generatedEvidence key := "Candidate parameter '" ++ key ++ "' generated from endpoint pattern."
  generatedFix := "Generated candidates are leads only; verify manually."

/-- `build_parameter_candidates`. -/
def buildParameterCandidates (urls : List String) : List ParameterLead :=
  mineLeads candidateRules urls

variable {rules : MinerRules} {urls : List String} {url key test : String} {p : ParseResult}

/-! ## Made-up parameters -/

omit [UnicodeData] in
theorem isKept_generatedQuery {query : List Char} {c : Char} (h : c ∈ generatedQuery query key) :
    isUnsafe c = false ∧ c ≠ '#' := by
  have hsep : ∀ c ∈ ['?', '&', '='], isUnsafe c = false ∧ c ≠ '#' := by simp [isUnsafe]
  rcases List.mem_cons.mp h with rfl | h
  · split <;> exact hsep _ (by decide)
  rcases List.mem_append.mp h with h | h
  · exact (isKept_quote h).imp_right fun hno heq => hno (heq ▸ List.mem_cons_self)
  rcases List.mem_cons.mp h with rfl | h
  · exact hsep _ (by decide)
  · exact (isKept_quote h).imp_right fun hno heq => hno (heq ▸ List.mem_cons_self)

omit [UnicodeData] in
theorem keys_parseQs_writeField (e : List Char × List Char) :
    (parseQs (writeField e)).keys = [e.1] := by
  rw [parseQs, parseQsl_writeField]
  rfl

omit [UnicodeData] in
/-- The fields of a query without any, and with one set. -/
theorem set_of_keys_eq_nil {query : List Char} (hkeys : (parseQs query).keys = [])
    (k v : List Char) : (parseQs query).set k [v] = parseQs (writeField (k, v)) := by
  have hnew : k ∉ (parseQs query).keys := by
    rw [hkeys]
    exact List.not_mem_nil
  have hentries : (parseQs query).entries = [] := List.map_eq_nil_iff.mp hkeys
  refine Dict.ext_entries ?_
  rw [Dict.set, dif_neg hnew, Dict.entries_insertNew, hentries, parseQs, parseQsl_writeField]
  rfl

omit [UnicodeData] in
/-- A question mark in front of a field belongs to its name. -/
theorem keys_parseQs_question (e : List Char × List Char) :
    (parseQs ('?' :: writeField e)).keys = ['?' :: e.1] := by
  have hno : '&' ∉ '?' :: writeField e := by
    intro h
    exact (List.mem_cons.mp h).elim (fun h => absurd h (by decide)) not_mem_writeField
  have hequals : '=' ∉ '?' :: FormCoding.quote e.1 := by
    intro h
    exact (List.mem_cons.mp h).elim (fun h => absurd h (by decide))
      fun h => (isKept_quote h).2 (by decide)
  have hread : (readField ('?' :: writeField e)).1 = '?' :: e.1 := by
    rw [readField, writeField, ← List.cons_append, before_append hequals,
      FormCoding.unquote_cons_quote (by decide) (by decide)]
  have hsplit : parseQsl ('?' :: writeField e) = [readField ('?' :: writeField e)] := by
    rw [parseQsl, List.splitOn_eq_singleton hno]
    rfl
  rw [parseQs, hsplit, ← hread]
  rfl

/-- More text at the end of a web URL gives it the field if there is no fragment, and no question
mark without a query. -/
theorem injects_generated_iff (hparse : urlparse url.toList = .ok p)
    (hscheme : p.scheme ∈ webSchemes) (hnetloc : p.netloc ≠ [])
    (hkeys : (parseQs p.query).keys = []) (key : String) :
    Injects url key kxssTestPayload (String.ofList (url.toList ++ generatedQuery p.query key)) ↔
      '#' ∉ url.toList ∧ (p.query = [] → '?' ∉ url.toList) := by
  obtain ⟨tail, hparts, hmem, happend⟩ := exists_readsTail hparse hscheme hnetloc
  have hquery : p.query = behind '?' (before '#' tail) := by
    conv_lhs => rw [hparts]
    rfl
  have hend : tail ≠ [] ∨ ∀ c ∈ (generatedQuery p.query key).head?, isDelimiter c = true := by
    by_cases hnil : p.query = []
    · refine .inr fun c hc => ?_
      rw [generatedQuery, if_pos hnil] at hc
      cases hc
      rfl
    · refine .inl ?_
      rintro rfl
      exact hnil hquery
  have htest := happend _ (fun c hc => (isKept_generatedQuery hc).1) hend
  generalize htail : tail ++ generatedQuery p.query key = tail' at htest
  have hiff : Injects url key kxssTestPayload
      (String.ofList (url.toList ++ generatedQuery p.query key)) ↔
      partsOf p.scheme p.netloc tail' = { p with query := behind '?' (before '#' tail') } ∧
        parseQs (behind '?' (before '#' tail')) =
          parseQs (writeField (key.toList, kxssTestPayload.toList)) := by
    rw [← set_of_keys_eq_nil hkeys]
    constructor
    · rintro ⟨q, q', hq, hq', hsame, hfields⟩
      cases hparse.symm.trans hq
      rw [String.toList_ofList] at hq'
      cases htest.symm.trans hq'
      exact ⟨hsame, hfields⟩
    · rintro ⟨hsame, hfields⟩
      exact ⟨p, _, hparse, by rw [String.toList_ofList, htest], hsame, hfields⟩
  rw [hiff, hmem '#' (by decide), hmem '?' (by decide)]
  by_cases hhash : '#' ∈ tail
  · have hsame : behind '?' (before '#' tail') = p.query := by
      rw [← htail, before_append_of_mem hhash, hquery]
    refine iff_of_false (fun h => ?_) fun h => h.1 hhash
    have hfields := congrArg Dict.keys h.2
    rw [hsame, hkeys, keys_parseQs_writeField] at hfields
    cases hfields
  · have hhash' : '#' ∉ tail' := by
      rw [← htail]
      exact fun h => (List.mem_append.mp h).elim hhash fun h => (isKept_generatedQuery h).2 rfl
    have hrest (h : before '?' tail' = before '?' tail) : partsOf p.scheme p.netloc tail' =
        { p with query := behind '?' (before '#' tail') } := by
      have hsame : partsOf p.scheme p.netloc tail' =
          { partsOf p.scheme p.netloc tail with query := behind '?' (before '#' tail') } := by
        simp only [partsOf, before_of_not_mem hhash, before_of_not_mem hhash',
          behind_of_not_mem hhash, behind_of_not_mem hhash', h]
      rw [hsame, ← hparts]
    rw [before_of_not_mem hhash] at hquery
    rw [before_of_not_mem hhash'] at hrest ⊢
    by_cases hmark : '?' ∈ tail
    · have hbefore : before '?' tail' = before '?' tail := by
        rw [← htail, before_append_of_mem hmark]
      have hbehind : behind '?' tail' = p.query ++ generatedQuery p.query key := by
        rw [← htail, behind_append_of_mem hmark, hquery]
      rw [hbehind, and_iff_right (by rw [hrest hbefore, hbehind])]
      by_cases hnil : p.query = []
      · refine iff_of_false (fun h => ?_) fun h => h.2 hnil hmark
        have hkeys' := congrArg Dict.keys h
        rw [hnil, List.nil_append, generatedQuery, if_pos rfl, keys_parseQs_question,
          keys_parseQs_writeField] at hkeys'
        have hlength := congrArg List.length (List.cons.inj hkeys').1
        simp at hlength
      · refine iff_of_true ?_ ⟨hhash, fun h => absurd h hnil⟩
        rw [generatedQuery, if_neg hnil, parseQs, parseQsl_append, parseQsl_eq_nil.mpr hkeys,
          List.nil_append, ← parseQs]
    · have hnil : p.query = [] := by rw [hquery, behind_of_not_mem hmark]
      have hwhole : tail' = tail ++ '?' :: writeField (key.toList, kxssTestPayload.toList) := by
        rw [← htail, generatedQuery, if_pos hnil]
      refine iff_of_true ⟨hrest ?_, ?_⟩ ⟨hhash, fun _ => hmark⟩
      · rw [hwhole, before_append hmark, before_of_not_mem hmark]
      · rw [hwhole, behind_append hmark]

/-! ## The leads -/

/-- What the leads of a miner are, whatever URLs it is given. -/
structure Mined (limit : ℕ) (urls : List String) (leads : List ParameterLead) : Prop where
  bounded : leads.length ≤ limit
  once : (leads.map ParameterLead.key).Nodup
  listed : ∀ lead ∈ leads, lead.url ∈ urls
  /-- In a web URL the marker is the value of the parameter, but for a made-up one that ends up in
  the fragment or behind a second question mark. -/
  tested : ∀ lead ∈ leads, ∀ p, urlparse lead.url.toList = .ok p → p.scheme ∈ webSchemes →
    p.netloc ≠ [] → ∃ test, lead.testUrl = some test ∧
      (lead.source = "existing_query" ∧ Injects lead.url lead.parameter kxssTestPayload test ∨
        lead.source = "generated_candidate" ∧ (parseQs p.query).keys = [] ∧
          (Injects lead.url lead.parameter kxssTestPayload test ↔
            '#' ∉ lead.url.toList ∧ (p.query = [] → '?' ∉ lead.url.toList)))

theorem mem_urlLeads {lead : ParameterLead} (h : lead ∈ urlLeads rules url) :
    ∃ p, urlparse url.toList = .ok p ∧ ((∃ key, lead = existingLead rules url key) ∨
      (parseQs p.query).keys = [] ∧ ∃ key, lead = generatedLead rules url p.query key) := by
  unfold urlLeads at h
  split at h
  · cases h
  · next p hparse =>
    refine ⟨p, hparse, ?_⟩
    dsimp only at h
    split at h
    · obtain ⟨key, -, rfl⟩ := List.mem_map.mp h
      exact .inl ⟨_, rfl⟩
    · next hkeys =>
      split at h
      · obtain ⟨key, -, rfl⟩ := List.mem_map.mp h
        exact .inr ⟨not_not.mp hkeys, key, rfl⟩
      · cases h

theorem mem_mineLeads {lead : ParameterLead} (h : lead ∈ mineLeads rules urls) :
    ∃ url ∈ urls, lead ∈ urlLeads rules url :=
  List.mem_flatMap.mp (mem_of_mem_distinctBy (List.mem_of_mem_take h))

theorem mined_mineLeads (rules : MinerRules) (urls : List String) :
    Mined rules.limit urls (mineLeads rules urls) where
  bounded := List.length_take_le _ _
  once := by
    rw [mineLeads, List.map_take]
    exact distinctBy_keys_nodup.sublist (List.take_sublist _ _)
  listed lead h := by
    obtain ⟨url, hurl, hlead⟩ := mem_mineLeads h
    obtain ⟨-, -, ⟨key, rfl⟩ | ⟨-, key, rfl⟩⟩ := mem_urlLeads hlead
    · exact hurl
    · exact hurl
  tested lead h p hparse hscheme hnetloc := by
    obtain ⟨url, -, hlead⟩ := mem_mineLeads h
    obtain ⟨q, hq, ⟨key, rfl⟩ | ⟨hkeys, key, rfl⟩⟩ := mem_urlLeads hlead
    · obtain ⟨test, htest, hinjects⟩ := inject_param_exact hparse hscheme hnetloc key
        kxssTestPayload
      exact ⟨test, htest, .inl ⟨rfl, hinjects⟩⟩
    · cases hparse.symm.trans hq
      exact ⟨_, rfl, .inr ⟨rfl, hkeys, injects_generated_iff hparse hscheme hnetloc hkeys key⟩⟩

/-- Both miners. -/
theorem mined_parameters (urls : List String) : Mined 60 urls (mineParametersFromUrls urls) ∧
    Mined 100 urls (buildParameterCandidates urls) :=
  ⟨mined_mineLeads mineRules urls, mined_mineLeads candidateRules urls⟩

end Leads

end ThreatScanner.Analyzer
