import ThreatScanner.Analyzer.Targets

/-!
# What the candidate URLs address

`get_http_candidates` takes a URL apart and puts it together from its host, port, path and query
only. What it leaves out is lost: the parameters of the path, a port 0 and the brackets of a host.
-/

namespace ThreatScanner.Analyzer

variable [UnicodeData]

/-! ## The authority of a candidate -/

section Port
variable {port : List Char} {n : Nat}

theorem parsePort_le (h : parsePort port = .ok (some n)) : n ≤ 65535 := by
  rw [parsePort] at h
  split at h
  · cases h
  split at h
  · cases h
  split at h
  · cases h
  split at h
  · cases h
  · next hle =>
    cases h
    exact Nat.le_of_not_lt hle

/-- A port that is written is read back. -/
theorem parsePort_toDigits (h : n ≤ 65535) : parsePort (Nat.toDigits 10 n) = .ok (some n) := by
  have hdigits : (Nat.toDigits 10 n).all Char.isDigit = true :=
    List.all_eq_true.mpr fun c hc => Nat.isDigit_of_mem_toDigits (by omega) (by omega) hc
  have hlength : (Nat.toDigits 10 n).length ≤ maxStrDigits :=
    Nat.le_trans ((Nat.length_toDigits_le_iff (k := 5) (by omega) (by omega)).mpr (by omega))
      (by decide)
  have hvalue : Nat.ofDigitChars 10 (Nat.toDigits 10 n) 0 = n := Nat.ofDigitChars_ten_toDigits
  rw [parsePort, if_neg Nat.toDigits_ne_nil, hdigits, if_neg (by decide),
    if_neg (Nat.not_lt.mpr hlength), hvalue, if_neg (Nat.not_lt.mpr h)]

omit [UnicodeData] in
theorem isPortChar_of_mem_portText {port : Option Nat} {c : Char} (h : c ∈ portText port) :
    IsPortChar c := by
  match port, h with
  | some (n + 1), h =>
    exact (List.mem_cons.mp h).imp_right fun hc =>
      Nat.isDigit_of_mem_toDigits (by omega) (by omega) hc

omit [UnicodeData] in
theorem head_portText {port : Option Nat} {c : Char} (h : c ∈ (portText port).head?) : c = ':' := by
  match port, h with
  | some (n + 1), h =>
    cases h
    rfl

/-- A port other than 0 is read back from a candidate. -/
theorem parsePort_portText {port : Option Nat} (hport : ∀ n ∈ port, n ≤ 65535)
    (hzero : port ≠ some 0) : parsePort (behind ':' (portText port)) = .ok port := by
  match port, hzero with
  | none, _ => rfl
  | some (n + 1), _ =>
    have hdigits : behind ':' (portText (some (n + 1))) = Nat.toDigits 10 (n + 1) :=
      behind_append (s := []) List.not_mem_nil
    rw [hdigits, parsePort_toDigits (hport _ rfl)]

end Port

/-- A host as `hostname` returns it, and the port beside it. -/
structure IsRead (host : List Char) (port : Option Nat) : Prop where
  nonempty : host ≠ []
  lower : lowerHost host = host
  safe : ∀ c ∈ host, IsKept c
  no_user : '@' ∉ host
  one_bracket : '[' ∈ host → ']' ∉ host
  normal : ':' ∉ host → ∀ c ∈ host, HidesNoDelimiter c
  port_le : ∀ n ∈ port, n ≤ 65535

section Rebuilt
variable {host : List Char} {port : Option Nat} {netloc : List Char}

/-- Lower case makes no character that the parser removes or stops at. -/
theorem isKept_lowerHost (h : ∀ c ∈ host, IsKept c) : ∀ c ∈ lowerHost host, IsKept c := by
  have hplain : (['\t', '\r', '\n', '/', '?', '#'].all
      fun c => decide (c.toNat < 128) && !c.isAlpha) = true := by decide
  simp only [List.all_eq_true, Bool.and_eq_true, decide_eq_true_eq, Bool.not_eq_true'] at hplain
  intro c hc
  refine isKept_iff.mpr fun hmem => ?_
  obtain ⟨hsmall, halpha⟩ := hplain c hmem
  exact isKept_iff.mp (h c ((mem_lowerHost hsmall halpha).mp hc)) hmem

theorem isRead_of_netloc (hsafe : ∀ c ∈ netloc, IsKept c)
    (hnormal : ∀ c ∈ netloc, HidesNoDelimiter c) (hne : (hostInfo netloc).1 ≠ [])
    (hport : parsePort (hostInfo netloc).2 = .ok port) :
    IsRead (lowerHost (hostInfo netloc).1) port := by
  have hraw : ∀ c ∈ (hostInfo netloc).1, c ∈ netloc :=
    fun c hc => mem_of_mem_behindLast (mem_of_mem_hostInfo hc)
  have huser : '@' ∉ (hostInfo netloc).1 := fun h => not_mem_behindLast (mem_of_mem_hostInfo h)
  refine {
    nonempty := lowerHost_ne_nil hne
    lower := lowerHost_lowerHost
    safe := isKept_lowerHost fun c hc => hsafe c (hraw c hc)
    no_user := mt (mem_lowerHost (by decide) rfl).mp huser
    one_bracket := fun hopen hclose => hostInfo_brackets
      ((mem_lowerHost (by decide) rfl).mp hopen) ((mem_lowerHost (by decide) rfl).mp hclose)
    normal := fun hcolon => lowerHost_normal (fun c hc => hnormal c (hraw c hc)) fun d hd hmem => ?_
    port_le := fun n hn => parsePort_le (hn ▸ hport) }
  simp only [netlocDelimiters, List.mem_cons, List.not_mem_nil, or_false] at hd
  rcases hd with rfl | rfl | rfl | rfl | rfl
  · exact absurd (hsafe _ (hraw _ hmem)).2 (by decide)
  · exact absurd (hsafe _ (hraw _ hmem)).2 (by decide)
  · exact absurd (hsafe _ (hraw _ hmem)).2 (by decide)
  · exact huser hmem
  · exact hcolon ((mem_lowerHost (by decide) rfl).mpr hmem)

/-- What is written for a host and a port is read as them. -/
structure ReadsBack (host : List Char) (port : Option Nat) (netloc : List Char) : Prop where
  isNetloc : IsNetloc netloc
  nonempty : (hostInfo netloc).1 ≠ []
  host_eq : lowerHost (hostInfo netloc).1 = host
  port_eq : parsePort (hostInfo netloc).2 = .ok port

omit [UnicodeData] in
theorem mem_rebuilt (port : Option Nat) {c : Char} (h : c ∈ ['@', '[', ']']) :
    c ∈ host ++ portText port ↔ c ∈ host := by
  rw [List.mem_append, or_iff_left (not_mem_port (fun _ hc => isPortChar_of_mem_portText hc) h)]

theorem clear_of_readsBack (h : IsRead host port)
    (hback : ReadsBack host port (host ++ portText port)) :
    port ≠ some 0 ∧ ∀ c ∈ [':', '[', ']'], c ∉ host := by
  have hbalanced : '[' ∈ host ↔ ']' ∈ host := by
    rw [← mem_rebuilt port (by simp), hback.isNetloc.balanced, mem_rebuilt port (by simp)]
  have hopen : '[' ∉ host := fun hmem => h.one_bracket hmem (hbalanced.mp hmem)
  have hclose : ']' ∉ host := mt hbalanced.mpr hopen
  have hinfo := hostInfo_of_not_mem (mt (mem_rebuilt port (by simp)).mp h.no_user)
    (mt (mem_rebuilt port (by simp)).mp hopen)
  have hcolon : ':' ∉ host := by
    intro hmem
    rw [← hback.host_eq, hinfo] at hmem
    exact not_mem_before ((mem_lowerHost (by decide) rfl).mp hmem)
  refine ⟨?_, by simp [hopen, hclose, hcolon]⟩
  rintro rfl
  have hport := hback.port_eq
  rw [hinfo, portText, List.append_nil, behind_of_not_mem hcolon] at hport
  cases hport

theorem readsBack_of_clear (h : IsRead host port) (hzero : port ≠ some 0)
    (hclear : ∀ c ∈ [':', '[', ']'], c ∉ host) :
    ReadsBack host port (host ++ portText port) := by
  have hcolon : ':' ∉ host := hclear ':' (by simp)
  have hplain : ∀ c ∈ ['@', '[', ']'], c ∉ host ++ portText port := by
    intro c hc
    rw [mem_rebuilt port hc]
    simp only [List.mem_cons, List.not_mem_nil, or_false] at hc
    rcases hc with rfl | rfl | rfl
    · exact h.no_user
    · exact hclear '[' (by simp)
    · exact hclear ']' (by simp)
  have hhost : (hostInfo (host ++ portText port)).1 = host :=
    hostInfo_plain hplain hcolon fun c hc => head_portText hc
  have hport : (hostInfo (host ++ portText port)).2 = behind ':' (portText port) := by
    rw [hostInfo_of_not_mem (hplain '@' (by simp)) (hplain '[' (by simp)),
      behind_append_of_not_mem hcolon]
  refine {
    isNetloc := isNetloc_plain hplain fun c hc => ?_
    nonempty := by rw [hhost]; exact h.nonempty
    host_eq := by rw [hhost]; exact h.lower
    port_eq := by rw [hport]; exact parsePort_portText h.port_le hzero }
  rcases List.mem_append.mp hc with hc | hc
  · exact h.normal hcolon c hc
  · have := (isPortChar_of_mem_portText hc).toNat
    exact hidesNoDelimiter_of_lt (by omega)

end Rebuilt

/-! ## The candidates -/

/-- A URL with the given scheme that addresses what another URL does. -/
def AddressesSame (p : ParseResult) (scheme : List Char) (url : List Char) : Prop :=
  ∃ q, urlparse url = .ok q ∧ q.scheme = scheme ∧ q.hostname = p.hostname ∧ q.port = p.port ∧
    q.path = p.path ∧ q.params = p.params ∧ q.query = p.query

section Candidates
variable {p : ParseResult} {scheme host : List Char} {port : Option Nat}

omit [UnicodeData] in
theorem otherScheme_mem (scheme : List Char) : otherScheme scheme ∈ webSchemes := by
  rw [otherScheme]
  split
  · exact List.mem_cons_self
  · exact List.mem_cons_of_mem _ List.mem_cons_self

omit [UnicodeData] in
/-- The two schemes have different lengths, so the two candidates are different. -/
theorem candidate_ne {port path : List Char} (h : scheme ∈ webSchemes) :
    candidate scheme host port path ≠ candidate (otherScheme scheme) host port path := by
  have hlength : ∀ scheme ∈ webSchemes, scheme.length ≠ (otherScheme scheme).length := by decide
  intro heq
  have hsame := congrArg List.length heq
  simp only [candidate, List.length_append] at hsame
  exact hlength scheme h (by omega)

omit [UnicodeData] in
theorem candidates_eq (h : p.scheme ∈ webSchemes) : candidates p host port =
    [candidate p.scheme host (portText port) (candidatePath p),
      candidate (otherScheme p.scheme) host (portText port) (candidatePath p)] := by
  have hne : p.scheme ≠ [] := by
    intro hnil
    rw [hnil] at h
    exact absurd h (by decide)
  have hnew : candidate (otherScheme p.scheme) host (portText port) (candidatePath p) ∉
      [candidate p.scheme host (portText port) (candidatePath p)] :=
    fun hmem => candidate_ne h (List.mem_singleton.mp hmem).symm
  simp only [candidates, hne, if_false, List.foldl_cons, List.foldl_nil, List.not_mem_nil,
    List.nil_append, hnew, List.singleton_append]

theorem addressesSame_iff (hscheme : scheme ∈ webSchemes) (hresource : IsResource p.path p.query)
    (hread : IsRead host port) (hhost : p.hostname = some host) (hport : p.port = .ok port) :
    AddressesSame p scheme (candidate scheme host (portText port) (candidatePath p)) ↔
      p.params = [] ∧ port ≠ some 0 ∧ ∀ c ∈ [':', '[', ']'], c ∉ host := by
  have hshape : candidate scheme host (portText port) (candidatePath p) =
      scheme ++ ':' :: '/' :: '/' :: (host ++ portText port ++ candidatePath p) := by
    simp [candidate, List.append_assoc]
  have hsafe : ∀ c ∈ host ++ portText port, IsKept c :=
    fun c hc => (List.mem_append.mp hc).elim (hread.safe c)
      fun hc => (isPortChar_of_mem_portText hc).isKept
  rw [AddressesSame, hshape]
  simp only [candidatePath, urlparse_rebuilt hscheme hsafe hresource, hhost, hport]
  constructor
  · rintro ⟨q, ⟨hnetloc, rfl⟩, _, hqhost, hqport, _, hqparams, _⟩
    obtain ⟨hne, heq⟩ := hostname_eq_some.mp hqhost
    exact ⟨hqparams.symm, clear_of_readsBack hread ⟨hnetloc, hne, heq, hqport⟩⟩
  · rintro ⟨hparams, hzero, hclear⟩
    have hback := readsBack_of_clear hread hzero hclear
    refine ⟨_, ⟨hback.isNetloc, rfl⟩, rfl, ?_, hback.port_eq, rfl, hparams.symm, rfl⟩
    exact hostname_eq_some.mpr ⟨hback.nonempty, hback.host_eq⟩

omit [UnicodeData] in
theorem safe_authority {target : String} :
    ∀ c ∈ authority target, IsKept c :=
  fun _ hc => ⟨isUnsafe_of_mem ((List.takeWhile_sublist _).subset hc), not_isDelimiter_of_mem hc⟩

/-- A target with a host is read as a web URL. -/
theorem targetResult_of_host {target : String}
    (hhost : (targetResult target).hostname = some host) :
    (targetResult target).scheme ∈ webSchemes ∧
      IsResource (targetResult target).path (targetResult target).query := by
  by_cases h : strip target.toList = []
  · have hresult : targetResult target = ⟨[], [], [], [], [], []⟩ := if_pos h
    rw [hresult] at hhost
    exact absurd rfl (hostname_eq_some.mp hhost).1
  · rw [targetResult, if_neg h]
    exact ⟨ownScheme_mem _, isResource_webResult (ownScheme_mem _)⟩

end Candidates

/-- The candidates address the target unless its URL has a part that they leave out. -/
theorem candidates_address_target_iff (target : String) (p : ParseResult) (host : List Char)
    (port : Option Nat) (hparse : urlparse (normalizeTarget target).toList = .ok p)
    (hhost : p.hostname = some host) (hport : p.port = .ok port) :
    (∃ u₁ u₂ : String, getHttpCandidates target = .ok [u₁, u₂] ∧ u₁ ≠ u₂ ∧
      AddressesSame p p.scheme u₁.toList ∧ AddressesSame p (otherScheme p.scheme) u₂.toList) ↔
    p.params = [] ∧ port ≠ some 0 ∧ ∀ c ∈ [':', '[', ']'], c ∉ host := by
  obtain ⟨hnetloc, rfl⟩ := urlparse_target.mp hparse
  obtain ⟨hscheme, hresource⟩ := targetResult_of_host hhost
  have hread : IsRead host port := by
    obtain ⟨hne, rfl⟩ := hostname_eq_some.mp hhost
    rw [ParseResult.port, netloc_targetResult] at hport
    rw [netloc_targetResult] at hne ⊢
    exact isRead_of_netloc safe_authority hnetloc.normal hne hport
  have hurls : getHttpCandidates target = .ok
      [String.ofList (candidate (targetResult target).scheme host (portText port)
          (candidatePath (targetResult target))),
        String.ofList (candidate (otherScheme (targetResult target).scheme) host (portText port)
          (candidatePath (targetResult target)))] := by
    rw [getHttpCandidates_of_host hparse hhost, hport, Except.map, candidates_eq hscheme]
    rfl
  have hown := addressesSame_iff hscheme hresource hread hhost hport
  have hother := addressesSame_iff (otherScheme_mem (targetResult target).scheme) hresource hread
    hhost hport
  constructor
  · rintro ⟨u₁, u₂, hpair, _, hfirst, _⟩
    rw [hurls, Except.ok.injEq, List.cons.injEq] at hpair
    rw [← hpair.1, String.toList_ofList] at hfirst
    exact hown.mp hfirst
  · intro h
    refine ⟨_, _, hurls, fun heq => candidate_ne hscheme (String.ofList_inj.mp heq), ?_, ?_⟩
    · rw [String.toList_ofList]
      exact hown.mpr h
    · rw [String.toList_ofList]
      exact hother.mpr h

omit [UnicodeData] in
theorem port_and_query_addressed : letI := asciiData
    ∃ u₁ u₂ : String, getHttpCandidates "a.example:8080/b?c" = .ok [u₁, u₂] ∧ u₁ ≠ u₂ ∧
      AddressesSame ⟨"https".toList, "a.example:8080".toList, "/b".toList, [], "c".toList, []⟩
        "https".toList u₁.toList ∧
      AddressesSame ⟨"https".toList, "a.example:8080".toList, "/b".toList, [], "c".toList, []⟩
        (otherScheme "https".toList) u₂.toList := by
  let p : ParseResult :=
    ⟨"https".toList, "a.example:8080".toList, "/b".toList, [], "c".toList, []⟩
  have hparse : @urlparse asciiData (normalizeTarget "a.example:8080/b?c").toList = .ok p := by rfl
  have hhost : @ParseResult.hostname asciiData p = some "a.example".toList := by decide
  have hport : @ParseResult.port asciiData p = .ok (some 8080) := by rfl
  exact (@candidates_address_target_iff asciiData _ p _ _ hparse hhost hport).mpr
    ⟨rfl, by decide, by simp⟩

omit [UnicodeData] in
/-- The parameters of a path are in no candidate. -/
theorem parameters_not_addressed : ¬ ∀ (_ : UnicodeData) (target : String) (p : ParseResult)
    (host : List Char) (port : Option Nat), urlparse (normalizeTarget target).toList = .ok p →
    p.hostname = some host → p.port = .ok port →
    ∃ u₁ u₂ : String, getHttpCandidates target = .ok [u₁, u₂] ∧ u₁ ≠ u₂ ∧
      AddressesSame p p.scheme u₁.toList ∧ AddressesSame p (otherScheme p.scheme) u₂.toList := by
  intro h
  let p : ParseResult :=
    ⟨"http".toList, "a.example".toList, "/b".toList, "v=1".toList, [], []⟩
  have htarget : @urlparse asciiData (normalizeTarget "http://a.example/b;v=1").toList = .ok p := by
    rfl
  have hhost : @ParseResult.hostname asciiData p = some "a.example".toList := by decide
  have hport : @ParseResult.port asciiData p = .ok none := by rfl
  have hurls : @getHttpCandidates asciiData "http://a.example/b;v=1" =
      .ok ["http://a.example/b", "https://a.example/b"] := by rfl
  have hparse : @urlparse asciiData "http://a.example/b".toList =
      .ok ⟨"http".toList, "a.example".toList, "/b".toList, [], [], []⟩ := by rfl
  obtain ⟨u₁, u₂, hpair, _, ⟨q, hq, _, _, _, _, hparams, _⟩, _⟩ :=
    h asciiData _ p _ _ htarget hhost hport
  have hfirst := hurls.symm.trans hpair
  rw [Except.ok.injEq, List.cons.injEq] at hfirst
  rw [← hfirst.1, hparse, Except.ok.injEq] at hq
  rw [← hq] at hparams
  exact absurd hparams (by decide)

end ThreatScanner.Analyzer
