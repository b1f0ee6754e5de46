import ThreatScanner.Analyzer.Targets

/-!
# The scheme of a target

`normalize_target` looks for a scheme in lower case. In front of any other spelling it puts a scheme
of its own, and the one that the user typed becomes the host of the URL.
-/

namespace ThreatScanner.Analyzer

/-- A host name as it stands in a URL. -/
structure IsHostName (host : List Char) : Prop where
  nonempty : host ≠ []
  no_space : ∀ c ∈ host, isSpace c = false
  no_delimiter : ∀ c ∈ ['/', '?', '#', '@', ':', '[', ']', '%'], c ∉ host

/-- A target with a scheme, as a user may type it. -/
structure WebTarget where
  lead : List Char
  scheme : List Char
  host : List Char
  port : List Char
  resource : List Char
  trail : List Char
  lead_space : ∀ c ∈ lead, isSpace c = true
  scheme_web : scheme.map Char.toLower ∈ webSchemes
  host_name : IsHostName host
  port_digits : port = [] ∨ ∃ digits, port = ':' :: digits ∧ ∀ c ∈ digits, c.isDigit = true
  resource_head : ∀ c ∈ resource.head?, isDelimiter c = true
  trail_space : ∀ c ∈ trail, isSpace c = true

section Scheme
variable {scheme rest s : List Char} {c : Char}

/-- The letters of a scheme, in any spelling. -/
theorem isAlpha_of_mem_scheme (h : scheme.map Char.toLower ∈ webSchemes) (hc : c ∈ scheme) :
    c.isAlpha = true := by
  have hletters : (webSchemes.all fun scheme => scheme.all Char.isAlpha) = true := by decide
  have hlower := List.all_eq_true.mp (List.all_eq_true.mp hletters _ h) _
    (List.mem_map_of_mem (f := Char.toLower) hc)
  cases hupper : c.isUpper with
  | true => exact isAlpha_iff.mpr (.inl hupper)
  | false => rwa [toLower_eq_self hupper] at hlower

/-- The scheme of a text with one is what comes before its colon. -/
theorem scheme_of_start (hs : ':' ∉ s) (hscheme : ':' ∉ scheme)
    (h : s ++ "://".toList <+: scheme ++ ':' :: rest) : s = scheme := by
  obtain ⟨tail, heq⟩ := h
  have hbefore := congrArg (before ':') heq
  rw [List.append_assoc] at hbefore
  change before ':' (s ++ ':' :: ('/' :: '/' :: tail)) = _ at hbefore
  rwa [before_append hs, before_append hscheme] at hbefore

theorem ownScheme_web (h : scheme ∈ webSchemes) :
    ownScheme (scheme ++ ':' :: '/' :: '/' :: rest) = scheme ∧
      behindScheme (scheme ++ ':' :: '/' :: '/' :: rest) = rest := by
  simp only [webSchemes, List.mem_cons, List.not_mem_nil, or_false] at h
  rcases h with rfl | rfl
  · have hprefix : "http://".toList <+: "http".toList ++ ':' :: '/' :: '/' :: rest := ⟨rest, rfl⟩
    rw [ownScheme, behindScheme, if_pos hprefix, if_pos hprefix]
    exact ⟨rfl, rfl⟩
  · have hprefix : "https://".toList <+: "https".toList ++ ':' :: '/' :: '/' :: rest := ⟨rest, rfl⟩
    have hhttp : ¬ "http://".toList <+: "https".toList ++ ':' :: '/' :: '/' :: rest := fun h =>
      absurd (scheme_of_start (s := "http".toList) (by decide) (by decide) h) (by decide)
    rw [ownScheme, behindScheme, if_neg hhttp, if_neg hhttp, if_pos hprefix]
    exact ⟨rfl, rfl⟩

/-- Another spelling of the scheme is not seen. -/
theorem ownScheme_other (hcolon : ':' ∉ scheme) (h : scheme ∉ webSchemes) :
    ownScheme (scheme ++ ':' :: rest) = "https".toList ∧
      behindScheme (scheme ++ ':' :: rest) = scheme ++ ':' :: rest := by
  have hhttp : ¬ "http://".toList <+: scheme ++ ':' :: rest := fun hprefix =>
    h (scheme_of_start (s := "http".toList) (by decide) hcolon hprefix ▸ List.mem_cons_self)
  have hhttps : ¬ "https://".toList <+: scheme ++ ':' :: rest := fun hprefix =>
    h (scheme_of_start (s := "https".toList) (by decide) hcolon hprefix ▸
      List.mem_cons_of_mem _ List.mem_cons_self)
  rw [ownScheme, behindScheme, if_neg hhttp, if_neg hhttp, if_neg hhttps]
  exact ⟨rfl, rfl⟩

end Scheme

theorem IsHostName.isKept {host : List Char} {c : Char} (h : IsHostName host)
    (hc : c ∈ host) : IsKept c := by
  refine isKept_iff.mpr fun hmem => ?_
  simp only [List.mem_cons, List.not_mem_nil, or_false] at hmem
  rcases hmem with rfl | rfl | rfl | rfl | rfl | rfl
  · exact absurd (h.no_space _ hc) (by decide)
  · exact absurd (h.no_space _ hc) (by decide)
  · exact absurd (h.no_space _ hc) (by decide)
  · exact h.no_delimiter '/' (by simp) hc
  · exact h.no_delimiter '?' (by simp) hc
  · exact h.no_delimiter '#' (by simp) hc

namespace WebTarget
variable (t : WebTarget)

/-- The text of the target. -/
def text : String :=
  String.ofList (t.lead ++ (t.scheme ++ "://".toList ++ t.host ++ t.port) ++ t.resource ++ t.trail)

theorem isPortChar_of_mem {c : Char} (h : c ∈ t.port) : IsPortChar c := by
  rcases t.port_digits with hport | ⟨digits, hport, hdigits⟩
  · rw [hport] at h
    cases h
  · rw [hport] at h
    exact (List.mem_cons.mp h).imp_right (hdigits c)

/-- What is left of the text behind the authority. -/
def kept : List Char := (t.resource ++ t.trail).rdropWhile isSpace

theorem isDelimiter_of_head_kept {c : Char} (h : c ∈ t.kept.head?) : isDelimiter c = true := by
  rw [kept] at h
  cases hresource : t.resource with
  | nil =>
    rw [hresource, List.nil_append, List.rdropWhile_eq_nil_iff.mpr t.trail_space] at h
    cases h
  | cons d resource =>
    have hd : isDelimiter d = true := t.resource_head d (by rw [hresource]; rfl)
    have hspace : ∀ c ∈ [d], isSpace c = false := by
      intro c hc
      rw [List.mem_singleton.mp hc]
      rcases mem_delimiters hd with rfl | rfl | rfl <;> rfl
    have hkept : (d :: resource ++ t.trail).rdropWhile isSpace =
        d :: (resource ++ t.trail).rdropWhile isSpace := rdropWhile_append _ hspace
    rw [hresource, hkept] at h
    cases h
    exact hd

theorem strip_text : strip t.text.toList =
    t.scheme ++ ':' :: '/' :: '/' :: (t.host ++ t.port ++ t.kept) := by
  have hfront : ∀ c ∈ t.scheme ++ "://".toList ++ t.host ++ t.port, isSpace c = false := by
    intro c hc
    simp only [List.mem_append] at hc
    rcases hc with ((hc | hc) | hc) | hc
    · obtain ⟨hlow, hhigh⟩ := toNat_of_isAlpha (isAlpha_of_mem_scheme t.scheme_web hc)
      exact isSpace_of_toNat (by omega) hhigh
    · have hslashes : ("://".toList.all fun c => !isSpace c) = true := by decide
      simpa using List.all_eq_true.mp hslashes c hc
    · exact t.host_name.no_space c hc
    · obtain ⟨hlow, hhigh⟩ := (t.isPortChar_of_mem hc).toNat
      exact isSpace_of_toNat hlow hhigh
  have hne : t.scheme ++ "://".toList ++ t.host ++ t.port ≠ [] := by simp
  rw [text, String.toList_ofList, List.append_assoc, List.append_assoc,
    strip_append _ t.lead_space hfront hne, ← kept]
  simp

theorem authority_own (h : t.scheme ∈ webSchemes) : authority t.text = t.host ++ t.port := by
  rw [authority, t.strip_text, (ownScheme_web h).2]
  refine netloc_of_append (fun c hc => ?_) fun c hc => t.isDelimiter_of_head_kept hc
  exact (List.mem_append.mp hc).elim t.host_name.isKept fun hc => (t.isPortChar_of_mem hc).isKept

theorem colon_not_mem_scheme : ':' ∉ t.scheme :=
  fun h => absurd (isAlpha_of_mem_scheme t.scheme_web h) (by decide)

theorem authority_other (h : t.scheme ∉ webSchemes) : authority t.text = t.scheme ++ [':'] := by
  have hsplit : t.scheme ++ ':' :: '/' :: '/' :: (t.host ++ t.port ++ t.kept) =
      t.scheme ++ [':'] ++ '/' :: '/' :: (t.host ++ t.port ++ t.kept) := by simp
  rw [authority, t.strip_text, (ownScheme_other t.colon_not_mem_scheme h).2, hsplit]
  refine netloc_of_append (fun c hc => ?_) fun c hc => by cases hc; rfl
  rcases List.mem_append.mp hc with hc | hc
  · exact isKept_of_isAlphanum
      (Bool.or_eq_true_iff.mpr (.inl (isAlpha_of_mem_scheme t.scheme_web hc)))
  · rw [List.mem_singleton.mp hc]
    exact ⟨rfl, rfl⟩

end WebTarget

namespace WebTarget
variable [UnicodeData] (t : WebTarget) {gethostbyname : String → Option String}

theorem getHostname_own (h : t.scheme ∈ webSchemes)
    (hnormal : ∀ c ∈ t.host, HidesNoDelimiter c) :
    getHostname (urlNetwork gethostbyname) t.text = .ok (some (lower (String.ofList t.host))) := by
  refine getHostname_plain (t.authority_own h) (fun c hc hmem => ?_)
    ⟨t.host_name.no_delimiter ':' (by decide), t.host_name.no_delimiter '%' (by decide)⟩
    (fun c hc => ?_) t.host_name.nonempty fun c hc => ?_
  · rcases List.mem_append.mp hmem with hmem | hmem
    · refine t.host_name.no_delimiter c ?_ hmem
      simp only [List.mem_cons, List.not_mem_nil, or_false] at hc
      rcases hc with rfl | rfl | rfl <;> simp
    · exact not_mem_port (fun c hc => t.isPortChar_of_mem hc) hc hmem
  · rcases t.port_digits with hport | ⟨digits, hport, _⟩
    · rw [hport] at hc
      cases hc
    · rw [hport] at hc
      cases hc
      rfl
  · rcases List.mem_append.mp hc with hc | hc
    · exact hnormal c hc
    · have := (t.isPortChar_of_mem hc).toNat
      exact hidesNoDelimiter_of_lt (by omega)

theorem getHostname_other (h : t.scheme ∉ webSchemes) :
    getHostname (urlNetwork gethostbyname) t.text =
      .ok (some (lower (String.ofList t.scheme))) := by
  have halpha : ∀ c ∈ t.scheme, c.isAlpha = true :=
    fun c hc => isAlpha_of_mem_scheme t.scheme_web hc
  have hne : t.scheme ≠ [] := by
    intro hnil
    have hweb := t.scheme_web
    rw [hnil] at hweb
    exact absurd hweb (by decide)
  refine getHostname_plain (t.authority_other h) (fun c hc hmem => ?_)
    ⟨t.colon_not_mem_scheme, fun h => absurd (halpha _ h) (by decide)⟩
    (fun c hc => by cases hc; rfl) hne fun c hc => hidesNoDelimiter_of_lt ?_
  · simp only [List.mem_cons, List.not_mem_nil, or_false] at hc
    rcases List.mem_append.mp hmem with hmem | hmem
    · rcases hc with rfl | rfl | rfl <;> exact absurd (halpha _ hmem) (by decide)
    · rcases hc with rfl | rfl | rfl <;> exact absurd hmem (by decide)
  · rcases List.mem_append.mp hc with hc | hc
    · exact Nat.lt_of_le_of_lt (toNat_of_isAlpha (halpha c hc)).2 (by decide)
    · rw [List.mem_singleton.mp hc]
      decide

end WebTarget

section Normalize
variable {text : List Char}

/-- A stripped text with a scheme is normalised. -/
theorem normalizeTarget_eq_self (hstrip : strip text = text)
    (hscheme : "http://".toList <+: text ∨ "https://".toList <+: text) :
    normalizeTarget (String.ofList text) = String.ofList text := by
  simp only [normalizeTarget, String.toList_ofList, hstrip, Bool.or_eq_true, startsWith_ofList,
    hscheme, if_true, ite_self]

/-- `normalize_target` leaves a normalised target alone. -/
theorem normalizeTarget_normalizeTarget (target : String) :
    normalizeTarget (normalizeTarget target) = normalizeTarget target := by
  have hstrip := strip_strip target.toList
  have hslashes : ∀ c ∈ "https://".toList, isSpace c = false := by
    have hall : ("https://".toList.all fun c => !isSpace c) = true := by decide
    simpa using List.all_eq_true.mp hall
  have hprefixed : strip ("https://".toList ++ strip target.toList) =
      "https://".toList ++ strip target.toList := by
    have happend : strip ([] ++ ("https://".toList ++ strip target.toList)) =
        "https://".toList ++ (strip target.toList).rdropWhile isSpace :=
      strip_append _ nofun hslashes (by decide)
    rwa [List.nil_append, rdropWhile_strip] at happend
  by_cases h : strip target.toList = []
  · rw [normalizeTarget_of_strip_nil h]
    rfl
  rw [normalizeTarget_of_strip h]
  split
  · next hscheme => exact normalizeTarget_eq_self hstrip hscheme
  · exact normalizeTarget_eq_self hprefixed (.inr (List.prefix_append _ _))

end Normalize

/-- The host of a target is read exactly when its scheme is in lower case and the parser does not
reject it, or else when it is the name of the scheme. -/
theorem scheme_read_iff [UnicodeData] (gethostbyname : String → Option String) :
    (∀ target, normalizeTarget (normalizeTarget target) = normalizeTarget target) ∧
    ∀ t : WebTarget, getHostname (urlNetwork gethostbyname) t.text =
        .ok (some (lower (String.ofList t.host))) ↔
      t.scheme ∈ webSchemes ∧ (∀ c ∈ t.host, HidesNoDelimiter c) ∨
        t.scheme ∉ webSchemes ∧
          lower (String.ofList t.host) = lower (String.ofList t.scheme) := by
  refine ⟨normalizeTarget_normalizeTarget, fun t => ?_⟩
  by_cases h : t.scheme ∈ webSchemes
  · rw [and_iff_right h, or_iff_left fun hother => hother.1 h]
    refine ⟨fun hread c hc => ?_, fun hnormal => t.getHostname_own h hnormal⟩
    have hnetloc := (getHostname_eq_ok.mp hread).1
    rw [t.authority_own h] at hnetloc
    exact hnetloc.normal c (List.mem_append_left _ hc)
  · rw [t.getHostname_other h, or_iff_right fun hown => h hown.1, and_iff_right h,
      Except.ok.injEq, Option.some_inj, eq_comm]

/-- With the scheme in capitals the scheme itself is taken for the host. -/
theorem capital_scheme_is_host : ¬ ∀ (_ : UnicodeData) (gethostbyname : String → Option String),
    (∀ target, normalizeTarget (normalizeTarget target) = normalizeTarget target) ∧
    ∀ t : WebTarget, getHostname (urlNetwork gethostbyname) t.text =
      .ok (some (lower (String.ofList t.host))) := by
  let _ := asciiData
  intro h
  have hchars : ("example.com".toList.all fun c => !isSpace c) = true := by decide
  have hname : IsHostName "example.com".toList := {
    nonempty := by decide
    no_space := by simpa using List.all_eq_true.mp hchars
    no_delimiter := by simp }
  let t : WebTarget := {
    lead := [], scheme := "HTTP".toList, host := "example.com".toList, port := [], resource := []
    trail := [], lead_space := nofun, scheme_web := by decide, host_name := hname
    port_digits := .inl rfl, resource_head := nofun, trail_space := nofun }
  have hscheme : "HTTP".toList ∉ webSchemes := by decide
  have hread : getHostname (urlNetwork fun _ => none) t.text =
      .ok (some (lower (String.ofList "HTTP".toList))) := t.getHostname_other hscheme
  have hwrong := hread.symm.trans ((h asciiData fun _ => none).2 t)
  rw [Except.ok.injEq, Option.some_inj] at hwrong
  have hdiffer : lower (String.ofList "HTTP".toList) ≠
      lower (String.ofList "example.com".toList) := by decide
  exact hdiffer hwrong

end ThreatScanner.Analyzer
