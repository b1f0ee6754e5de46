import ThreatScanner.Analyzer.Targets

/-!
# Raw addresses as targets

An address typed as a target passes through the URL parser before it is classified. An IPv4 address
comes out as it went in. In an IPv6 address the parser takes the first colon for the start of the
port, so the host is at most its first group, or with a scope whatever the parser makes of that.
-/

namespace ThreatScanner.Analyzer

section Literal
variable {addr scope text : List Char} {c : Char}

/-- The characters that mean something to the URL parser, the colon apart, are in no literal. -/
theorem not_literalChar
    (h : c ∈ ['\t', '\r', '\n', '/', '?', '#'] ++ ['@', '[', ']', '%']) : ¬ LiteralChar c := by
  have hall : ((['\t', '\r', '\n', '/', '?', '#'] ++ ['@', '[', ']', '%']).all
      fun c => !decide (LiteralChar c)) = true := by decide
  simpa using List.all_eq_true.mp hall c h

theorem isKept_of_literalChar (h : LiteralChar c) : IsKept c :=
  isKept_iff.mpr fun hc => not_literalChar (List.mem_append_left _ hc) h

/-- The host that the parser finds in a scoped address is behind the scope or before the colon. -/
theorem hostInfo_scoped (hcolon : ':' ∈ addr) (haddr : ∀ c ∈ addr, LiteralChar c)
    (hscope : '%' ∉ scope) : '%' ∉ (hostInfo (addr ++ '%' :: scope)).1 := by
  have hsplit : addr ++ '%' :: scope = addr ++ ['%'] ++ scope := by simp
  have hopen : '[' ∉ addr := fun h => not_literalChar (by simp) (haddr _ h)
  have hpercent : '%' ∉ addr := fun h => not_literalChar (by simp) (haddr _ h)
  intro hmem
  by_cases hat : '@' ∈ scope
  · have hlast := mem_of_mem_hostInfo hmem
    rw [hsplit] at hlast
    exact hscope (mem_of_mem_behindLast_append hat hlast)
  have hnone : '@' ∉ addr ++ '%' :: scope := by
    have hat' : '@' ∉ addr := fun h => not_literalChar (by simp) (haddr _ h)
    simp [hat, hat']
  rw [hostInfo, behindLast_of_not_mem hnone] at hmem
  split at hmem
  · have hfront : '[' ∉ addr ++ ['%'] := by simp [hopen]
    rw [hsplit, behind_append_of_not_mem hfront] at hmem
    exact hscope (mem_of_mem_behind (mem_of_mem_before hmem))
  · rw [before_append_of_mem hcolon] at hmem
    exact hpercent (mem_of_mem_before hmem)

/-- Without a scope it is the first group. -/
theorem hostInfo_unscoped (haddr : ∀ c ∈ addr, LiteralChar c) :
    (hostInfo addr).1 = before ':' addr := by
  rw [hostInfo_of_not_mem (fun h => not_literalChar (by simp) (haddr _ h))
    (fun h => not_literalChar (by simp) (haddr _ h))]

theorem behindScheme_of_no_slash (h : '/' ∉ text) : behindScheme text = text := by
  have hslash : ∀ start : List Char, '/' ∈ start → ¬ start <+: text :=
    fun start hstart htext => h (htext.subset hstart)
  rw [behindScheme, if_neg (hslash _ (by decide)), if_neg (hslash _ (by decide))]

theorem authority_of_no_slash {s : String} (h : '/' ∉ strip s.toList) :
    authority s = (splitNetloc (removeUnsafe (strip s.toList))).1 := by
  rw [authority, behindScheme_of_no_slash h]

theorem netloc_literal (h : ∀ c ∈ addr, LiteralChar c) :
    (splitNetloc (removeUnsafe addr)).1 = addr := by
  have hnetloc : (splitNetloc (removeUnsafe (addr ++ []))).1 = addr :=
    netloc_of_append (fun c hc => isKept_of_literalChar (h c hc)) nofun
  rwa [List.append_nil] at hnetloc

/-- The characters of an IPv4 address. -/
theorem toNat_of_digit_or_dot (h : c.isDigit = true ∨ c = '.') :
    c.toNat < 128 ∧ c.toLower = c ∧ LiteralChar c := by
  rcases h with h | rfl
  · obtain ⟨hlow, hhigh⟩ := toNat_of_isDigit h
    have hupper : c.isUpper = false := by
      cases hupper : c.isUpper with
      | false => rfl
      | true =>
        have := (toNat_of_isAlpha (isAlpha_iff.mpr (.inl hupper))).1
        omega
    exact ⟨by omega, toLower_eq_self hupper, .inr (.inl h)⟩
  · exact ⟨by decide, rfl, .inr (.inr (.inl rfl))⟩

end Literal

section Recognised
variable [UnicodeData] {gethostbyname : String → Option String} {s : String} {ip : Nat}

theorem isIpAddress_urlNetwork {value : String} :
    isIpAddress (urlNetwork gethostbyname) value = (ipAddress (strip value.toList)).isSome := by
  simp only [isIpAddress, urlNetwork, String.toList_ofList]

theorem getHostname_ipv4 (h : ipv4Address (strip s.toList) = some ip) :
    getHostname (urlNetwork gethostbyname) s = .ok (some (String.ofList (strip s.toList))) := by
  obtain ⟨hne, hchars⟩ := ipv4Address_chars h
  have hliteral : ∀ c ∈ strip s.toList, LiteralChar c :=
    fun c hc => (toNat_of_digit_or_dot (hchars c hc)).2.2
  have hauthority : authority s = strip s.toList ++ [] := by
    rw [authority_of_no_slash fun h => not_literalChar (by simp) (hliteral _ h),
      netloc_literal hliteral, List.append_nil]
  have hcolon : ':' ∉ strip s.toList := fun hmem => by
    rcases hchars _ hmem with h | h <;> exact absurd h (by decide)
  have hlower : lower (String.ofList (strip s.toList)) = String.ofList (strip s.toList) := by
    refine lower_eq_self (List.all_eq_true.mpr fun c hc => ?_)
    rw [String.toList_ofList] at hc
    obtain ⟨hsmall, hsame, _⟩ := toNat_of_digit_or_dot (hchars c hc)
    simp [hsmall, hsame]
  rw [getHostname_plain hauthority (fun c hc hmem => ?_)
    ⟨hcolon, fun h => not_literalChar (by simp) (hliteral _ h)⟩ nofun hne fun c hc => ?_, hlower]
  · rw [List.append_nil] at hmem
    simp only [List.mem_cons, List.not_mem_nil, or_false] at hc
    rcases hc with rfl | rfl | rfl <;> exact not_literalChar (by simp) (hliteral _ hmem)
  · rw [List.append_nil] at hc
    exact hidesNoDelimiter_of_lt (toNat_of_digit_or_dot (hchars c hc)).1

theorem ipv4_recognised (h : ipv4Address (strip s.toList) = some ip) :
    ∃ host, getHostname (urlNetwork gethostbyname) s = .ok (some host) ∧
      ipAddress host.toList = ipAddress (strip s.toList) ∧
      getTargetType (urlNetwork gethostbyname) host = "ip" := by
  refine ⟨_, getHostname_ipv4 h, by rw [String.toList_ofList], if_pos ?_⟩
  rw [isIpAddress_urlNetwork, String.toList_ofList, strip_strip, ipAddress_eq_v4.mpr h]
  rfl

/-- The host read from an IPv6 address is none, or no address, or one without the scope. -/
theorem ipv6_not_recognised {address : IpAddress} (h : ipv6Address (strip s.toList) = some address)
    {host : List Char} (hhost : (targetResult s).hostname = some host) :
    ipAddress host ≠ some address := by
  obtain ⟨hslash, addr, ip, scopeId, rfl, haddr, hform⟩ := ipv6Address_eq_some h
  obtain ⟨hchars, hcolon, hfirst⟩ := ipv6FromString_chars haddr
  obtain ⟨_, rfl⟩ := hostname_eq_some.mp hhost
  rw [netloc_targetResult, authority_of_no_slash hslash]
  rcases hform with ⟨htext, rfl⟩ | ⟨scope, hscope, htext, rfl⟩
  · have hhex : ∀ c ∈ before ':' addr, isHexDigit c = true := hfirst
    have hnone : ∀ c : Char, c.toNat < 128 → c.isAlpha = false → isHexDigit c = false →
        c ∉ lowerHost (before ':' addr) := fun c hsmall halpha hc hmem => by
      rw [hhex c ((mem_lowerHost hsmall halpha).mp hmem)] at hc
      cases hc
    rw [htext, netloc_literal hchars, hostInfo_unscoped hchars,
      ipAddress_eq_none (hnone '.' (by decide) rfl rfl) (hnone ':' (by decide) rfl rfl)
        (hnone '%' (by decide) rfl rfl)]
    nofun
  · intro heq
    have hpercent : '%' ∉ (hostInfo (splitNetloc (removeUnsafe (strip s.toList))).1).1 := by
      have hfront : ∀ c ∈ addr ++ ['%'], IsKept c := by
        intro c hc
        rcases List.mem_append.mp hc with hc | hc
        · exact isKept_of_literalChar (hchars c hc)
        · rw [List.mem_singleton.mp hc]
          exact ⟨rfl, rfl⟩
      have hsplit : addr ++ '%' :: scope = addr ++ ['%'] ++ scope := by simp
      rw [htext, hsplit, netloc_append hfront, List.append_assoc]
      refine hostInfo_scoped hcolon hchars fun hmem => hscope ?_
      exact List.mem_of_mem_filter ((List.takeWhile_sublist _).subset hmem)
    have hnone := scopeId_of_no_percent (mt (mem_lowerHost (by decide) rfl).mp hpercent) heq
    cases hnone

end Recognised

/-- The address of a target is recognised exactly when it is an IPv4 address. -/
theorem ip_target_recognised_iff [UnicodeData] (gethostbyname : String → Option String)
    (s : String) (h : isIpAddress (urlNetwork gethostbyname) s = true) :
    (∃ host, getHostname (urlNetwork gethostbyname) s = .ok (some host) ∧
      ipAddress host.toList = ipAddress (strip s.toList) ∧
      getTargetType (urlNetwork gethostbyname) host = "ip") ↔
    ∃ ip, ipv4Address (strip s.toList) = some ip := by
  refine ⟨?_, fun ⟨ip, hip⟩ => ipv4_recognised hip⟩
  rintro ⟨host, hhost, hsame, _⟩
  cases hv4 : ipv4Address (strip s.toList) with
  | some ip => exact ⟨ip, rfl⟩
  | none =>
    obtain ⟨address, haddress⟩ : ∃ address, ipAddress (strip s.toList) = some address := by
      rw [isIpAddress_urlNetwork] at h
      exact Option.isSome_iff_exists.mp h
    have hv6 : ipv6Address (strip s.toList) = some address := by rwa [ipAddress, hv4] at haddress
    obtain ⟨read, hread, rfl⟩ := Option.map_eq_some_iff.mp (getHostname_eq_ok.mp hhost).2
    rw [haddress, String.toList_ofList] at hsame
    exact absurd hsame (ipv6_not_recognised hv6 hread)

theorem dotted_target_recognised : letI := asciiData
    ∃ host, getHostname (urlNetwork fun _ => none) " 93.184.216.34 " = .ok (some host) ∧
      ipAddress host.toList = ipAddress (strip " 93.184.216.34 ".toList) ∧
      getTargetType (urlNetwork fun _ => none) host = "ip" :=
  letI := asciiData
  (ip_target_recognised_iff (fun _ => none) " 93.184.216.34 " (by decide)).mpr
    ⟨0x5db8d822, by decide⟩

/-- An IPv6 address is cut at its first colon. -/
theorem first_group_is_host : ¬ ∀ (_ : UnicodeData) (gethostbyname : String → Option String)
    (s : String), isIpAddress (urlNetwork gethostbyname) s = true →
      ∃ host, getHostname (urlNetwork gethostbyname) s = .ok (some host) ∧
        ipAddress host.toList = ipAddress (strip s.toList) ∧
        getTargetType (urlNetwork gethostbyname) host = "ip" := by
  let _ := asciiData
  intro h
  obtain ⟨host, hhost, hsame, _⟩ := h asciiData (fun _ => none) "2001:db8::1" (by decide)
  obtain ⟨read, hread, rfl⟩ := Option.map_eq_some_iff.mp (getHostname_eq_ok.mp hhost).2
  have hv6 : ipv6Address (strip "2001:db8::1".toList) =
      some (.v6 0x20010db8000000000000000000000001 none) := by decide
  have hip : ipAddress (strip "2001:db8::1".toList) =
      some (.v6 0x20010db8000000000000000000000001 none) := by decide
  rw [String.toList_ofList] at hsame
  exact ipv6_not_recognised hv6 hread (hsame.trans hip)

end ThreatScanner.Analyzer
