import ThreatScanner.Analyzer.Results
import ThreatScanner.Library.FirstMax
import ThreatScanner.Python.Text

/-!
# The detection of a firewall

`detect_waf` looks for the signatures of its table in the headers and keeps the entry with the
highest confidence. The confidence stops at 100, which three signatures reach.
-/

namespace ThreatScanner.Analyzer

/-- An entry of `waf_db`. -/
structure WafEntry where
  name : String
  signatures : List String
deriving DecidableEq

/-- `waf_db`. -/
def wafDb : List WafEntry :=
  [⟨"Cloudflare", ["cf-ray", "cloudflare", "__cf_bm", "cf-cache-status", "cf-request-id"]⟩,
   ⟨"Akamai", ["akamai", "akamaighost", "x-akamai", "akamai-request-id"]⟩,
   ⟨"AWS WAF", ["awselb", "x-amzn", "x-amz-cf", "aws-waf", "aws"]⟩,
   ⟨"Imperva / Incapsula", ["imperva", "incapsula", "visid_incap", "x-iinfo"]⟩,
   ⟨"Sucuri", ["sucuri", "x-sucuri", "x-sucuri-id", "x-sucuri-cache"]⟩,
   ⟨"F5 BIG-IP", ["bigip", "f5", "big-ip", "x-waf"]⟩,
   ⟨"Barracuda", ["barra", "barracuda"]⟩,
   ⟨"Fortinet", ["fortigate", "fortiwaf", "fortinet"]⟩,
   ⟨"ModSecurity", ["mod_security", "modsecurity", "modsec"]⟩,
   ⟨"Fastly", ["fastly", "x-fastly", "x-served-by"]⟩,
   ⟨"Azure Front Door", ["azure", "x-azure", "afd", "azurefd"]⟩,
   ⟨"StackPath", ["stackpath"]⟩,
   ⟨"CloudFront", ["cloudfront", "x-amz-cf-id", "x-amz-cf-pop"]⟩]

/-- What `detect_waf` returns. -/
structure WafMatch where
  name : String
  confidence : String
  evidence : List String
deriving DecidableEq

variable [UnicodeTables]

/-- `combined`. -/
def wafText (response : Response) : String :=
  let server := lower ((response.header "Server").getD "")
  let powered := lower ((response.header "X-Powered-By").getD "")
  lower (lower response.headersText ++ " " ++ server ++ " " ++ powered)

/-- `matched`. -/
def matchedSignatures (response : Response) (waf : WafEntry) : List String :=
  waf.signatures.filter fun signature => contains (wafText response) (lower signature)

/-- The body of the loop of `detect_waf`. -/
def wafStep (response : Response) (best : WafMatch × Nat) (waf : WafEntry) : WafMatch × Nat :=
  let matched := matchedSignatures response waf
  if matched = [] then best
  else
    let confidence := min 100 (40 + matched.length * 20)
    if confidence > best.2 then (⟨waf.name, toString confidence ++ "%", matched⟩, confidence)
    else best

/-- `detect_waf`. -/
def detectWaf (response : Option Response) : WafMatch :=
  match response with
  | none => ⟨"Unknown", "0%", []⟩
  | some response => (wafDb.foldl (wafStep response) (⟨"Not detected", "0%", []⟩, 0)).1

/-- The number of signatures of an entry that a response matches. -/
def signatureCount (response : Response) (waf : WafEntry) : Nat :=
  (matchedSignatures response waf).length

/-- The answer names the first entry that most signatures match, with these signatures, and no
entry when there is no such signature. -/
structure NamesMost (response : Response) (answer : WafMatch) : Prop where
  some : (∃ waf ∈ wafDb, matchedSignatures response waf ≠ []) →
    ∃ waf, IsFirstMax (signatureCount response) wafDb waf ∧ answer.name = waf.name ∧
      answer.evidence = matchedSignatures response waf
  none : (∀ waf ∈ wafDb, matchedSignatures response waf = []) →
    answer.name = "Not detected" ∧ answer.evidence = []

variable {response : Response}

/-- The confidence of an entry; an entry without signatures is passed over. -/
def wafConfidence (response : Response) (waf : WafEntry) : Nat :=
  if signatureCount response waf = 0 then 0
  else min 100 (40 + signatureCount response waf * 20)

theorem wafStep_eq : wafStep response = keepBest (wafConfidence response) fun waf =>
    ⟨waf.name, toString (wafConfidence response waf) ++ "%", matchedSignatures response waf⟩ := by
  funext best waf
  have hcount : signatureCount response waf = 0 ↔ matchedSignatures response waf = [] :=
    List.length_eq_zero_iff
  simp only [wafStep, keepBest, wafConfidence, hcount]
  split
  · rfl
  · rfl

/-- Two entries compare by their confidence as by their signatures, up to three of them. -/
theorem isFirstMax_wafConfidence {waf : WafEntry} :
    IsFirstMax (wafConfidence response) wafDb waf ↔
      IsFirstMax (fun waf => min (signatureCount response waf) 3) wafDb waf := by
  have hlt : ∀ v w, wafConfidence response v < wafConfidence response w ↔
      min (signatureCount response v) 3 < min (signatureCount response w) 3 := by
    intro v w
    simp only [wafConfidence]
    split <;> split <;> omega
  have hle : ∀ v w, wafConfidence response v ≤ wafConfidence response w ↔
      min (signatureCount response v) 3 ≤ min (signatureCount response w) 3 := by
    intro v w
    rw [← Nat.not_lt, ← Nat.not_lt, hlt]
  simp only [IsFirstMax, hlt, hle]

theorem wafConfidence_pos {waf : WafEntry} :
    0 < wafConfidence response waf ↔ matchedSignatures response waf ≠ [] := by
  rw [← List.length_pos_iff, wafConfidence, signatureCount]
  split <;> omega

/-- The loop ends with the first entry of highest confidence, or with none. -/
theorem detectWaf_spec (response : Response) :
    (detectWaf (some response) = ⟨"Not detected", "0%", []⟩ ∧
      ∀ waf ∈ wafDb, matchedSignatures response waf = []) ∨
    ∃ waf, IsFirstMax (fun waf => min (signatureCount response waf) 3) wafDb waf ∧
      matchedSignatures response waf ≠ [] ∧ (detectWaf (some response)).name = waf.name ∧
        (detectWaf (some response)).evidence = matchedSignatures response waf := by
  rcases foldl_keepBest (wafConfidence response) (fun waf : WafEntry => WafMatch.mk waf.name
      (toString (wafConfidence response waf) ++ "%") (matchedSignatures response waf))
    ⟨"Not detected", "0%", []⟩ wafDb with ⟨hbest, hzero⟩ | ⟨waf, hmax, hpos, hbest⟩
  · refine .inl ⟨?_, fun waf hwaf => ?_⟩
    · rw [detectWaf, wafStep_eq, hbest]
    · rw [← Decidable.not_not (p := matchedSignatures response waf = []), ← ne_eq,
        ← wafConfidence_pos, hzero waf hwaf]
      exact Nat.lt_irrefl 0
  · refine .inr ⟨waf, isFirstMax_wafConfidence.mp hmax, wafConfidence_pos.mp hpos, ?_, ?_⟩
    · rw [detectWaf, wafStep_eq, hbest]
    · rw [detectWaf, wafStep_eq, hbest]

/-- When the answer names an entry with most signatures, the first entry that matches three is not
surpassed. -/
theorem le_of_namesMost (h : NamesMost response (detectWaf (some response))) {first waf : WafEntry}
    (hfirst : (wafDb.find? fun waf => 3 ≤ signatureCount response waf) = some first)
    (hwaf : waf ∈ wafDb) : signatureCount response waf ≤ signatureCount response first := by
  rcases detectWaf_spec response with ⟨-, hempty⟩ | ⟨named, hmax, hne, -, hevidence⟩
  · rw [signatureCount, hempty waf hwaf]
    exact Nat.zero_le _
  · obtain ⟨best, hbest, -, hsame⟩ := h.some ⟨named, hmax.mem, hne⟩
    have hcount : signatureCount response best = signatureCount response named :=
      congrArg List.length (hsame.symm.trans hevidence)
    have hnamed : IsFirstMax (signatureCount response) wafDb named := by
      obtain ⟨before, after, hdb, hbefore, hafter⟩ := hmax
      refine ⟨before, after, hdb, fun w hw => ?_, fun w hw => ?_⟩
      · have hlt : min (signatureCount response w) 3 < min (signatureCount response named) 3 :=
          hbefore w hw
        omega
      · rw [← hcount]
        exact hbest.le (hdb ▸ List.mem_append_right _ (List.mem_cons_of_mem _ hw))
    exact (isFirstMax_of_cap hmax).mp hnamed first hfirst waf hwaf

/-- The entry with most signatures is named exactly when the first entry that matches three of its
signatures or more is not surpassed. -/
theorem names_most_iff (response : Response) :
    NamesMost response (detectWaf (some response)) ↔
      ∀ first, (wafDb.find? fun waf => 3 ≤ signatureCount response waf) = some first →
        ∀ waf ∈ wafDb, signatureCount response waf ≤ signatureCount response first := by
  refine ⟨fun h first hfirst waf hwaf => le_of_namesMost h hfirst hwaf, fun hall => ?_⟩
  rcases detectWaf_spec response with ⟨hnone, hempty⟩ | ⟨waf, hmax, hne, hname, hevidence⟩
  · refine ⟨fun ⟨waf, hwaf, hsome⟩ => absurd (hempty waf hwaf) hsome, fun _ => ?_⟩
    rw [hnone]
    exact ⟨rfl, rfl⟩
  · have hfirst : IsFirstMax (signatureCount response) wafDb waf :=
      (isFirstMax_of_cap hmax).mpr hall
    exact ⟨fun _ => ⟨waf, hfirst, hname, hevidence⟩, fun hnone => absurd (hnone waf hmax.mem) hne⟩

/-- A site behind Cloudflare and an AWS load balancer. -/
def layeredResponse : Response where
  statusCode := 200
  text := ""
  url := "https://example.com/"
  header name := [("cf-ray", "8c1"), ("cf-cache-status", "DYNAMIC"), ("server", "cloudflare"),
    ("x-amzn-trace-id", "Root=1"), ("x-amz-cf-id", "q"),
    ("set-cookie", "AWSELB=1; aws-waf-token=2")].lookup
      (String.ofList (name.toList.map Char.toLower))
  headersText := "Headers([('cf-ray', '8c1'), ('cf-cache-status', 'DYNAMIC'), " ++
    "('server', 'cloudflare'), ('x-amzn-trace-id', 'Root=1'), ('x-amz-cf-id', 'q'), " ++
    "('set-cookie', 'AWSELB=1; aws-waf-token=2')])"

omit [UnicodeTables] in
/-- Three signatures of Cloudflare are taken before the five of AWS. -/
theorem more_signatures_passed_over : ¬ ∀ (_ : UnicodeTables) (response : Response),
    NamesMost response (detectWaf (some response)) := by
  intro h
  let _ := asciiTables
  have hlower (s : String) : (lower s).toList = s.toList.map Char.toLower := String.toList_ofList
  have htwice : Char.toLower ∘ Char.toLower = Char.toLower := funext toLower_toLower
  have hchars : (wafText layeredResponse).toList =
      layeredResponse.headersText.toList.map Char.toLower ++ " cloudflare ".toList := by
    have hserver : layeredResponse.header "Server" = some "cloudflare" := by decide
    have hpowered : layeredResponse.header "X-Powered-By" = none := by decide
    simp only [wafText, hlower, hserver, hpowered, Option.getD_none, Option.getD_some,
      String.toList_append, List.map_append, List.map_map, htwice, List.append_assoc]
    rfl
  have hcount (waf : WafEntry) : signatureCount layeredResponse waf =
      (waf.signatures.filter fun signature => decide (signature.toList.map Char.toLower <:+:
        layeredResponse.headersText.toList.map Char.toLower ++
          " cloudflare ".toList)).length := by
    simp only [signatureCount, matchedSignatures, contains, hchars, hlower]
  have hfirst : (wafDb.find? fun waf => 3 ≤ signatureCount layeredResponse waf) =
      some wafDb[0] := by
    simp only [hcount]
    decide +kernel
  have hle := le_of_namesMost (h asciiTables layeredResponse) hfirst
    (List.getElem_mem (l := wafDb) (n := 2) (by decide))
  rw [hcount, hcount] at hle
  exact absurd hle (by decide +kernel)

end ThreatScanner.Analyzer
