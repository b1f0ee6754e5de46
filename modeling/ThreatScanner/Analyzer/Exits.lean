import ThreatScanner.Analyzer.Analyze
import ThreatScanner.Python.Json

/-!
# The exits of `analyze`

`analyze` returns at three points: for a target without host, for a host that does not resolve, and
after all its detectors. The first two build their report, and the verdict in it, themselves.
-/

namespace ThreatScanner.Analyzer

variable [UnicodeTables]

/-- What `analyze` asks about a target: `urlparse(url).hostname`, which may raise, whether
`ipaddress.ip_address` accepts a text, and `socket.gethostbyname`, `none` when it raises. -/
structure Network where
  hostname : String → Except PyError (Option String)
  isIpAddress : String → Bool
  gethostbyname : String → Option String

omit [UnicodeTables] in
/-- `normalize_target`. -/
def normalizeTarget (target : String) : String :=
  let target := String.ofList (strip target.toList)
  if target = "" then target
  else if startsWith target "http://" || startsWith target "https://" then target
  else "https://" ++ target

/-- `get_hostname`, where an empty host counts as none. -/
def getHostname (net : Network) (target : String) : Except PyError (Option String) := do
  let host ← net.hostname (normalizeTarget target)
  .ok (host.filter (· ≠ ""))

/-- `is_ip_address`. -/
def isIpAddress (net : Network) (value : String) : Bool :=
  net.isIpAddress (String.ofList (strip value.toList))

/-- `get_target_type`. -/
def getTargetType (net : Network) (host : String) : String :=
  if isIpAddress net host then "ip" else "domain"

/-- The address of a host, `none` when the name does not resolve. -/
def resolveHost (net : Network) (host : String) : Option String :=
  if getTargetType net host = "ip" then some host else net.gethostbyname host

def Profile.name : Profile → String
  | quick => "quick"
  | full => "full"
  | deep => "deep"

/-- The profile as `analyze` normalises it. -/
def parseProfile (profile : String) : Profile :=
  if lower profile = Profile.quick.name then .quick
  else if lower profile = Profile.deep.name then .deep
  else .full

/-- `scan_summary`. -/
structure ScanSummary where
  totalFindings : Nat := 0
  critical : Nat := 0
  high : Nat := 0
  medium : Nat := 0
  low : Nat := 0
  info : Nat := 0
deriving DecidableEq

/-- A report of an early exit; `scanFindings` is the one list of its structured section that may
have an entry. -/
structure EarlyReport where
  target : String
  host : Option String
  targetType : String
  profile : Profile
  risk : String
  score : Nat
  alerts : List String
  vulnerabilities : List String
  vulnerabilityChecks : List VulnCheck := []
  findings : List Finding := []
  scanFindings : List Finding := []
  scanSummary : ScanSummary := {}

/-- The report for a target without host. -/
def invalidTargetReport (target : String) (profile : Profile) : EarlyReport where
  target := target
  host := none
  targetType := "unknown"
  profile := profile
  risk := "HIGH"
  score := 100
  alerts := ["Invalid target"]
  vulnerabilities := ["Invalid target format"]

/-- The finding of a host that does not resolve. -/
def dnsFinding (host : String) : Finding where
  title := "DNS Resolution Failed"
  severity := "HIGH"
  category := "DNS"
  description := "The domain could not be resolved to an IP address."
  evidence := host
  fix := "Check that the domain is valid and DNS records are configured correctly."

/-- The report for a host that does not resolve. -/
def unresolvedReport (target host targetType : String) (profile : Profile) : EarlyReport where
  target := target
  host := host
  targetType := targetType
  profile := profile
  risk := "HIGH"
  score := 90
  alerts := ["DNS resolution failed"]
  vulnerabilities := ["Domain does not resolve"]
  vulnerabilityChecks := [{
    name := "DNS Resolution Failed"
    severity := "HIGH"
    category := "DNS"
    evidence := host
    impact := "The domain cannot be reached."
    fix := "Check DNS configuration and domain validity." }]
  findings := [dnsFinding host]
  scanFindings := [dnsFinding host]
  scanSummary := { totalFindings := 1, high := 1 }

/-- What `analyze` returns at one of its three exits. -/
inductive Returned where
  | early (report : EarlyReport)
  | complete (report : Report)

namespace Returned

def risk : Returned → String
  | early report => report.risk
  | complete report => report.risk

def score : Returned → Nat
  | early report => report.score
  | complete report => report.score

end Returned

/-- `analyze`. The outcomes of the detectors, should they run, are those of `detectors`. -/
def analyzeTarget [EntropyTest] (net : Network) (target profile : String) (detectors : Scan) :
    Except PyError Returned := do
  let profile := parseProfile profile
  match ← getHostname net target with
  | none => .ok (.early (invalidTargetReport target profile))
  | some host =>
    match resolveHost net host with
    | none =>
      .ok (.early (unresolvedReport target host (getTargetType net host) profile))
    | some ip =>
      .ok (.complete (analyze { detectors with
        url := normalizeTarget target
        ip := ip
        isIp := getTargetType net host = "ip"
        profile := profile }))

/-! ## The risk scale -/

/-- The band of a score. -/
def band (score : Nat) : String :=
  if score < 20 then "LOW"
  else if score < 45 then "MEDIUM"
  else if score < 75 then "HIGH"
  else "CRITICAL"

omit [UnicodeTables] in
theorem riskFromScore_eq_band (score : Nat) : riskFromScore score = band score := by
  unfold riskFromScore band
  split_ifs <;> first | rfl | omega

/-- The risk of what is returned is the band of its score. -/
def OneScale (x : Except PyError Returned) : Prop := Returns (fun r => r.risk = band r.score) x

/-- The target has a host, and the host an address; `urlparse` may refuse the target as well. -/
def Reachable (net : Network) (target : String) : Prop :=
  ∀ host, getHostname net target = .ok host → ∃ name ip, host = some name ∧
    resolveHost net name = some ip

section Exits
variable [EntropyTest] {net : Network} {target profile : String} {detectors : Scan}

theorem analyzeTarget_raises {e : PyError} (h : getHostname net target = .error e) :
    analyzeTarget net target profile detectors = .error e := by
  simp only [analyzeTarget, h, bind, Except.bind]

theorem analyzeTarget_no_host (h : getHostname net target = .ok none) :
    analyzeTarget net target profile detectors =
      .ok (.early (invalidTargetReport target (parseProfile profile))) := by
  simp only [analyzeTarget, h, bind, Except.bind]

theorem analyzeTarget_unresolved {host : String} (h : getHostname net target = .ok (some host))
    (hnone : resolveHost net host = none) : analyzeTarget net target profile detectors =
      .ok (.early (unresolvedReport target host (getTargetType net host)
        (parseProfile profile))) := by
  simp only [analyzeTarget, h, hnone, bind, Except.bind]

theorem analyzeTarget_complete {host ip : String} (h : getHostname net target = .ok (some host))
    (hip : resolveHost net host = some ip) : ∃ scan, analyzeTarget net target profile detectors =
      .ok (.complete (analyze scan)) := by
  simp only [analyzeTarget, h, hip, bind, Except.bind]
  exact ⟨_, rfl⟩

omit [UnicodeTables] [EntropyTest] in
theorem invalidTarget_off_scale {profile : Profile} : (invalidTargetReport target profile).risk ≠
    band (invalidTargetReport target profile).score :=
  show "HIGH" ≠ band 100 by decide

omit [UnicodeTables] [EntropyTest] in
theorem unresolved_off_scale {host targetType : String} {profile : Profile} :
    (unresolvedReport target host targetType profile).risk ≠
      band (unresolvedReport target host targetType profile).score :=
  show "HIGH" ≠ band 90 by decide

theorem analyze_on_scale (scan : Scan) : (analyze scan).risk = band (analyze scan).score :=
  (report_risk _ _ _ _).trans (riskFromScore_eq_band _)

end Exits

/-- The risk is the band of the score exactly when the target does not leave `analyze` early. -/
theorem oneScale_iff [EntropyTest] (net : Network) (target profile : String) (detectors : Scan) :
    OneScale (analyzeTarget net target profile detectors) ↔ Reachable net target := by
  cases hhost : getHostname net target with
  | error e =>
    rw [analyzeTarget_raises hhost]
    refine iff_of_true nofun fun host h => ?_
    rw [hhost] at h
    cases h
  | ok host =>
    have hreach : Reachable net target ↔ ∃ name ip, host = some name ∧
        resolveHost net name = some ip := by
      simp only [Reachable, hhost, Except.ok.injEq, forall_eq']
    rw [hreach]
    cases host with
    | none =>
      rw [analyzeTarget_no_host hhost]
      exact iff_of_false (fun h => invalidTarget_off_scale (h _ rfl)) (by simp)
    | some name =>
      cases hip : resolveHost net name with
      | none =>
        rw [analyzeTarget_unresolved hhost hip]
        exact iff_of_false (fun h => unresolved_off_scale (h _ rfl)) (by simp [hip])
      | some ip =>
        obtain ⟨scan, hscan⟩ : ∃ scan, analyzeTarget net target profile detectors =
            .ok (.complete (analyze scan)) := analyzeTarget_complete hhost hip
        rw [hscan]
        exact iff_of_true (returns_ok (analyze_on_scale scan)) ⟨name, ip, rfl, hip⟩

omit [UnicodeTables] in
/-- The report for a host that does not resolve has the score 90 and the risk of a lower one. -/
theorem unresolved_host_off_scale : ¬ ∀ (_ : UnicodeTables) (_ : EntropyTest) (net : Network)
    (target profile : String) (detectors : Scan),
      OneScale (analyzeTarget net target profile detectors) := by
  let _ := asciiTables
  intro h
  let net : Network := ⟨fun _ => .ok (some "no-such-host.invalid"), fun _ => false, fun _ => none⟩
  let detectors : Scan := { url := "", ip := "" }
  let _ : EntropyTest := ⟨fun _ => false⟩
  have hhost : getHostname net "no-such-host.invalid" = .ok (some "no-such-host.invalid") := rfl
  have hscale := h asciiTables ⟨fun _ => false⟩ net "no-such-host.invalid" "full" detectors
  rw [analyzeTarget_unresolved hhost rfl] at hscale
  exact unresolved_off_scale (hscale _ rfl)

end ThreatScanner.Analyzer
