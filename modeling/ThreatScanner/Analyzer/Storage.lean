import ThreatScanner.Analyzer.Sections
import ThreatScanner.Analyzer.Verdict

/-!
# The rows that are stored

`build_structured_storage` turns the findings into rows, adds a row for each check whose name is
not yet a title, and deduplicates the rows by title, severity and evidence. Its first test is the
walk of `distinctFrom` over the checks' names, with the titles of the findings as seen.
-/

namespace ThreatScanner.Analyzer

variable [UnicodeTables]

/-- A row of `scan_findings`. -/
structure StoredFinding where
  title : Option String
  severity : Option String
  category : String
  description : Option String
  evidence : Option String
  fix : Option String
  confidence : String
  evidenceType : String
  status : Option String := none
deriving DecidableEq

def StoredFinding.key (row : StoredFinding) : Key := (row.title, row.severity, row.evidence)

/-- A row of `scan_ports`. -/
structure StoredPort where
  port : Nat
  protocol : String
  state : String
  service : String
  banner : Option String
  risk : Option String
  source : String
deriving DecidableEq

/-- A row of `scan_cves`. -/
structure StoredCve where
  technology : String
  cveId : Option String
  severity : String
  score : Option Number
  published : Option String
  description : Option String
  url : String
deriving DecidableEq

/-- What `build_structured_storage` returns. -/
structure StructuredStorage where
  scanFindings : List StoredFinding
  scanSubdomains : List Subdomain
  scanPorts : List StoredPort
  scanCves : List StoredCve

def Finding.stored (item : Finding) : StoredFinding where
  title := item.title
  severity := item.severity
  category := item.category.getD "General"
  description := item.description
  evidence := item.evidence
  fix := item.fix
  confidence := item.confidence.getD "MEDIUM"
  evidenceType := item.evidenceType.getD "generic"

def VulnCheck.stored (item : VulnCheck) : StoredFinding where
  title := item.name
  severity := item.severity
  category := item.category.getD "General"
  description := item.impact
  evidence := item.evidence
  fix := item.fix
  confidence := item.confidence.getD "MEDIUM"
  evidenceType := item.evidenceType.getD "generic"
  status := some (item.status.getD
    (detectionStatus item.severity (some (item.confidence.getD "MEDIUM"))))

def OpenPort.stored (port : OpenPort) : StoredPort where
  port := port.port
  protocol := port.protocol.getD "tcp"
  state := port.state.getD "open"
  service := port.service
  banner := port.banner
  risk := port.risk
  source := port.source.getD "socket"

def Cve.stored (technology : String) (cve : Cve) : StoredCve where
  technology := technology
  cveId := cve.id
  severity := cve.severity
  score := cve.score
  published := cve.published
  description := cve.description
  url := cve.url

/-- The body of the loop over the checks. -/
def storeCheck (rows : List StoredFinding) (item : VulnCheck) : List StoredFinding :=
  if rows.any fun f => f.title = item.name then rows else rows ++ [item.stored]

/-- `build_structured_storage`. -/
def buildStructuredStorage (findings : List Finding) (vulnerabilityChecks : List VulnCheck)
    (subdomains : List Subdomain) (cveResults : List CveGroup) (openPorts : List OpenPort) :
    StructuredStorage where
  scanFindings := distinctBy StoredFinding.key
    (vulnerabilityChecks.foldl storeCheck (findings.map Finding.stored))
  scanSubdomains := distinctBy Subdomain.subdomain subdomains
  scanPorts := distinctBy StoredPort.port (openPorts.map OpenPort.stored)
  scanCves := distinctBy (fun row => (row.technology, row.cveId))
    (cveResults.flatMap fun group => group.cves.map (Cve.stored group.technology))

/-- A check has a row with its name, severity and evidence. -/
def Stored (storage : StructuredStorage) (check : VulnCheck) : Prop :=
  ∃ row ∈ storage.scanFindings,
    row.title = check.name ∧ row.severity = check.severity ∧ row.evidence = check.evidence

/-- The check's own key is what the rows of its name show: a finding has it, or no finding has the
name and the first check of that name has it. -/
def Represented (findings : List Finding) (vulnerabilityChecks : List VulnCheck)
    (check : VulnCheck) : Prop :=
  (∃ f ∈ findings, f.key = check.key) ∨
    (∀ f ∈ findings, f.title ≠ check.name) ∧
      ∃ first, (vulnerabilityChecks.find? fun c => c.name = check.name) = some first ∧
        first.key = check.key

variable {findings : List Finding} {vulnerabilityChecks : List VulnCheck} {check : VulnCheck}
  {subdomains : List Subdomain} {cveResults : List CveGroup} {openPorts : List OpenPort}

/-- The loop over the checks keeps the first check of each name that is no row's title. -/
theorem foldl_storeCheck (checks : List VulnCheck) (rows : List StoredFinding)
    (seen : List (Option String)) (hseen : ∀ name, name ∈ seen ↔ name ∈ rows.map (·.title)) :
    checks.foldl storeCheck rows =
      rows ++ (distinctFrom VulnCheck.name seen checks).map VulnCheck.stored := by
  induction checks generalizing rows seen with
  | nil => simp [distinctFrom]
  | cons c checks ih =>
    have hany : (rows.any fun f => f.title = c.name) = decide (c.name ∈ seen) := by
      rw [Bool.eq_iff_iff, decide_eq_true_eq, hseen]
      simp
    simp only [List.foldl_cons, storeCheck, hany, decide_eq_true_eq, distinctFrom]
    split
    · exact ih rows seen hseen
    · rw [ih (rows ++ [c.stored]) (c.name :: seen), List.map_cons, List.append_assoc]
      · rfl
      · intro name
        rw [List.mem_cons, hseen, List.map_append, List.mem_append, or_comm]
        simp [VulnCheck.stored]

theorem scanFindings_eq : (buildStructuredStorage findings vulnerabilityChecks subdomains
      cveResults openPorts).scanFindings = distinctBy StoredFinding.key
        (findings.map Finding.stored ++
          (distinctFrom VulnCheck.name (findings.map Finding.title) vulnerabilityChecks).map
            VulnCheck.stored) := by
  simp only [buildStructuredStorage]
  rw [foldl_storeCheck vulnerabilityChecks _ (findings.map Finding.title)]
  intro name
  simp [Finding.stored]

/-- A key has a row when it is a finding's, or that of the first check of a name which no finding
has. -/
theorem stored_iff_exists : Stored (buildStructuredStorage findings vulnerabilityChecks subdomains
      cveResults openPorts) check ↔ (∃ f ∈ findings, f.key = check.key) ∨
        ∃ c ∈ distinctFrom VulnCheck.name (findings.map Finding.title) vulnerabilityChecks,
          c.key = check.key := by
  have hkey : ∀ row : StoredFinding, (row.title = check.name ∧ row.severity = check.severity ∧
      row.evidence = check.evidence) ↔ row.key = check.key := by
    intro row
    simp [StoredFinding.key, VulnCheck.key]
  simp only [Stored, hkey, scanFindings_eq]
  rw [exists_key_distinctBy]
  simp only [List.mem_append, List.mem_map, or_and_right, exists_or, exists_exists_and_eq_and]
  rfl

/-- When a check is stored. -/
theorem stored_iff : Stored (buildStructuredStorage findings vulnerabilityChecks subdomains
      cveResults openPorts) check ↔ Represented findings vulnerabilityChecks check := by
  rw [stored_iff_exists, Represented]
  refine or_congr Iff.rfl ?_
  simp only [mem_distinctFrom, List.mem_map, not_exists, not_and]
  constructor
  · rintro ⟨c, ⟨hnew, hfirst⟩, hkey⟩
    have hname : c.name = check.name := congrArg Prod.fst hkey
    rw [hname] at hnew hfirst
    exact ⟨hnew, c, hfirst, hkey⟩
  · rintro ⟨hnew, c, hfirst, hkey⟩
    have hname : c.name = check.name := congrArg Prod.fst hkey
    refine ⟨c, ⟨?_, ?_⟩, hkey⟩
    · rw [hname]
      exact hnew
    · rw [hname]
      exact hfirst

/-- Every vulnerability check is stored exactly when each of them is represented. -/
theorem checks_stored_iff (findings : List Finding) (vulnerabilityChecks : List VulnCheck)
    (subdomains : List Subdomain) (cveResults : List CveGroup) (openPorts : List OpenPort) :
    (∀ check ∈ vulnerabilityChecks, Stored (buildStructuredStorage findings vulnerabilityChecks
      subdomains cveResults openPorts) check) ↔
      ∀ check ∈ vulnerabilityChecks, Represented findings vulnerabilityChecks check :=
  forall₂_congr fun _ _ => stored_iff

omit [UnicodeTables] in
/-- Of two sensitive paths only the first is stored. -/
theorem second_path_not_stored : ¬ ∀ (_ : UnicodeTables) (findings : List Finding)
    (vulnerabilityChecks : List VulnCheck), ∀ check ∈ vulnerabilityChecks,
      Stored (buildStructuredStorage findings vulnerabilityChecks [] [] []) check := by
  let _ := asciiTables
  intro h
  let checks := (exposedPathSection ["/admin", "/login"]).vulnerabilityChecks
  obtain ⟨admin, login, hchecks, hname, hkey⟩ : ∃ admin login, checks = [admin, login] ∧
      admin.name = login.name ∧ admin.key ≠ login.key := ⟨_, _, rfl, rfl, by decide⟩
  have hstored := h asciiTables [] checks login (by simp [hchecks])
  rcases stored_iff.mp hstored with ⟨f, hf, _⟩ | ⟨_, first, hfirst, hfirstKey⟩
  · cases hf
  · rw [hchecks, List.find?_cons_of_pos (by simpa using hname)] at hfirst
    cases hfirst
    exact hkey hfirstKey

end ThreatScanner.Analyzer
