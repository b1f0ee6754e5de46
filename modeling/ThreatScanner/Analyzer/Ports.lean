import Mathlib.Data.List.Dedup
import ThreatScanner.Analyzer.Sections

/-!
# The open ports of a report

`analyze` connects to a set of ports itself (`check_port`), runs Nmap, which falls back to
`check_port` when Nmap finds nothing, and merges the two lists by port and protocol. The entries of
its own scan have no protocol, so a port that both find is not merged.
-/

namespace ThreatScanner.Analyzer

/-- `COMMON_PORTS`. -/
def commonPorts : List Nat := [21, 22, 25, 53, 80, 110, 143, 443, 8080, 8443]

/-- `PORT_SERVICES.get(port, "Unknown")`. -/
def portService (port : Nat) : String :=
  match port with
  | 21 => "FTP"
  | 22 => "SSH"
  | 25 => "SMTP"
  | 53 => "DNS"
  | 80 => "HTTP"
  | 110 => "POP3"
  | 143 => "IMAP"
  | 443 => "HTTPS"
  | 3306 => "MySQL"
  | 5432 => "PostgreSQL"
  | 6379 => "Redis"
  | 8080 => "HTTP-Alt"
  | 8443 => "HTTPS-Alt"
  | 27017 => "MongoDB"
  | _ => "Unknown"

/-- `"RISKY" if port in RISKY_PORTS else "NORMAL"`. -/
def portRisk (port : Nat) : String := if port ∈ riskyPorts then "RISKY" else "NORMAL"

/-- What the attempts to connect to a port give: `none` when an attempt raises, and otherwise the
text of the data that was read, if any. -/
abbrev Attempts := Nat → Option (Option String)

/-- The banner of an entry: `banner[:120] if banner else None`. -/
def bannerOf (data : Option String) : Option String :=
  match data with
  | none => none
  | some text =>
    let banner := strip text.toList
    if banner = [] then none else some (String.ofList (banner.take 120))

/-- `check_port`. -/
def checkPort (attempts : Attempts) (port : Nat) (retries : Nat := 2) : Option OpenPort :=
  match (List.range retries).findSome? attempts with
  | none => none
  | some data => some {
      port := port
      service := portService port
      banner := bannerOf data
      risk := portRisk port }

/-- `open_ports` before the results of Nmap are merged: the ports come in the order in which the
set of ports is walked. -/
def connectScan (ports : List Nat) (attempts : Nat → Attempts) : List OpenPort :=
  ports.filterMap fun port => checkPort (attempts port) port

/-! ## `run_nmap_scan` -/

/-- The entry of a port in the results of Nmap. -/
structure NmapData where
  state : Option String := none
  name : Option String := none
  product : Option String := none
  version : Option String := none
  extrainfo : Option String := none

/-- What `python-nmap` gives: an error, before or after the host was scanned, no host, or the ports
of each protocol. -/
inductive NmapOutcome where
  | unavailable (error : String)
  | noHost
  | scanned (protocols : List (String × List (Nat × NmapData))) (error : Option String)

/-- `state_summary`. -/
structure StateSummary where
  openCount : Nat := 0
  filtered : Nat := 0
  closed : Nat := 0
  other : Nat := 0

/-- What `run_nmap_scan` returns. -/
structure NmapScan where
  enabled : Bool := false
  host : String
  ports : List OpenPort := []
  error : Option String := none
  stateSummary : StateSummary := {}

section Nmap
variable [UnicodeTables]

def NmapData.stateText (data : NmapData) : String :=
  lower ((orElse data.state (some "unknown")).getD "unknown")

def StateSummary.count (summary : StateSummary) (state : String) : StateSummary :=
  if state = "open" then { summary with openCount := summary.openCount + 1 }
  else if state = "filtered" then { summary with filtered := summary.filtered + 1 }
  else if state = "closed" then { summary with closed := summary.closed + 1 }
  else { summary with other := summary.other + 1 }

/-- The entry that `nmap_job` appends for an open port. -/
def nmapPort (proto : String) (port : Nat) (data : NmapData) : OpenPort where
  port := port
  protocol := proto
  state := data.stateText
  service := (orElse data.name (some (portService port))).getD (portService port)
  product := (orElse data.product (some "")).getD ""
  version := (orElse data.version (some "")).getD ""
  extraInfo := (orElse data.extrainfo (some "")).getD ""
  risk := portRisk port
  source := some "nmap"

/-- The ports of all protocols, in the order of the two loops. -/
def listedPorts (protocols : List (String × List (Nat × NmapData))) :
    List (String × Nat × NmapData) :=
  protocols.flatMap fun (proto, ports) => ports.map fun (port, data) => (proto, port, data)

/-- `nmap_job`. -/
def nmapJob (host : String) : NmapOutcome → NmapScan
  | .unavailable error => { host, error := some error }
  | .noHost => { host, enabled := true, error := some "Nmap did not return host results" }
  | .scanned protocols error =>
    let listed := listedPorts protocols
    { host
      enabled := true
      ports := (listed.filter fun (_, _, data) => data.stateText = "open").map
        fun (proto, port, data) => nmapPort proto port data
      error
      stateSummary := listed.foldl (fun summary (_, _, data) => summary.count data.stateText) {} }

/-- `sorted(set(ports))`. -/
def sortedSet (ports : List Nat) : List Nat := ports.dedup.mergeSort fun a b => a ≤ b

/-- `scan_ports`. -/
def scanPorts (profile : Profile) : List Nat :=
  match profile with
  | .quick => sortedSet (commonPorts ++ [22, 80, 443, 8080, 8443])
  | .full | .deep => sortedSet (commonPorts ++ riskyPorts ++ [3306, 5432, 6379, 27017])

/-- An entry of the fallback. -/
def fallbackPort (item : OpenPort) : OpenPort :=
  { item with
    state := some "open"
    protocol := some "tcp"
    source := some "socket-fallback"
    product := some (item.product.getD "")
    version := some (item.version.getD "")
    extraInfo := some (item.extraInfo.getD "") }

/-- The key of the two deduplications, `["port", "protocol"]`. -/
def OpenPort.key (item : OpenPort) : Nat × Option String := (item.port, item.protocol)

/-- The error when neither Nmap nor the fallback finds a port. -/
def noPortsError (summary : StateSummary) : String :=
  if summary.filtered > 0 then
    "No open ports detected from this scanner location; target ports appear filtered"
  else if summary.closed > 0 then
    "No open ports detected; scanned ports responded as closed"
  else "No open ports found by Nmap or socket fallback"

/-- `run_nmap_scan`. -/
def runNmapScan (host : String) (profile : Profile) (outcome : NmapOutcome)
    (attempts : Nat → Attempts) : NmapScan :=
  let result := nmapJob host outcome
  if result.ports ≠ [] then { result with ports := distinctBy OpenPort.key result.ports }
  else
    let fallback := (connectScan (scanPorts profile) attempts).map fallbackPort
    let result := { result with ports := distinctBy OpenPort.key fallback }
    if fallback ≠ [] then { result with enabled := true, error := none }
    else if result.error.getD "" = "" then
      { result with error := some (noPortsError result.stateSummary) }
    else result

end Nmap

/-- `open_ports`. -/
def openPorts (connected : List OpenPort) (nmap : NmapScan) : List OpenPort :=
  if nmap.ports ≠ [] then distinctBy OpenPort.key (connected ++ nmap.ports) else connected

/-! ## One entry for each port -/

/-- The port an entry denotes: one without protocol is a TCP port. -/
def OpenPort.denotes (item : OpenPort) : Nat × String := (item.port, item.protocol.getD "tcp")

/-- No two entries denote the same port. -/
def ReportedOnce (items : List OpenPort) : Prop := (items.map OpenPort.denotes).Nodup

instance (items : List OpenPort) : Decidable (ReportedOnce items) :=
  inferInstanceAs (Decidable (List.Nodup _))

/-- No port of `connected` is a TCP port of `nmap`. -/
def FoundApart (connected : List OpenPort) (nmap : NmapScan) : Prop :=
  ∀ item ∈ connected, ∀ other ∈ nmap.ports, other.port = item.port → other.protocol ≠ some "tcp"

instance (connected : List OpenPort) (nmap : NmapScan) : Decidable (FoundApart connected nmap) :=
  inferInstanceAs (Decidable (∀ item ∈ connected, ∀ other ∈ nmap.ports,
    other.port = item.port → other.protocol ≠ some "tcp"))

section Connect
variable {ports : List Nat} {attempts : Nat → Attempts} {item : OpenPort}

theorem checkPort_eq_some {tries : Attempts} {port : Nat} {retries : Nat}
    (h : checkPort tries port retries = some item) : item.port = port ∧ item.protocol = none := by
  unfold checkPort at h
  split at h
  · cases h
  · cases h
    exact ⟨rfl, rfl⟩

theorem mem_connectScan (h : item ∈ connectScan ports attempts) :
    item.port ∈ ports ∧ item.protocol = none := by
  obtain ⟨port, hport, hcheck⟩ := List.mem_filterMap.mp h
  obtain ⟨rfl, hprotocol⟩ := checkPort_eq_some hcheck
  exact ⟨hport, hprotocol⟩

/-- The connect scan visits each port once. -/
theorem connectScan_ports_nodup (h : ports.Nodup) :
    ((connectScan ports attempts).map (·.port)).Nodup := by
  induction ports with
  | nil => exact List.nodup_nil
  | cons port ports ih =>
    rw [List.nodup_cons] at h
    unfold connectScan
    rw [List.filterMap_cons]
    split
    · exact ih h.2
    · rename_i item hitem
      rw [List.map_cons, List.nodup_cons]
      refine ⟨fun hmem => ?_, ih h.2⟩
      obtain ⟨other, hother, hsame⟩ := List.mem_map.mp hmem
      rw [(checkPort_eq_some hitem).1] at hsame
      exact h.1 (hsame ▸ (mem_connectScan hother).1)

end Connect

section Merge
variable {connected : List OpenPort} {nmap : NmapScan}

/-- What `run_nmap_scan` promises of its ports. -/
structure NmapPorts (items : List OpenPort) : Prop where
  protocol : ∀ item ∈ items, item.protocol.isSome
  nodup : (items.map OpenPort.key).Nodup

theorem NmapPorts.distinct {items : List OpenPort} (h : ∀ item ∈ items, item.protocol.isSome) :
    NmapPorts (distinctBy OpenPort.key items) where
  protocol item hitem := h item (mem_of_mem_distinctBy hitem)
  nodup := distinctBy_keys_nodup

theorem runNmapScan_ports [UnicodeTables] (host : String) (profile : Profile)
    (outcome : NmapOutcome) (attempts : Nat → Attempts) :
    NmapPorts (runNmapScan host profile outcome attempts).ports := by
  have hfallback : NmapPorts (distinctBy OpenPort.key
      ((connectScan (scanPorts profile) attempts).map fallbackPort)) := by
    refine .distinct fun item hitem => ?_
    obtain ⟨item, -, rfl⟩ := List.mem_map.mp hitem
    rfl
  unfold runNmapScan
  dsimp only
  split
  · refine .distinct fun item hitem => ?_
    cases outcome with
    | unavailable | noHost => cases hitem
    | scanned protocols error =>
      obtain ⟨entry, -, rfl⟩ := List.mem_map.mp hitem
      rfl
  · split
    · exact hfallback
    · split <;> exact hfallback

theorem denotes_of_none {item : OpenPort} (h : item.protocol = none) :
    item.denotes = (item.port, "tcp") := by
  rw [OpenPort.denotes, h]
  rfl

/-- Among entries with a protocol, the port and the protocol are what is denoted. -/
theorem denotes_nodup {items : List OpenPort} (h : NmapPorts items) :
    (items.map OpenPort.denotes).Nodup := by
  refine (List.nodup_map_iff_inj_on (List.Nodup.of_map _ h.nodup)).mpr fun a ha b hb heq => ?_
  obtain ⟨p, hp⟩ := Option.isSome_iff_exists.mp (h.protocol a ha)
  obtain ⟨q, hq⟩ := Option.isSome_iff_exists.mp (h.protocol b hb)
  simp only [OpenPort.denotes, hp, hq, Option.getD_some, Prod.mk.injEq] at heq
  exact List.inj_on_of_nodup_map h.nodup ha hb (by simp [OpenPort.key, heq.1, hp, hq, heq.2])

/-- The merge removes nothing: an entry without protocol has another key than one with. -/
theorem openPorts_eq_append (hconnected : ∀ item ∈ connected, item.protocol = none)
    (hnodup : (connected.map (·.port)).Nodup) (hnmap : NmapPorts nmap.ports) :
    openPorts connected nmap = connected ++ nmap.ports := by
  unfold openPorts
  split
  · refine distinctBy_eq_self ?_
    rw [List.map_append]
    refine List.nodup_append'.mpr ⟨?_, hnmap.nodup, fun key hmem hmem' => ?_⟩
    · exact List.Nodup.of_map Prod.fst (by rwa [List.map_map])
    · obtain ⟨item, hitem, rfl⟩ := List.mem_map.mp hmem
      obtain ⟨other, hother, heq⟩ := List.mem_map.mp hmem'
      have hprotocol : other.protocol = item.protocol := congrArg Prod.snd heq
      have hsome := hnmap.protocol other hother
      rw [hprotocol, hconnected item hitem] at hsome
      cases hsome
  · rename_i hnil
    rw [not_not.mp hnil, List.append_nil]

theorem reportedOnce_append (hconnected : ∀ item ∈ connected, item.protocol = none)
    (hnodup : (connected.map (·.port)).Nodup) (hnmap : NmapPorts nmap.ports) :
    ReportedOnce (connected ++ nmap.ports) ↔ FoundApart connected nmap := by
  have hself : (connected.map OpenPort.denotes).Nodup :=
    List.Nodup.of_map Prod.fst (by rwa [List.map_map])
  rw [ReportedOnce, List.map_append, List.nodup_append', and_iff_right hself,
    and_iff_right (denotes_nodup hnmap)]
  constructor
  · intro h item hitem other hother hport hprotocol
    refine h (List.mem_map_of_mem hitem) (List.mem_map.mpr ⟨other, hother, ?_⟩)
    rw [denotes_of_none (hconnected item hitem), OpenPort.denotes, hport, hprotocol]
    rfl
  · intro h denoted hmem hmem'
    obtain ⟨item, hitem, rfl⟩ := List.mem_map.mp hmem
    obtain ⟨other, hother, heq⟩ := List.mem_map.mp hmem'
    rw [denotes_of_none (hconnected item hitem), OpenPort.denotes, Prod.mk.injEq] at heq
    obtain ⟨protocol, hprotocol⟩ := Option.isSome_iff_exists.mp (hnmap.protocol other hother)
    rw [hprotocol, Option.getD_some] at heq
    exact h item hitem other hother heq.1 (by rw [hprotocol, heq.2])

end Merge

/-- Each port is reported once exactly when the connect scan and Nmap find no TCP port both. -/
theorem reportedOnce_iff [UnicodeTables] (ports : List Nat) (hports : ports.Nodup)
    (attempts : Nat → Attempts) (host : String) (profile : Profile) (outcome : NmapOutcome)
    (fallback : Nat → Attempts) :
    ReportedOnce (openPorts (connectScan ports attempts)
        (runNmapScan host profile outcome fallback)) ↔
      FoundApart (connectScan ports attempts) (runNmapScan host profile outcome fallback) := by
  have hconnected : ∀ item ∈ connectScan ports attempts, item.protocol = none :=
    fun item hitem => (mem_connectScan hitem).2
  have hnodup : ((connectScan ports attempts).map (·.port)).Nodup :=
    connectScan_ports_nodup hports
  have hnmap := runNmapScan_ports host profile outcome fallback
  rw [openPorts_eq_append hconnected hnodup hnmap, reportedOnce_append hconnected hnodup hnmap]

/-- An open TCP port and the UDP port of the same number are two ports. -/
theorem dns_reported_once : letI := asciiTables
    ReportedOnce (openPorts (connectScan [53] fun _ _ => some none) (runNmapScan "example.com"
      .full (.scanned [("udp", [(53, { state := "open" })])] none) fun _ _ => none)) :=
  let _ := asciiTables
  (reportedOnce_iff [53] (by decide) _ _ _ _ _).mpr (by decide)

/-- A port that is open is found twice, once without protocol and once as a TCP port. -/
theorem https_reported_twice : ¬ ∀ (_ : UnicodeTables) (ports : List Nat), ports.Nodup →
    ∀ (attempts : Nat → Attempts) (host : String) (profile : Profile) (outcome : NmapOutcome)
      (fallback : Nat → Attempts), ReportedOnce (openPorts (connectScan ports attempts)
        (runNmapScan host profile outcome fallback)) := by
  intro h
  have honce := h asciiTables [443] (by decide) (fun _ _ => some none) "example.com" .full
    (.scanned [("tcp", [(443, { state := "open" })])] none) fun _ _ => none
  revert honce
  decide

end ThreatScanner.Analyzer
