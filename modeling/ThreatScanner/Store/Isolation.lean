import ThreatScanner.Store.Session
import ThreatScanner.Store.Migration

/-!
# Isolation of the users' scans

The scans of a user are, at every moment, those saved under the id of the user and not deleted by
the user since (`live`). The invariant `Booked` ties the rows of `scans` to the calls made so far;
what the history, the details and a deletion answer is read off it.
-/

namespace ThreatScanner.Store

open Relational Transition

variable {p : Platform} {db db' db₀ : ScanDb} {parent : TableName}

/-! ## What the calls so far say -/

abbrev Trace := List (Operation × Reply)

def savedId : Operation × Reply → Option Int
  | (.saveScan _, .saved scanId) => some scanId
  | _ => none

def savedIdBy (userId : Int) : Operation × Reply → Option Int
  | (.saveScan scan, .saved scanId) => if scan.userId = some userId then some scanId else none
  | _ => none

def deletedIdBy (userId : Int) : Operation × Reply → Option Int
  | (.deleteScan scanId user, .deleted true) => if user = userId then some scanId else none
  | _ => none

/-- The ids of all scans saved. -/
def savedIds (trace : Trace) : List Int := trace.filterMap savedId

/-- The ids of the scans saved under the id of the user. -/
def savedBy (userId : Int) (trace : Trace) : List Int := trace.filterMap (savedIdBy userId)

/-- The ids of the scans the user deleted. -/
def deletedBy (userId : Int) (trace : Trace) : List Int := trace.filterMap (deletedIdBy userId)

def scanIds (db : ScanDb) : List Int := (rows db .scans).map (·.id)

/-- The ids of the rows the user owns. -/
def ownIds (userId : Int) (db : ScanDb) : List Int := (ownRows userId db).map (·.id)

/-- The scans the user had at the start or saved since, and has not deleted. -/
def live (userId : Int) (db₀ : ScanDb) (trace : Trace) : List Int :=
  (ownIds userId db₀ ++ savedBy userId trace).filter (· ∉ deletedBy userId trace)

/-- The report of a scan is a JSON object, if it can be read at all. -/
def ReportIsObject (p : Platform) (report : Option String) : Prop :=
  ∃ entries, reportData p report = .obj entries

section Entries
variable {trace : Trace} {operation : Operation} {reply : Reply} {userId : Int}

@[simp] theorem savedIds_concat {e : Operation × Reply} :
    savedIds (trace ++ [e]) = savedIds trace ++ (savedId e).toList := by
  rw [savedIds, List.filterMap_append, savedIds]
  cases h : savedId e <;> simp [h]

@[simp] theorem savedBy_concat {e : Operation × Reply} :
    savedBy userId (trace ++ [e]) = savedBy userId trace ++ (savedIdBy userId e).toList := by
  rw [savedBy, List.filterMap_append, savedBy]
  cases h : savedIdBy userId e <;> simp [h]

@[simp] theorem deletedBy_concat {e : Operation × Reply} :
    deletedBy userId (trace ++ [e]) = deletedBy userId trace ++ (deletedIdBy userId e).toList := by
  rw [deletedBy, List.filterMap_append, deletedBy]
  cases h : deletedIdBy userId e <;> simp [h]

theorem savedId_eq_none (h : ∀ id, reply ≠ .saved id) : savedId (operation, reply) = none := by
  cases reply with
  | saved id => exact absurd rfl (h id)
  | _ => cases operation <;> rfl

theorem savedIdBy_eq_none (h : ∀ id, reply ≠ .saved id) :
    savedIdBy userId (operation, reply) = none := by
  cases reply with
  | saved id => exact absurd rfl (h id)
  | _ => cases operation <;> rfl

theorem deletedIdBy_eq_none (h : reply ≠ .deleted true) :
    deletedIdBy userId (operation, reply) = none := by
  cases reply with
  | deleted ok =>
    cases ok with
    | true => exact absurd rfl h
    | false => cases operation <;> rfl
  | _ => cases operation <;> rfl

end Entries

/-! ## The rows and the calls agree -/

/-- The rows of `scans` are those the calls so far have left, and every id the calls mention was
given to one scan. -/
structure Booked (p : Platform) (parent : TableName) (db₀ : ScanDb) (s : Session) : Prop where
  hasSchema : HasSchema parent s.db
  own : ∀ userId, ownIds userId s.db = live userId db₀ s.trace
  issued : (scanIds db₀ ++ savedIds s.trace).Pairwise (· < ·)
  bounded : ∃ table, s.db .scans = some table ∧
    ∀ id ∈ scanIds db₀ ++ savedIds s.trace, id ≤ table.seq
  known : ∀ id ∈ scanIds s.db, id ∈ scanIds db₀ ++ savedIds s.trace
  deleted : ∀ userId, ∀ id ∈ deletedBy userId s.trace, id ∈ scanIds db₀ ++ savedIds s.trace
  reports : ∀ row ∈ rows s.db .scans, ∃ entries, storedReport p row = .obj entries

theorem booked_start (H : HasSchema parent db₀)
    (hreports : ∀ row ∈ rows db₀ .scans, ∃ entries, storedReport p row = .obj entries) :
    Booked p parent db₀ ⟨db₀, []⟩ where
  hasSchema := H
  own userId := by simp [live, savedBy, deletedBy]
  issued := by
    rw [savedIds, List.filterMap_nil, List.append_nil]
    exact rows_ascending
  bounded := by
    obtain ⟨table, htable, -⟩ := schema_eq_some.mp H.scans
    refine ⟨table, htable, fun id hid => ?_⟩
    rw [savedIds, List.filterMap_nil, List.append_nil, scanIds, rows_eq htable] at hid
    obtain ⟨row, hrow, rfl⟩ := List.mem_map.mp hid
    exact table.bounded row hrow
  known id hid := List.mem_append_left _ hid
  deleted _ _ h := nomatch h
  reports := hreports

/-- A call that leaves `scans` as it is and saves or deletes nothing. -/
theorem Booked.idle {s : Session} (B : Booked p parent db₀ s) {operation : Operation}
    {reply : Reply} (hscans : db' .scans = s.db .scans) (hschema : schema db' = schema s.db)
    (hsaved : ∀ id, reply ≠ .saved id) (hdeleted : reply ≠ .deleted true) :
    Booked p parent db₀ ⟨db', s.trace ++ [(operation, reply)]⟩ := by
  have hrows : rows db' .scans = rows s.db .scans := rows_congr hscans
  have hs : savedIds (s.trace ++ [(operation, reply)]) = savedIds s.trace := by
    simp [savedId_eq_none hsaved]
  have hd : ∀ userId, deletedBy userId (s.trace ++ [(operation, reply)]) =
      deletedBy userId s.trace := by
    simp [deletedIdBy_eq_none hdeleted]
  refine ⟨B.hasSchema.of_eq hschema, fun userId => ?_, ?_, ?_, ?_, ?_, ?_⟩
  · rw [ownIds, ownRows, hrows, ← ownRows, ← ownIds, B.own, live, live, hd, savedBy_concat,
      savedIdBy_eq_none hsaved, Option.toList_none, List.append_nil]
  · rw [hs]
    exact B.issued
  · rw [hs]
    obtain ⟨table, htable, hbounded⟩ := B.bounded
    exact ⟨table, hscans.trans htable, hbounded⟩
  · rw [hs, scanIds, hrows]
    exact B.known
  · intro userId
    rw [hs, hd]
    exact B.deleted userId
  · rw [hrows]
    exact B.reports

/-! ## Saving -/

theorem Booked.saves {s : Session} (B : Booked p parent db₀ s) {now : Value} {scan : ScanRecord}
    {id : Int} (h : Saved p now s.db scan id db') (hreport : ReportIsObject p scan.report) :
    Booked p parent db₀ ⟨db', s.trace ++ [(.saveScan scan, .saved id)]⟩ := by
  obtain ⟨row, hrows, hid, hstores⟩ := h.storesScan B.hasSchema.scans
  obtain ⟨table, table', htable, htable', hnext, hseq⟩ := h.next
  obtain ⟨table₀, htable₀, hbounded⟩ := B.bounded
  cases htable.symm.trans htable₀
  have hfresh : id ∉ scanIds db₀ ++ savedIds s.trace := by
    intro hmem
    have := hbounded id hmem
    omega
  have hs : scanIds db₀ ++ savedIds (s.trace ++ [(.saveScan scan, .saved id)]) =
      scanIds db₀ ++ savedIds s.trace ++ [id] := by
    rw [savedIds_concat, ← List.append_assoc]
    rfl
  have hd : ∀ userId, deletedBy userId (s.trace ++ [(.saveScan scan, .saved id)]) =
      deletedBy userId s.trace := by
    simp [deletedIdBy]
  refine ⟨B.hasSchema.of_eq h.schema_eq, fun userId => ?_, ?_, ?_, ?_, ?_, ?_⟩
  · have hnew : id ∉ deletedBy userId s.trace := fun hmem => hfresh (B.deleted userId id hmem)
    rw [ownIds, ownRows, hrows, List.filter_append, List.map_append, ← ownRows, ← ownIds, B.own,
      live, live, hd, savedBy_concat, ← List.append_assoc,
      List.filter_append (ownIds userId db₀ ++ savedBy userId s.trace)]
    by_cases hown : scan.userId = some userId
    · simp [savedIdBy, hstores.owner, hown, hid, hnew]
    · simp [savedIdBy, hstores.owner, hown]
  · rw [hs]
    refine List.pairwise_append.mpr ⟨B.issued, List.pairwise_singleton _ _, ?_⟩
    intro i hi j hj
    have := hbounded i hi
    rw [List.mem_singleton] at hj
    omega
  · rw [hs]
    refine ⟨table', htable', fun i hi => ?_⟩
    rcases List.mem_append.mp hi with hi | hi
    · have := hbounded i hi
      omega
    · rw [List.mem_singleton] at hi
      omega
  · intro i hi
    rw [hs]
    rw [scanIds, hrows, List.map_append, List.mem_append] at hi
    rcases hi with hi | hi
    · exact List.mem_append_left _ (B.known i hi)
    · rw [List.map_singleton, hid] at hi
      exact List.mem_append_right _ hi
  · intro userId i hi
    rw [hd] at hi
    rw [hs]
    exact List.mem_append_left _ (B.deleted userId i hi)
  · intro r hr
    rw [hrows, List.mem_append, List.mem_singleton] at hr
    rcases hr with hr | rfl
    · exact B.reports r hr
    · rw [hstores.report]
      exact hreport

/-! ## Deleting -/

/-- A deletion takes the scan from its owner and nothing from anyone else. -/
theorem ownIds_delete {scanId userId : Int}
    (hscans : rows db' .scans = (rows db .scans).filter fun row =>
      !(row.id = scanId && row.cells .userId = .integer userId)) (user : Int) :
    ownIds user db' = (ownIds user db).filter fun id => !(user = userId ∧ id = scanId) := by
  rw [ownIds, ownRows, hscans, ownIds, ownRows, List.filter_map, List.filter_filter,
    List.filter_filter]
  refine congrArg _ (List.filter_congr fun row _ => ?_)
  by_cases howner : row.cells .userId = .integer user
  · by_cases huser : user = userId
    · simp [howner, huser]
    · simp [howner, huser]
  · simp [howner]

theorem Booked.deletes {s : Session} (B : Booked p parent db₀ s) {scanId userId : Int}
    (h : Deleted s.db scanId userId true db') :
    Booked p parent db₀ ⟨db', s.trace ++ [(.deleteScan scanId userId, .deleted true)]⟩ := by
  cases h with
  | removed hfound hschema _ hscans hseq _ =>
    obtain ⟨found, hmem, hid, -⟩ := hfound
    have hsub : ∀ row ∈ rows db' .scans, row ∈ rows s.db .scans := by
      intro row hrow
      rw [hscans] at hrow
      exact (List.mem_filter.mp hrow).1
    have hs : savedIds (s.trace ++ [(.deleteScan scanId userId, .deleted true)]) =
        savedIds s.trace := by
      simp [savedId]
    refine ⟨B.hasSchema.of_eq hschema, fun user => ?_, ?_, ?_, ?_, ?_, ?_⟩
    · rw [ownIds_delete hscans, B.own, live, live, savedBy_concat, deletedBy_concat,
        List.filter_filter]
      by_cases huser : userId = user
      · simp [savedIdBy, deletedIdBy, huser, Bool.and_comm]
      · simp [savedIdBy, deletedIdBy, huser, Ne.symm huser]
    · rw [hs]
      exact B.issued
    · obtain ⟨table, htable, hbounded⟩ := B.bounded
      rw [htable, Option.map_some, Option.map_eq_some_iff] at hseq
      obtain ⟨table', htable', hseq⟩ := hseq
      rw [hs]
      exact ⟨table', htable', by rw [hseq]; exact hbounded⟩
    · intro id hmem'
      obtain ⟨row, hrow, rfl⟩ := List.mem_map.mp hmem'
      rw [hs]
      exact B.known _ (List.mem_map_of_mem (hsub row hrow))
    · intro user id hdel
      rw [hs]
      rw [deletedBy_concat, List.mem_append] at hdel
      rcases hdel with hdel | hdel
      · exact B.deleted user id hdel
      · simp only [deletedIdBy] at hdel
        split at hdel
        · rw [Option.toList_some, List.mem_singleton] at hdel
          rw [hdel, ← hid]
          exact B.known _ (List.mem_map_of_mem hmem)
        · cases hdel
    · exact fun row hrow => B.reports row (hsub row hrow)

/-! ## Runs -/

/-- The report a call saves is a JSON object. -/
def Call.SavesObject (p : Platform) (call : Call) : Prop :=
  ∀ scan, call.operation = .saveScan scan → ReportIsObject p scan.report

theorem booked_step {s t : Session} {call : Call} (B : Booked p parent db₀ s)
    (hcall : call.SavesObject p) (h : s.step p call = some t) : Booked p parent db₀ t := by
  obtain ⟨now, operation⟩ := call
  have hperforms : Performs p now s.db operation (perform p now s.db operation).1
      (perform p now s.db operation).2 := perform_performs B.hasSchema operation
  rw [step_eq_some h]
  generalize perform p now s.db operation = r at hperforms
  obtain ⟨reply, after⟩ := r
  cases hperforms with
  | reads hsaved hdeleted => exact B.idle rfl rfl hsaved hdeleted
  | creates hschema hother => exact B.idle (hother .scans (by decide)) hschema nofun nofun
  | saves hsaved => exact B.saves hsaved (hcall _ rfl)
  | deletes hdeleted => exact B.deletes hdeleted

theorem booked_run {s : Session} {calls : List Call} (H : HasSchema parent db₀)
    (hreports : ∀ row ∈ rows db₀ .scans, ∃ entries, storedReport p row = .obj entries)
    (hcalls : ∀ call ∈ calls, call.SavesObject p)
    (hrun : exec (Session.step p) ⟨db₀, []⟩ calls = some s) : Booked p parent db₀ s := by
  refine exec_invariant_of (Booked p parent db₀) ?_ (booked_start H hreports)
    (AllSteps.of_forall hcalls) hrun
  exact fun s call t B hcall h => booked_step B hcall h

/-! ## What a user sees -/

theorem getScanDetails_fits {scanId userId : Int} {report : Option Json}
    (h : getScanDetails p db scanId userId = .ok report) : Fits scanId := by
  simp only [getScanDetails, bind_eq_ok, bindParam_int] at h
  obtain ⟨_, ⟨hscan, -⟩, -⟩ := h
  exact hscan

/-- The user sees the scans of the user and nothing else: `history` lists them, newest first,
`get_scan_details` answers for them only, and the scans of others and of nobody can be neither read
nor deleted. No id is given to two scans. -/
structure Isolated (p : Platform) (db₀ : ScanDb) (s : Session) (userId : Int) : Prop where
  history : ∃ data, history s.db userId = .ok data ∧ data.map (fun entry => entry.get "id") =
    (live userId db₀ s.trace).reverse.map fun id => .ok (.int id)
  ordered : (live userId db₀ s.trace).Pairwise (· < ·)
  details : ∀ scanId, (∃ report, getScanDetails p s.db scanId userId = .ok (some report) ∧
    report.truthy) ↔ scanId ∈ live userId db₀ s.trace
  foreign : ∀ row ∈ rows s.db .scans, row.cells .userId ≠ .integer userId → ∀ now,
    perform p now s.db (.getScanDetails row.id userId) = (.details none, s.db) ∧
      perform p now s.db (.deleteScan row.id userId) = (.deleted false, s.db)
  issued : (scanIds db₀ ++ savedIds s.trace).Pairwise (· < ·)

theorem Booked.isolated {s : Session} {userId : Int} (B : Booked p parent db₀ s)
    (huser : Fits userId) : Isolated p db₀ s userId where
  history := by
    refine ⟨_, history_eq B.hasSchema huser, ?_⟩
    rw [← B.own, ownIds, ← List.map_reverse, List.map_map, List.map_map]
    rfl
  ordered := by
    rw [← B.own]
    exact rows_ascending.sublist (List.filter_sublist.map _)
  details scanId := by
    rw [← B.own, ownIds, List.mem_map]
    constructor
    · rintro ⟨report, hreport, -⟩
      by_contra hnone
      simp only [not_exists, not_and] at hnone
      have hscan := getScanDetails_fits hreport
      rw [getScanDetails_absent B.hasSchema hscan huser hnone] at hreport
      cases hreport
    · rintro ⟨row, hrow, rfl⟩
      obtain ⟨entries, hentries⟩ := B.reports row (mem_ownRows.mp hrow).1
      exact ⟨_, getScanDetails_present B.hasSchema huser hrow hentries, Json.truthy_setEntry⟩
  foreign row hrow howner now := by
    have hnot : ∀ r ∈ ownRows userId s.db, r.id ≠ row.id := by
      intro r hr hid
      rw [mem_ownRows] at hr
      exact howner (row_ext hr.1 hrow hid ▸ hr.2)
    have hscan := rows_fits hrow
    simp only [perform, getScanDetails_absent B.hasSchema hscan huser hnot,
      deleteScan_absent B.hasSchema hscan huser hnot, and_self]
  issued := B.issued

/-- Whatever users do after `init_db`, everyone sees their own scans and no others. -/
theorem tenant_isolation {now : Value} {calls : List Call} {s : Session} {userId : Int}
    (hdb : Earlier db) (hinit : (initDb p now db).1 = .ok ())
    (hreports : ∀ row ∈ rows (initDb p now db).2 .scans,
      ∃ entries, storedReport p row = .obj entries)
    (hcalls : ∀ call ∈ calls, call.SavesObject p)
    (hrun : exec (Session.step p) ⟨(initDb p now db).2, []⟩ calls = some s) (huser : Fits userId) :
    Isolated p (initDb p now db).2 s userId := by
  obtain ⟨parent, H⟩ := initDb_hasSchema hdb hinit
  exact (booked_run H hreports hcalls hrun).isolated huser

/-- The platform, with `sha256` on the two passwords. -/
def sharedPlatform : Platform :=
  { findingPlatform with
    sha256 := fun password =>
      if password = "pw" then "30c952fab122c3f9759f02a6d95c3758b246b4fee239957b2d4fee46e26170c4"
      else "8c6976e5b5410415bde908bd4dee15dfb167a9c873fc4bb8a81f6f2ab448a918" }

/-- Two users on a new file: `admin`, with the id 1, saves two scans; the other one cannot delete
the first, `admin` can. -/
def sharedCalls : List Call :=
  [⟨.null, .createUser "bob" "pw"⟩, ⟨.null, .saveScan savedFinding⟩,
   ⟨.null, .saveScan savedFinding⟩, ⟨.null, .deleteScan 1 2⟩, ⟨.null, .deleteScan 1 1⟩,
   ⟨.null, .history 2⟩]

def sharedDb : ScanDb := (initDb sharedPlatform .null fun _ => none).2

theorem tenant_isolation_shared : ∃ s,
    exec (Session.step sharedPlatform) ⟨sharedDb, []⟩ sharedCalls = some s ∧
    live 1 sharedDb s.trace = [2] ∧ Isolated sharedPlatform sharedDb s 1 := by
  obtain ⟨s, hs⟩ : ∃ s, exec (Session.step sharedPlatform) ⟨sharedDb, []⟩ sharedCalls = some s :=
    ⟨_, rfl⟩
  have hlive : (exec (Session.step sharedPlatform) ⟨sharedDb, []⟩ sharedCalls).map
      (fun s => live 1 sharedDb s.trace) = some [2] := by decide
  rw [hs] at hlive
  refine ⟨s, hs, Option.some.inj hlive, tenant_isolation ?_ ?_ ?_ ?_ hs (by decide)⟩
  · exact .current (.inl rfl) (.inl rfl) fun _ => .inl rfl
  · rfl
  · intro row hrow
    have hnone : rows sharedDb .scans = [] := by rfl
    change row ∈ rows sharedDb .scans at hrow
    rw [hnone] at hrow
    cases hrow
  · have hsaves : ∀ call ∈ sharedCalls, ∀ scan, call.operation = .saveScan scan →
        scan = savedFinding := by
      simp [sharedCalls]
    intro call hcall scan hscan
    rw [hsaves call hcall scan hscan]
    exact ⟨_, rfl⟩

end ThreatScanner.Store
