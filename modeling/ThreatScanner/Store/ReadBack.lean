import ThreatScanner.Store.Records
import ThreatScanner.Store.Session
import ThreatScanner.Store.Migration

/-!
# Saved reports read back

A report that `save_scan_result` saved is read back by `get_scan_details` until its owner deletes
it, whatever is saved and deleted in between. The child rows of a scan are told apart by the id of
the scan alone, so the ids the child rows mention must be ids that were given out (`Sound`).
-/

namespace ThreatScanner.Store

open Relational Transition

variable {p : Platform} {now : Value} {db db' : ScanDb} {parent : TableName}

/-! ## Sound databases -/

/-- Every child row refers to a scan. -/
def Refers (db : ScanDb) : Prop :=
  ∀ child : Child, ∀ row ∈ rows db child.table, ∃ scan ∈ rows db .scans,
    row.cells .scanId = .integer scan.id

/-- No child row mentions an id that is yet to be given to a scan. -/
structure Sound (parent : TableName) (db : ScanDb) : Prop where
  hasSchema : HasSchema parent db
  behind : ∃ table, db .scans = some table ∧ ∀ child : Child, ∀ row ∈ rows db child.table,
    ∀ id, row.cells .scanId = .integer id → id ≤ table.seq

theorem refers_finishInit (hscans : schema (createTables db) .scans = some scansColumns)
    (hrefers : Refers db) (hok : (initDb p now db).1 = .ok ()) : Refers (initDb p now db).2 := by
  rw [initDb_eq_finishInit hscans] at hok ⊢
  obtain ⟨-, hother⟩ := finishInit_ok hok
  intro child row hrow
  rw [rows_congr (hother _ child.table_ne_users), rows_createTables] at hrow
  rw [rows_congr (hother .scans (by decide)), rows_createTables]
  exact hrefers child row hrow

/-- A migration leaves no child row. -/
theorem refers_migrate (hscans : LegacyScans db)
    (hchildren : ∀ child : Child,
      schema db child.table = none ∨ schema db child.table = some (child.columns .scans))
    (hrefers : Refers db) (hok : (initDb p now db).1 = .ok ()) : Refers (initDb p now db).2 := by
  rw [initDb_eq_migrate hscans] at hok ⊢
  obtain ⟨renamed, filled, hmigrated⟩ := migrate_ok hok
  intro child row hrow
  have hbefore := hmigrated.rows_subset hrow
  rw [rows_createTables] at hbefore
  obtain ⟨scan, hscan, href⟩ := hrefers child row hbefore
  rw [← rows_createTables] at hscan
  refine absurd hrow (hmigrated.child_gone (fun child => ?_) hscan href)
  rw [schema_createTables_child, getD_of_none_or (hchildren child)]

theorem refers_initDb (h : Earlier db) (hrefers : Refers db) (hok : (initDb p now db).1 = .ok ()) :
    Refers (initDb p now db).2 := by
  cases h with
  | current _ hscans =>
    refine refers_finishInit ?_ hrefers hok
    rw [schema_createTables_scans, getD_of_none_or hscans]
  | legacy _ hscans hchildren => exact refers_migrate hscans hchildren hrefers hok
  | migrated H =>
    refine refers_finishInit ?_ hrefers hok
    rw [schema_createTables_scans, getD_of_none_or (.inr H.scans)]

theorem sound_initDb (h : Earlier db) (hrefers : Refers db) (hok : (initDb p now db).1 = .ok ()) :
    ∃ parent, Sound parent (initDb p now db).2 := by
  obtain ⟨parent, H⟩ := initDb_hasSchema h hok
  obtain ⟨table, htable, -⟩ := schema_eq_some.mp H.scans
  refine ⟨parent, H, table, htable, fun child row hrow id hid => ?_⟩
  obtain ⟨scan, hscan, href⟩ := refers_initDb h hrefers hok child row hrow
  rw [rows_eq htable] at hscan
  rw [hid, Value.integer.injEq] at href
  rw [href]
  exact table.bounded scan hscan

/-! ## One call -/

section Step
variable {scan : ScanRecord} {id scanId userId : Int}

/-- The rows of a scan after another one is saved. -/
theorem Saved.detailRows_of_ne (h : Saved p now db scan id db') (H : HasSchema parent db)
    (child : Child) (hne : scanId ≠ id) :
    detailRows db' child scanId = detailRows db child scanId := by
  obtain ⟨list, items, new, -, -, hrows, hnew⟩ := h.rows_child H child
  have hnone : new.filter (fun row => row.cells .scanId = .integer scanId) = [] := by
    rw [List.filter_eq_nil_iff]
    intro row hrow
    rw [scanId_of_stores hnew row hrow]
    simpa using Ne.symm hne
  rw [detailRows, hrows, List.filter_append, hnone, List.append_nil, ← detailRows]

/-- The rows of a scan after it is saved. -/
theorem Saved.detailRows_self (h : Saved p now db scan id db') (H : HasSchema parent db)
    (child : Child) (hfresh : detailRows db child id = []) : ∃ list items,
      sectionList p scan.report child = .ok list ∧ list.iterate = .ok items ∧
      List.Forall₂ (Stores p now child (child.columns parent) id) items
        (detailRows db' child id) := by
  obtain ⟨list, items, new, hlist, hitems, hrows, hnew⟩ := h.rows_child H child
  refine ⟨list, items, hlist, hitems, ?_⟩
  have hall : new.filter (fun row => row.cells .scanId = .integer id) = new := by
    rw [List.filter_eq_self]
    intro row hrow
    rw [scanId_of_stores hnew row hrow]
    simp
  rw [detailRows, hrows, List.filter_append, hall, ← detailRows, hfresh]
  exact hnew

theorem Sound.fresh (S : Sound parent db) (h : Saved p now db scan id db') (child : Child) :
    detailRows db child id = [] := by
  obtain ⟨table, htable, hbehind⟩ := S.behind
  obtain ⟨table', -, htable', -, hid, -⟩ := h.next
  cases htable.symm.trans htable'
  rw [detailRows, List.filter_eq_nil_iff]
  intro row hrow
  rw [decide_eq_true_eq]
  intro hcell
  have := hbehind child row hrow id hcell
  omega

theorem Sound.performs (S : Sound parent db) {operation : Operation} {reply : Reply}
    (h : Performs p now db operation reply db') : Sound parent db' := by
  obtain ⟨table, htable, hbehind⟩ := S.behind
  refine ⟨S.hasSchema.of_eq h.schema_eq, ?_⟩
  cases h with
  | reads => exact ⟨table, htable, hbehind⟩
  | creates hschema hother =>
    refine ⟨table, (hother .scans (by decide)).trans htable, fun child row hrow => ?_⟩
    rw [rows_congr (hother _ child.table_ne_users)] at hrow
    exact hbehind child row hrow
  | @saves scan id _ h =>
    obtain ⟨table₀, table', htable₀, htable', hid, hseq⟩ := h.next
    cases htable.symm.trans htable₀
    refine ⟨table', htable', fun child row hrow n hcell => ?_⟩
    obtain ⟨list, items, new, -, -, hrows, hnew⟩ := h.rows_child S.hasSchema child
    rw [hrows, List.mem_append] at hrow
    rcases hrow with hrow | hrow
    · have := hbehind child row hrow n hcell
      omega
    · rw [scanId_of_stores hnew row hrow, Value.integer.injEq] at hcell
      omega
  | deletes h =>
    cases h with
    | removed _ _ _ _ hseq hchildren =>
      rw [htable, Option.map_some, Option.map_eq_some_iff] at hseq
      obtain ⟨table', htable', hseq⟩ := hseq
      refine ⟨table', htable', fun child row hrow => ?_⟩
      obtain ⟨keep, hrows, -⟩ := hchildren child
      rw [hrows] at hrow
      rw [hseq]
      exact hbehind child row (List.mem_filter.mp hrow).1

/-- A scan of the user with its child rows is in the store. -/
structure Kept (parent : TableName) (userId : Int) (row : StoreRow)
    (details : Child → List StoreRow) (db : ScanDb) : Prop where
  hasSchema : HasSchema parent db
  own : row ∈ ownRows userId db
  details_eq : ∀ child, detailRows db child row.id = details child

section Kept
variable {row : StoreRow} {details : Child → List StoreRow} {operation : Operation} {reply : Reply}

/-- Only its owner can take a scan out of the store. -/
theorem Kept.own_performs (K : Kept parent userId row details db)
    (h : Performs p now db operation reply db')
    (hother : operation ≠ .deleteScan row.id userId) : row ∈ ownRows userId db' := by
  obtain ⟨hmem, howner⟩ := mem_ownRows.mp K.own
  refine mem_ownRows.mpr ⟨(h.kept K.hasSchema.scans hmem).resolve_right ?_, howner⟩
  rintro ⟨user, huser, hdelete, -⟩
  rw [howner, Value.integer.injEq] at huser
  exact hother (by rw [hdelete, huser])

/-- The child rows of a scan stay while the scan does. -/
theorem Kept.details_performs (K : Kept parent userId row details db)
    (h : Performs p now db operation reply db')
    (hother : operation ≠ .deleteScan row.id userId) (child : Child) :
    detailRows db' child row.id = details child := by
  obtain ⟨hmem, howner⟩ := mem_ownRows.mp K.own
  rw [← K.details_eq child]
  cases h with
  | reads => rfl
  | creates _ hothers => rw [detailRows, rows_congr (hothers _ child.table_ne_users), detailRows]
  | saves h =>
    obtain ⟨table, -, htable, -, hid, -⟩ := h.next
    rw [rows_eq htable] at hmem
    have := table.bounded row hmem
    exact h.detailRows_of_ne K.hasSchema child (by omega)
  | @deletes scanId user _ h =>
    cases h with
    | removed hfound _ _ _ _ hchildren =>
      obtain ⟨keep, hrows, hkeep⟩ := hchildren child
      have hne : row.id ≠ scanId := by
        rintro rfl
        obtain ⟨found, hfound, hid, howner'⟩ := hfound
        rw [row_ext hfound hmem hid, howner, Value.integer.injEq] at howner'
        exact hother (by rw [howner'])
      rw [detailRows, hrows, List.filter_filter, detailRows]
      refine List.filter_congr fun r _ => ?_
      by_cases hcell : r.cells .scanId = .integer row.id
      · rw [hkeep r (by rw [hcell]; simpa using hne), Bool.and_true]
      · simp [hcell]

theorem Kept.performs (K : Kept parent userId row details db)
    (h : Performs p now db operation reply db')
    (hother : operation ≠ .deleteScan row.id userId) : Kept parent userId row details db' where
  hasSchema := K.hasSchema.of_eq h.schema_eq
  own := K.own_performs h hother
  details_eq := K.details_performs h hother

end Kept

end Step

/-! ## Runs -/

theorem sound_run {s t : Session} {calls : List Call} (S : Sound parent s.db)
    (hrun : exec (Session.step p) s calls = some t) : Sound parent t.db := by
  refine exec_invariant (fun s : Session => Sound parent s.db) ?_ S hrun
  intro s call t S h
  rw [step_eq_some h]
  exact S.performs (perform_performs S.hasSchema call.operation)

theorem kept_run {s t : Session} {calls : List Call} {userId : Int} {row : StoreRow}
    {details : Child → List StoreRow} (K : Kept parent userId row details s.db)
    (hcalls : ∀ call ∈ calls, call.operation ≠ .deleteScan row.id userId)
    (hrun : exec (Session.step p) s calls = some t) : Kept parent userId row details t.db := by
  refine exec_invariant_of (fun s : Session => Kept parent userId row details s.db) ?_ K
    (AllSteps.of_forall hcalls) hrun
  intro s call t K hcall h
  rw [step_eq_some h]
  exact K.performs (perform_performs K.hasSchema call.operation) hcall

/-! ## Reports -/

/-- The structured section of the report has the lists of records, with typed fields. -/
structure StructuredReport (report : List (String × Json))
    (records : Child → List (List (String × Json))) : Prop where
  sections : ∃ sections, report.lookup "structured" = some (.obj sections) ∧
    ∀ child : Child, sections.lookup child.key = some (.arr ((records child).map .obj))
  typed : ∀ child, ∀ entries ∈ records child, TypedRecord child entries

/-- `json.loads` and `json.dumps` on the values of a report. -/
structure Codec (p : Platform) (report : List (String × Json))
    (records : Child → List (List (String × Json))) : Prop where
  empty : p.loads "" = none
  report : RoundTrips p (.obj report)
  ips : ∀ child, ∀ entries ∈ records child, ∀ ips, entries.lookup "ips" = some ips →
    RoundTrips p ips

/-- The details give the report, its structured section restricted to the stored columns, and the
history shows its risk and its score. -/
structure ReadsBack (p : Platform) (db : ScanDb) (scanId userId : Int)
    (report : List (String × Json)) (records : Child → List (List (String × Json))) : Prop where
  details : ∃ result, getScanDetails p db scanId userId = .ok (some (.obj result)) ∧
    (∀ key, key ≠ "structured" → result.lookup key = report.lookup key) ∧
    result.lookup "structured" = some (.obj (Child.all.map fun child =>
      (child.key, .arr ((records child).map (restrict child)))))
  listed : ∃ data, history db userId = .ok data ∧
    (∃ entry ∈ data, entry.get "id" = .ok (.int scanId)) ∧
    ∀ entry ∈ data, entry.get "id" = .ok (.int scanId) →
      entry.get "risk" = Json.get (.obj report) "risk" ∧
      entry.get "score" = Json.get (.obj report) "score"

section Report
variable {report : List (String × Json)} {records : Child → List (List (String × Json))}
variable {scanId userId : Int}

theorem Codec.reportData_eq (C : Codec p report records) :
    reportData p (some (p.dumps (.obj report))) = .obj report := by
  have hne : p.dumps (.obj report) ≠ "" := by
    intro h
    have hreport := C.report
    rw [RoundTrips, h, C.empty] at hreport
    cases hreport
  rw [reportData]
  simp only [if_neg hne]
  rw [C.report, Option.getD_some]

theorem Codec.sectionList_eq (C : Codec p report records) (R : StructuredReport report records)
    (child : Child) : sectionList p (some (p.dumps (.obj report))) child =
      .ok (.arr ((records child).map .obj)) := by
  obtain ⟨sections, hsections, hlists⟩ := R.sections
  rw [sectionList, C.reportData_eq, structured, hsections, Option.getD_some, Json.get, hlists,
    Option.getD_some]

/-- What the rows of a scan must be for its report to read back. -/
structure StoresReport (p : Platform) (now : Value) (parent : TableName)
    (report : List (String × Json))
    (records : Child → List (List (String × Json))) (row : StoreRow)
    (details : Child → List StoreRow) : Prop where
  report_eq : storedReport p row = .obj report
  risk : fromValue (row.cells .risk) = (report.lookup "risk").getD .null
  score : fromValue (row.cells .score) = (report.lookup "score").getD .null
  records_eq : ∀ child, List.Forall₂ (Stores p now child (child.columns parent) row.id)
    ((records child).map .obj) (details child)

theorem Kept.readsBack {row : StoreRow} {details : Child → List StoreRow}
    (K : Kept parent userId row details db)
    (h : StoresReport p now parent report records row details)
    (R : StructuredReport report records) (C : Codec p report records) (huser : Fits userId) :
    ReadsBack p db row.id userId report records where
  details := by
    refine ⟨_, getScanDetails_present K.hasSchema huser K.own h.report_eq, fun key hkey => ?_, ?_⟩
    · rw [Json.lookup_setEntry, if_neg hkey]
    · rw [Json.lookup_setEntry, if_pos rfl, detailLists]
      congr 2
      refine List.map_congr_left fun child _ => ?_
      rw [K.details_eq child, map_recordJson_of_stores C.empty (C.ips child) (R.typed child)
        (h.records_eq child)]
  listed := by
    refine ⟨_, history_eq K.hasSchema huser, ⟨historyEntry row, ?_, rfl⟩, ?_⟩
    · exact List.mem_map_of_mem (List.mem_reverse.mpr K.own)
    · intro entry hentry hid
      obtain ⟨row', hrow', rfl⟩ := List.mem_map.mp hentry
      have hid : row'.id = row.id := by
        injection hid with hid
        injection hid
      rw [row_ext (mem_ownRows.mp (List.mem_reverse.mp hrow')).1 (mem_ownRows.mp K.own).1 hid]
      exact ⟨congrArg Except.ok h.risk, congrArg Except.ok h.score⟩

/-- The user is found by the id. -/
theorem getUserById_found {user : Option User} (h : getUserById db userId = .ok user)
    (hrow : ∃ row ∈ rows db .users, row.id = userId) : user.map (·.id) = some userId := by
  simp only [getUserById, bind_eq_ok, bindParam_int, sql_eq_ok] at h
  obtain ⟨_, ⟨-, rfl⟩, found, hfound, hret⟩ := h
  cases hret
  obtain ⟨-, -, -, rfl⟩ := select_eq_ok.mp hfound
  obtain ⟨row, hmem, hid⟩ := hrow
  rw [Option.map_map, List.head?_filter]
  cases hfind : (rows db .users).find? fun row => Value.integer row.id = .integer userId with
  | none =>
    rw [List.find?_eq_none] at hfind
    exact absurd (by rw [hid]; simp) (hfind row hmem)
  | some row' =>
    have hid' := List.find?_some hfind
    simp only [Value.integer.injEq, decide_eq_true_eq] at hid'
    rw [Option.map_some, Function.comp_apply, hid']

/-- The report of an existing user, once it is saved. -/
theorem saveScanResult_ok {target : String} (S : Sound parent db)
    (R : StructuredReport report records) (C : Codec p report records)
    (hrow : ∃ row ∈ rows db .users, row.id = userId)
    (hrisk : Unconverted p.conv .text ((report.lookup "risk").getD .null))
    (hscore : Unconverted p.conv .integer ((report.lookup "score").getD .null))
    (h : saveScanResult p now db target (.obj report) userId = .ok (scanId, db')) :
    Sound parent db' ∧ ∃ row details, row.id = scanId ∧ Kept parent userId row details db' ∧
      StoresReport p now parent report records row details := by
  simp only [saveScanResult, bind_eq_ok, python_eq_ok, Json.get, Except.ok.injEq] at h
  obtain ⟨user, huser, risk, rfl, score, rfl, alerts, rfl, hsave⟩ := h
  have huser := getUserById_found huser hrow
  have h := saveScan_ok hsave
  obtain ⟨row, hrows, rfl, hstores⟩ := h.storesScan S.hasSchema.scans
  obtain ⟨r, hr, hriskCell⟩ := hstores.risk
  obtain ⟨c, hc, hscoreCell⟩ := hstores.score
  refine ⟨S.performs (.saves h), row, fun child => detailRows db' child row.id, rfl,
    ⟨S.hasSchema.of_eq h.schema_eq, ?_, fun _ => rfl⟩, ?_, ?_, ?_, fun child => ?_⟩
  · refine mem_ownRows.mpr ⟨?_, (hstores.owner userId).mpr huser⟩
    rw [hrows]
    exact List.mem_append_right _ List.mem_cons_self
  · rw [hstores.report]
    exact C.reportData_eq
  · rw [hriskCell]
    exact fromValue_of_unconverted hrisk hr
  · rw [hscoreCell]
    exact fromValue_of_unconverted hscore hc
  · obtain ⟨list, items, hlist, hitems, hrecords⟩ :=
      h.detailRows_self S.hasSchema child (S.fresh h child)
    rw [C.sectionList_eq R child] at hlist
    cases hlist
    cases hitems
    exact hrecords

/-- A saved report reads back unchanged until its owner deletes it. -/
theorem saved_report_reads_back {now' : Value} {before after : List Call} {s t : Session}
    {target : String} {saved : ScanDb} (hdb : Earlier db) (hrefers : Refers db)
    (hinit : (initDb p now db).1 = .ok ())
    (hbefore : exec (Session.step p) ⟨(initDb p now db).2, []⟩ before = some s)
    (hrow : ∃ row ∈ rows s.db .users, row.id = userId)
    (R : StructuredReport report records) (C : Codec p report records)
    (hrisk : Unconverted p.conv .text ((report.lookup "risk").getD .null))
    (hscore : Unconverted p.conv .integer ((report.lookup "score").getD .null))
    (hsave : saveScanResult p now' s.db target (.obj report) userId = .ok (scanId, saved))
    (hothers : ∀ call ∈ after, call.operation ≠ .deleteScan scanId userId)
    (hafter : exec (Session.step p) ⟨saved, s.trace⟩ after = some t) :
    ReadsBack p t.db scanId userId report records := by
  obtain ⟨parent, S₀⟩ := sound_initDb hdb hrefers hinit
  have S : Sound parent s.db := sound_run S₀ hbefore
  obtain ⟨-, row, details, rfl, K, h⟩ := saveScanResult_ok S R C hrow hrisk hscore hsave
  have huser : Fits userId := by
    obtain ⟨user, huser, rfl⟩ := hrow
    exact rows_fits huser
  exact (kept_run K hothers hafter).readsBack h R C huser

end Report

/-! ## Two reports -/

def sampleReport (risk : Json) (records : Child → List (List (String × Json))) :
    List (String × Json) :=
  [("risk", risk), ("score", .int 40), ("structured", .obj (Child.all.map fun child =>
    (child.key, .arr ((records child).map .obj))))]

/-- `json.dumps` and `json.loads` on the sample report, on its addresses and on no alerts, and
`sha256` on the password of `admin`. -/
def samplePlatform (text : String) (report : List (String × Json)) : Platform where
  conv := ⟨fun _ => "", fun _ => none⟩
  spills _ := false
  sha256 _ := "8c6976e5b5410415bde908bd4dee15dfb167a9c873fc4bb8a81f6f2ab448a918"
  dumps
    | .obj _ => text
    | .arr [] => "[]"
    | _ => "[\"10.0.0.1\"]"
  loads s :=
    if s = text then some (.obj report)
    else if s = "[]" then some (.arr [])
    else if s = "[\"10.0.0.1\"]" then some (.arr [.str "10.0.0.1"])
    else none

theorem samplePlatform_report (text : String) (report : List (String × Json)) :
    RoundTrips (samplePlatform text report) (.obj report) := if_pos rfl

theorem structured_sampleReport {risk : Json} {records : Child → List (List (String × Json))}
    (htyped : ∀ child, ∀ entries ∈ records child, TypedRecord child entries) :
    StructuredReport (sampleReport risk records) records :=
  ⟨⟨_, rfl, fun child => by cases child <;> rfl⟩, htyped⟩

def emptyFile : ScanDb := fun _ => none

theorem earlier_emptyFile : Earlier emptyFile := .current (.inl rfl) (.inl rfl) fun _ => .inl rfl

theorem refers_emptyFile : Refers emptyFile := fun _ _ hrow => nomatch hrow

def oneSubdomain : Child → List (List (String × Json))
  | .subdomains => [[("subdomain", .str "api.example.com"), ("ips", .arr [.str "10.0.0.1"]),
      ("http", .bool true), ("https", .bool false), ("status_code", .int 200)]]
  | _ => []

def subdomainText : String :=
  "\x7b\"risk\": \"HIGH\", \"score\": 40, \"structured\": \x7b\"scan_findings\": [], " ++
  "\"scan_subdomains\": [\x7b\"subdomain\": \"api.example.com\", \"ips\": [\"10.0.0.1\"], " ++
  "\"http\": true, \"https\": false, \"status_code\": 200\x7d], " ++
  "\"scan_ports\": [], \"scan_cves\": []\x7d\x7d"

def subdomainPlatform : Platform :=
  samplePlatform subdomainText (sampleReport (.str "HIGH") oneSubdomain)

theorem typed_oneSubdomain : ∀ child, ∀ entries ∈ oneSubdomain child,
    TypedRecord child entries := by
  intro child entries hentries
  cases child with
  | subdomains =>
    rw [oneSubdomain, List.mem_singleton] at hentries
    rw [hentries]
    simp only [TypedRecord, Child.fields, List.forall_mem_cons]
    refine ⟨trivial, ⟨["10.0.0.1"], rfl⟩, ⟨true, rfl⟩, ⟨false, rfl⟩, trivial, trivial, ?_⟩
    exact List.forall_mem_nil _
  | _ => exact absurd hentries List.not_mem_nil

theorem codec_subdomain :
    Codec subdomainPlatform (sampleReport (.str "HIGH") oneSubdomain) oneSubdomain := by
  refine ⟨by decide, samplePlatform_report _ _, fun child entries hentries ips hips => ?_⟩
  cases child with
  | subdomains =>
    rw [oneSubdomain, List.mem_singleton] at hentries
    rw [hentries] at hips
    cases hips
    rfl
  | _ => exact absurd hentries List.not_mem_nil

/-- Another scan is saved and deleted, and someone else tries to delete the first one. -/
def laterCalls : List Call :=
  [⟨.null, .saveScan ⟨some 1, "example.org", .null, .null, "[]", some subdomainText⟩⟩,
   ⟨.null, .deleteScan 1 2⟩, ⟨.null, .deleteScan 2 1⟩]

set_option maxRecDepth 10000 in
theorem saved_report_reads_back_subdomain : ∃ saved t,
    saveScanResult subdomainPlatform .null (initDb subdomainPlatform .null emptyFile).2
      "example.com" (.obj (sampleReport (.str "HIGH") oneSubdomain)) 1 = .ok (1, saved) ∧
    exec (Session.step subdomainPlatform) ⟨saved, []⟩ laterCalls = some t ∧
    ReadsBack subdomainPlatform t.db 1 1 (sampleReport (.str "HIGH") oneSubdomain)
      oneSubdomain := by
  obtain ⟨saved, hsave⟩ : ∃ saved, saveScanResult subdomainPlatform .null
      (initDb subdomainPlatform .null emptyFile).2 "example.com"
      (.obj (sampleReport (.str "HIGH") oneSubdomain)) 1 = .ok (1, saved) := ⟨_, rfl⟩
  obtain ⟨t, ht⟩ : ∃ t, exec (Session.step subdomainPlatform) ⟨saved, []⟩ laterCalls = some t :=
    ⟨_, rfl⟩
  have hrow : ∃ row ∈ rows (initDb subdomainPlatform .null emptyFile).2 .users, row.id = 1 :=
    ⟨_, List.mem_cons_self, rfl⟩
  refine ⟨saved, t, hsave, ht, ?_⟩
  exact saved_report_reads_back earlier_emptyFile refers_emptyFile rfl exec_nil hrow
    (structured_sampleReport typed_oneSubdomain) codec_subdomain trivial trivial hsave
    (by simp [laterCalls]) ht

def numericText : String :=
  "\x7b\"risk\": 5, \"score\": 40, \"structured\": \x7b\"scan_findings\": [], " ++
  "\"scan_subdomains\": [], \"scan_ports\": [], \"scan_cves\": []\x7d\x7d"

def numericPlatform : Platform :=
  samplePlatform numericText (sampleReport (.int 5) fun _ => [])

def numericDb : ScanDb :=
  match saveScanResult numericPlatform .null (initDb numericPlatform .null emptyFile).2
    "example.com" (.obj (sampleReport (.int 5) fun _ => [])) 1 with
  | .ok (_, db) => db
  | .error _ => emptyFile

set_option maxRecDepth 10000 in
/-- The risk of this report is a number; the history shows it as text. -/
theorem numeric_risk_changed :
    Earlier emptyFile ∧ Refers emptyFile ∧ (initDb numericPlatform .null emptyFile).1 = .ok () ∧
    (∃ row ∈ rows (initDb numericPlatform .null emptyFile).2 .users, row.id = 1) ∧
    StructuredReport (sampleReport (.int 5) fun _ => []) (fun _ => []) ∧
    Codec numericPlatform (sampleReport (.int 5) fun _ => []) (fun _ => []) ∧
    saveScanResult numericPlatform .null (initDb numericPlatform .null emptyFile).2 "example.com"
      (.obj (sampleReport (.int 5) fun _ => [])) 1 = .ok (1, numericDb) ∧
    ¬ReadsBack numericPlatform numericDb 1 1 (sampleReport (.int 5) fun _ => []) fun _ => [] := by
  refine ⟨earlier_emptyFile, refers_emptyFile, rfl, ⟨_, List.mem_cons_self, rfl⟩,
    structured_sampleReport nofun, ⟨by decide, samplePlatform_report _ _, nofun⟩, rfl,
    fun h => ?_⟩
  have H : HasSchema .scans numericDb :=
    ⟨by rfl, by rfl, fun child => by cases child <;> rfl, .inl rfl⟩
  obtain ⟨data, hdata, ⟨entry, hentry, hid⟩, hall⟩ := h.listed
  have hrisk := (hall entry hentry hid).1
  rw [history_eq H (by decide)] at hdata
  cases hdata
  obtain ⟨row, hrow, rfl⟩ := List.mem_map.mp hentry
  have hcells : (ownRows 1 numericDb).map (·.cells .risk) = [.text "5"] := by rfl
  have hcell : row.cells .risk ∈ (ownRows 1 numericDb).map (·.cells .risk) :=
    List.mem_map_of_mem (List.mem_reverse.mp hrow)
  rw [hcells, List.mem_singleton] at hcell
  change Except.ok (fromValue (row.cells .risk)) = Except.ok (Json.int 5) at hrisk
  rw [hcell] at hrisk
  cases hrisk

end ThreatScanner.Store
