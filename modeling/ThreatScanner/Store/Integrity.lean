import ThreatScanner.Store.Programs
import ThreatScanner.Store.ReadBack

/-!
# Referential integrity of the store

On a file that `init_db` has created, whatever the functions of `db.py` do and in whatever order,
the child rows refer to scans and the scans to users (`Intact`), and a deletion takes a scan with
its child rows and nothing else.
-/

namespace ThreatScanner.Store

open Relational

variable {p : Platform} {now : Value} {db db' : ScanDb}

/-- A scan without an owner, or of a user that exists. -/
def OwnerExists (db : ScanDb) (scan : StoreRow) : Prop :=
  scan.cells .userId = .null ∨ ∃ user ∈ rows db .users, scan.cells .userId = .integer user.id

/-- The scan of the user is gone with its child rows, and everything else is as it was. -/
structure RemovesExactly (db : ScanDb) (scanId userId : Int) (after : ScanDb) : Prop where
  found : ∃ row ∈ rows db .scans, row.id = scanId ∧ row.cells .userId = .integer userId
  scans : rows after .scans = (rows db .scans).filter (·.id ≠ scanId)
  children : ∀ child : Child, rows after child.table =
    (rows db child.table).filter (·.cells .scanId ≠ .integer scanId)
  other : ∀ t, t ≠ .scans → (∀ child : Child, t ≠ child.table) → rows after t = rows db t

/-- A deletion that succeeds removes exactly the scan it is asked to. -/
def DeletesExactly (db : ScanDb) : Prop :=
  ∀ scanId userId after, (deleteScanProgram scanId userId).run db = (.ok true, after) →
    RemovesExactly db scanId userId after

/-- The current schema, with every reference to a row that exists. -/
structure Intact (db : ScanDb) : Prop where
  hasSchema : HasSchema .scans db
  scansOld : db .scansOld = none
  refers : Refers db
  owned : ∀ scan ∈ rows db .scans, OwnerExists db scan

/-! ## Deleting -/

theorem doomed_child_iff {hit : TableName → StoreRow → Bool} (H : HasSchema .scans db)
    (hhit : ∀ t row, hit t row = true → t = .scans) {n : Nat} {child : Child} {row : StoreRow} :
    doomed db hit (n + 1) child.table row = true ↔
      ∃ scan ∈ rows db .scans, hit .scans scan = true ∧ row.cells .scanId = .integer scan.id := by
  refine ⟨refers_of_doomed H hhit, fun ⟨scan, hscan, hdoomed, href⟩ => ?_⟩
  have hcolumn : scanIdColumn .scans ∈ columns db child.table := by
    rw [columns_of_schema (H.children child)]
    exact List.mem_cons_self
  exact doomed_of_reference hcolumn rfl hscan href (doomed_of_hit hdoomed)

/-- There is one row with the id, and the user owns it. -/
theorem id_eq_iff_of_found {scanId userId : Int} (hfound : ∃ row ∈ rows db .scans,
      row.id = scanId ∧ row.cells .userId = .integer userId) {row : StoreRow}
    (hrow : row ∈ rows db .scans) :
    row.id = scanId ∧ row.cells .userId = .integer userId ↔ row.id = scanId := by
  obtain ⟨found, hmem, hid, howner⟩ := hfound
  rw [and_iff_left_iff_imp]
  intro hrowId
  rwa [row_ext hrow hmem (hrowId.trans hid.symm)]

/-- The child rows that a deletion takes along are those of the scan. -/
theorem HasSchema.rows_child_delete (H : HasSchema .scans db) {scanId userId : Int}
    (hfound : ∃ row ∈ rows db .scans, row.id = scanId ∧ row.cells .userId = .integer userId)
    (child : Child) : rows (delete db cascadeDepth (scanHit scanId userId)) child.table =
      (rows db child.table).filter (·.cells .scanId ≠ .integer scanId) := by
  rw [rows_delete]
  refine List.filter_congr fun row _ => ?_
  rw [Bool.eq_iff_iff, Bool.not_eq_true', Bool.eq_false_iff, decide_eq_true_eq, ne_eq,
    cascadeDepth, doomed_child_iff H fun _ _ => scanHit_scans, not_iff_not]
  constructor
  · rintro ⟨scan, -, hhit, href⟩
    rwa [(scanHit_iff.mp hhit).1] at href
  · intro href
    obtain ⟨found, hmem, hid, howner⟩ := hfound
    exact ⟨found, hmem, scanHit_iff.mpr ⟨hid, howner⟩, by rwa [hid]⟩

theorem HasSchema.removesExactly (H : HasSchema .scans db) (hold : db .scansOld = none)
    {scanId userId : Int} (h : deleteScan db scanId userId = .ok (true, db')) :
    RemovesExactly db scanId userId db' := by
  obtain ⟨hfound, rfl⟩ := deleteScan_true h
  cases deleteScan_ok H h with
  | removed _ _ husers hrows _ _ =>
    refine ⟨hfound, ?_, H.rows_child_delete hfound, fun t hscans hchildren => ?_⟩
    · rw [hrows]
      refine List.filter_congr fun row hrow => ?_
      simp only [← Bool.decide_and, id_eq_iff_of_found hfound hrow, ne_eq, decide_not]
    · cases t with
      | users => exact husers
      | scansOld =>
        rw [rows, delete, hold, rows, hold]
        rfl
      | scans => exact (hscans rfl).elim
      | scanFindings => exact (hchildren .findings rfl).elim
      | scanSubdomains => exact (hchildren .subdomains rfl).elim
      | scanPorts => exact (hchildren .ports rfl).elim
      | scanCves => exact (hchildren .cves rfl).elim

/-! ## What keeps the references -/

theorem Intact.deletesExactly (I : Intact db) : DeletesExactly db := by
  intro scanId userId after hrun
  rw [deleteScanProgram_run] at hrun
  cases h : deleteScan db scanId userId with
  | error e => rw [h] at hrun; cases hrun
  | ok r =>
    obtain ⟨deleted, db'⟩ := r
    rw [h] at hrun
    cases hrun
    exact I.hasSchema.removesExactly I.scansOld h

/-- More users do no harm. -/
theorem Intact.grows (I : Intact db) (hschema : schema db' = schema db)
    (hother : ∀ t, t ≠ .users → db' t = db t)
    (husers : ∀ user ∈ rows db .users, user ∈ rows db' .users) : Intact db' := by
  have hscans : rows db' .scans = rows db .scans := rows_congr (hother .scans (by decide))
  have hold : db' .scansOld = none := (hother .scansOld (by decide)).trans I.scansOld
  refine ⟨I.hasSchema.of_eq hschema, hold, fun child row hrow => ?_, fun scan hscan => ?_⟩
  · rw [rows_congr (hother _ child.table_ne_users)] at hrow
    rw [hscans]
    exact I.refers child row hrow
  · rw [hscans] at hscan
    obtain hnull | ⟨user, huser, howner⟩ := I.owned scan hscan
    · exact .inl hnull
    · exact .inr ⟨user, husers user huser, howner⟩

theorem createUser_grows {username password : String} {created : Bool}
    (h : createUser p now db username password = .ok (created, db')) :
    ∀ user ∈ rows db .users, user ∈ rows db' .users := by
  unfold createUser at h
  split at h
  · rename_i hinsert
    cases h
    intro user huser
    rw [rows_insert hinsert rfl]
    exact List.mem_append_left _ huser
  · cases h
    exact fun user huser => huser
  · cases h

theorem Intact.createUser (I : Intact db) {username password : String} {created : Bool}
    (h : createUser p now db username password = .ok (created, db')) : Intact db' :=
  I.grows (createUser_ok h).1 (createUser_ok h).2 (createUser_grows h)

/-- The rows of a scan that is saved refer to it, and SQLite has checked its owner. -/
theorem Intact.saveScan (I : Intact db) {scan : ScanRecord} {scanId : Int}
    (h : saveScan p now db scan = .ok (scanId, db')) : Intact db' := by
  have S := saveScan_ok h
  obtain ⟨table, userId, risk, score, htable, -, -, -, hscans, haccepted⟩ := S.row
  have husers : rows db' .users = rows db .users :=
    rows_congr (S.other .users (by decide) fun child => child.table_ne_users.symm)
  have hold : db' .scansOld = none :=
    (S.other .scansOld (by decide) fun child => child.table_ne_scansOld.symm).trans I.scansOld
  refine ⟨I.hasSchema.of_eq S.schema_eq, hold, fun child row hrow => ?_, fun row hrow => ?_⟩
  · obtain ⟨list, items, new, -, -, hrows, hstores⟩ := S.rows_child I.hasSchema child
    rw [hrows, List.mem_append] at hrow
    rw [hscans]
    obtain hrow | hrow := hrow
    · obtain ⟨parent, hparent, href⟩ := I.refers child row hrow
      exact ⟨parent, List.mem_append_left _ hparent, href⟩
    · refine ⟨_, List.mem_append_right _ (List.mem_singleton_self _), ?_⟩
      exact scanId_of_stores hstores row hrow
  · rw [hscans, List.mem_append, List.mem_singleton] at hrow
    rw [OwnerExists, husers]
    obtain hrow | rfl := hrow
    · exact I.owned row hrow
    · have hcolumn : userIdColumn ∈ table.columns := by
        rw [← columns_eq htable, columns_of_schema I.hasSchema.scans]
        exact List.mem_cons_self
      exact refers_of_accepted haccepted hcolumn rfl

theorem Intact.deleteScan (I : Intact db) {scanId userId : Int} {deleted : Bool}
    (h : deleteScan db scanId userId = .ok (deleted, db')) : Intact db' := by
  cases deleted with
  | false =>
    obtain ⟨rfl, -⟩ := deleteScan_false h
    exact I
  | true =>
    have R := I.hasSchema.removesExactly I.scansOld h
    obtain ⟨-, rfl⟩ := deleteScan_true h
    have hold : delete db cascadeDepth (scanHit scanId userId) .scansOld = none := by
      rw [delete, I.scansOld, Option.map_none]
    refine ⟨I.hasSchema.of_eq schema_delete, hold, fun child row hrow => ?_, fun scan hscan => ?_⟩
    · rw [R.children, List.mem_filter, decide_eq_true_eq] at hrow
      obtain ⟨scan, hscan, href⟩ := I.refers child row hrow.1
      refine ⟨scan, ?_, href⟩
      rw [R.scans, List.mem_filter, decide_eq_true_eq]
      refine ⟨hscan, fun hid => hrow.2 ?_⟩
      rw [href, hid]
    · rw [R.scans, List.mem_filter] at hscan
      rw [OwnerExists, R.other .users (by decide) fun child => child.table_ne_users.symm]
      exact I.owned scan hscan.1

/-! ## `init_db` -/

theorem finishInit_cases :
    (finishInit p now .none db db).2 = db ∨
      ∃ created, createUser p now db "admin" "admin" =
        .ok (created, (finishInit p now .none db db).2) := by
  unfold finishInit
  cases createIndexes db with
  | error e => exact .inl rfl
  | ok =>
    cases getUserByUsername db "admin" with
    | error e => exact .inl rfl
    | ok admin =>
      cases admin with
      | some user => exact .inl rfl
      | none =>
        cases h : Store.createUser p now db "admin" "admin" with
        | error e => exact .inl (by simp)
        | ok r => exact .inr ⟨r.1, by simp⟩

theorem Intact.initDb (h : Intact (createTables db)) : Intact (initDb p now db).2 := by
  rw [initDb_eq_finishInit h.hasSchema.scans]
  obtain hsame | ⟨created, hcreate⟩ := finishInit_cases
  · rw [hsame]
    exact h
  · exact h.createUser hcreate

theorem intact_createTables_emptyFile : Intact (createTables emptyFile) where
  hasSchema := ⟨schema_createTables_users, schema_createTables_scans, schema_createTables_child,
    .inl rfl⟩
  scansOld := by
    rw [← schema_eq_none, schema_createTables_scansOld]
    rfl
  refers child row hrow := by
    rw [rows_createTables] at hrow
    cases hrow
  owned scan hscan := by
    rw [rows_createTables] at hscan
    cases hscan

/-! ## Sequences of calls -/

inductive Action where
  | createUser (username password : String)
  | saveScan (scan : ScanRecord)
  | deleteScan (scanId userId : Int)
  | initDb

/-- The store after the call, whether it returns or raises. -/
def Action.after (p : Platform) (now : Value) (db : ScanDb) : Action → ScanDb
  | createUser username password => ((createUserProgram p now username password).run db).2
  | saveScan scan => ((saveScanProgram p now scan).run db).2
  | deleteScan scanId userId => ((deleteScanProgram scanId userId).run db).2
  | initDb => (Store.initDb p now db).2

/-- The store after a sequence of calls, each at its time, on a file that `init_db` has created. -/
def storeAfter (p : Platform) (start : Value) (calls : List (Value × Action)) : ScanDb :=
  calls.foldl (fun db call => call.2.after p call.1 db) (initDb p start emptyFile).2

theorem settled_of {E α : Type} {P : ScanDb → Prop} {x : Except E (α × ScanDb)} (h : P db)
    (hok : ∀ a db', x = .ok (a, db') → P db') : P (settled db x).2 := by
  cases x with
  | error e => exact h
  | ok r => exact hok r.1 r.2 rfl

theorem Intact.after (I : Intact db) (action : Action) : Intact (action.after p now db) := by
  cases action with
  | createUser username password =>
    have hnone : ∀ column ∈ columns db .users, column.references = none := by
      rw [columns_of_schema I.hasSchema.users]
      decide
    rw [Action.after, createUserProgram_run hnone]
    exact settled_of I fun _ _ h => I.createUser h
  | saveScan scan =>
    rw [Action.after, saveScanProgram_run]
    exact settled_of I fun _ _ h => I.saveScan h
  | deleteScan scanId userId =>
    rw [Action.after, deleteScanProgram_run]
    exact settled_of I fun _ _ h => I.deleteScan h
  | initDb =>
    have htables : createTables db = db := createTables_eq I.hasSchema
    rw [← htables] at I
    exact I.initDb

theorem intact_storeAfter (p : Platform) (start : Value) (calls : List (Value × Action)) :
    Intact (storeAfter p start calls) := by
  induction calls using List.reverseRecOn with
  | nil => exact intact_createTables_emptyFile.initDb
  | append_singleton calls call ih =>
    rw [storeAfter, List.foldl_append]
    exact ih.after call.2

/-- Referential integrity: after any sequence of calls every child row refers to a scan and every
scan to a user, if to any, and a deletion that succeeds then removes exactly its scan with the
child rows of the scan. -/
theorem store_integrity (p : Platform) (start : Value) (calls : List (Value × Action)) :
    Refers (storeAfter p start calls) ∧
      (∀ scan ∈ rows (storeAfter p start calls) .scans,
        OwnerExists (storeAfter p start calls) scan) ∧
      DeletesExactly (storeAfter p start calls) :=
  ⟨(intact_storeAfter p start calls).refers, (intact_storeAfter p start calls).owned,
    (intact_storeAfter p start calls).deletesExactly⟩

end ThreatScanner.Store
