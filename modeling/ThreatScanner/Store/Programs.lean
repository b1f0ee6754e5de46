import ThreatScanner.Library.Connection
import ThreatScanner.Store.Rules

/-!
# The functions of `db.py` statement by statement

`create_user`, `save_scan` and `delete_scan` as they run on a connection of their own: the pragma,
the statements, the commit and the rollback. `createUserProgram_run` and its companions say that
they do what the functions on databases do, and that a call that raises leaves the store as it was.
-/

namespace ThreatScanner.Store

open Relational

variable (p : Platform) (now : Value)

/-- A function of `db.py` on its connection. -/
abbrev StoreProgram (α : Type) := Program TableName ColumnName StoreError α

/-- `create_user`, which does not switch the foreign keys on. -/
def createUserProgram (username password : String) : StoreProgram Bool :=
  Program.catching (fun e => if e = .sql .constraint then some false else none) do
    let _ ← Program.insert .sql p.conv now .users
      [(.username, .text username), (.password, .text (p.sha256 password))]
    Program.modify Connection.commit
    pure true

def saveRecordsProgram (child : Child) (scanId : Int) : List Json → StoreProgram Unit
  | [] => pure ()
  | item :: rest => do
    let values ← Program.lift (recordValues p child scanId item)
    let _ ← Program.insert .sql p.conv now child.table values
    saveRecordsProgram child scanId rest

def saveListsProgram (scanId : Int) : List (Child × Json) → StoreProgram Unit
  | [] => pure ()
  | (child, list) :: rest => do
    let items ← Program.lift (python list.iterate)
    saveRecordsProgram p now child scanId items
    saveListsProgram scanId rest

/-- The statements of `save_scan` between the pragma and the commit. -/
def saveScanStatements (scan : ScanRecord) : StoreProgram Int := do
  let userId ← Program.lift (bindParam ((scan.userId.map .int).getD .null))
  let risk ← Program.lift (bindParam scan.risk)
  let score ← Program.lift (bindParam scan.score)
  let scanId ← Program.insert .sql p.conv now .scans (scanValues scan userId risk score)
  let lists ← Program.lift <| Child.all.mapM fun child => do
    let list ← python ((structured (reportData p scan.report)).get child.key (.arr []))
    .ok (child, list)
  saveListsProgram p now scanId lists
  pure scanId

/-- `save_scan`. -/
def saveScanProgram (scan : ScanRecord) : StoreProgram Int :=
  Program.enforced do
    let scanId ← saveScanStatements p now scan
    Program.modify Connection.commit
    pure scanId

/-- `delete_scan`. -/
def deleteScanProgram (scanId userId : Int) : StoreProgram Bool :=
  Program.enforced do
    let scan ← Program.lift (bindParam (.int scanId))
    let user ← Program.lift (bindParam (.int userId))
    match ← Program.read fun db => selectScan db [.userId] scan user with
    | none => pure false
    | some _ =>
      Program.delete cascadeDepth fun t row =>
        t = .scans && Value.integer row.id = scan && row.cells .userId = user
      Program.modify Connection.commit
      pure true

/-! ## The programs compute the functions -/

section Computes
variable {p now} {db : ScanDb} {conn : Connection TableName ColumnName}

theorem follows_saveRecords {child : Child} {scanId : Int} {items : List Json}
    (h : conn.foreignKeys = true) : Follows (saveRecordsProgram p now child scanId items) conn
      ((fun db => ((), db)) <$> saveRecords p now child scanId items conn.view) := by
  induction items generalizing conn with
  | nil => exact follows_pure h
  | cons item rest ih =>
    rw [saveRecordsProgram, saveRecords, map_bind]
    refine .lift fun values _ => ?_
    rw [map_bind]
    refine (follows_insert h).bind fun id db after hafter => ?_
    rw [← hafter.view]
    exact ih hafter.foreignKeys

theorem follows_saveLists {scanId : Int} {lists : List (Child × Json)}
    (h : conn.foreignKeys = true) : Follows (saveListsProgram p now scanId lists) conn
      ((fun db => ((), db)) <$> saveLists p now scanId lists conn.view) := by
  induction lists generalizing conn with
  | nil => exact follows_pure h
  | cons entry rest ih =>
    obtain ⟨child, list⟩ := entry
    rw [saveListsProgram, saveLists, map_bind]
    refine .lift fun items _ => ?_
    rw [map_bind]
    refine (follows_saveRecords h).bind_unit fun db after hafter => ?_
    rw [← hafter.view]
    exact ih hafter.foreignKeys

theorem follows_saveScan {scan : ScanRecord} (h : conn.foreignKeys = true) :
    Follows (saveScanStatements p now scan) conn (saveScan p now conn.view scan) := by
  unfold saveScanStatements saveScan
  refine .lift fun userId _ => .lift fun risk _ => .lift fun score _ => ?_
  refine (follows_insert h).bind fun scanId db after hafter => .lift fun lists _ => ?_
  rw [← hafter.view]
  refine (follows_saveLists hafter.foreignKeys).bind_unit fun db' after' hafter' => ?_
  rw [← hafter'.view]
  exact follows_pure hafter'.foreignKeys

/-- `save_scan` does what `saveScan` does, or nothing when that raises. -/
theorem saveScanProgram_run {scan : ScanRecord} :
    (saveScanProgram p now scan).run db = settled db (saveScan p now db scan) :=
  run_transaction (follows_saveScan rfl)

theorem deleteScanProgram_run {scanId userId : Int} :
    (deleteScanProgram scanId userId).run db = settled db (deleteScan db scanId userId) := by
  refine enforced_lift fun scan _ => enforced_lift fun user _ => enforced_read fun found _ => ?_
  cases found with
  | none => rfl
  | some row => rfl

/-- `create_user` does not switch the foreign keys on, and its table has none. -/
theorem createUserProgram_run {username password : String}
    (h : ∀ column ∈ columns db .users, column.references = none) :
    (createUserProgram p now username password).run db =
      settled db (createUser p now db username password) := by
  have hinsert : insertUnchecked p.conv now (Connection.connect db).begin.view .users
      [(.username, .text username), (.password, .text (p.sha256 password))] = insert p.conv now db
        .users [(.username, .text username), (.password, .text (p.sha256 password))] :=
    insertUnchecked_eq h
  have hkeys : ¬(Connection.connect db).begin.foreignKeys = true := Bool.false_ne_true
  simp only [createUserProgram, createUser, Program.run, Program.catching, Program.insert,
    Program.modify, Bind.bind, if_neg hkeys, hinsert]
  cases insert p.conv now db .users
      [(.username, .text username), (.password, .text (p.sha256 password))] with
  | error e => cases e <;> rfl
  | ok r => rfl

end Computes

/-! ## All or nothing -/

/-- Whatever is saved, on a database of any schema: either the call returns the id of a new scan,
which is there with a row for each record, or it raises and the store is what it was. -/
theorem saveScan_all_or_nothing (db : ScanDb) (scan : ScanRecord) :
    (∃ scanId after, (saveScanProgram p now scan).run db = (.ok scanId, after) ∧
      Saved p now db scan scanId after) ∨
    ∃ e, (saveScanProgram p now scan).run db = (.error e, db) := by
  rw [saveScanProgram_run]
  cases h : saveScan p now db scan with
  | error e => exact .inr ⟨e, rfl⟩
  | ok r => exact .inl ⟨r.1, r.2, rfl, saveScan_ok h⟩

end ThreatScanner.Store
