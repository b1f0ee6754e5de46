import ThreatScanner.Store.Schema

/-!
# The functions of `db.py` on the scan store

Each function opens its own connection. A function that writes does so in one transaction, which is
rolled back when it raises, so a raising call of `save_scan` or `delete_scan` has no effect on the
store. `PRAGMA foreign_keys = ON` holds wherever a row that has a foreign key is written.
-/

namespace ThreatScanner.Store

open Relational

variable (p : Platform) (now : Value)

/-! ## Users -/

/-- `create_user`; an `IntegrityError` is answered with `False`. -/
def createUser (db : ScanDb) (username password : String) : Except StoreError (Bool × ScanDb) :=
  match insert p.conv now db .users
      [(.username, .text username), (.password, .text (p.sha256 password))] with
  | .ok (_, db) => .ok (true, db)
  | .error .constraint => .ok (false, db)
  | .error e => .error (.sql e)

structure User where
  id : Int
  username : Json

/-- `get_user_by_username`. -/
def getUserByUsername (db : ScanDb) (username : String) : Except StoreError (Option User) := do
  let rows ← sql (select db .users [.username] fun row =>
    row.cells .username = .text username)
  .ok (rows.head?.map fun row => ⟨row.id, fromValue (row.cells .username)⟩)

/-- `get_user_by_id`. -/
def getUserById (db : ScanDb) (userId : Int) : Except StoreError (Option User) := do
  let id ← bindParam (.int userId)
  let rows ← sql (select db .users [.username] fun row => Value.integer row.id = id)
  .ok (rows.head?.map fun row => ⟨row.id, fromValue (row.cells .username)⟩)

/-! ## Creation and migration -/

def createTables (db : ScanDb) : ScanDb :=
  Child.all.foldl (fun db child => createIfMissing db child.table (child.columns .scans))
    (createIfMissing (createIfMissing db .users usersColumns) .scans scansColumns)

/-- `CREATE INDEX IF NOT EXISTS ... ON t(c)`, which needs the column. -/
def createIndex (db : ScanDb) (t : TableName) (c : ColumnName) :
    Except (SqlError TableName) Unit :=
  match db t with
  | none => .error (.noSuchTable t)
  | some table => if c ∈ table.columnNames then .ok () else .error .noSuchColumn

def createIndexes (db : ScanDb) : Except (SqlError TableName) Unit := do
  createIndex db .scans .userId
  createIndex db .scans .createdAt
  Child.all.forM fun child => createIndex db child.table .scanId

/-- The columns the migration copies. -/
def copiedColumns : List ColumnName := [.target, .risk, .score, .alerts, .report, .createdAt]

/-- `INSERT INTO scans (id, ...) SELECT id, ... FROM scans_old`, then `DROP TABLE scans_old`. -/
def copyAndDrop (db : ScanDb) : Except (SqlError TableName) ScanDb := do
  let _ ← prepare db .scans copiedColumns
  let rows ← select db .scansOld copiedColumns fun _ => true
  let db ← insertAll p.conv now .scans copiedColumns rows db
  drop db cascadeDepth .scansOld

/-- The lock on the file that a connection holds: none, the one that lets others read but not write,
or the one that keeps them out altogether. -/
inductive FileLock where
  | none | reserved | exclusive
deriving DecidableEq

/-- The end of `init_db`: the indexes and the first user. `committed` is what other connections
see, and what is left when the connection is closed without a commit; `held` is the lock of the
connection, which those of `get_user_by_username` and `create_user` run into. -/
def finishInit (held : FileLock) (committed db : ScanDb) : Except StoreError Unit × ScanDb :=
  match createIndexes db with
  | .error e => (.error (.sql e), committed)
  | .ok () =>
    if held = .exclusive then (.error .locked, committed)
    else
      match getUserByUsername committed "admin" with
      | .error e => (.error e, committed)
      | .ok (some _) => (.ok (), db)
      | .ok none =>
        if held = .reserved then (.error .locked, committed)
        else
          match createUser p now db "admin" "admin" with
          | .error e => (.error e, committed)
          | .ok (_, db) => (.ok (), db)

/-- The migration of `init_db`. Statements that change the schema are committed at once; the
`INSERT` begins a transaction, which is written to the file early where it outgrows the cache. -/
def migrate (db : ScanDb) : Except StoreError Unit × ScanDb :=
  match rename db .scans .scansOld with
  | .error e => (.error (.sql e), db)
  | .ok renamed =>
    match create renamed .scans scansColumns with
    | .error e => (.error (.sql e), renamed)
    | .ok committed =>
      match copyAndDrop p now committed with
      | .error e => (.error (.sql e), committed)
      | .ok dropped =>
        finishInit p now (if p.spills db then .exclusive else .reserved) committed dropped

/-- `init_db`. -/
def initDb (db : ScanDb) : Except StoreError Unit × ScanDb :=
  let db := createTables db
  let names : List ColumnName := (columns db .scans).map (·.name)
  if .user ∈ names ∧ .userId ∉ names then migrate p now db
  else finishInit p now .none db db

/-! ## Saving -/

/-- The arguments of `save_scan`. -/
structure ScanRecord where
  userId : Option Int
  target : String
  risk : Json
  score : Json
  alerts : String
  report : Option String

/-- `report_data`: the report, when it can be read, and `{}` otherwise. -/
def reportData (report : Option String) : Json :=
  match report with
  | none => .obj []
  | some text => if text = "" then .obj [] else (p.loads text).getD (.obj [])

/-- `report_data.get("structured", {})`, when `report_data` is a dictionary. -/
def structured (data : Json) : Json :=
  match data with
  | .obj entries => (entries.lookup "structured").getD (.obj [])
  | _ => .obj []

/-- The value stored in a column of a child table for a record. -/
def fieldValue (item : Json) (c : ColumnName) : Except StoreError Value :=
  match c with
  | .ips => do
    let ips ← python (item.get c.text (.arr []))
    .ok (.text (p.dumps ips))
  | .http | .https => do
    let flag ← python (item.get c.text)
    .ok (.integer (if flag.truthy then 1 else 0))
  | _ => do
    let v ← python (item.get c.text)
    bindParam v

/-- The values of the `INSERT` of a record. -/
def recordValues (child : Child) (scanId : Int) (item : Json) :
    Except StoreError (List (ColumnName × Value)) := do
  let values ← (child.fields.map (·.name)).mapM fun c => do
    let v ← fieldValue p item c
    .ok (c, v)
  .ok ((.scanId, .integer scanId) :: values)

def saveRecords (child : Child) (scanId : Int) : List Json → ScanDb → Except StoreError ScanDb
  | [], db => .ok db
  | item :: rest, db => do
    let values ← recordValues p child scanId item
    let (_, db) ← sql (insert p.conv now db child.table values)
    saveRecords child scanId rest db

/-- The four loops of `save_scan`, over the lists of the structured section. -/
def saveLists (scanId : Int) : List (Child × Json) → ScanDb → Except StoreError ScanDb
  | [], db => .ok db
  | (child, list) :: rest, db => do
    let items ← python list.iterate
    let db ← saveRecords p now child scanId items db
    saveLists scanId rest db

/-- `save_scan`, with the id of the scan. -/
def saveScan (db : ScanDb) (scan : ScanRecord) : Except StoreError (Int × ScanDb) := do
  let userId ← bindParam ((scan.userId.map .int).getD .null)
  let risk ← bindParam scan.risk
  let score ← bindParam scan.score
  let (scanId, db) ← sql (insert p.conv now db .scans
    [(.userId, userId), (.target, .text scan.target), (.risk, risk), (.score, score),
     (.alerts, .text scan.alerts), (.report, (scan.report.map .text).getD .null)])
  let lists ← Child.all.mapM fun child => do
    let list ← python ((structured (reportData p scan.report)).get child.key (.arr []))
    .ok (child, list)
  let db ← saveLists p now scanId lists db
  .ok (scanId, db)

/-- `save_scan_result` of `main.py`; the report of a user that does not exist is saved unowned. -/
def saveScanResult (db : ScanDb) (target : String) (result : Json) (userId : Int) :
    Except StoreError (Int × ScanDb) := do
  let user ← getUserById db userId
  let risk ← python (result.get "risk")
  let score ← python (result.get "score")
  let alerts ← python (result.get "alerts" (.arr []))
  saveScan p now db {
    userId := user.map (·.id)
    target := target
    risk := risk
    score := score
    alerts := p.dumps alerts
    report := some (p.dumps result) }

/-! ## Reading and deleting -/

/-- The rows of a child table for a scan. -/
def childRows (db : ScanDb) (child : Child) (scanId : Value) : Except StoreError (List StoreRow) :=
  sql (select db child.table (.scanId :: child.fields.map (·.name)) fun row =>
    row.cells .scanId = scanId)

/-- The value `get_scan_details` gives for a field of a child row. -/
def fieldJson (row : StoreRow) (c : ColumnName) : Json :=
  match c with
  | .ips =>
    match row.cells .ips with
    | .text s => if s = "" then .arr [] else (p.loads s).getD (.arr [])
    | _ => .arr []
  | .http | .https => .bool (fromValue (row.cells c)).truthy
  | _ => fromValue (row.cells c)

/-- The record `get_scan_details` gives for a child row. -/
def recordJson (child : Child) (row : StoreRow) : Json :=
  .obj (child.fields.map fun column => (column.name.text, fieldJson p row column.name))

/-- The columns `get_scan_details` selects. -/
def detailColumns : List ColumnName := [.target, .risk, .score, .alerts, .report, .createdAt]

/-- The scan with the given id, when the user owns it. -/
def selectScan (db : ScanDb) (names : List ColumnName) (scanId userId : Value) :
    Except StoreError (Option StoreRow) := do
  let rows ← sql (select db .scans names fun row =>
    Value.integer row.id = scanId ∧ row.cells .userId = userId)
  .ok rows.head?

/-- The stored report as JSON, `{}` when there is none or it cannot be read. -/
def storedReport (row : StoreRow) : Json :=
  match row.cells .report with
  | .text s => reportData p (some s)
  | _ => .obj []

/-- `get_scan_details`. -/
def getScanDetails (db : ScanDb) (scanId userId : Int) : Except StoreError (Option Json) := do
  let scan ← bindParam (.int scanId)
  let user ← bindParam (.int userId)
  match ← selectScan db (.userId :: detailColumns) scan user with
  | none => .ok none
  | some row =>
    let lists ← Child.all.mapM fun child => do
      let rows ← childRows db child scan
      .ok (child.key, Json.arr (rows.map (recordJson p child)))
    let report ← python ((storedReport p row).setItem "structured" (.obj lists))
    .ok (some report)

/-- `delete_scan`. -/
def deleteScan (db : ScanDb) (scanId userId : Int) : Except StoreError (Bool × ScanDb) := do
  let scan ← bindParam (.int scanId)
  let user ← bindParam (.int userId)
  match ← selectScan db [.userId] scan user with
  | none => .ok (false, db)
  | some _ =>
    .ok (true, delete db cascadeDepth fun t row =>
      t = .scans && Value.integer row.id = scan && row.cells .userId = user)

/-- Rows in the order of `ORDER BY id DESC`. -/
def newestFirst (rows : List StoreRow) : List StoreRow :=
  rows.mergeSort fun r r' => r'.id ≤ r.id

/-- The entry of `GET /history` for a row. -/
def historyEntry (row : StoreRow) : Json :=
  .obj (("id", .int row.id) :: entries row [.target, .risk, .score, .createdAt])

/-- `GET /history`: the entries of `data`. -/
def history (db : ScanDb) (userId : Int) : Except StoreError (List Json) := do
  let user ← bindParam (.int userId)
  let rows ← sql (select db .scans [.userId, .target, .risk, .score, .createdAt] fun row =>
    row.cells .userId = user)
  .ok ((newestFirst rows).map historyEntry)

end ThreatScanner.Store
