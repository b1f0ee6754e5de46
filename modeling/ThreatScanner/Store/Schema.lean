import ThreatScanner.Library.Relational
import ThreatScanner.Python.Json

/-!
# The tables of the scan store

The columns of the `CREATE TABLE` statements of `init_db`. The primary key `id` is the id of a row.
The four child tables differ in their fields only; `scans_old` exists while `init_db` migrates.
-/

namespace ThreatScanner.Store

open Relational

inductive TableName where
  | users | scans | scansOld | scanFindings | scanSubdomains | scanPorts | scanCves
deriving DecidableEq, Repr

/-- The column names of all tables; `user` is the owner column of the legacy `scans`. -/
inductive ColumnName where
  | username | password | createdAt
  | user | userId | target | risk | score | alerts | report
  | scanId
  | title | severity | category | description | evidence | fix
  | subdomain | ips | http | https | statusCode | finalUrl
  | port | service | banner
  | technology | cveId | published | url
deriving DecidableEq, Repr

namespace ColumnName

/-- The name in SQL, which is also the key of the column in a record. -/
def text : ColumnName → String
  | username => "username"
  | password => "password"
  | createdAt => "created_at"
  | user => "user"
  | userId => "user_id"
  | target => "target"
  | risk => "risk"
  | score => "score"
  | alerts => "alerts"
  | report => "report"
  | scanId => "scan_id"
  | title => "title"
  | severity => "severity"
  | category => "category"
  | description => "description"
  | evidence => "evidence"
  | fix => "fix"
  | subdomain => "subdomain"
  | ips => "ips"
  | http => "http"
  | https => "https"
  | statusCode => "status_code"
  | finalUrl => "final_url"
  | port => "port"
  | service => "service"
  | banner => "banner"
  | technology => "technology"
  | cveId => "cve_id"
  | published => "published"
  | url => "url"

end ColumnName

abbrev StoreColumn := Column TableName ColumnName
abbrev StoreRow := Row ColumnName
abbrev ScanDb := Database TableName ColumnName

def createdAtColumn : StoreColumn :=
  { name := .createdAt, affinity := .numeric, default := .currentTimestamp }

def textColumn (name : ColumnName) : StoreColumn := { name, affinity := .text }

def integerColumn (name : ColumnName) : StoreColumn := { name, affinity := .integer }

/-- The foreign key of the child tables, to the table `parent`. -/
def scanIdColumn (parent : TableName) : StoreColumn :=
  { name := .scanId, affinity := .integer, notNull := true, references := some parent }

def usersColumns : List StoreColumn :=
  [{ name := .username, affinity := .text, unique := true, notNull := true },
   { name := .password, affinity := .text, notNull := true },
   createdAtColumn]

/-- The owner of a scan. -/
def userIdColumn : StoreColumn :=
  { name := .userId, affinity := .integer, references := some .users }

def scansColumns : List StoreColumn :=
  [userIdColumn, { name := .target, affinity := .text, notNull := true },
   textColumn .risk, integerColumn .score, textColumn .alerts, textColumn .report,
   createdAtColumn]

/-- The tables whose rows belong to a scan, with the keys of the lists they store. -/
inductive Child where
  | findings | subdomains | ports | cves
deriving DecidableEq, Repr

namespace Child

def all : List Child := [findings, subdomains, ports, cves]

def table : Child → TableName
  | findings => .scanFindings
  | subdomains => .scanSubdomains
  | ports => .scanPorts
  | cves => .scanCves

/-- The key of the list in the structured section of a report. -/
def key : Child → String
  | findings => "scan_findings"
  | subdomains => "scan_subdomains"
  | ports => "scan_ports"
  | cves => "scan_cves"

/-- The columns that hold the fields of a record. -/
def fields : Child → List StoreColumn
  | findings => [textColumn .title, textColumn .severity, textColumn .category,
      textColumn .description, textColumn .evidence, textColumn .fix]
  | subdomains => [textColumn .subdomain, textColumn .ips,
      { integerColumn .http with default := .value (.integer 0) },
      { integerColumn .https with default := .value (.integer 0) },
      integerColumn .statusCode, textColumn .finalUrl]
  | ports => [integerColumn .port, textColumn .service, textColumn .banner, textColumn .risk]
  | cves => [textColumn .technology, textColumn .cveId, textColumn .severity,
      { name := .score, affinity := .real }, textColumn .published, textColumn .description,
      textColumn .url]

/-- The columns of the child table, with `parent` as the table its scan is in. -/
def columns (parent : TableName) (child : Child) : List StoreColumn :=
  scanIdColumn parent :: (child.fields ++ [createdAtColumn])

end Child

/-- A chain of references visits each of the seven tables once at most. -/
def cascadeDepth : Nat := 7

/-- What the store uses and `db.py` imports: SQLite's number conversions and the size of its page
cache, `sha256` and `json`. `loads` is `none` where `json.loads` raises; `spills` says whether a
transaction that migrates this legacy database outgrows the cache, so that SQLite has to write to
the file before the commit. -/
structure Platform where
  conv : Conversions
  spills : ScanDb → Bool
  sha256 : String → String
  dumps : Json → String
  loads : String → Option Json

/-- What a function of the store raises: an error of a statement, of a value that cannot be bound,
of another connection that holds a lock, or of the Python code. -/
inductive StoreError where
  | sql (e : SqlError TableName)
  | binding
  | locked
  | python (e : PyError)
deriving DecidableEq

/-- The errors of a statement and of Python code, as errors of the store. -/
def sql {α : Type} (x : Except (SqlError TableName) α) : Except StoreError α := x.mapError .sql

def python {α : Type} (x : Except PyError α) : Except StoreError α := x.mapError .python

/-- A Python value bound to a parameter of a statement. -/
def bindParam : Json → Except StoreError Value
  | .null => .ok .null
  | .bool b => .ok (.integer (if b then 1 else 0))
  | .int n => if Fits n then .ok (.integer n) else .error .binding
  | .real q => .ok (.real q)
  | .str s => .ok (.text s)
  | .arr _ | .obj _ => .error .binding

/-- A value read from a row. -/
def fromValue : Value → Json
  | .null => .null
  | .integer n => .int n
  | .real q => .real q
  | .text s => .str s

/-- The entries of `dict(row)` for the given columns. -/
def entries (row : StoreRow) (names : List ColumnName) : List (String × Json) :=
  names.map fun c => (c.text, fromValue (row.cells c))

@[simp] theorem sql_eq_ok {α : Type} {x : Except (SqlError TableName) α} {a : α} :
    sql x = .ok a ↔ x = .ok a := by
  cases x <;> simp [sql, Except.mapError]

@[simp] theorem python_eq_ok {α : Type} {x : Except PyError α} {a : α} :
    python x = .ok a ↔ x = .ok a := by
  cases x <;> simp [python, Except.mapError]

end ThreatScanner.Store
