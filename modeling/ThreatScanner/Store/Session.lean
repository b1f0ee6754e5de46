import ThreatScanner.Store.Rules
import ThreatScanner.Library.Transition

/-!
# Sessions: sequences of calls of the store

A session is a database and the calls made so far with their replies. `Performs` lists what a call
can do, and what the ids of the scans tell about the calls so far is an invariant of a session.
-/

namespace ThreatScanner.Store

open Relational

variable {p : Platform} {now : Value} {db db' : ScanDb} {parent : TableName}

inductive Operation where
  | createUser (username password : String)
  | saveScan (scan : ScanRecord)
  | getScanDetails (scanId userId : Int)
  | deleteScan (scanId userId : Int)
  | history (userId : Int)

inductive Reply where
  | created (ok : Bool)
  | saved (scanId : Int)
  | details (report : Option Json)
  | deleted (ok : Bool)
  | listed (data : List Json)
  | raised (e : StoreError)

/-- The reply to a call and the database after it. -/
def perform (p : Platform) (now : Value) (db : ScanDb) : Operation → Reply × ScanDb
  | .createUser username password =>
    match createUser p now db username password with
    | .ok (ok, db') => (.created ok, db')
    | .error e => (.raised e, db)
  | .saveScan scan =>
    match saveScan p now db scan with
    | .ok (scanId, db') => (.saved scanId, db')
    | .error e => (.raised e, db)
  | .getScanDetails scanId userId =>
    match getScanDetails p db scanId userId with
    | .ok report => (.details report, db)
    | .error e => (.raised e, db)
  | .deleteScan scanId userId =>
    match deleteScan db scanId userId with
    | .ok (ok, db') => (.deleted ok, db')
    | .error e => (.raised e, db)
  | .history userId =>
    match history db userId with
    | .ok data => (.listed data, db)
    | .error e => (.raised e, db)

/-- A call, with the time it is made at. -/
structure Call where
  now : Value
  operation : Operation

structure Session where
  db : ScanDb
  trace : List (Operation × Reply)

/-- Every call is answered. -/
def Session.step (p : Platform) (s : Session) (call : Call) : Option Session :=
  let (reply, db) := perform p call.now s.db call.operation
  some ⟨db, s.trace ++ [(call.operation, reply)]⟩

/-- What a call can do to the tables. -/
inductive Performs (p : Platform) (now : Value) (db : ScanDb) :
    Operation → Reply → ScanDb → Prop where
  | reads {operation : Operation} {reply : Reply} (hsaved : ∀ id, reply ≠ .saved id)
      (hdeleted : reply ≠ .deleted true) : Performs p now db operation reply db
  | creates {username password : String} {ok : Bool} {after : ScanDb}
      (hschema : schema after = schema db) (hother : ∀ t, t ≠ .users → after t = db t) :
      Performs p now db (.createUser username password) (.created ok) after
  | saves {scan : ScanRecord} {id : Int} {after : ScanDb}
      (h : Saved p now db scan id after) :
      Performs p now db (.saveScan scan) (.saved id) after
  | deletes {scanId userId : Int} {after : ScanDb} (h : Deleted db scanId userId true after) :
      Performs p now db (.deleteScan scanId userId) (.deleted true) after

theorem perform_performs (H : HasSchema parent db) (operation : Operation) :
    Performs p now db operation (perform p now db operation).1
      (perform p now db operation).2 := by
  cases operation with
  | createUser username password =>
    simp only [perform]
    split
    · rename_i h
      obtain ⟨hschema, hother⟩ := createUser_ok h
      exact .creates hschema hother
    · exact .reads nofun nofun
  | saveScan scan =>
    simp only [perform]
    split
    · rename_i h
      exact .saves (saveScan_ok h)
    · exact .reads nofun nofun
  | getScanDetails => simp only [perform]; split <;> exact .reads nofun nofun
  | deleteScan scanId userId =>
    simp only [perform]
    split
    · rename_i deleted after h
      have h := deleteScan_ok H h
      cases deleted with
      | true => exact .deletes h
      | false => cases h; exact .reads nofun nofun
    · exact .reads nofun nofun
  | history => simp only [perform]; split <;> exact .reads nofun nofun

theorem Performs.schema_eq {operation : Operation} {reply : Reply}
    (h : Performs p now db operation reply db') : schema db' = schema db := by
  cases h with
  | reads => rfl
  | creates hschema => exact hschema
  | saves h => exact h.schema_eq
  | deletes h =>
    cases h with
    | removed _ hschema => exact hschema

/-! ## The rows of `scans` -/

section Rows
variable {operation : Operation} {reply : Reply}

/-- A call keeps a row, or it is the deletion of the row by its owner. -/
theorem Performs.kept (h : Performs p now db operation reply db')
    (hscans : schema db .scans = some scansColumns) {row : StoreRow} (hrow : row ∈ rows db .scans) :
    row ∈ rows db' .scans ∨ ∃ userId, row.cells .userId = .integer userId ∧
      operation = .deleteScan row.id userId ∧ reply = .deleted true := by
  cases h with
  | reads => exact .inl hrow
  | creates hschema hother => exact .inl (rows_congr (hother .scans (by decide)) ▸ hrow)
  | saves h =>
    obtain ⟨new, hrows, -⟩ := h.storesScan hscans
    rw [hrows]
    exact .inl (List.mem_append_left _ hrow)
  | @deletes scanId userId _ h =>
    cases h with
    | removed hfound hschema husers hscans hseq hchildren =>
      rw [hscans, List.mem_filter]
      by_cases hgone : row.id = scanId ∧ row.cells .userId = .integer userId
      · exact .inr ⟨userId, hgone.2, by rw [hgone.1], rfl⟩
      · exact .inl ⟨hrow, by simpa [imp_iff_not_or] using hgone⟩

/-- A row after a call was there before it, or is the one the call has saved. -/
theorem Performs.added (h : Performs p now db operation reply db')
    (hscans : schema db .scans = some scansColumns) {row : StoreRow}
    (hrow : row ∈ rows db' .scans) : row ∈ rows db .scans ∨
      ∃ scan, operation = .saveScan scan ∧ StoresScan p scan row := by
  cases h with
  | reads => exact .inl hrow
  | creates hschema hother => exact .inl (rows_congr (hother .scans (by decide)) ▸ hrow)
  | saves h =>
    obtain ⟨new, hrows, -, hnew⟩ := h.storesScan hscans
    rw [hrows, List.mem_append, List.mem_singleton] at hrow
    rcases hrow with hrow | rfl
    · exact .inl hrow
    · exact .inr ⟨_, rfl, hnew⟩
  | deletes h =>
    cases h with
    | removed hfound hschema husers hscans hseq hchildren =>
      rw [hscans] at hrow
      exact .inl (List.mem_of_mem_filter hrow)

/-- The ids of `scans` are not used again. -/
theorem Performs.counted (h : Performs p now db operation reply db')
    {table : Table TableName ColumnName} (htable : db .scans = some table) :
    ∃ table', db' .scans = some table' ∧ table.seq ≤ table'.seq := by
  cases h with
  | reads => exact ⟨table, htable, Int.le_refl _⟩
  | creates hschema hother =>
    exact ⟨table, (hother .scans (by decide)).trans htable, Int.le_refl _⟩
  | saves h =>
    obtain ⟨old, new, hold, hnew, hnext, hseq⟩ := h.next
    cases htable.symm.trans hold
    exact ⟨new, hnew, by omega⟩
  | deletes h =>
    cases h with
    | removed hfound hschema husers hscans hseq hchildren =>
      rw [htable, Option.map_some, Option.map_eq_some_iff] at hseq
      obtain ⟨table', htable', hseq⟩ := hseq
      exact ⟨table', htable', Int.le_of_eq hseq.symm⟩

end Rows

theorem step_eq_some {s t : Session} {call : Call} (h : s.step p call = some t) :
    t = ⟨(perform p call.now s.db call.operation).2,
      s.trace ++ [(call.operation, (perform p call.now s.db call.operation).1)]⟩ :=
  (Option.some.inj h).symm

end ThreatScanner.Store
