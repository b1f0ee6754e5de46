import ThreatScanner.Store.Operations

/-!
# What a call of the store does to the tables

One rule for each function that writes: the tables it leaves as they are, the rows it adds and the
rows it removes. None of them changes the columns of a table, so `HasSchema` holds all along.
-/

namespace ThreatScanner.Store

open Relational

variable {p : Platform} {now : Value} {db db' : ScanDb} {parent : TableName}

/-- The current schema. After a migration the child tables still refer to `scans_old`. -/
structure HasSchema (parent : TableName) (db : ScanDb) : Prop where
  users : schema db .users = some usersColumns
  scans : schema db .scans = some scansColumns
  children : ∀ child : Child, schema db child.table = some (child.columns parent)
  parent_eq : parent = .scans ∨ parent = .scansOld ∧ db .scansOld = none

theorem HasSchema.of_eq (H : HasSchema parent db) (h : schema db' = schema db) :
    HasSchema parent db' where
  users := by rw [h]; exact H.users
  scans := by rw [h]; exact H.scans
  children child := by rw [h]; exact H.children child
  parent_eq := by
    rw [← schema_eq_none, h, schema_eq_none]
    exact H.parent_eq

theorem Child.table_ne_scans (child : Child) : child.table ≠ .scans := by
  cases child <;> decide

theorem Child.table_ne_users (child : Child) : child.table ≠ .users := by
  cases child <;> decide

theorem Child.table_injective : Function.Injective Child.table := by
  intro c c' h
  cases c <;> cases c' <;> first | rfl | cases h

theorem scansColumns_nodup : (scansColumns.map (·.name)).Nodup := by decide

theorem columns_of_schema {t : TableName} {cols : List StoreColumn}
    (h : schema db t = some cols) : columns db t = cols := by
  obtain ⟨table, htable, rfl⟩ := schema_eq_some.mp h
  exact columns_eq htable

theorem rows_congr {t : TableName} (h : db' t = db t) : rows db' t = rows db t := by
  rw [rows, h, rows]

/-! ## `create_user` -/

theorem createUser_ok {username password : String} {created : Bool}
    (h : createUser p now db username password = .ok (created, db')) :
    schema db' = schema db ∧ ∀ t, t ≠ .users → db' t = db t := by
  unfold createUser at h
  split at h
  · rename_i hinsert
    cases h
    exact ⟨schema_insert hinsert, fun t => insert_other hinsert⟩
  · cases h
    exact ⟨rfl, fun _ _ => rfl⟩
  · cases h

/-! ## `save_scan` -/

/-- The row stores the fields of the record, in a table with the given columns. -/
def Stores (p : Platform) (now : Value) (child : Child) (cols : List StoreColumn) (scanId : Int)
    (item : Json) (row : StoreRow) : Prop :=
  ∃ values, recordValues p child scanId item = .ok values ∧ row.cells = cell p.conv now cols values

theorem columns_congr {t : TableName} (h : schema db' = schema db) :
    columns db' t = columns db t := by
  rw [columns, ← schema, h, schema, columns]

theorem saveRecords_ok {child : Child} {scanId : Int} {items : List Json}
    (h : saveRecords p now child scanId items db = .ok db') :
    schema db' = schema db ∧ (∀ t, t ≠ child.table → db' t = db t) ∧
      ∃ new, rows db' child.table = rows db child.table ++ new ∧
        List.Forall₂ (Stores p now child (columns db child.table) scanId) items new := by
  induction items generalizing db with
  | nil =>
    cases h
    exact ⟨rfl, fun _ _ => rfl, [], (List.append_nil _).symm, .nil⟩
  | cons item rest ih =>
    simp only [saveRecords, bind_eq_ok, sql_eq_ok] at h
    obtain ⟨values, hvalues, ⟨id, db₁⟩, hinsert, hrest⟩ := h
    have hschema := schema_insert hinsert
    obtain ⟨hschema', hother, new, hrows, hnew⟩ := ih hrest
    rw [rows_insert hinsert rfl, List.append_assoc] at hrows
    rw [columns_congr hschema] at hnew
    exact ⟨hschema'.trans hschema, fun t ht => (hother t ht).trans (insert_other hinsert ht),
      _, hrows, .cons ⟨values, hvalues, rfl⟩ hnew⟩

theorem saveLists_ok {scanId : Int} {lists : List (Child × Json)}
    (h : saveLists p now scanId lists db = .ok db') (hnodup : (lists.map Prod.fst).Nodup) :
    schema db' = schema db ∧
      (∀ t, (∀ entry ∈ lists, t ≠ entry.1.table) → db' t = db t) ∧
      ∀ entry ∈ lists, ∃ items new, entry.2.iterate = .ok items ∧
        rows db' entry.1.table = rows db entry.1.table ++ new ∧
        List.Forall₂ (Stores p now entry.1 (columns db entry.1.table) scanId) items new := by
  induction lists generalizing db with
  | nil =>
    cases h
    exact ⟨rfl, fun _ _ => rfl, nofun⟩
  | cons entry rest ih =>
    obtain ⟨child, list⟩ := entry
    simp only [saveLists, bind_eq_ok, python_eq_ok] at h
    obtain ⟨items, hitems, db₁, hsave, hrest⟩ := h
    rw [List.map_cons, List.nodup_cons] at hnodup
    obtain ⟨hschema, hother, new, hrows, hnew⟩ := saveRecords_ok hsave
    obtain ⟨hschema', hother', hlists⟩ := ih hrest hnodup.2
    have hapart : ∀ entry ∈ rest, child.table ≠ entry.1.table := by
      intro entry hentry heq
      have := Child.table_injective heq
      exact hnodup.1 (List.mem_map.mpr ⟨entry, hentry, this.symm⟩)
    refine ⟨hschema'.trans hschema, fun t ht => ?_, fun entry hentry => ?_⟩
    · rw [hother' t fun entry hentry => ht entry (List.mem_cons_of_mem _ hentry)]
      exact hother t (ht (child, list) List.mem_cons_self)
    · rcases List.mem_cons.mp hentry with rfl | hentry
      · exact ⟨items, new, hitems, (rows_congr (hother' _ hapart)).trans hrows, hnew⟩
      · obtain ⟨items', new', hitems', hrows', hnew'⟩ := hlists entry hentry
        rw [rows_congr (hother _ fun heq => hapart entry hentry heq.symm)] at hrows'
        rw [columns_congr hschema] at hnew'
        exact ⟨items', new', hitems', hrows', hnew'⟩

/-- The list of a child table in a report: the value under its key in the structured section. -/
def sectionList (p : Platform) (report : Option String) (child : Child) : Except PyError Json :=
  (structured (reportData p report)).get child.key (.arr [])

/-- The values of the `INSERT` of a scan. -/
def scanValues (scan : ScanRecord) (userId risk score : Value) : List (ColumnName × Value) :=
  [(.userId, userId), (.target, .text scan.target), (.risk, risk), (.score, score),
   (.alerts, .text scan.alerts), (.report, (scan.report.map .text).getD .null)]

/-- What a successful `save_scan` has done to a database of any schema: one row of `scans` with the
next id, at the end, and in each child table a row for each record of its list, in order. -/
structure Saved (p : Platform) (now : Value) (db : ScanDb) (scan : ScanRecord) (id : Int)
    (db' : ScanDb) : Prop where
  schema_eq : schema db' = schema db
  other : ∀ t, t ≠ .scans → (∀ child : Child, t ≠ child.table) → db' t = db t
  next : ∃ table table', db .scans = some table ∧ db' .scans = some table' ∧
    id = table.seq + 1 ∧ table'.seq = id
  fresh : ∀ row ∈ rows db .scans, row.id < id
  row : ∃ table userId risk score, db .scans = some table ∧
    bindParam ((scan.userId.map .int).getD .null) = .ok userId ∧
    bindParam scan.risk = .ok risk ∧ bindParam scan.score = .ok score ∧
    rows db' .scans = rows db .scans ++
      [newRow p.conv now (columns db .scans) id (scanValues scan userId risk score)] ∧
    violates db table
      (newRow p.conv now (columns db .scans) id (scanValues scan userId risk score)) = false
  lists : ∀ child : Child, ∃ list items new, sectionList p scan.report child = .ok list ∧
    list.iterate = .ok items ∧ rows db' child.table = rows db child.table ++ new ∧
    List.Forall₂ (Stores p now child (columns db child.table) id) items new

theorem saveScan_ok {scan : ScanRecord} {id : Int} (h : saveScan p now db scan = .ok (id, db')) :
    Saved p now db scan id db' := by
  simp only [saveScan, bind_eq_ok, sql_eq_ok] at h
  obtain ⟨userId, huser, risk, hrisk, score, hscore, ⟨scanId, db₁⟩, hinsert, lists, hlists, db₂,
    hsave, hret⟩ := h
  cases hret
  have hschema := schema_insert hinsert
  obtain ⟨hfst, hlists⟩ := mapM_pair_eq_ok.mp hlists
  obtain ⟨hschema', hother, hnew⟩ := saveLists_ok hsave (by rw [hfst]; decide)
  have hchild : ∀ child : Child, ∃ entry ∈ lists, entry.1 = child := by
    intro child
    have hmem : child ∈ lists.map Prod.fst := by
      rw [hfst]
      cases child <;> decide
    exact List.mem_map.mp hmem
  have hscans : db' .scans = db₁ .scans :=
    hother .scans fun entry _ => entry.1.table_ne_scans.symm
  refine ⟨hschema'.trans hschema, fun t ht hts => ?_, ?_, fun row hrow => ?_, ?_, fun child => ?_⟩
  · exact (hother t fun entry _ => hts entry.1).trans (insert_other hinsert ht)
  · obtain ⟨table, table', htable, rfl, hid, -, -, hseq, -⟩ := insert_eq_ok hinsert
    exact ⟨table, table', htable, by rw [hscans, Function.update_self], hid, hseq⟩
  · obtain ⟨table, -, htable, -, rfl, -⟩ := insert_eq_ok hinsert
    rw [rows_eq htable] at hrow
    exact Int.lt_add_one_of_le (table.bounded row hrow)
  · obtain ⟨table, -, htable, -, -, -, -, -, -, haccepted⟩ := insert_eq_ok hinsert
    refine ⟨table, userId, risk, score, htable, huser, hrisk, hscore, ?_, ?_⟩
    · rw [rows_congr hscans, rows_insert hinsert rfl]
      rfl
    · rw [columns_eq htable]
      exact haccepted
  · obtain ⟨entry, hentry, rfl⟩ := hchild child
    obtain ⟨items, new, hitems, hrows, hholds⟩ := hnew entry hentry
    rw [rows_congr (insert_other hinsert entry.1.table_ne_scans)] at hrows
    rw [columns_congr hschema] at hholds
    exact ⟨entry.2, items, new, python_eq_ok.mp (hlists entry hentry), hitems, hrows, hholds⟩

/-- On the current schema the columns of the child rows are known. -/
theorem Saved.rows_child {scan : ScanRecord} {id : Int} (h : Saved p now db scan id db')
    (H : HasSchema parent db) (child : Child) : ∃ list items new,
      sectionList p scan.report child = .ok list ∧ list.iterate = .ok items ∧
      rows db' child.table = rows db child.table ++ new ∧
      List.Forall₂ (Stores p now child (child.columns parent) id) items new := by
  rw [← columns_of_schema (H.children child)]
  exact h.lists child

theorem bindParam_int {n : Int} {v : Value} :
    bindParam (.int n) = .ok v ↔ Fits n ∧ v = .integer n := by
  simp only [bindParam]
  split
  · rename_i hfits
    simp [hfits, eq_comm]
  · rename_i hfits
    simp [hfits]

/-- A row of `scans` that stores the arguments of `save_scan`. -/
structure StoresScan (p : Platform) (scan : ScanRecord) (row : StoreRow) : Prop where
  owner : ∀ userId, row.cells .userId = .integer userId ↔ scan.userId = some userId
  target : row.cells .target = .text scan.target
  risk : ∃ v, bindParam scan.risk = .ok v ∧ row.cells .risk = Affinity.text.apply p.conv v
  score : ∃ v, bindParam scan.score = .ok v ∧ row.cells .score = Affinity.integer.apply p.conv v
  report : storedReport p row = reportData p scan.report

/-- A risk that is a text is stored as it is. -/
theorem StoresScan.risk_text {scan : ScanRecord} {row : StoreRow} {risk : String}
    (h : StoresScan p scan row) (hrisk : scan.risk = .str risk) : row.cells .risk = .text risk := by
  obtain ⟨v, hv, hcell⟩ := h.risk
  rw [hrisk] at hv
  cases hv
  exact hcell

def targetColumn : StoreColumn := { name := .target, affinity := .text, notNull := true }

theorem Saved.storesScan {scan : ScanRecord} {id : Int} (h : Saved p now db scan id db')
    (hscans : schema db .scans = some scansColumns) :
    ∃ row, rows db' .scans = rows db .scans ++ [row] ∧ row.id = id ∧ StoresScan p scan row := by
  obtain ⟨-, user, risk, score, -, huser, hrisk, hscore, hrows, -⟩ := h.row
  rw [columns_of_schema hscans] at hrows
  have hcell : ∀ c, ∀ column ∈ scansColumns, column.name = c → ∀ values v,
      values.lookup c = some v →
        cell p.conv now scansColumns values c = column.affinity.apply p.conv v := by
    rintro _ column hcolumn rfl values v hv
    exact cell_eq scansColumns_nodup hcolumn hv
  refine ⟨_, hrows, rfl, ?_, ?_, ⟨risk, hrisk, ?_⟩, ⟨score, hscore, ?_⟩, ?_⟩
  · intro userId
    rw [newRow_cells, hcell .userId userIdColumn (by decide) rfl _ _ rfl]
    cases hid : scan.userId with
    | none =>
      rw [hid] at huser
      cases huser
      simp [userIdColumn, Affinity.apply]
    | some owner =>
      rw [hid] at huser
      obtain ⟨-, rfl⟩ := bindParam_int.mp huser
      simp [userIdColumn, Affinity.apply]
  · rw [newRow_cells, hcell .target targetColumn (by decide) rfl _ _ rfl]
    rfl
  · rw [newRow_cells, hcell .risk (textColumn .risk) (by decide) rfl _ _ rfl]
    rfl
  · rw [newRow_cells, hcell .score (integerColumn .score) (by decide) rfl _ _ rfl]
    rfl
  · rw [storedReport, newRow_cells, hcell .report (textColumn .report) (by decide) rfl _ _ rfl]
    cases scan.report <;> rfl

/-! ## `delete_scan` -/

/-- Over a row of `scans`, the row itself and the child rows that refer to it are deleted. -/
theorem doomed_users {hit : TableName → StoreRow → Bool}
    (husers : schema db .users = some usersColumns)
    (hhit : ∀ row, hit .users row = false) (n : Nat) (row : StoreRow) :
    doomed db hit n .users row = false := by
  obtain ⟨table, htable, hcols⟩ := schema_eq_some.mp husers
  have hnone : ∀ column ∈ usersColumns, column.references = none := by decide
  rw [doomed_eq_hit htable ?_ n row, hhit]
  intro column hcolumn t ht
  rw [hcols] at hcolumn
  rw [hnone column hcolumn] at ht
  cases ht

theorem doomed_scans {hit : TableName → StoreRow → Bool} (H : HasSchema parent db)
    (hhit : ∀ row, hit .users row = false) (n : Nat) (row : StoreRow) :
    doomed db hit n .scans row = hit .scans row := by
  obtain ⟨table, htable, hcols⟩ := schema_eq_some.mp H.scans
  refine doomed_eq_hit htable (fun column hcolumn t ht m r _ => ?_) n row
  have hrefs : ∀ column ∈ scansColumns, column.references = none ∨
      column.references = some .users := by decide
  rw [hcols] at hcolumn
  rcases hrefs column hcolumn with href | href
  · rw [href] at ht
    cases ht
  · rw [href] at ht
    cases ht
    exact doomed_users H.users hhit m r

/-- A child row is deleted only when it refers to a row of `scans` that is hit. -/
theorem refers_of_doomed {hit : TableName → StoreRow → Bool} (H : HasSchema parent db)
    (hhit : ∀ t row, hit t row = true → t = .scans) {n : Nat} {child : Child} {row : StoreRow}
    (h : doomed db hit n child.table row = true) :
    ∃ scan ∈ rows db .scans, hit .scans scan = true ∧ row.cells .scanId = .integer scan.id := by
  have hnot : hit child.table row = false := by
    cases hr : hit child.table row with
    | false => rfl
    | true => exact (child.table_ne_scans (hhit _ _ hr)).elim
  cases n with
  | zero => rw [doomed, hnot] at h; cases h
  | succ n =>
    rw [doomed, hnot, Bool.false_or, List.any_eq_true,
      columns_of_schema (H.children child)] at h
    obtain ⟨column, hcolumn, h⟩ := h
    have hrefs : column.references = none ∨ column = scanIdColumn parent := by
      rcases List.mem_cons.mp hcolumn with rfl | hcolumn
      · exact .inr rfl
      · have hfields : ∀ column ∈ child.fields ++ [createdAtColumn],
            column.references = none := by cases child <;> decide
        exact .inl (hfields column hcolumn)
    rcases hrefs with href | rfl
    · rw [href] at h
      cases h
    · obtain ⟨scan, hscan, hboth⟩ := List.any_eq_true.mp h
      rw [Bool.and_eq_true, decide_eq_true_eq] at hboth
      rcases H.parent_eq with rfl | ⟨rfl, hmissing⟩
      · rw [doomed_scans H (fun row => ?_)] at hboth
        · exact ⟨scan, hscan, hboth.2, hboth.1⟩
        · cases hr : hit .users row with
          | false => rfl
          | true => cases hhit _ _ hr
      · rw [rows, hmissing] at hscan
        cases hscan

/-- What `delete_scan` does: nothing, when the user has no such scan, and otherwise it removes the
scan of the user and child rows that refer to it. -/
inductive Deleted (db : ScanDb) (scanId userId : Int) : Bool → ScanDb → Prop where
  | absent (hnone : ∀ row ∈ rows db .scans, row.id = scanId →
      row.cells .userId ≠ .integer userId) : Deleted db scanId userId false db
  | removed {after : ScanDb} (hfound : ∃ row ∈ rows db .scans, row.id = scanId ∧
        row.cells .userId = .integer userId)
      (hschema : schema after = schema db)
      (husers : rows after .users = rows db .users)
      (hscans : rows after .scans = (rows db .scans).filter fun row =>
        !(row.id = scanId && row.cells .userId = .integer userId))
      (hseq : (after .scans).map (·.seq) = (db .scans).map (·.seq))
      (hchildren : ∀ child : Child, ∃ keep : StoreRow → Bool,
        rows after child.table = (rows db child.table).filter keep ∧
          ∀ row, row.cells .scanId ≠ .integer scanId → keep row = true) :
      Deleted db scanId userId true after

theorem selectScan_ok {names : List ColumnName} {scan user : Value} {found : Option StoreRow}
    (h : selectScan db names scan user = .ok found) :
    found = ((rows db .scans).filter fun row =>
      Value.integer row.id = scan ∧ row.cells .userId = user).head? := by
  simp only [selectScan, bind_eq_ok, sql_eq_ok] at h
  obtain ⟨rs, hrs, hret⟩ := h
  obtain ⟨_, _, _, rfl⟩ := select_eq_ok.mp hrs
  exact (Except.ok.inj hret).symm

/-- The row of `scans` that a deletion is asked for. -/
def scanHit (scanId userId : Int) (t : TableName) (row : StoreRow) : Bool :=
  t = .scans && Value.integer row.id = .integer scanId && row.cells .userId = .integer userId

theorem scanHit_scans {scanId userId : Int} {t : TableName} {row : StoreRow}
    (h : scanHit scanId userId t row = true) : t = .scans := by
  simp only [scanHit, Bool.and_eq_true, decide_eq_true_eq] at h
  exact h.1.1

theorem scanHit_iff {scanId userId : Int} {row : StoreRow} :
    scanHit scanId userId .scans row = true ↔
      row.id = scanId ∧ row.cells .userId = .integer userId := by
  simp [scanHit]

theorem deleteScan_true {scanId userId : Int} (h : deleteScan db scanId userId = .ok (true, db')) :
    (∃ row ∈ rows db .scans, row.id = scanId ∧ row.cells .userId = .integer userId) ∧
      db' = delete db cascadeDepth (scanHit scanId userId) := by
  simp only [deleteScan, bind_eq_ok, bindParam_int] at h
  obtain ⟨_, ⟨_, rfl⟩, _, ⟨_, rfl⟩, found, hfound, h⟩ := h
  cases found with
  | none => cases h
  | some row =>
    have hrow := List.mem_of_mem_head? (Option.mem_def.mpr (selectScan_ok hfound).symm)
    rw [List.mem_filter, decide_eq_true_eq] at hrow
    obtain ⟨hmem, hid, howner⟩ := hrow
    cases h
    exact ⟨⟨row, hmem, Value.integer.inj hid, howner⟩, rfl⟩

theorem deleteScan_false {scanId userId : Int}
    (h : deleteScan db scanId userId = .ok (false, db')) : db' = db ∧
      ∀ row ∈ rows db .scans, row.id = scanId → row.cells .userId ≠ .integer userId := by
  simp only [deleteScan, bind_eq_ok, bindParam_int] at h
  obtain ⟨_, ⟨_, rfl⟩, _, ⟨_, rfl⟩, found, hfound, h⟩ := h
  cases found with
  | some row => cases h
  | none =>
    cases h
    refine ⟨rfl, fun row hrow hid howner => ?_⟩
    have hempty := List.head?_eq_none_iff.mp (selectScan_ok hfound).symm
    have hmem := List.filter_eq_nil_iff.mp hempty row hrow
    simp [hid, howner] at hmem

theorem deleteScan_ok {scanId userId : Int} {deleted : Bool} (H : HasSchema parent db)
    (h : deleteScan db scanId userId = .ok (deleted, db')) :
    Deleted db scanId userId deleted db' := by
  cases deleted with
  | false =>
    obtain ⟨rfl, hnone⟩ := deleteScan_false h
    exact .absent hnone
  | true =>
    obtain ⟨hfound, rfl⟩ := deleteScan_true h
    refine .removed hfound schema_delete ?_ ?_ ?_ fun child => ⟨_, rows_delete, fun row hrow => ?_⟩
    · rw [rows_delete, List.filter_eq_self]
      intro row _
      rw [doomed_users H.users fun _ => rfl]
      rfl
    · rw [rows_delete]
      refine List.filter_congr fun row _ => ?_
      rw [doomed_scans H fun _ => rfl]
      simp [scanHit]
    · simp only [delete, Option.map_map]
      rfl
    · rw [Bool.not_eq_true', Bool.eq_false_iff]
      intro hdoomed
      obtain ⟨scan, _, hhit, href⟩ := refers_of_doomed H (fun _ _ => scanHit_scans) hdoomed
      rw [(scanHit_iff.mp hhit).1] at href
      exact hrow href

/-! ## Reading -/

/-- The scans of the user. -/
def ownRows (userId : Int) (db : ScanDb) : List StoreRow :=
  (rows db .scans).filter fun row => row.cells .userId = .integer userId

theorem mem_ownRows {userId : Int} {row : StoreRow} : row ∈ ownRows userId db ↔
    row ∈ rows db .scans ∧ row.cells .userId = .integer userId := by
  rw [ownRows, List.mem_filter, decide_eq_true_eq]

theorem select_of_schema {t : TableName} {names : List ColumnName} {q : StoreRow → Bool}
    {cols : List StoreColumn} (h : schema db t = some cols)
    (hnames : ∀ c ∈ names, c ∈ cols.map (·.name)) :
    select db t names q = .ok ((rows db t).filter q) := by
  obtain ⟨table, htable, rfl⟩ := schema_eq_some.mp h
  exact select_eq_ok.mpr ⟨table, htable, hnames, rfl⟩

theorem selectScan_of_schema {names : List ColumnName} {scanId userId : Int}
    (H : HasSchema parent db) (hnames : ∀ c ∈ names, c ∈ scansColumns.map (·.name)) :
    selectScan db names (.integer scanId) (.integer userId) =
      .ok ((ownRows userId db).find? (·.id = scanId)) := by
  simp only [selectScan, select_of_schema H.scans hnames, sql, Except.mapError, bind, Except.bind]
  rw [ownRows, List.find?_filter, List.head?_filter]
  simp [Bool.and_comm]

/-- The rows of a child table that belong to a scan. -/
def detailRows (db : ScanDb) (child : Child) (scanId : Int) : List StoreRow :=
  (rows db child.table).filter fun row => row.cells .scanId = .integer scanId

theorem Child.names_subset (child : Child) : ∀ c ∈ ColumnName.scanId :: child.fields.map (·.name),
    c ∈ (child.columns parent).map (·.name) := by
  intro c hc
  rcases List.mem_cons.mp hc with rfl | hc
  · exact List.mem_cons_self
  · refine List.mem_cons_of_mem _ ?_
    rw [List.map_append]
    exact List.mem_append_left _ hc

theorem childRows_of_schema {child : Child} {scanId : Int} (H : HasSchema parent db) :
    childRows db child (.integer scanId) = .ok (detailRows db child scanId) := by
  rw [childRows, select_of_schema (H.children child) child.names_subset]
  rfl

/-- A user is told nothing about a scan that is not a scan of the user. -/
theorem getScanDetails_absent {scanId userId : Int} (H : HasSchema parent db)
    (hscan : Fits scanId) (huser : Fits userId) (h : ∀ row ∈ ownRows userId db, row.id ≠ scanId) :
    getScanDetails p db scanId userId = .ok none := by
  have hnone : (ownRows userId db).find? (·.id = scanId) = none := by
    rw [List.find?_eq_none]
    exact fun row hrow => by simpa using h row hrow
  simp only [getScanDetails, bindParam, if_pos hscan, if_pos huser, bind, Except.bind,
    selectScan_of_schema H (show ∀ c ∈ ColumnName.userId :: detailColumns, _ by decide), hnone]

theorem deleteScan_absent {scanId userId : Int} (H : HasSchema parent db)
    (hscan : Fits scanId) (huser : Fits userId) (h : ∀ row ∈ ownRows userId db, row.id ≠ scanId) :
    deleteScan db scanId userId = .ok (false, db) := by
  have hnone : (ownRows userId db).find? (·.id = scanId) = none := by
    rw [List.find?_eq_none]
    exact fun row hrow => by simpa using h row hrow
  simp only [deleteScan, bindParam, if_pos hscan, if_pos huser, bind, Except.bind,
    selectScan_of_schema H (show ∀ c ∈ [ColumnName.userId], _ by decide), hnone]

/-- The structured section of the details of a scan. -/
def detailLists (p : Platform) (db : ScanDb) (scanId : Int) : List (String × Json) :=
  Child.all.map fun child =>
    (child.key, .arr ((detailRows db child scanId).map (recordJson p child)))

theorem getScanDetails_present {userId : Int} {row : StoreRow} {report : List (String × Json)}
    (H : HasSchema parent db) (huser : Fits userId) (hrow : row ∈ ownRows userId db)
    (hreport : storedReport p row = .obj report) : getScanDetails p db row.id userId =
      .ok (some (.obj (Json.setEntry "structured" (.obj (detailLists p db row.id)) report))) := by
  have hmem := (mem_ownRows.mp hrow).1
  have hfind : (ownRows userId db).find? (·.id = row.id) = some row := by
    have hsome : ((ownRows userId db).find? (·.id = row.id)).isSome :=
      List.find?_isSome.mpr ⟨row, hrow, by simp⟩
    obtain ⟨found, hfound⟩ := Option.isSome_iff_exists.mp hsome
    have hid : found.id = row.id := by simpa using List.find?_some hfound
    rw [hfound, row_ext (mem_ownRows.mp (List.mem_of_find?_eq_some hfound)).1 hmem hid]
  have hlists : (Child.all.mapM fun child => do
      let rows ← childRows db child (.integer row.id)
      .ok (child.key, Json.arr (rows.map (recordJson p child)))) =
      (.ok (detailLists p db row.id) : Except StoreError _) := by
    refine mapM_eq_ok_map fun child _ => ?_
    rw [childRows_of_schema H]
    rfl
  simp only [getScanDetails, bindParam, if_pos (rows_fits hmem), if_pos huser, bind, Except.bind,
    selectScan_of_schema H (show ∀ c ∈ ColumnName.userId :: detailColumns, _ by decide), hfind]
  simp only [bind, Except.bind] at hlists
  rw [hlists, hreport]
  rfl

/-- Rows in the order of their ids come newest first when they are reversed. -/
theorem newestFirst_eq_reverse {rs : List StoreRow} (h : (rs.map (·.id)).Pairwise (· < ·)) :
    newestFirst rs = rs.reverse := by
  have hinj : ∀ r ∈ rs, ∀ r' ∈ rs, r.id = r'.id → r = r' := fun r hr r' hr' hid =>
    List.inj_on_of_nodup_map (h.imp fun hlt => Int.ne_of_lt hlt) hr hr' hid
  have hsorted : (newestFirst rs).Pairwise fun r r' => r'.id ≤ r.id := by
    refine (List.pairwise_mergeSort ?_ ?_ rs).imp fun h => of_decide_eq_true h
    · intro a b c hab hbc
      rw [decide_eq_true_eq] at hab hbc ⊢
      exact Int.le_trans hbc hab
    · intro a b
      rw [Bool.or_eq_true, decide_eq_true_eq, decide_eq_true_eq]
      exact Int.le_total b.id a.id
  have hreverse : rs.reverse.Pairwise fun r r' => r'.id ≤ r.id := by
    rw [List.pairwise_reverse]
    exact (List.pairwise_map.mp h).imp fun hlt => Int.le_of_lt hlt
  refine List.Perm.eq_of_pairwise (fun r r' hr hr' hle hge => ?_) hsorted hreverse
    ((List.mergeSort_perm _ _).trans (List.reverse_perm rs).symm)
  exact hinj r (List.mem_mergeSort.mp hr) r' (List.mem_reverse.mp hr') (Int.le_antisymm hge hle)

theorem history_eq {userId : Int} (H : HasSchema parent db) (huser : Fits userId) :
    history db userId = .ok ((ownRows userId db).reverse.map historyEntry) := by
  have hsorted : ((ownRows userId db).map (·.id)).Pairwise (· < ·) :=
    rows_ascending.sublist (List.filter_sublist.map _)
  rw [← newestFirst_eq_reverse hsorted]
  simp only [history, bindParam, if_pos huser, bind, Except.bind, sql, Except.mapError,
    select_of_schema H.scans (show ∀ c ∈ [ColumnName.userId, .target, .risk, .score, .createdAt],
      _ by decide)]
  rfl

end ThreatScanner.Store
