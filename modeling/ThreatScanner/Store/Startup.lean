import ThreatScanner.Store.Migration

/-!
# Starting on a database of an earlier version

`init_db` is meant to bring up every database an earlier version has left: it returns, `admin` can
log in, and a second call changes nothing (`StartsUp`). On a legacy database it looks for `admin`,
and creates it, through a second connection while its own transaction is open. So it returns only
where `admin` exists already, and where the transaction has not had to lock out readers.
-/

namespace ThreatScanner.Store

open Relational

variable {p : Platform} {now : Value} {db : ScanDb} {parent : TableName}

/-- `verify_user`. -/
def verifyUser (p : Platform) (db : ScanDb) (username password : String) :
    Except StoreError (Option User) := do
  let rows ← sql (select db .users [.username, .password] fun row =>
    row.cells .username = .text username ∧ row.cells .password = .text (p.sha256 password))
  .ok (rows.head?.map fun row => ⟨row.id, fromValue (row.cells .username)⟩)

def HasAdmin (db : ScanDb) : Prop :=
  ∃ row ∈ rows db .users, row.cells .username = .text "admin"

/-- A password of `admin`: one that the stored hash belongs to, or "admin" if there is no such
user. -/
def AdminPassword (p : Platform) (db : ScanDb) (password : String) : Prop :=
  (∃ row ∈ rows db .users, row.cells .username = .text "admin" ∧
    row.cells .password = .text (p.sha256 password)) ∨ ¬HasAdmin db ∧ password = "admin"

/-- `init_db` returns, `admin` can log in, and a second call changes nothing. -/
structure StartsUp (p : Platform) (now : Value) (db : ScanDb) : Prop where
  returns : (initDb p now db).1 = .ok ()
  admin : ∀ password, AdminPassword p db password →
    ∃ user, verifyUser p (initDb p now db).2 "admin" password = .ok (some user)
  again : ∀ later, initDb p later (initDb p now db).2 = (.ok (), (initDb p now db).2)

/-- What `init_db` needs: on a legacy database the user `admin`, a target in each scan, and a
migration that fits the page cache; otherwise `admin`, or an id for a new user. -/
structure Startable (p : Platform) (db : ScanDb) : Prop where
  legacy : LegacyScans db → HasAdmin db ∧ (∀ row ∈ rows db .scans, row.cells .target ≠ .null) ∧
    p.spills (createTables db) = false
  current : ¬LegacyScans db → HasAdmin db ∨ ∀ table, db .users = some table → table.seq < maxRowid

/-! ## The users -/

theorem getUserByUsername_eq {username : String} (h : schema db .users = some usersColumns) :
    getUserByUsername db username = .ok (((rows db .users).find? fun row =>
      row.cells .username = .text username).map fun row =>
        ⟨row.id, fromValue (row.cells .username)⟩) := by
  have hnames : ∀ c ∈ [ColumnName.username], c ∈ usersColumns.map (·.name) := by decide
  simp only [getUserByUsername, select_of_schema h hnames, sql, Except.mapError, bind, Except.bind,
    List.head?_filter]

theorem verifyUser_of_row {username password : String} (h : schema db .users = some usersColumns)
    {row : StoreRow} (hrow : row ∈ rows db .users) (hname : row.cells .username = .text username)
    (hpassword : row.cells .password = .text (p.sha256 password)) :
    ∃ user, verifyUser p db username password = .ok (some user) := by
  have hnames : ∀ c ∈ [ColumnName.username, .password], c ∈ usersColumns.map (·.name) := by decide
  simp only [verifyUser, select_of_schema h hnames, sql, Except.mapError, bind, Except.bind,
    List.head?_filter]
  cases hfind : (rows db .users).find? fun row => decide (row.cells .username = .text username ∧
      row.cells .password = .text (p.sha256 password)) with
  | none => exact absurd (List.find?_eq_none.mp hfind row hrow) (by simp [hname, hpassword])
  | some found => exact ⟨_, rfl⟩

/-! ## The end of `init_db` -/

theorem createIndexes_of_schema (hscans : schema db .scans = some scansColumns)
    (hchildren : ∀ child : Child, schema db child.table = some (child.columns parent)) :
    createIndexes db = .ok () := by
  have hindex : ∀ t cols c, schema db t = some cols → c ∈ cols.map (·.name) →
      createIndex db t c = .ok () := by
    intro t cols c hcols hc
    obtain ⟨table, htable, rfl⟩ := schema_eq_some.mp hcols
    simp only [createIndex, htable]
    exact if_pos hc
  have hchild : ∀ child : Child, createIndex db child.table .scanId = .ok () := fun child =>
    hindex _ _ _ (hchildren child) List.mem_cons_self
  simp only [createIndexes, hindex _ _ .userId hscans (by decide),
    hindex _ _ .createdAt hscans (by decide), Child.all, hchild]
  rfl

/-- Where `admin` exists and can be read, `init_db` has nothing more to do than the indexes. -/
theorem finishInit_of_admin {held : FileLock} {committed : ScanDb}
    (hindexes : createIndexes db = .ok ()) (hheld : held ≠ .exclusive)
    (husers : schema committed .users = some usersColumns) (hadmin : HasAdmin committed) :
    finishInit p now held committed db = (.ok (), db) := by
  simp only [finishInit, hindexes, if_neg hheld, getUserByUsername_eq husers]
  cases hfind : (rows committed .users).find? fun row =>
      decide (row.cells .username = .text "admin") with
  | none =>
    obtain ⟨row, hrow, hname⟩ := hadmin
    exact absurd (List.find?_eq_none.mp hfind row hrow) (by simp [hname])
  | some found => rfl

theorem find?_admin_eq_none (hadmin : ¬HasAdmin db) :
    ((rows db .users).find? fun row => decide (row.cells .username = .text "admin")) = none := by
  rw [List.find?_eq_none]
  intro row hrow hname
  exact hadmin ⟨row, hrow, of_decide_eq_true hname⟩

/-- A transaction that is written to the file before its commit keeps the second connection from
reading. -/
theorem finishInit_exclusive {committed : ScanDb} (hindexes : createIndexes db = .ok ()) :
    finishInit p now .exclusive committed db = (.error .locked, committed) := by
  simp only [finishInit, hindexes]
  rfl

/-- Any other keeps it from writing the user `admin`, if that is missing. -/
theorem finishInit_reserved {committed : ScanDb} (hindexes : createIndexes db = .ok ())
    (husers : schema committed .users = some usersColumns) (hadmin : ¬HasAdmin committed) :
    finishInit p now .reserved committed db = (.error .locked, committed) := by
  simp only [finishInit, hindexes, getUserByUsername_eq husers, find?_admin_eq_none hadmin,
    Option.map_none]
  rfl

/-- With no transaction open the user is created. -/
theorem finishInit_creates (hindexes : createIndexes db = .ok ())
    (husers : schema db .users = some usersColumns) (hadmin : ¬HasAdmin db) :
    finishInit p now .none db db =
      match createUser p now db "admin" "admin" with
      | .error e => (.error e, db)
      | .ok (_, db) => (.ok (), db) := by
  simp only [finishInit, hindexes, getUserByUsername_eq husers, find?_admin_eq_none hadmin,
    Option.map_none]
  rfl

/-! ## The user `admin` -/

/-- The values of the `INSERT` of a user. -/
def userValues (p : Platform) (username password : String) : List (ColumnName × Value) :=
  [(.username, .text username), (.password, .text (p.sha256 password))]

theorem prepare_users {table : Table TableName ColumnName} {username password : String}
    (htable : db .users = some table) (hcols : table.columns = usersColumns) :
    prepare db .users ((userValues p username password).map Prod.fst) = .ok table := by
  refine prepare_eq_ok.mpr ⟨htable, ?_, ?_⟩
  · rw [Table.columnNames, hcols]
    show ∀ c ∈ [ColumnName.username, .password], c ∈ usersColumns.map (·.name)
    decide
  · rw [hcols]
    intro column hcolumn parent href
    have hnone : ∀ column ∈ usersColumns, column.references = none := by decide
    rw [hnone column hcolumn] at href
    cases href

theorem newUser_cells {id : Int} {username password : String} :
    (newRow p.conv now usersColumns id (userValues p username password)).cells .username =
        .text username ∧
      (newRow p.conv now usersColumns id (userValues p username password)).cells .password =
        .text (p.sha256 password) :=
  ⟨rfl, rfl⟩

/-- A new name violates nothing. -/
theorem accepts_user {table : Table TableName ColumnName} {username password : String} {id : Int}
    (htable : db .users = some table) (hcols : table.columns = usersColumns)
    (hnew : ∀ row ∈ rows db .users, row.cells .username ≠ .text username) :
    violates db table
      (newRow p.conv now table.columns id (userValues p username password)) = false := by
  rw [rows_eq htable] at hnew
  rw [hcols, violates, hcols, List.any_eq_false]
  have hfree : table.rows.any (·.cells .username = .text username) = false := by
    rw [List.any_eq_false]
    exact fun row hrow => by simpa using hnew row hrow
  intro column hcolumn
  simp only [usersColumns, List.mem_cons, List.not_mem_nil, or_false] at hcolumn
  rcases hcolumn with rfl | rfl | rfl
  · simp [newUser_cells, hfree]
  · simp [newUser_cells]
  · simp [createdAtColumn]

/-- `create_user` for `admin`, which has an id for it or not. -/
theorem createUser_admin (husers : schema db .users = some usersColumns) (hadmin : ¬HasAdmin db)
    (hseq : ∀ table, db .users = some table → table.seq < maxRowid) :
    ∃ db', createUser p now db "admin" "admin" = .ok (true, db') ∧ ∃ row ∈ rows db' .users,
      row.cells .username = .text "admin" ∧ row.cells .password = .text (p.sha256 "admin") := by
  obtain ⟨table, htable, hcols⟩ := schema_eq_some.mp husers
  obtain ⟨db', hinsert⟩ : ∃ db', insert p.conv now db .users (userValues p "admin" "admin") =
      .ok (table.seq + 1, db') :=
    insert_of_accepted (prepare_users htable hcols) (hseq table htable) <|
      accepts_user htable hcols fun row hrow hname => hadmin ⟨row, hrow, hname⟩
  refine ⟨db', ?_, ?_⟩
  · rw [createUser, ← userValues, hinsert]
  · rw [rows_insert hinsert (columns_of_schema husers)]
    exact ⟨_, List.mem_append_right _ (List.mem_singleton_self _), newUser_cells⟩

theorem createUser_full {table : Table TableName ColumnName} {username password : String}
    (husers : schema db .users = some usersColumns) (htable : db .users = some table)
    (hseq : ¬table.seq < maxRowid) :
    createUser p now db username password = .error (.sql .full) := by
  obtain ⟨table', htable', hcols⟩ := schema_eq_some.mp husers
  cases htable.symm.trans htable'
  have hinsert : insert p.conv now db .users (userValues p username password) = .error .full :=
    insert_full (prepare_users htable hcols) hseq
  rw [createUser, ← userValues, hinsert]

/-! ## The current schema -/

/-- A second call of `init_db` changes nothing. -/
theorem initDb_again (H : HasSchema parent db) (hadmin : HasAdmin db) :
    initDb p now db = (.ok (), db) := by
  have htables := createTables_eq H
  have hscans : schema (createTables db) .scans = some scansColumns := by
    rw [htables]
    exact H.scans
  rw [initDb_eq_finishInit hscans, htables]
  exact finishInit_of_admin (createIndexes_of_schema H.scans H.children) nofun H.users hadmin

/-- A database on which `admin` can log in as before. -/
structure Ready (p : Platform) (db after : ScanDb) : Prop where
  hasSchema : ∃ parent, HasSchema parent after
  login : ∀ password, AdminPassword p db password → ∃ row ∈ rows after .users,
    row.cells .username = .text "admin" ∧ row.cells .password = .text (p.sha256 password)
  hasAdmin : HasAdmin after

theorem startsUp_of_ready (h : (initDb p now db).1 = .ok ()) (R : Ready p db (initDb p now db).2) :
    StartsUp p now db where
  returns := h
  admin password hpassword := by
    obtain ⟨parent, H⟩ := R.hasSchema
    obtain ⟨row, hrow, hname, hhash⟩ := R.login password hpassword
    exact verifyUser_of_row H.users hrow hname hhash
  again later := by
    obtain ⟨parent, H⟩ := R.hasSchema
    exact initDb_again H R.hasAdmin

/-- The users are all there and `admin` is among them. -/
theorem ready_of_rows {after : ScanDb} (H : HasSchema parent after) (hadmin : HasAdmin db)
    (hrows : rows after .users = rows db .users) : Ready p db after where
  hasSchema := ⟨parent, H⟩
  login password hpassword := by
    rw [hrows]
    exact hpassword.resolve_right fun h => h.1 hadmin
  hasAdmin := by
    rw [HasAdmin, hrows]
    exact hadmin

theorem createTables_users :
    createTables db .users = some ((db .users).getD (.empty usersColumns)) := by
  simp [createTables, Child.all, createIfMissing_apply, Child.table]

theorem hasAdmin_createTables : HasAdmin (createTables db) ↔ HasAdmin db := by
  rw [HasAdmin, rows_createTables, HasAdmin]

theorem seq_createTables (h : ∀ table, db .users = some table → table.seq < maxRowid) :
    ∀ table, createTables db .users = some table → table.seq < maxRowid := by
  rw [createTables_users]
  cases hdb : db .users with
  | none =>
    rintro _ ⟨⟩
    decide
  | some table =>
    rintro _ ⟨⟩
    exact h table hdb

/-- On the current schema only a missing `admin` for which there is no id is a failure. -/
theorem startsUp_current (hinit : initDb p now db =
      finishInit p now .none (createTables db) (createTables db))
    (H : HasSchema parent (createTables db)) : StartsUp p now db ↔
      HasAdmin db ∨ ∀ table, db .users = some table → table.seq < maxRowid := by
  have hindexes := createIndexes_of_schema H.scans H.children
  by_cases hadmin : HasAdmin db
  · refine iff_of_true ?_ (.inl hadmin)
    have hfinish : initDb p now db = (.ok (), createTables db) := by
      rw [hinit]
      exact finishInit_of_admin hindexes nofun H.users (hasAdmin_createTables.mpr hadmin)
    refine startsUp_of_ready (by rw [hfinish]) ?_
    rw [hfinish]
    exact ready_of_rows H hadmin (rows_createTables _)
  · rw [or_iff_right hadmin]
    have hnone : ¬HasAdmin (createTables db) := fun h => hadmin (hasAdmin_createTables.mp h)
    have hfinish : initDb p now db = match createUser p now (createTables db) "admin" "admin" with
        | .error e => (.error e, createTables db)
        | .ok (_, db) => (.ok (), db) :=
      hinit.trans (finishInit_creates hindexes H.users hnone)
    constructor
    · intro S table htable
      by_contra hseq
      have husers : createTables db .users = some table := by
        rw [createTables_users, htable]
        rfl
      have hreturns := S.returns
      rw [hfinish, createUser_full H.users husers hseq] at hreturns
      cases hreturns
    · intro hseq
      obtain ⟨after, hcreate, row, hrow, hname, hhash⟩ :=
        createUser_admin H.users hnone (seq_createTables hseq)
      have hdone : initDb p now db = (.ok (), after) := by rw [hfinish, hcreate]
      refine startsUp_of_ready (by rw [hdone]) ?_
      rw [hdone]
      refine ⟨⟨parent, H.of_eq (createUser_ok hcreate).1⟩, fun password hpassword => ?_,
        row, hrow, hname⟩
      obtain ⟨admin, hmem, hadminName, -⟩ | ⟨-, rfl⟩ := hpassword
      · exact (hadmin ⟨admin, hmem, hadminName⟩).elim
      · exact ⟨row, hrow, hname, hhash⟩

/-! ## The legacy schema -/

/-- The legacy table under its new name, and the new one, still empty. -/
structure Renamed (db created : ScanDb) (table : Table TableName ColumnName) : Prop where
  scans : created .scans = some (.empty scansColumns)
  old : created .scansOld = some (table.retarget .scans .scansOld)
  users : created .users = (db .users).map (·.retarget .scans .scansOld)

theorem renamed_of_legacy {table : Table TableName ColumnName} (hscans : db .scans = some table)
    (hold : db .scansOld = none) :
    ∃ renamed created, rename db .scans .scansOld = .ok renamed ∧
      create renamed .scans scansColumns = .ok created ∧ Renamed db created table := by
  obtain ⟨renamed, hrename⟩ : ∃ renamed, rename db .scans .scansOld = .ok renamed := by
    simp only [rename, hscans, hold]
    exact ⟨_, rfl⟩
  obtain ⟨table', htable, -, hnew, hother⟩ := rename_eq_ok hrename
  cases hscans.symm.trans htable
  have hscans' : renamed .scans = none := hother .scans (by decide)
  refine ⟨renamed, _, hrename, create_eq_ok.mpr ⟨hscans', rfl⟩, Function.update_self _ _ _, ?_, ?_⟩
  · rw [Function.update_of_ne (by decide), hnew]
  · rw [Function.update_of_ne (by decide), hother .users (by decide)]
    rfl

theorem apply_text_eq_null {conv : Conversions} {v : Value} :
    Affinity.text.apply conv v = .null ↔ v = .null := by
  cases v <;> simp [Affinity.apply]

/-- The copy of a row is refused only for a missing target. -/
theorem violates_copy {table : Table TableName ColumnName} {row : StoreRow}
    (hcols : table.columns = scansColumns) :
    violates db table (newRow p.conv now scansColumns row.id
      (copiedColumns.map fun c => (c, row.cells c))) = decide (row.cells .target = .null) := by
  generalize hnew : newRow p.conv now scansColumns row.id
    (copiedColumns.map fun c => (c, row.cells c)) = new
  have howner : new.cells .userId = .null := by
    rw [← hnew]
    rfl
  have htarget : new.cells .target = .null ↔ row.cells .target = .null := by
    rw [← hnew]
    exact apply_text_eq_null
  rw [violates, hcols]
  simp [scansColumns, userIdColumn, textColumn, integerColumn, createdAtColumn, howner, htarget]

theorem copyAndDrop_isOk_iff {created : ScanDb} {table : Table TableName ColumnName}
    (R : Renamed db created table) (hcopied : ∀ c ∈ copiedColumns, c ∈ table.columnNames)
    (husers : (db .users).isSome) : (∃ dropped, copyAndDrop p now created = .ok dropped) ↔
      ∀ row ∈ table.rows, row.cells .target ≠ .null := by
  have hprepare : prepare created .scans copiedColumns = .ok (.empty scansColumns) := by
    refine prepare_eq_ok.mpr ⟨R.scans, by decide, fun column hcolumn parent href => ?_⟩
    have hrefs : ∀ column ∈ scansColumns, ∀ parent, column.references = some parent →
        parent = .users := by decide
    rw [hrefs column hcolumn parent href, R.users, Option.isSome_map]
    exact husers
  have hselect : select created .scansOld copiedColumns (fun _ => true) = .ok table.rows := by
    refine select_eq_ok.mpr ⟨_, R.old, fun c hc => ?_, ?_⟩
    · rw [Table.columnNames, Table.retarget, retarget, List.map_map]
      exact hcopied c hc
    · rw [rows_eq R.old, List.filter_true]
      rfl
  have hinsert : (∃ filled, insertAll p.conv now .scans copiedColumns table.rows created =
      .ok filled) ↔ ∀ row ∈ table.rows, decide (row.cells .target = .null) = false := by
    refine insertAll_isOk_iff R.scans rfl ?_ ?_ fun _ _ _ => violates_copy
    · exact table.ascending.imp fun h => Int.ne_of_lt h
    · exact fun row hrow => ⟨List.not_mem_nil, table.fits row hrow⟩
  simp only [decide_eq_false_iff_not] at hinsert
  refine Iff.trans ?_ hinsert
  simp only [copyAndDrop, bind_eq_ok]
  constructor
  · rintro ⟨dropped, _, -, rs, hrs, filled, hfilled, -⟩
    cases hselect.symm.trans hrs
    exact ⟨filled, hfilled⟩
  · rintro ⟨filled, hfilled⟩
    have hold : filled .scansOld = created .scansOld := insertAll_other hfilled (by decide)
    have hdrop : drop filled cascadeDepth .scansOld = .ok (dropOld filled) := by
      rw [drop, hold, R.old]
      rfl
    exact ⟨_, _, hprepare, _, hselect, filled, hfilled, hdrop⟩

theorem retarget_users : retarget .scans .scansOld usersColumns = usersColumns := by decide

theorem rows_retarget {t : TableName} {table : Option (Table TableName ColumnName)}
    {db' : ScanDb} (h : db' t = table.map (·.retarget .scans .scansOld)) :
    rows db' t = (table.map (·.rows)).getD [] := by
  rw [rows, h]
  cases table <;> rfl

theorem schema_retarget {t : TableName} {table : Option (Table TableName ColumnName)}
    {db' : ScanDb} (h : db' t = table.map (·.retarget .scans .scansOld)) :
    schema db' t = (table.map (·.columns)).map (retarget .scans .scansOld) := by
  rw [schema, h]
  cases table <;> rfl

/-- The migration leaves the users as they are. -/
theorem Migrated.rows_users {renamed filled dropped : ScanDb}
    (M : Migrated db renamed filled dropped) (hdropped : dropped = dropOld filled)
    (husers : schema db .users = some usersColumns) : rows dropped .users = rows db .users := by
  obtain ⟨table, -, -, -, hother⟩ := rename_eq_ok M.rename_eq
  have hfilled : schema filled .users = some usersColumns := by
    rw [M.schema_filled (by decide) (by decide), husers, Option.map_some, retarget_users]
  have hrows : rows (dropOld filled) .users = rows filled .users := by
    rw [rows, dropOld, Function.update_of_ne (by decide), ← rows, rows_delete, List.filter_eq_self]
    intro row _
    rw [doomed_users hfilled fun _ => rfl]
    rfl
  rw [hdropped, hrows, rows_congr (M.same .users (by decide))]
  exact rows_retarget (hother .users (by decide))

theorem createTables_scans {table : Table TableName ColumnName} (h : db .scans = some table) :
    createTables db .scans = some table := by
  simp [createTables, Child.all, createIfMissing_apply, Child.table, h]

/-- While the transaction of the migration is open, `admin` has to exist and to be readable. -/
theorem startsUp_transaction {created dropped : ScanDb}
    (hinit : initDb p now db = finishInit p now
      (if p.spills (createTables db) then .exclusive else .reserved) created dropped)
    (H : HasSchema parent dropped) (husers : schema created .users = some usersColumns)
    (hcreated : rows created .users = rows db .users)
    (hdropped : rows dropped .users = rows db .users) :
    StartsUp p now db ↔ HasAdmin db ∧ p.spills (createTables db) = false := by
  have hindexes := createIndexes_of_schema H.scans H.children
  have hadmin : HasAdmin created ↔ HasAdmin db := by rw [HasAdmin, hcreated, HasAdmin]
  constructor
  · intro S
    have hreturns := S.returns
    cases hspills : p.spills (createTables db) with
    | true =>
      rw [hinit, hspills, if_pos rfl, finishInit_exclusive hindexes] at hreturns
      cases hreturns
    | false =>
      refine ⟨?_, rfl⟩
      by_contra hnone
      rw [hinit, hspills, if_neg Bool.false_ne_true,
        finishInit_reserved hindexes husers (mt hadmin.mp hnone)] at hreturns
      cases hreturns
  · rintro ⟨h, hspills⟩
    rw [hspills, if_neg Bool.false_ne_true] at hinit
    have hdone : initDb p now db = (.ok (), dropped) :=
      hinit.trans (finishInit_of_admin hindexes nofun husers (hadmin.mpr h))
    refine startsUp_of_ready (by rw [hdone]) ?_
    rw [hdone]
    exact ready_of_rows H h hdropped

/-- On a legacy database `init_db` needs the user `admin`, the targets and the cache. -/
theorem startsUp_legacy (hlegacy : LegacyScans db) (hold : db .scansOld = none)
    (husers : schema db .users = none ∨ schema db .users = some usersColumns)
    (hchildren : ∀ child : Child,
      schema db child.table = none ∨ schema db child.table = some (child.columns .scans))
    (hcopied : ∀ c ∈ copiedColumns, c ∈ (columns db .scans).map (·.name)) :
    StartsUp p now db ↔ HasAdmin db ∧ (∀ row ∈ rows db .scans, row.cells .target ≠ .null) ∧
      p.spills (createTables db) = false := by
  have hinit : initDb p now db = migrate p now (createTables db) := initDb_eq_migrate hlegacy
  obtain ⟨cols, hcols, -⟩ := hlegacy
  obtain ⟨table, htable, -⟩ := schema_eq_some.mp hcols
  have hold' : createTables db .scansOld = none := by
    rw [← schema_eq_none, schema_createTables_scansOld, schema_eq_none, hold]
  have husers' : schema (createTables db) .users = some usersColumns := by
    rw [schema_createTables_users, getD_of_none_or husers]
  have hchildren' : ∀ child : Child,
      schema (createTables db) child.table = some (child.columns .scans) := by
    intro child
    rw [schema_createTables_child, getD_of_none_or (hchildren child)]
  obtain ⟨renamed, created, hrename, hcreate, R⟩ :=
    renamed_of_legacy (createTables_scans htable) hold'
  have hcopy : (∃ dropped, copyAndDrop p now created = .ok dropped) ↔
      ∀ row ∈ rows db .scans, row.cells .target ≠ .null := by
    rw [rows_eq htable]
    rw [columns_eq htable] at hcopied
    refine copyAndDrop_isOk_iff R hcopied ?_
    rw [createTables_users]
    rfl
  rw [← hcopy]
  cases hrun : copyAndDrop p now created with
  | error e =>
    refine iff_of_false (fun S => ?_) fun h => nomatch h.2.1
    have hreturns := S.returns
    simp only [hinit, migrate, hrename, hcreate, hrun] at hreturns
    cases hreturns
  | ok dropped =>
    have hfinish : initDb p now db = finishInit p now
        (if p.spills (createTables db) then .exclusive else .reserved) created dropped := by
      simp only [hinit, migrate, hrename, hcreate, hrun]
    obtain ⟨filled, M, hdropped⟩ := migrated_of_copy hrename hcreate hrun
    rw [and_iff_right (⟨dropped, rfl⟩ : ∃ dropped', Except.ok dropped = Except.ok dropped')]
    refine startsUp_transaction hfinish (M.hasSchema husers' hchildren') ?_ ?_ ?_
    · rw [schema_retarget R.users, ← schema, husers', Option.map_some, retarget_users]
    · exact (rows_retarget R.users).trans (rows_createTables _)
    · rw [M.rows_users hdropped husers', rows_createTables]

/-! ## Every earlier version -/

theorem startable_of_legacy (h : LegacyScans db) : Startable p db ↔
    HasAdmin db ∧ (∀ row ∈ rows db .scans, row.cells .target ≠ .null) ∧
      p.spills (createTables db) = false :=
  ⟨fun S => S.legacy h, fun hneeds => ⟨fun _ => hneeds, fun hnot => (hnot h).elim⟩⟩

theorem startable_of_not_legacy (h : ¬LegacyScans db) : Startable p db ↔
    HasAdmin db ∨ ∀ table, db .users = some table → table.seq < maxRowid :=
  ⟨fun S => S.current h, fun hneeds => ⟨fun hlegacy => (h hlegacy).elim, fun _ => hneeds⟩⟩

theorem not_legacyScans (h : schema db .scans = none ∨ schema db .scans = some scansColumns) :
    ¬LegacyScans db := by
  rintro ⟨cols, hcols, huser, -⟩
  rw [hcols] at h
  obtain h | h := h
  · cases h
  · cases h
    exact absurd huser (by decide)

/-- `init_db` starts up on a database of an earlier version exactly when it is `Startable`. -/
theorem startsUp_iff (p : Platform) (now : Value) (h : Earlier db)
    (hcopied : LegacyScans db → ∀ c ∈ copiedColumns, c ∈ (columns db .scans).map (·.name)) :
    StartsUp p now db ↔ Startable p db := by
  cases h with
  | current husers hscans hchildren =>
    rw [startable_of_not_legacy (not_legacyScans hscans)]
    have hscans' : schema (createTables db) .scans = some scansColumns := by
      rw [schema_createTables_scans, getD_of_none_or hscans]
    refine startsUp_current (initDb_eq_finishInit hscans') ⟨?_, hscans', fun child => ?_, .inl rfl⟩
    · rw [schema_createTables_users, getD_of_none_or husers]
    · rw [schema_createTables_child, getD_of_none_or (hchildren child)]
  | legacy husers hscans hchildren hold =>
    rw [startable_of_legacy hscans]
    exact startsUp_legacy hscans hold husers hchildren (hcopied hscans)
  | migrated H =>
    rw [startable_of_not_legacy (not_legacyScans (.inr H.scans))]
    have htables : createTables db = db := createTables_eq H
    rw [← htables] at H
    exact startsUp_current (initDb_eq_finishInit H.scans) H

/-- A legacy database with `admin`. -/
theorem legacyDb_startsUp : StartsUp findingPlatform .null legacyDb := by
  refine (startsUp_iff findingPlatform .null ?_ fun _ => ?_).mpr ?_
  · exact .legacy (.inr legacyDb_legacy.users) legacyDb_legacy.scans legacyDb_legacy.children rfl
  · decide
  · refine (startable_of_legacy legacyDb_legacy.scans).mpr ⟨legacyDb_legacy.admin, ?_, rfl⟩
    rintro row hrow
    cases List.mem_singleton.mp hrow
    decide

/-- A legacy database whose only user is not `admin`. -/
def adminlessDb : ScanDb
  | .users => some (oneRow usersColumns [(.username, .text "alice"), (.password, .text "alice")])
  | .scans => some (oneRow (textColumn .user :: scansColumns.tail)
      [(.user, .text "alice"), (.target, .text "example.com"), (.risk, .text "HIGH")])
  | _ => none

theorem adminlessDb_earlier : Earlier adminlessDb := by
  refine .legacy (.inr rfl) ⟨_, rfl, by decide, by decide⟩ (fun child => .inl ?_) rfl
  cases child <;> rfl

/-- The user is written through a second connection, and the database is locked. -/
theorem adminless_locked : Earlier adminlessDb ∧
    (initDb findingPlatform .null adminlessDb).1 = .error .locked ∧
    ¬∀ p now db, Earlier db → (LegacyScans db → ∀ c ∈ copiedColumns,
      c ∈ (columns db .scans).map (·.name)) → StartsUp p now db := by
  have hlocked : (initDb findingPlatform .null adminlessDb).1 = .error .locked := by rfl
  refine ⟨adminlessDb_earlier, hlocked, fun hall => ?_⟩
  have S := hall findingPlatform .null adminlessDb adminlessDb_earlier fun _ => by decide
  exact absurd (hlocked.symm.trans S.returns) nofun

end ThreatScanner.Store
