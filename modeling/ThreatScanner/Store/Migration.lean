import ThreatScanner.Store.Rules

/-!
# `init_db` and the migration of the legacy table

`init_db` brings every database of an earlier version to the current schema (`initDb_hasSchema`).
On a legacy `scans` it renames the table, and with it the references of the child tables, and drops
it at the end: the child rows go with it, and no child row can be inserted any more, because the
table their scans are looked up in does not exist.
-/

namespace ThreatScanner.Store

open Relational

variable {p : Platform} {now : Value} {db db' : ScanDb} {parent : TableName}

/-- The legacy `scans`: a `user` column and no `user_id`. -/
def LegacyScans (db : ScanDb) : Prop :=
  ∃ cols, schema db .scans = some cols ∧ ColumnName.user ∈ cols.map (·.name) ∧
    ColumnName.userId ∉ cols.map (·.name)

/-- The databases an earlier version can have left: a new file, the current schema or a part of
it, the legacy `scans`, and a migrated database. -/
inductive Earlier (db : ScanDb) : Prop where
  | current (husers : schema db .users = none ∨ schema db .users = some usersColumns)
      (hscans : schema db .scans = none ∨ schema db .scans = some scansColumns)
      (hchildren : ∀ child : Child,
        schema db child.table = none ∨ schema db child.table = some (child.columns .scans))
  | legacy (husers : schema db .users = none ∨ schema db .users = some usersColumns)
      (hscans : LegacyScans db)
      (hchildren : ∀ child : Child,
        schema db child.table = none ∨ schema db child.table = some (child.columns .scans))
      (hold : db .scansOld = none)
  | migrated (H : HasSchema .scansOld db)

/-! ## The statements of `init_db` -/

theorem createIfMissing_apply (t t' : TableName) (cols : List StoreColumn) :
    createIfMissing db t cols t' = if t' = t then some ((db t').getD (.empty cols)) else db t' := by
  by_cases ht : t' = t
  · subst ht
    rw [if_pos rfl]
    cases hdb : db t' with
    | none => simp [createIfMissing, hdb]
    | some table => simp [createIfMissing, hdb]
  · rw [if_neg ht, createIfMissing]
    split
    · exact Function.update_of_ne ht _ _
    · rfl

theorem schema_createIfMissing (t t' : TableName) (cols : List StoreColumn) :
    schema (createIfMissing db t cols) t' =
      if t' = t then some ((schema db t).getD cols) else schema db t' := by
  rw [schema, createIfMissing_apply]
  split
  · rename_i ht
    subst ht
    rw [schema]
    cases db t' <;> rfl
  · rfl

theorem rows_createIfMissing (t t' : TableName) (cols : List StoreColumn) :
    rows (createIfMissing db t cols) t' = rows db t' := by
  rw [rows, createIfMissing_apply, rows]
  split
  · cases db t' <;> rfl
  · rfl

theorem rows_createTables (t : TableName) : rows (createTables db) t = rows db t := by
  simp only [createTables, Child.all, List.foldl_cons, List.foldl_nil, rows_createIfMissing]

theorem schema_createTables_child (child : Child) : schema (createTables db) child.table =
    some ((schema db child.table).getD (child.columns .scans)) := by
  cases child <;>
    simp [createTables, Child.all, schema_createIfMissing, Child.table]

theorem schema_createTables_users :
    schema (createTables db) .users = some ((schema db .users).getD usersColumns) := by
  simp [createTables, Child.all, schema_createIfMissing, Child.table]

theorem schema_createTables_scans :
    schema (createTables db) .scans = some ((schema db .scans).getD scansColumns) := by
  simp [createTables, Child.all, schema_createIfMissing, Child.table]

theorem schema_createTables_scansOld :
    schema (createTables db) .scansOld = schema db .scansOld := by
  simp [createTables, Child.all, schema_createIfMissing, Child.table]

/-- On the current schema there is no table to create. -/
theorem createTables_eq {parent : TableName} (H : HasSchema parent db) : createTables db = db := by
  have hmissing : ∀ t cols cols', schema db t = some cols → createIfMissing db t cols' = db := by
    intro t cols cols' hcols
    obtain ⟨table, htable, -⟩ := schema_eq_some.mp hcols
    rw [createIfMissing, htable]
    rfl
  have hchild : ∀ child : Child,
      createIfMissing db child.table (child.columns .scans) = db := fun child =>
    hmissing _ _ _ (H.children child)
  simp only [createTables, hmissing _ _ _ H.users, hmissing _ _ _ H.scans, Child.all,
    List.foldl_cons, List.foldl_nil, hchild]

theorem getD_of_none_or {α : Type} {x : Option α} {a : α} (h : x = none ∨ x = some a) :
    x.getD a = a := by
  rcases h with rfl | rfl <;> rfl

theorem finishInit_ok {held : FileLock} {committed : ScanDb}
    (h : (finishInit p now held committed db).1 = .ok ()) :
    schema (finishInit p now held committed db).2 = schema db ∧
      ∀ t, t ≠ .users → (finishInit p now held committed db).2 t = db t := by
  unfold finishInit at h ⊢
  cases hindexes : createIndexes db with
  | error e => rw [hindexes] at h; cases h
  | ok =>
    rw [hindexes] at h
    by_cases hexclusive : held = .exclusive
    · simp only [hexclusive, if_true] at h
      cases h
    simp only [hexclusive, if_false] at h ⊢
    cases hadmin : getUserByUsername committed "admin" with
    | error e => rw [hadmin] at h; cases h
    | ok admin =>
      rw [hadmin] at h
      cases admin with
      | some user => exact ⟨rfl, fun _ _ => rfl⟩
      | none =>
        by_cases hreserved : held = .reserved
        · simp only [hreserved, if_true] at h
          cases h
        simp only [hreserved, if_false] at h ⊢
        cases hcreate : createUser p now db "admin" "admin" with
        | error e => rw [hcreate] at h; cases h
        | ok created => exact createUser_ok hcreate

theorem copyAndDrop_ok {created : ScanDb} (h : copyAndDrop p now created = .ok db') :
    ∃ filled : ScanDb, schema filled = schema created ∧
      (∀ t, t ≠ .scans → filled t = created t) ∧
      db' = Function.update (delete filled cascadeDepth fun t _ => t = .scansOld)
        .scansOld none := by
  simp only [copyAndDrop, bind_eq_ok] at h
  obtain ⟨_, _, rs, _, filled, hfilled, hdrop⟩ := h
  exact ⟨filled, schema_insertAll hfilled, fun t => insertAll_other hfilled,
    (drop_eq_ok hdrop).2⟩

/-- The migration, once it is through. In `renamed` the table `scans` and the references to it have
their new name; `filled` has the new `scans` as well, and `scans_old` is dropped from it. -/
structure Migrated (db renamed filled db' : ScanDb) : Prop where
  rename_eq : rename db .scans .scansOld = .ok renamed
  scans : schema filled .scans = some scansColumns
  same : ∀ t, t ≠ .scans → filled t = renamed t
  child_eq : ∀ child : Child, db' child.table =
    delete filled cascadeDepth (fun t _ => t = .scansOld) child.table
  schema_eq : schema db' = schema (Function.update
    (delete filled cascadeDepth fun t _ => t = .scansOld) .scansOld none)

theorem Child.table_ne_scansOld (child : Child) : child.table ≠ .scansOld := by
  cases child <;> decide

/-- The database after the legacy table is dropped, before the indexes and the first user. -/
def dropOld (filled : ScanDb) : ScanDb :=
  Function.update (delete filled cascadeDepth fun t _ => t = .scansOld) .scansOld none

theorem migrated_of_copy {renamed created dropped : ScanDb}
    (hrename : rename db .scans .scansOld = .ok renamed)
    (hcreate : create renamed .scans scansColumns = .ok created)
    (hcopy : copyAndDrop p now created = .ok dropped) :
    ∃ filled, Migrated db renamed filled dropped ∧ dropped = dropOld filled := by
  obtain ⟨filled, hfilled, hsame, rfl⟩ := copyAndDrop_ok hcopy
  obtain ⟨-, rfl⟩ := create_eq_ok.mp hcreate
  refine ⟨filled, ⟨hrename, ?_, fun t ht => ?_, fun child => ?_, rfl⟩, rfl⟩
  · rw [hfilled, schema, Function.update_self]
    rfl
  · rw [hsame t ht, Function.update_of_ne ht]
  · rw [Function.update_of_ne child.table_ne_scansOld]

theorem migrate_ok (h : (migrate p now db).1 = .ok ()) :
    ∃ renamed filled, Migrated db renamed filled (migrate p now db).2 := by
  unfold migrate at h ⊢
  cases hrename : rename db .scans .scansOld with
  | error e => rw [hrename] at h; cases h
  | ok renamed =>
    rw [hrename] at h
    simp only at h ⊢
    cases hcreate : create renamed .scans scansColumns with
    | error e => rw [hcreate] at h; cases h
    | ok created =>
      rw [hcreate] at h
      simp only at h ⊢
      cases hcopy : copyAndDrop p now created with
      | error e => rw [hcopy] at h; cases h
      | ok dropped =>
        rw [hcopy] at h
        obtain ⟨hschema, hother⟩ := finishInit_ok h
        obtain ⟨filled, M, -⟩ := migrated_of_copy hrename hcreate hcopy
        refine ⟨renamed, filled, M.rename_eq, M.scans, M.same, fun child => ?_, ?_⟩
        · rw [hother _ child.table_ne_users, M.child_eq]
        · exact hschema.trans M.schema_eq

theorem retarget_columns (child : Child) :
    retarget .scans .scansOld (child.columns .scans) = child.columns .scansOld := by
  cases child <;> decide

/-- The columns of the other tables, with the references to `scans` rewritten. -/
theorem Migrated.schema_filled {renamed filled : ScanDb} (h : Migrated db renamed filled db')
    {t : TableName} (hts : t ≠ .scans) (hto : t ≠ .scansOld) :
    schema filled t = (schema db t).map (retarget .scans .scansOld) := by
  obtain ⟨table, -, -, -, hother⟩ := rename_eq_ok h.rename_eq
  rw [schema, h.same t hts, hother t hto, if_neg hts, schema, Option.map_map, Option.map_map]
  rfl

/-- After a migration the child tables refer to a table that does not exist. -/
theorem Migrated.hasSchema {renamed filled : ScanDb} (h : Migrated db renamed filled db')
    (husers : schema db .users = some usersColumns)
    (hchildren : ∀ child : Child, schema db child.table = some (child.columns .scans)) :
    HasSchema .scansOld db' := by
  have hother : ∀ t, t ≠ .scansOld → schema db' t = schema filled t := by
    intro t hto
    rw [h.schema_eq, schema, Function.update_of_ne hto, ← schema, schema_delete]
  refine ⟨?_, ?_, fun child => ?_, .inr ⟨rfl, ?_⟩⟩
  · rw [hother _ (by decide), h.schema_filled (by decide) (by decide), husers]
    decide
  · rw [hother _ (by decide), h.scans]
  · rw [hother _ child.table_ne_scansOld,
      h.schema_filled child.table_ne_scans child.table_ne_scansOld, hchildren, Option.map_some,
      retarget_columns]
  · rw [← schema_eq_none, h.schema_eq, schema, Function.update_self]
    rfl

/-- The child rows of the scans there were are gone with `scans_old`. -/
theorem Migrated.child_gone {renamed filled : ScanDb} (h : Migrated db renamed filled db')
    (hchildren : ∀ child : Child, schema db child.table = some (child.columns .scans))
    {child : Child} {row scan : StoreRow} (hscan : scan ∈ rows db .scans)
    (href : row.cells .scanId = .integer scan.id) : row ∉ rows db' child.table := by
  obtain ⟨table, htable, -, hold, -⟩ := rename_eq_ok h.rename_eq
  have hcolumn : scanIdColumn .scansOld ∈ columns filled child.table := by
    rw [columns, ← schema, h.schema_filled child.table_ne_scans child.table_ne_scansOld,
      hchildren, Option.map_some, retarget_columns]
    exact List.mem_cons_self
  have hscan' : scan ∈ rows filled .scansOld := by
    rw [rows_congr (h.same .scansOld (by decide)), rows_eq hold]
    rwa [rows_eq htable] at hscan
  have hdoomed : doomed filled (fun t _ => decide (t = .scansOld)) cascadeDepth child.table row =
      true :=
    doomed_of_reference hcolumn rfl hscan' href (doomed_of_hit (by decide))
  rw [rows_congr (h.child_eq child), rows_delete, List.mem_filter, hdoomed]
  simp

/-- The migration adds no child row. -/
theorem Migrated.rows_subset {renamed filled : ScanDb} (h : Migrated db renamed filled db')
    {child : Child} {row : StoreRow} (hrow : row ∈ rows db' child.table) :
    row ∈ rows db child.table := by
  obtain ⟨table, -, -, -, hother⟩ := rename_eq_ok h.rename_eq
  have hrenamed := hother child.table child.table_ne_scansOld
  rw [if_neg child.table_ne_scans] at hrenamed
  rw [rows_congr (h.child_eq child), rows_delete, List.mem_filter,
    rows_congr (h.same _ child.table_ne_scans)] at hrow
  have hsame : rows renamed child.table = rows db child.table := by
    rw [rows, hrenamed, Option.map_map, rows]
    rfl
  rw [← hsame]
  exact hrow.1

/-- `init_db` migrates exactly the legacy table. -/
theorem initDb_eq_migrate (h : LegacyScans db) :
    initDb p now db = migrate p now (createTables db) := by
  obtain ⟨cols, hcols, huser, hid⟩ := h
  have hs : schema (createTables db) .scans = some cols := by
    rw [schema_createTables_scans, hcols]
    rfl
  rw [initDb, if_pos]
  rw [columns_of_schema hs]
  exact ⟨huser, hid⟩

theorem initDb_eq_finishInit (h : schema (createTables db) .scans = some scansColumns) :
    initDb p now db = finishInit p now .none (createTables db) (createTables db) := by
  rw [initDb, if_neg]
  rw [columns_of_schema h]
  decide

theorem initDb_hasSchema (h : Earlier db) (hok : (initDb p now db).1 = .ok ()) :
    ∃ parent, HasSchema parent (initDb p now db).2 := by
  cases h with
  | current husers hscans hchildren =>
    have hs : schema (createTables db) .scans = some scansColumns := by
      rw [schema_createTables_scans, getD_of_none_or hscans]
    rw [initDb_eq_finishInit hs] at hok ⊢
    refine ⟨.scans, HasSchema.of_eq ⟨?_, hs, fun child => ?_, .inl rfl⟩ (finishInit_ok hok).1⟩
    · rw [schema_createTables_users, getD_of_none_or husers]
    · rw [schema_createTables_child, getD_of_none_or (hchildren child)]
  | legacy husers hscans hchildren hold =>
    rw [initDb_eq_migrate hscans] at hok ⊢
    obtain ⟨renamed, filled, hmigrated⟩ := migrate_ok hok
    refine ⟨.scansOld, hmigrated.hasSchema ?_ fun child => ?_⟩
    · rw [schema_createTables_users, getD_of_none_or husers]
    · rw [schema_createTables_child, getD_of_none_or (hchildren child)]
  | migrated H =>
    have hs : schema (createTables db) .scans = some scansColumns := by
      rw [schema_createTables_scans, H.scans]
      rfl
    rw [initDb_eq_finishInit hs] at hok ⊢
    refine ⟨.scansOld, HasSchema.of_eq ⟨?_, hs, fun child => ?_, .inr ⟨rfl, ?_⟩⟩
      (finishInit_ok hok).1⟩
    · rw [schema_createTables_users, getD_of_none_or (.inr H.users)]
    · rw [schema_createTables_child, H.children]
      rfl
    · rw [← schema_eq_none, schema_createTables_scansOld, schema_eq_none]
      exact (H.parent_eq.resolve_left fun h => by cases h).2

/-! ## The migration against its purpose -/

/-- A legacy database as `init_db` finds it. -/
structure Legacy (db : ScanDb) : Prop where
  scans : LegacyScans db
  scansOld : db .scansOld = none
  users : schema db .users = some usersColumns
  admin : ∃ row ∈ rows db .users, row.cells .username = .text "admin"
  children : ∀ child : Child,
    schema db child.table = none ∨ schema db child.table = some (child.columns .scans)

/-- The structured section of the report has findings. -/
def HasFindings (p : Platform) (scan : ScanRecord) : Prop :=
  ∃ item items, sectionList p scan.report .findings = .ok (.arr (item :: items))

/-- The migration keeps the scans and the child rows, and the scan can be saved after it. -/
structure MigrationKeeps (p : Platform) (now : Value) (db : ScanDb) (scan : ScanRecord) : Prop where
  returns : (initDb p now db).1 = .ok ()
  scans : ∀ row ∈ rows db .scans, ∃ row' ∈ rows (initDb p now db).2 .scans,
    row'.id = row.id ∧ ∀ c ∈ copiedColumns, row'.cells c = row.cells c
  children : ∀ child : Child,
    rows (initDb p now db).2 child.table = rows db child.table
  saves : ∃ r, saveScan p now (initDb p now db).2 scan = .ok r

theorem saveRecords_missing {child : Child} {scanId : Int} {items : List Json}
    (hcols : schema db child.table = some (child.columns .scansOld)) (hold : db .scansOld = none)
    (h : saveRecords p now child scanId items db = .ok db') : items = [] := by
  cases items with
  | nil => rfl
  | cons item rest =>
    simp only [saveRecords, bind_eq_ok, sql_eq_ok] at h
    obtain ⟨values, -, r, hinsert, -⟩ := h
    exact (insert_ne_ok_of_missing hcols List.mem_cons_self rfl hold hinsert).elim

/-- After a migration no scan with findings can be saved. -/
theorem saveScan_missing {scan : ScanRecord} {r : Int × ScanDb} (H : HasSchema .scansOld db)
    (hfindings : HasFindings p scan) : saveScan p now db scan ≠ .ok r := by
  intro h
  simp only [saveScan, bind_eq_ok, sql_eq_ok] at h
  obtain ⟨_, _, _, _, _, _, ⟨scanId, db₁⟩, hinsert, lists, hlists, db₂, hsave, -⟩ := h
  obtain ⟨hfst, hlists⟩ := mapM_pair_eq_ok.mp hlists
  obtain ⟨item, items, hlist⟩ := hfindings
  cases lists with
  | nil => cases hfst
  | cons entry rest =>
    obtain ⟨child, list⟩ := entry
    have hchild : child = .findings := (List.cons.inj hfst).1
    subst hchild
    have hentry := python_eq_ok.mp (hlists _ List.mem_cons_self)
    cases hlist.symm.trans hentry
    simp only [saveLists, bind_eq_ok, python_eq_ok] at hsave
    obtain ⟨items', hitems, db₂, hrecords, -⟩ := hsave
    cases hitems
    have hschema := schema_insert hinsert
    have hold : db₁ .scansOld = none := by
      rw [← schema_eq_none, hschema, schema_eq_none]
      exact (H.parent_eq.resolve_left fun h => by cases h).2
    have hnil := saveRecords_missing (by rw [hschema]; exact H.children .findings) hold hrecords
    cases hnil

/-- On no legacy database does the migration keep the store usable. -/
theorem migration_never_keeps {scan : ScanRecord} (hlegacy : Legacy db)
    (hfindings : HasFindings p scan) : ¬MigrationKeeps p now db scan := by
  intro hkeep
  have hok := hkeep.returns
  obtain ⟨r, hsave⟩ := hkeep.saves
  rw [initDb_eq_migrate hlegacy.scans] at hok hsave
  obtain ⟨renamed, filled, hmigrated⟩ := migrate_ok hok
  refine saveScan_missing (hmigrated.hasSchema ?_ fun child => ?_) hfindings hsave
  · rw [schema_createTables_users, getD_of_none_or (.inr hlegacy.users)]
  · rw [schema_createTables_child, getD_of_none_or (hlegacy.children child)]

/-- The text of a report with one finding, and what is read from it. -/
def findingText : String :=
  "\x7b\"structured\": \x7b\"scan_findings\": [\x7b\"title\": \"Open port\"\x7d]\x7d\x7d"

def findingReport : Json :=
  .obj [("structured", .obj [("scan_findings", .arr [.obj [("title", .str "Open port")]])])]

/-- A platform that reads and writes this report. -/
def findingPlatform : Platform where
  conv := ⟨fun _ => "", fun _ => none⟩
  spills _ := false
  sha256 := id
  dumps _ := findingText
  loads text := if text = findingText then some findingReport else none

def oneRow (columns : List StoreColumn) (cells : List (ColumnName × Value)) :
    Table TableName ColumnName where
  columns := columns
  rows := [⟨1, fun c => (cells.lookup c).getD .null⟩]
  seq := 1
  ascending := List.pairwise_singleton _ _
  fits := by simp [Fits, maxRowid]
  bounded := by simp
  nonneg := by decide

/-- A legacy database with the user `admin`, one scan and one finding of it. -/
def legacyDb : ScanDb
  | .users => some (oneRow usersColumns [(.username, .text "admin"), (.password, .text "admin")])
  | .scans => some (oneRow (textColumn .user :: scansColumns.tail)
      [(.user, .text "admin"), (.target, .text "example.com"), (.risk, .text "HIGH")])
  | .scanFindings => some (oneRow (Child.findings.columns .scans)
      [(.scanId, .integer 1), (.title, .text "Open port")])
  | _ => none

def savedFinding : ScanRecord :=
  ⟨some 1, "example.com", .str "HIGH", .int 40, "[]", some findingText⟩

theorem legacyDb_legacy : Legacy legacyDb where
  scans := ⟨_, rfl, by decide, by decide⟩
  scansOld := rfl
  users := rfl
  admin := ⟨_, List.mem_cons_self, rfl⟩
  children child := by
    cases child with
    | findings => exact .inr rfl
    | _ => exact .inl rfl

theorem migration_never_keeps_legacyDb :
    ¬MigrationKeeps findingPlatform .null legacyDb savedFinding :=
  migration_never_keeps legacyDb_legacy ⟨_, _, rfl⟩

/-- `init_db` returns on this database, the finding is gone, and the scan cannot be saved. -/
theorem finding_lost : (initDb findingPlatform .null legacyDb).1 = .ok () ∧
    (rows legacyDb .scanFindings).length = 1 ∧
    (rows (initDb findingPlatform .null legacyDb).2 .scanFindings).length = 0 ∧
    ¬∀ p now db scan, Legacy db → HasFindings p scan → MigrationKeeps p now db scan := by
  refine ⟨by rfl, by rfl, by rfl, fun hall => ?_⟩
  have hkeep := hall findingPlatform .null legacyDb savedFinding legacyDb_legacy ⟨_, _, rfl⟩
  have hrows := congrArg List.length (hkeep.children .findings)
  exact absurd hrows (by decide)

end ThreatScanner.Store
