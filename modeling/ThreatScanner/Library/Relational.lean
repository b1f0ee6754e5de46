import Mathlib.Algebra.Ring.Int.Defs
import Mathlib.Data.List.Nodup
import Mathlib.Data.Rat.Defs
import Mathlib.Logic.Function.Basic

/-!
# Relational tables with SQLite's typing and foreign keys

A database is a partial map from table names to tables. A table keeps its rows in the order of
their ids, 64-bit integers, with the sequence number of `AUTOINCREMENT` above all of them, as
fields (`Table.ascending`, `Table.fits`, `Table.bounded`). Values are converted by the affinity of
their column when they are stored. Every foreign key refers to the id of a row of its parent table
and is `ON DELETE CASCADE`.

The rules of the file say what one operation can do: `insert_eq_ok` for a row that is inserted,
`rows_delete` for the rows that a cascade leaves, `schema_insert` and its companions for the
columns of the tables.
-/

namespace ThreatScanner.Relational

inductive Value where
  | null
  | integer (n : Int)
  | real (q : ℚ)
  | text (s : String)
deriving DecidableEq

inductive Affinity where
  | text | integer | real | numeric
deriving DecidableEq

/-- The conversions between numbers and their text form. -/
structure Conversions where
  realText : ℚ → String
  number? : String → Option Value

def maxRowid : Int := 2 ^ 63 - 1

/-- The integers a column can hold. -/
def Fits (n : Int) : Prop := -2 ^ 63 ≤ n ∧ n ≤ maxRowid

instance (n : Int) : Decidable (Fits n) := inferInstanceAs (Decidable (_ ∧ _))

/-- A real number that is an integer is stored as one where the affinity allows. -/
def integral (q : ℚ) : Value := if q.den = 1 ∧ Fits q.num then .integer q.num else .real q

/-- The value that is stored when a value is assigned to a column. -/
def Affinity.apply (conv : Conversions) : Affinity → Value → Value
  | .text, .integer n => .text (toString n)
  | .text, .real q => .text (conv.realText q)
  | .real, .integer n => .real n
  | .real, .text s =>
    match conv.number? s with
    | some (.integer n) => .real n
    | some v => v
    | none => .text s
  | .integer, .real q | .numeric, .real q => integral q
  | .integer, .text s | .numeric, .text s =>
    match conv.number? s with
    | some (.real q) => integral q
    | some v => v
    | none => .text s
  | _, v => v

inductive Default where
  | value (v : Value)
  | currentTimestamp
deriving DecidableEq

/-- A column of a `CREATE TABLE`; `references` is the parent table of a foreign key. -/
structure Column (T C : Type*) where
  name : C
  affinity : Affinity
  notNull : Bool := false
  unique : Bool := false
  default : Default := .value .null
  references : Option T := none
deriving DecidableEq

structure Row (C : Type*) where
  id : Int
  cells : C → Value

/-- A table with an `INTEGER PRIMARY KEY AUTOINCREMENT`, the id of a row. -/
structure Table (T C : Type*) where
  columns : List (Column T C)
  rows : List (Row C)
  seq : Int
  ascending : (rows.map (·.id)).Pairwise (· < ·)
  fits : ∀ row ∈ rows, Fits row.id
  bounded : ∀ row ∈ rows, row.id ≤ seq
  nonneg : 0 ≤ seq

/-- What can go wrong in a statement; `constraint` is Python's `IntegrityError`. -/
inductive SqlError (T : Type*) where
  | noSuchTable (t : T)
  | tableExists (t : T)
  | noSuchColumn
  | constraint
  | full
deriving DecidableEq

abbrev Database (T C : Type*) := T → Option (Table T C)

variable {T C : Type*}

/-! ## Tables -/

namespace Table

def empty (columns : List (Column T C)) : Table T C :=
  ⟨columns, [], 0, .nil, nofun, nofun, Int.le_refl 0⟩

def ids (table : Table T C) : List Int := table.rows.map (·.id)

def columnNames (table : Table T C) : List C := table.columns.map (·.name)

/-- Puts a row at its place among rows in the order of their ids. -/
def place (row : Row C) : List (Row C) → List (Row C)
  | [] => [row]
  | r :: rs => if row.id < r.id then row :: r :: rs else r :: place row rs

theorem mem_place {row r : Row C} {rows : List (Row C)} :
    r ∈ place row rows ↔ r = row ∨ r ∈ rows := by
  induction rows with
  | nil => simp [place]
  | cons r' rs ih =>
    simp only [place]
    split
    · simp
    · simp only [List.mem_cons, ih]
      tauto

theorem place_ascending {row : Row C} {rows : List (Row C)}
    (h : (rows.map (·.id)).Pairwise (· < ·)) (hfresh : row.id ∉ rows.map (·.id)) :
    ((place row rows).map (·.id)).Pairwise (· < ·) := by
  induction rows with
  | nil => exact List.pairwise_singleton _ _
  | cons r rs ih =>
    rw [List.map_cons, List.pairwise_cons] at h
    rw [List.map_cons, List.mem_cons, not_or] at hfresh
    simp only [place]
    split
    · rename_i hlt
      refine List.pairwise_cons.mpr ⟨?_, List.pairwise_cons.mpr h⟩
      intro id hid
      rcases List.mem_cons.mp hid with rfl | hid
      · exact hlt
      · exact Int.lt_trans hlt (h.1 id hid)
    · rename_i hle
      refine List.pairwise_cons.mpr ⟨?_, ih h.2 hfresh.2⟩
      intro id hid
      obtain ⟨r', hr', rfl⟩ := List.mem_map.mp hid
      rcases mem_place.mp hr' with rfl | hr'
      · exact Int.lt_iff_le_and_ne.mpr ⟨Int.not_lt.mp hle, Ne.symm hfresh.1⟩
      · exact h.1 _ (List.mem_map_of_mem hr')

/-- A row with an id above all others goes to the end. -/
theorem place_eq_append {row : Row C} {rows : List (Row C)} (h : ∀ r ∈ rows, r.id < row.id) :
    place row rows = rows ++ [row] := by
  induction rows with
  | nil => rfl
  | cons r rs ih =>
    have hr := h r List.mem_cons_self
    rw [place, if_neg (by omega), ih fun r' hr' => h r' (List.mem_cons_of_mem _ hr')]
    rfl

/-- The table with one more row. -/
def add (table : Table T C) (row : Row C) (fresh : row.id ∉ table.ids) (hfits : Fits row.id) :
    Table T C where
  columns := table.columns
  rows := place row table.rows
  seq := max table.seq row.id
  ascending := place_ascending table.ascending fresh
  fits := by
    intro r hr
    rcases mem_place.mp hr with rfl | hr
    · exact hfits
    · exact table.fits r hr
  bounded := by
    intro r hr
    rcases mem_place.mp hr with rfl | hr
    · exact Int.le_max_right _ _
    · exact Int.le_trans (table.bounded r hr) (Int.le_max_left _ _)
  nonneg := Int.le_trans table.nonneg (Int.le_max_left _ _)

/-- The table without the rows that do not satisfy `p`. -/
def filter (table : Table T C) (p : Row C → Bool) : Table T C where
  columns := table.columns
  rows := table.rows.filter p
  seq := table.seq
  ascending := table.ascending.sublist (List.filter_sublist.map _)
  fits row hrow := table.fits row (List.mem_filter.mp hrow).1
  bounded row hrow := table.bounded row (List.mem_filter.mp hrow).1
  nonneg := table.nonneg

end Table

section Operations
variable [DecidableEq T] [DecidableEq C] (conv : Conversions) (now : Value)

/-! ## Statements -/

/-- The cell of a new row: the value given for the column, or its default. -/
def cell (columns : List (Column T C)) (values : List (C × Value)) (c : C) : Value :=
  match columns.find? (·.name = c) with
  | none => .null
  | some column =>
    match values.lookup c with
    | some v => column.affinity.apply conv v
    | none =>
      match column.default with
      | .value v => v
      | .currentTimestamp => now

def newRow (columns : List (Column T C)) (id : Int) (values : List (C × Value)) : Row C :=
  ⟨id, cell conv now columns values⟩

/-- The rows of a table, none if there is no such table. -/
def rows (db : Database T C) (t : T) : List (Row C) := ((db t).map (·.rows)).getD []

def columns (db : Database T C) (t : T) : List (Column T C) := ((db t).map (·.columns)).getD []

/-- The row is refused by a `NOT NULL`, a `UNIQUE` or a foreign key. -/
def violates (db : Database T C) (table : Table T C) (row : Row C) : Bool :=
  table.columns.any fun column =>
    let v := row.cells column.name
    (column.notNull && v = .null) ||
    (column.unique && v ≠ .null && table.rows.any (·.cells column.name = v)) ||
    (match column.references with
      | none => false
      | some parent => v ≠ .null && !(rows db parent).any (Value.integer ·.id = v))

/-- The table of an `INSERT`, when its columns and the parents of its foreign keys exist. -/
def prepare (db : Database T C) (t : T) (names : List C) : Except (SqlError T) (Table T C) :=
  match db t with
  | none => .error (.noSuchTable t)
  | some table =>
    if ∃ c ∈ names, c ∉ table.columnNames then .error .noSuchColumn
    else
      match (table.columns.filterMap (·.references)).find? fun parent => (db parent).isNone with
      | some parent => .error (.noSuchTable parent)
      | none => .ok table

/-- `SELECT ... FROM t WHERE p`, reading the given columns; the rows come in the order of their
ids. -/
def select (db : Database T C) (t : T) (names : List C) (p : Row C → Bool) :
    Except (SqlError T) (List (Row C)) :=
  match db t with
  | none => .error (.noSuchTable t)
  | some table =>
    if ∃ c ∈ names, c ∉ table.columnNames then .error .noSuchColumn
    else .ok (table.rows.filter p)

def insertRow (db : Database T C) (t : T) (table : Table T C) (row : Row C) :
    Except (SqlError T) (Database T C) :=
  if h : row.id ∉ table.ids ∧ Fits row.id then
    if violates db table row then .error .constraint
    else .ok (Function.update db t (some (table.add row h.1 h.2)))
  else .error .constraint

/-- `INSERT INTO t (...) VALUES (...)`, with the id of the new row. -/
def insert (db : Database T C) (t : T) (values : List (C × Value)) :
    Except (SqlError T) (Int × Database T C) :=
  match prepare db t (values.map Prod.fst) with
  | .error e => .error e
  | .ok table =>
    if table.seq < maxRowid then
      match insertRow db t table (newRow conv now table.columns (table.seq + 1) values) with
      | .error e => .error e
      | .ok db' => .ok (table.seq + 1, db')
    else .error .full

/-- `INSERT INTO t (id, ...) SELECT id, ...`: the rows in order, with their own ids. -/
def insertAll (t : T) (names : List C) : List (Row C) → Database T C →
    Except (SqlError T) (Database T C)
  | [], db => .ok db
  | row :: rest, db =>
    match db t with
    | none => .error (.noSuchTable t)
    | some table =>
      let values := names.map fun c => (c, row.cells c)
      match insertRow db t table (newRow conv now table.columns row.id values) with
      | .error e => .error e
      | .ok db => insertAll t names rest db

/-- `CREATE TABLE IF NOT EXISTS`. -/
def createIfMissing (db : Database T C) (t : T) (columns : List (Column T C)) : Database T C :=
  if (db t).isNone then Function.update db t (some (.empty columns)) else db

/-- `CREATE TABLE`. -/
def create (db : Database T C) (t : T) (columns : List (Column T C)) :
    Except (SqlError T) (Database T C) :=
  if (db t).isNone then .ok (Function.update db t (some (.empty columns)))
  else .error (.tableExists t)

/-- The columns with their references to `old` rewritten. -/
def retarget (old new : T) (columns : List (Column T C)) : List (Column T C) :=
  columns.map fun column =>
    { column with references := column.references.map fun p => if p = old then new else p }

def Table.retarget (old new : T) (table : Table T C) : Table T C :=
  { table with columns := Relational.retarget old new table.columns }

/-- `ALTER TABLE old RENAME TO new`, with the references of all tables. -/
def rename (db : Database T C) (old new : T) : Except (SqlError T) (Database T C) :=
  match db old with
  | none => .error (.noSuchTable old)
  | some table =>
    if (db new).isSome then .error (.tableExists new)
    else .ok fun t =>
      if t = new then some (table.retarget old new)
      else if t = old then none
      else (db t).map (·.retarget old new)

/-- The row is hit, or refers to a row that is doomed, over at most `depth` references. -/
def doomed (db : Database T C) (hit : T → Row C → Bool) : Nat → T → Row C → Bool
  | 0, t, row => hit t row
  | depth + 1, t, row =>
    hit t row || (columns db t).any fun column =>
      match column.references with
      | none => false
      | some parent => (rows db parent).any fun r =>
          row.cells column.name = .integer r.id && doomed db hit depth parent r

/-- Deletes the rows that are hit and, over the foreign keys, those that refer to them. -/
def delete (db : Database T C) (depth : Nat) (hit : T → Row C → Bool) : Database T C := fun t =>
  (db t).map fun table => table.filter fun row => !doomed db hit depth t row

/-- `DROP TABLE`: the rows are deleted first. -/
def drop (db : Database T C) (depth : Nat) (t : T) : Except (SqlError T) (Database T C) :=
  if (db t).isNone then .error (.noSuchTable t)
  else .ok (Function.update (delete db depth fun t' _ => t' = t) t none)

end Operations

/-! ## What an operation does -/

section Rules
variable {conv : Conversions} {now : Value}
variable {db db' : Database T C} {t t' : T} {table : Table T C}

theorem rows_eq (h : db t = some table) : rows db t = table.rows := by
  rw [rows, h]
  rfl

theorem rows_ascending : ((rows db t).map (·.id)).Pairwise (· < ·) := by
  unfold rows
  cases db t with
  | none => exact .nil
  | some table => exact table.ascending

theorem rows_fits {row : Row C} (h : row ∈ rows db t) : Fits row.id := by
  unfold rows at h
  cases hdb : db t with
  | none => rw [hdb] at h; cases h
  | some table => rw [hdb] at h; exact table.fits row h

/-- The id determines the row. -/
theorem row_ext {r r' : Row C} (h : r ∈ rows db t) (h' : r' ∈ rows db t) (hid : r.id = r'.id) :
    r = r' :=
  List.inj_on_of_nodup_map ((rows_ascending (t := t)).imp fun h => Int.ne_of_lt h) h h' hid

theorem columns_eq (h : db t = some table) : columns db t = table.columns := by
  rw [columns, h]
  rfl

theorem insertRow_eq_ok [DecidableEq T] {row : Row C} :
    insertRow db t table row = .ok db' ↔ ∃ (fresh : row.id ∉ table.ids) (hfits : Fits row.id),
      violates db table row = false ∧
        db' = Function.update db t (some (table.add row fresh hfits)) := by
  unfold insertRow
  split
  · rename_i h
    split
    · rename_i hv
      simp [hv]
    · rename_i hv
      rw [Bool.not_eq_true] at hv
      simp [h, hv, eq_comm]
  · rename_i hnot
    constructor
    · rintro ⟨⟩
    · rintro ⟨fresh, hfits, -⟩
      exact (hnot ⟨fresh, hfits⟩).elim

theorem prepare_eq_ok [DecidableEq C] {names : List C} :
    prepare db t names = .ok table ↔ db t = some table ∧ (∀ c ∈ names, c ∈ table.columnNames) ∧
      ∀ column ∈ table.columns, ∀ parent, column.references = some parent →
        (db parent).isSome := by
  unfold prepare
  split
  · rename_i h
    simp [h]
  · rename_i table' h
    split
    · rename_i hc
      obtain ⟨c, hmem, hnot⟩ := hc
      simp only [h, reduceCtorEq, Option.some.injEq, false_iff, not_and]
      rintro rfl hall
      exact (hnot (hall c hmem)).elim
    · rename_i hc
      simp only [not_exists, not_and, not_not] at hc
      split
      · rename_i parent hfind
        obtain ⟨column, hcolumn, href⟩ :=
          List.mem_filterMap.mp (List.mem_of_find?_eq_some hfind)
        have hnone := List.find?_some hfind
        simp only [h, reduceCtorEq, Option.some.injEq, false_iff, not_and]
        rintro rfl - hall
        have := hall column hcolumn parent href
        simp [Option.isNone_iff_eq_none.mp hnone] at this
      · rename_i hfind
        rw [List.find?_eq_none] at hfind
        simp only [h, Except.ok.injEq, Option.some.injEq]
        constructor
        · rintro rfl
          refine ⟨rfl, hc, fun column hcolumn parent href => ?_⟩
          have := hfind parent (List.mem_filterMap.mpr ⟨column, hcolumn, href⟩)
          rwa [Option.isNone_iff_eq_none, ← ne_eq, Option.ne_none_iff_isSome] at this
        · exact fun h => h.1

/-- A row that is inserted gets the next id and goes to the end of its table. -/
theorem insert_eq_ok [DecidableEq T] [DecidableEq C] {values : List (C × Value)} {id : Int}
    (h : insert conv now db t values = .ok (id, db')) :
    ∃ table table', db t = some table ∧ db' = Function.update db t (some table') ∧
      id = table.seq + 1 ∧ id ≤ maxRowid ∧ table'.columns = table.columns ∧ table'.seq = id ∧
      table'.rows = table.rows ++ [newRow conv now table.columns id values] ∧
      violates db table (newRow conv now table.columns id values) = false := by
  unfold insert at h
  split at h
  · cases h
  · rename_i table hprepare
    obtain ⟨htable, -, -⟩ := prepare_eq_ok.mp hprepare
    split at h
    · rename_i hseq
      split at h
      · cases h
      · rename_i hinsert
        cases h
        obtain ⟨fresh, hfits, hviolates, rfl⟩ := insertRow_eq_ok.mp hinsert
        refine ⟨table, _, htable, rfl, rfl, by omega, rfl, ?_, ?_, hviolates⟩
        · show max table.seq (table.seq + 1) = table.seq + 1
          omega
        · refine Table.place_eq_append fun r hr => ?_
          have := table.bounded r hr
          show r.id < table.seq + 1
          omega
    · cases h

/-- A row that is accepted refers to rows that exist. -/
theorem refers_of_accepted {row : Row C} {column : Column T C} {parent : T}
    (h : violates db table row = false) (hcolumn : column ∈ table.columns)
    (href : column.references = some parent) : row.cells column.name = .null ∨
      ∃ r ∈ rows db parent, row.cells column.name = .integer r.id := by
  have hcheck := List.any_eq_false.mp h column hcolumn
  simp only [href, Bool.or_eq_true, not_or] at hcheck
  obtain ⟨-, hparent⟩ := hcheck
  rw [Bool.and_eq_true, not_and, decide_eq_true_eq, Bool.not_eq_true, Bool.not_eq_false',
    List.any_eq_true] at hparent
  refine or_iff_not_imp_left.mpr fun hnull => ?_
  obtain ⟨r, hr, hid⟩ := hparent hnull
  exact ⟨r, hr, (of_decide_eq_true hid).symm⟩

theorem insert_other [DecidableEq T] [DecidableEq C] {values : List (C × Value)} {id : Int}
    (h : insert conv now db t values = .ok (id, db')) (ht : t' ≠ t) : db' t' = db t' := by
  obtain ⟨_, table', _, rfl, _⟩ := insert_eq_ok h
  exact Function.update_of_ne ht _ _

theorem rows_insert [DecidableEq T] [DecidableEq C] {values : List (C × Value)} {id : Int}
    {cols : List (Column T C)} (h : insert conv now db t values = .ok (id, db'))
    (ht : columns db t = cols) :
    rows db' t = rows db t ++ [newRow conv now cols id values] := by
  obtain ⟨table, table', htable, rfl, -, -, -, -, hrows, -⟩ := insert_eq_ok h
  rw [columns_eq htable] at ht
  rw [rows_eq (Function.update_self _ _ _), rows_eq htable, hrows, ht]

theorem select_eq_ok [DecidableEq C] {names : List C} {q : Row C → Bool} {rs : List (Row C)} :
    select db t names q = .ok rs ↔ ∃ table, db t = some table ∧
      (∀ c ∈ names, c ∈ table.columnNames) ∧ rs = (rows db t).filter q := by
  unfold select rows
  split
  · rename_i h
    simp [h]
  · rename_i table h
    split
    · rename_i hc
      obtain ⟨c, hmem, hnot⟩ := hc
      simp only [h, reduceCtorEq, Option.some.injEq, exists_eq_left', false_iff, not_and]
      exact fun hall => (hnot (hall c hmem)).elim
    · rename_i hc
      simp only [not_exists, not_and, not_not] at hc
      simp only [h, Except.ok.injEq, Option.some.injEq, exists_eq_left', Option.map_some,
        Option.getD_some]
      exact ⟨fun h => ⟨hc, h.symm⟩, fun h => h.2.symm⟩

@[simp] theorem newRow_cells [DecidableEq C] {cols : List (Column T C)} {id : Int}
    {values : List (C × Value)} :
    (newRow conv now cols id values).cells = cell conv now cols values := rfl

theorem find?_name [DecidableEq C] {cols : List (Column T C)} {column : Column T C}
    (hnodup : (cols.map (·.name)).Nodup) (h : column ∈ cols) :
    cols.find? (·.name = column.name) = some column := by
  cases hfind : cols.find? (·.name = column.name) with
  | none => exact absurd (List.find?_eq_none.mp hfind column h) (by simp)
  | some found =>
    have hname : found.name = column.name := by simpa using List.find?_some hfind
    rw [List.inj_on_of_nodup_map hnodup (List.mem_of_find?_eq_some hfind) h hname]

/-- A cell of a new row whose column is given a value. -/
theorem cell_eq [DecidableEq C] {cols : List (Column T C)} {column : Column T C}
    {values : List (C × Value)} {v : Value} (hnodup : (cols.map (·.name)).Nodup)
    (hcolumn : column ∈ cols) (hv : values.lookup column.name = some v) :
    cell conv now cols values column.name = column.affinity.apply conv v := by
  simp only [cell, find?_name hnodup hcolumn, hv]

/-- A row that nothing it refers to dooms is deleted only when it is hit. -/
theorem doomed_eq_hit {hit : T → Row C → Bool} (htable : db t = some table)
    (h : ∀ column ∈ table.columns, ∀ parent, column.references = some parent →
      ∀ n, ∀ r ∈ rows db parent, doomed db hit n parent r = false) (n : Nat) (row : Row C) :
    doomed db hit n t row = hit t row := by
  cases n with
  | zero => rfl
  | succ n =>
    rw [doomed, columns_eq htable, Bool.or_eq_left_iff_imp, List.any_eq_true]
    rintro ⟨column, hcolumn, hany⟩
    split at hany
    · cases hany
    · rename_i parent href
      obtain ⟨r, hr, hboth⟩ := List.any_eq_true.mp hany
      rw [Bool.and_eq_true, h column hcolumn parent href n r hr] at hboth
      exact absurd hboth.2 Bool.false_ne_true

theorem doomed_of_hit [DecidableEq C] {hit : T → Row C → Bool} {n : Nat} {row : Row C}
    (h : hit t row = true) : doomed db hit n t row = true := by
  cases n <;> simp [doomed, h]

/-- A row that refers to a doomed row is doomed. -/
theorem doomed_of_reference {hit : T → Row C → Bool} {n : Nat} {row r : Row C}
    {column : Column T C} {parent : T} (hcolumn : column ∈ columns db t)
    (href : column.references = some parent) (hr : r ∈ rows db parent)
    (hcell : row.cells column.name = .integer r.id) (h : doomed db hit n parent r = true) :
    doomed db hit (n + 1) t row = true := by
  rw [doomed, Bool.or_eq_true]
  refine .inr (List.any_eq_true.mpr ⟨column, hcolumn, ?_⟩)
  rw [href]
  refine List.any_eq_true.mpr ⟨r, hr, ?_⟩
  rw [Bool.and_eq_true, decide_eq_true_eq]
  exact ⟨hcell, h⟩

theorem rows_delete {depth : Nat} {hit : T → Row C → Bool} :
    rows (delete db depth hit) t = (rows db t).filter fun row => !doomed db hit depth t row := by
  unfold rows delete
  cases db t <;> rfl

/-! ## The columns of the tables -/

/-- The columns of each table, `none` where there is no such table. -/
def schema (db : Database T C) (t : T) : Option (List (Column T C)) := (db t).map (·.columns)

theorem schema_eq_some {cols : List (Column T C)} :
    schema db t = some cols ↔ ∃ table, db t = some table ∧ table.columns = cols := by
  rw [schema, Option.map_eq_some_iff]

theorem schema_eq_none : schema db t = none ↔ db t = none := by
  rw [schema, Option.map_eq_none_iff]

theorem schema_update_some [DecidableEq T] {table' : Table T C} (h : db t = some table)
    (hcols : table'.columns = table.columns) :
    schema (Function.update db t (some table')) = schema db := by
  funext t'
  by_cases ht : t' = t
  · subst ht
    rw [schema, Function.update_self, Option.map_some, hcols, schema, h, Option.map_some]
  · rw [schema, Function.update_of_ne ht, schema]

theorem schema_insert [DecidableEq T] [DecidableEq C] {values : List (C × Value)} {id : Int}
    (h : insert conv now db t values = .ok (id, db')) : schema db' = schema db := by
  obtain ⟨table, table', htable, rfl, -, -, hcols, -⟩ := insert_eq_ok h
  exact schema_update_some htable hcols

theorem schema_insertAll [DecidableEq T] [DecidableEq C] {names : List C} {rs : List (Row C)}
    (h : insertAll conv now t names rs db = .ok db') : schema db' = schema db := by
  induction rs generalizing db with
  | nil => cases h; rfl
  | cons row rest ih =>
    simp only [insertAll] at h
    split at h
    · cases h
    · rename_i table htable
      split at h
      · cases h
      · rename_i hrow
        obtain ⟨fresh, hfits, -, rfl⟩ := insertRow_eq_ok.mp hrow
        exact (ih h).trans (schema_update_some htable rfl)

theorem schema_delete {depth : Nat} {hit : T → Row C → Bool} [DecidableEq T] [DecidableEq C] :
    schema (delete db depth hit) = schema db := by
  funext t
  unfold schema delete
  cases db t <;> rfl

theorem insertRow_of_accepted [DecidableEq T] {row : Row C} (fresh : row.id ∉ table.ids)
    (hfits : Fits row.id) (h : violates db table row = false) :
    insertRow db t table row = .ok (Function.update db t (some (table.add row fresh hfits))) :=
  insertRow_eq_ok.mpr ⟨fresh, hfits, h, rfl⟩

/-- A row that violates nothing is inserted while there are ids left. -/
theorem insert_of_accepted [DecidableEq T] [DecidableEq C] {values : List (C × Value)}
    (hprepare : prepare db t (values.map Prod.fst) = .ok table) (hseq : table.seq < maxRowid)
    (haccepted : violates db table
      (newRow conv now table.columns (table.seq + 1) values) = false) :
    ∃ db', insert conv now db t values = .ok (table.seq + 1, db') := by
  have hfresh : table.seq + 1 ∉ table.ids := by
    intro hmem
    obtain ⟨row, hrow, hid⟩ := List.mem_map.mp hmem
    have := table.bounded row hrow
    omega
  have hfits : Fits (table.seq + 1) := by
    have := table.nonneg
    constructor <;> omega
  obtain ⟨db', hinsert⟩ : ∃ db', insertRow db t table
      (newRow conv now table.columns (table.seq + 1) values) = .ok db' :=
    ⟨_, insertRow_of_accepted hfresh hfits haccepted⟩
  refine ⟨db', ?_⟩
  simp only [insert, hprepare, if_pos hseq, hinsert]

theorem insert_full [DecidableEq T] [DecidableEq C] {values : List (C × Value)}
    (hprepare : prepare db t (values.map Prod.fst) = .ok table) (hseq : ¬table.seq < maxRowid) :
    insert conv now db t values = .error .full := by
  simp only [insert, hprepare, if_neg hseq]

/-- Rows with fresh ids are all inserted when none of them violates anything, which is to say when
none is `bad`. -/
theorem insertAll_isOk_iff [DecidableEq T] [DecidableEq C] {names : List C} {rs : List (Row C)}
    {cols : List (Column T C)} {bad : Row C → Bool} (htable : db t = some table)
    (hcols : table.columns = cols) (hnodup : (rs.map (·.id)).Nodup)
    (hfresh : ∀ row ∈ rs, row.id ∉ table.ids ∧ Fits row.id)
    (hbad : ∀ (db : Database T C) (table : Table T C) (row : Row C), table.columns = cols →
      violates db table
        (newRow conv now cols row.id (names.map fun c => (c, row.cells c))) = bad row) :
    (∃ db', insertAll conv now t names rs db = .ok db') ↔ ∀ row ∈ rs, bad row = false := by
  induction rs generalizing db table with
  | nil => exact iff_of_true ⟨db, rfl⟩ nofun
  | cons row rest ih =>
    obtain ⟨hfreshRow, hfitsRow⟩ := hfresh row List.mem_cons_self
    rw [List.map_cons, List.nodup_cons] at hnodup
    have hviolates := hbad db table row hcols
    rw [List.forall_mem_cons]
    simp only [insertAll, htable, hcols]
    cases hrow : bad row with
    | true =>
      rw [hrow] at hviolates
      have herror : insertRow db t table
          (newRow conv now cols row.id (names.map fun c => (c, row.cells c))) =
            .error .constraint := by
        rw [insertRow, dif_pos ⟨hfreshRow, hfitsRow⟩, if_pos hviolates]
      simp [herror]
    | false =>
      rw [hrow] at hviolates
      generalize hnew : newRow conv now cols row.id (names.map fun c => (c, row.cells c)) = new
      rw [hnew] at hviolates
      have hid : new.id = row.id := by rw [← hnew, newRow]
      rw [← hid] at hfreshRow hfitsRow hnodup
      simp only [insertRow_of_accepted hfreshRow hfitsRow hviolates, true_and]
      refine ih (Function.update_self _ _ _) hcols hnodup.2 fun r hr => ?_
      obtain ⟨hfreshR, hfitsR⟩ := hfresh r (List.mem_cons_of_mem _ hr)
      refine ⟨fun hmem => ?_, hfitsR⟩
      obtain ⟨r', hr', hid'⟩ := List.mem_map.mp hmem
      rcases Table.mem_place.mp hr' with rfl | hr'
      · exact hnodup.1 (List.mem_map.mpr ⟨r, hr, hid'.symm⟩)
      · exact hfreshR (List.mem_map.mpr ⟨r', hr', hid'⟩)

theorem insertAll_other [DecidableEq T] [DecidableEq C] {names : List C} {rs : List (Row C)}
    (h : insertAll conv now t names rs db = .ok db') (ht : t' ≠ t) : db' t' = db t' := by
  induction rs generalizing db with
  | nil => cases h; rfl
  | cons row rest ih =>
    simp only [insertAll] at h
    split at h
    · cases h
    · split at h
      · cases h
      · rename_i hrow
        obtain ⟨fresh, hfits, -, rfl⟩ := insertRow_eq_ok.mp hrow
        exact (ih h).trans (Function.update_of_ne ht _ _)

theorem create_eq_ok [DecidableEq T] {cols : List (Column T C)} :
    create db t cols = .ok db' ↔
      db t = none ∧ db' = Function.update db t (some (.empty cols)) := by
  unfold create
  split
  · rename_i h
    rw [Option.isNone_iff_eq_none] at h
    simp [h, eq_comm]
  · rename_i h
    rw [Option.isNone_iff_eq_none] at h
    simp [h]

theorem rename_eq_ok [DecidableEq T] {old new : T} (h : rename db old new = .ok db') :
    ∃ table, db old = some table ∧ db new = none ∧ db' new = some (table.retarget old new) ∧
      ∀ t, t ≠ new → db' t = if t = old then none else (db t).map (·.retarget old new) := by
  unfold rename at h
  split at h
  · cases h
  · rename_i table htable
    split at h
    · cases h
    · rename_i hnew
      rw [Bool.not_eq_true, Option.isSome_eq_false_iff, Option.isNone_iff_eq_none] at hnew
      cases h
      exact ⟨table, htable, hnew, if_pos rfl, fun t ht => if_neg ht⟩

theorem drop_eq_ok [DecidableEq T] [DecidableEq C] {depth : Nat} (h : drop db depth t = .ok db') :
    (∃ table, db t = some table) ∧
      db' = Function.update (delete db depth fun t' _ => t' = t) t none := by
  unfold drop at h
  split at h
  · cases h
  · rename_i hsome
    rw [Option.isNone_iff_eq_none, ← ne_eq, Option.ne_none_iff_exists'] at hsome
    exact ⟨hsome, (Except.ok.inj h).symm⟩

/-- Nothing can be inserted into a table with a foreign key to a table that does not exist. -/
theorem insert_ne_ok_of_missing [DecidableEq T] [DecidableEq C] {values : List (C × Value)}
    {cols : List (Column T C)} {column : Column T C} {parent : T}
    (ht : schema db t = some cols) (hcolumn : column ∈ cols)
    (href : column.references = some parent) (hparent : db parent = none) {r : Int × Database T C} :
    insert conv now db t values ≠ .ok r := by
  intro h
  unfold insert at h
  split at h
  · cases h
  · rename_i table hprepare
    obtain ⟨htable, -, hrefs⟩ := prepare_eq_ok.mp hprepare
    obtain ⟨table', htable', rfl⟩ := schema_eq_some.mp ht
    cases htable.symm.trans htable'
    have := hrefs column hcolumn parent href
    rw [hparent] at this
    cases this

end Rules

end ThreatScanner.Relational
