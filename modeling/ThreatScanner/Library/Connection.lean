import ThreatScanner.Library.Relational

/-!
# Connections and transactions

A connection to a database file as Python's `sqlite3` handles it: a transaction is opened before
the first statement that changes rows and stays open until it is committed or rolled back, and
foreign keys are enforced on the connections that have switched them on, outside a transaction. A
program of statements follows a function on databases when it computes the same without
committing anything (`Follows`); `run_transaction` is what becomes of such a program in a
transaction that is rolled back on an exception.
-/

namespace ThreatScanner.Relational

/-- `committed` is what is in the file, `pending` what a transaction that is open has made of it. -/
structure Connection (T C : Type*) where
  committed : Database T C
  pending : Option (Database T C) := none
  foreignKeys : Bool := false

variable {T C E α β : Type}

namespace Connection

/-- What the statements of the connection see. -/
def view (conn : Connection T C) : Database T C := conn.pending.getD conn.committed

def connect (db : Database T C) : Connection T C := { committed := db }

/-- The transaction that is opened before a statement that changes rows. -/
def begin (conn : Connection T C) : Connection T C := { conn with pending := some conn.view }

def commit (conn : Connection T C) : Connection T C :=
  { conn with committed := conn.view, pending := none }

def rollback (conn : Connection T C) : Connection T C := { conn with pending := none }

/-- `PRAGMA foreign_keys = ON`, which has no effect inside a transaction. -/
def enforce (conn : Connection T C) : Connection T C :=
  if conn.pending.isSome then conn else { conn with foreignKeys := true }

@[simp] theorem view_connect (db : Database T C) : (connect db).view = db := rfl

@[simp] theorem view_begin (conn : Connection T C) : conn.begin.view = conn.view := rfl

@[simp] theorem committed_begin (conn : Connection T C) :
    conn.begin.committed = conn.committed := rfl

end Connection

/-! ## Rows without foreign keys -/

section Unchecked
variable [DecidableEq T] [DecidableEq C] (conv : Conversions) (now : Value)

/-- The columns without their foreign keys. -/
def unreferenced (columns : List (Column T C)) : List (Column T C) :=
  columns.map fun column => { column with references := none }

def Table.withColumns (table : Table T C) (columns : List (Column T C)) : Table T C :=
  { table with columns }

/-- `INSERT` on a connection that does not enforce foreign keys. -/
def insertUnchecked (db : Database T C) (t : T) (values : List (C × Value)) :
    Except (SqlError T) (Int × Database T C) :=
  match db t with
  | none => .error (.noSuchTable t)
  | some table =>
    match insert conv now
        (Function.update db t (some (table.withColumns (unreferenced table.columns)))) t values with
    | .error e => .error e
    | .ok (id, db') => .ok (id, Function.update db' t ((db' t).map (·.withColumns table.columns)))

variable {conv now} {db : Database T C} {t : T} {values : List (C × Value)}

omit [DecidableEq T] [DecidableEq C] in
theorem unreferenced_eq_self {columns : List (Column T C)}
    (h : ∀ column ∈ columns, column.references = none) : unreferenced columns = columns := by
  unfold unreferenced
  refine (List.map_congr_left fun column hcolumn => ?_).trans (List.map_id columns)
  rw [← h column hcolumn]
  rfl

/-- In a table without foreign keys it makes no difference whether they are enforced. -/
theorem insertUnchecked_eq (h : ∀ column ∈ columns db t, column.references = none) :
    insertUnchecked conv now db t values = insert conv now db t values := by
  unfold insertUnchecked
  cases hdb : db t with
  | none => simp only [insert, prepare, hdb]
  | some table =>
    rw [columns_eq hdb] at h
    have hself : Function.update db t (some (table.withColumns (unreferenced table.columns))) =
        db := by
      rw [unreferenced_eq_self h, ← Function.update_eq_self t db, Function.update_idem, hdb]
      rfl
    simp only [hself]
    cases hinsert : insert conv now db t values with
    | error e => rfl
    | ok r =>
      obtain ⟨id, db'⟩ := r
      obtain ⟨_, table', htable, rfl, -, -, hcolumns, -⟩ := insert_eq_ok hinsert
      cases hdb.symm.trans htable
      have hrestored : table'.withColumns table.columns = table' := by
        rw [← hcolumns]
        rfl
      simp only [Function.update_self, Option.map_some, hrestored, Function.update_idem]

end Unchecked

/-! ## Programs of statements -/

/-- What a program returns or raises, with the connection after it. -/
def Program (T C E α : Type) := Connection T C → Except E α × Connection T C

namespace Program

instance : Monad (Program T C E) where
  pure a := fun conn => (.ok a, conn)
  bind m k := fun conn =>
    match m conn with
    | (.ok a, conn) => k a conn
    | (.error e, conn) => (.error e, conn)

/-- A computation that does not touch the connection. -/
def lift (x : Except E α) : Program T C E α := fun conn => (x, conn)

/-- A query. -/
def read (query : Database T C → Except E α) : Program T C E α := fun conn =>
  (query conn.view, conn)

def modify (f : Connection T C → Connection T C) : Program T C E Unit := fun conn =>
  (.ok (), f conn)

section Statements
variable [DecidableEq T] [DecidableEq C] (raise : SqlError T → E) (conv : Conversions)
  (now : Value)

/-- `INSERT INTO t (...) VALUES (...)`, with the id of the new row. -/
def insert (t : T) (values : List (C × Value)) : Program T C E Int := fun conn =>
  let conn := conn.begin
  let result := if conn.foreignKeys then Relational.insert conv now conn.view t values
    else insertUnchecked conv now conn.view t values
  match result with
  | .error e => (.error (raise e), conn)
  | .ok (id, db) => (.ok id, { conn with pending := some db })

/-- `DELETE`; only where foreign keys are enforced does it cascade. -/
def delete (depth : Nat) (hit : T → Row C → Bool) : Program T C E Unit := fun conn =>
  let conn := conn.begin
  let db := Relational.delete conn.view (if conn.foreignKeys then depth else 0) hit
  (.ok (), { conn with pending := some db })

end Statements

/-- `try: ... except Exception: conn.rollback(); raise`. -/
def rollingBack (body : Program T C E α) : Program T C E α := fun conn =>
  match body conn with
  | (.ok a, conn) => (.ok a, conn)
  | (.error e, conn) => (.error e, conn.rollback)

/-- `PRAGMA foreign_keys = ON` and the rest of a function that rolls back what it does when it
raises. -/
def enforced (body : Program T C E α) : Program T C E α :=
  rollingBack do
    modify Connection.enforce
    body

/-- `try: ... except ...: return a`, for the exceptions that `handler` answers. -/
def catching (handler : E → Option α) (body : Program T C E α) : Program T C E α := fun conn =>
  match body conn with
  | (.ok a, conn) => (.ok a, conn)
  | (.error e, conn) =>
    match handler e with
    | some a => (.ok a, conn)
    | none => (.error e, conn)

/-- A function that opens a connection, runs the program and closes the connection: what is not
committed then is gone. -/
def run (body : Program T C E α) (db : Database T C) : Except E α × Database T C :=
  let (result, conn) := body (.connect db)
  (result, conn.committed)

end Program

/-! ## Following a function on databases -/

/-- The program does on the connection what the function does on a database, and commits nothing;
foreign keys are still enforced when it returns. -/
def Follows (prog : Program T C E α) (conn : Connection T C)
    (result : Except E (α × Database T C)) : Prop :=
  match result with
  | .ok (a, db) => ∃ after, prog conn = (.ok a, after) ∧ after.view = db ∧
      after.committed = conn.committed ∧ after.foreignKeys = true
  | .error e => ∃ after, prog conn = (.error e, after) ∧ after.committed = conn.committed

/-- The outcome of a function on a database, which is left as it was when the function raises. -/
def settled (db : Database T C) : Except E (α × Database T C) → Except E α × Database T C
  | .ok (a, after) => (.ok a, after)
  | .error e => (.error e, db)

section Follows
variable {conn : Connection T C} {m : Program T C E α} {k : α → Program T C E β}

/-- A state that the rest of a program can start from. -/
structure Continues (conn after : Connection T C) (db : Database T C) : Prop where
  view : after.view = db
  committed : after.committed = conn.committed
  foreignKeys : after.foreignKeys = true

theorem follows_pure {a : α} (h : conn.foreignKeys = true) :
    Follows (pure a : Program T C E α) conn (.ok (a, conn.view)) :=
  ⟨conn, rfl, rfl, rfl, h⟩

theorem Follows.bind {x : Except E (α × Database T C)}
    {g : α × Database T C → Except E (β × Database T C)} (hm : Follows m conn x)
    (hk : ∀ a db after, Continues conn after db → Follows (k a) after (g (a, db))) :
    Follows (m >>= k) conn (x >>= g) := by
  cases x with
  | error e =>
    obtain ⟨after, hprog, hcommitted⟩ := hm
    exact ⟨after, by simp only [Bind.bind, hprog], hcommitted⟩
  | ok r =>
    obtain ⟨a, db⟩ := r
    obtain ⟨after, hprog, hview, hcommitted, hkeys⟩ := hm
    have hrest := hk a db after ⟨hview, hcommitted, hkeys⟩
    have hbind : (m >>= k) conn = k a after := by simp only [Bind.bind, hprog]
    show Follows (m >>= k) conn (g (a, db))
    unfold Follows at hrest ⊢
    rw [hbind, ← hcommitted]
    exact hrest

/-- A step whose function gives the database only. -/
theorem Follows.bind_unit {m : Program T C E Unit} {k : Unit → Program T C E β}
    {x : Except E (Database T C)} {g : Database T C → Except E (β × Database T C)}
    (hm : Follows m conn ((fun db => ((), db)) <$> x))
    (hk : ∀ db after, Continues conn after db → Follows (k ()) after (g db)) :
    Follows (m >>= k) conn (x >>= g) := by
  have h : Follows (m >>= k) conn (((fun db => ((), db)) <$> x) >>= fun r => g r.2) :=
    hm.bind fun _ db after hafter => hk db after hafter
  cases x <;> exact h

/-- A computation that does not touch the connection. -/
theorem Follows.lift {x : Except E α} {g : α → Except E (β × Database T C)}
    (hk : ∀ a, x = .ok a → Follows (k a) conn (g a)) :
    Follows (Program.lift x >>= k) conn (x >>= g) := by
  cases x with
  | error e => exact ⟨conn, rfl, rfl⟩
  | ok a => exact hk a rfl

theorem follows_insert [DecidableEq T] [DecidableEq C] {raise : SqlError T → E}
    {conv : Conversions} {now : Value} {t : T} {values : List (C × Value)}
    (h : conn.foreignKeys = true) : Follows (Program.insert raise conv now t values) conn
      ((insert conv now conn.view t values).mapError raise) := by
  have hkeys : conn.begin.foreignKeys = true := h
  cases hinsert : insert conv now conn.view t values with
  | error e =>
    refine ⟨conn.begin, ?_, rfl⟩
    simp only [Program.insert, if_pos hkeys, Connection.view_begin, hinsert]
  | ok r =>
    refine ⟨{ conn.begin with pending := some r.2 }, ?_, rfl, rfl, h⟩
    simp only [Program.insert, if_pos hkeys, Connection.view_begin, hinsert]

/-- A transaction that is rolled back on an exception and committed at the end. -/
theorem run_transaction {prog : Program T C E α} {db : Database T C}
    {x : Except E (α × Database T C)}
    (h : Follows prog (Connection.connect db).enforce x) :
    Program.run (Program.enforced do
      let a ← prog
      Program.modify Connection.commit
      pure a) db = settled db x := by
  cases x with
  | error e =>
    obtain ⟨after, hprog, hcommitted⟩ := h
    simp only [Program.run, Program.enforced, Program.rollingBack, Program.modify, Bind.bind, hprog]
    exact Prod.ext rfl hcommitted
  | ok r =>
    obtain ⟨a, db'⟩ := r
    obtain ⟨after, hprog, hview, -, -⟩ := h
    simp only [Program.run, Program.enforced, Program.rollingBack, Program.modify, Bind.bind, hprog]
    exact Prod.ext rfl hview

/-! ## Before the transaction -/

variable {db : Database T C}

theorem enforced_lift {x : Except E α} {k : α → Program T C E β}
    {g : α → Except E (β × Database T C)}
    (h : ∀ a, x = .ok a → (k a).enforced.run db = settled db (g a)) :
    (Program.lift x >>= k).enforced.run db = settled db (x >>= g) := by
  cases x with
  | error e => rfl
  | ok a => exact h a rfl

theorem enforced_read {query : Database T C → Except E α} {k : α → Program T C E β}
    {g : α → Except E (β × Database T C)}
    (h : ∀ a, query db = .ok a → (k a).enforced.run db = settled db (g a)) :
    (Program.read query >>= k).enforced.run db = settled db (query db >>= g) := by
  have hread : (Program.read query >>= k).enforced.run db =
      (Program.lift (query db) >>= k).enforced.run db := rfl
  rw [hread]
  exact enforced_lift h

end Follows

end ThreatScanner.Relational
