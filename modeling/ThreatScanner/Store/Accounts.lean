import ThreatScanner.Store.Isolation
import ThreatScanner.Store.Startup
import ThreatScanner.Library.Slots

/-!
# Accounts

The accounts are the rows that were there at the start and one row for each `create_user` that was
answered with `True`, in order (`Accounts`). No other call touches them, so a name that is taken
stays with its password and its id.
-/

namespace ThreatScanner.Store

open Relational Transition

variable {p : Platform} {now : Value} {db db' db₀ : ScanDb} {parent : TableName}

/-- No two users have the same name. -/
def UniqueNames (db : ScanDb) : Prop := ((rows db .users).map (·.cells .username)).Nodup

/-- The row is the account of the name, with the hash of its password. -/
def AccountOf (username hash : String) (row : StoreRow) : Prop :=
  row.cells .username = .text username ∧ row.cells .password = .text hash

/-- The names and passwords of the users created. -/
def registered (trace : Trace) : List (String × String) :=
  trace.filterMap fun
    | (.createUser username password, .created true) => some (username, password)
    | _ => none

/-- The name has an account with the hash: from the start, or since a call of `create_user`. -/
def Registered (p : Platform) (db₀ : ScanDb) (trace : Trace) (username hash : String) : Prop :=
  (∃ row ∈ rows db₀ .users, AccountOf username hash row) ∨
    ∃ password, (username, password) ∈ registered trace ∧ hash = p.sha256 password

/-! ## One call -/

theorem createUser_true {username password : String}
    (husers : schema db .users = some usersColumns)
    (h : createUser p now db username password = .ok (true, db')) :
    (∃ row, rows db' .users = rows db .users ++ [row] ∧
      AccountOf username (p.sha256 password) row) ∧
    ∀ row ∈ rows db .users, row.cells .username ≠ .text username := by
  unfold createUser at h
  split at h
  · rename_i id after hinsert
    cases h
    refine ⟨⟨_, rows_insert hinsert (columns_of_schema husers), newUser_cells⟩, ?_⟩
    obtain ⟨table, _, htable, -, -, -, -, -, -, haccepted⟩ := insert_eq_ok hinsert
    obtain ⟨_, htable', hcols⟩ := schema_eq_some.mp husers
    cases htable.symm.trans htable'
    have hname := List.any_eq_false.mp haccepted
      { name := .username, affinity := .text, unique := true, notNull := true }
      (by rw [hcols]; exact List.mem_cons_self)
    intro row hrow hsame
    rw [rows_eq htable] at hrow
    refine hname ?_
    rw [hcols]
    have hany : (table.rows.any fun r => decide (r.cells .username = .text username)) = true :=
      List.any_eq_true.mpr ⟨row, hrow, by simpa using hsame⟩
    have hcell : (newRow p.conv now usersColumns id
        [(.username, .text username), (.password, .text (p.sha256 password))]).cells .username =
        .text username := rfl
    simp only [hcell, hany]
    rfl
  · cases h
  · cases h

theorem createUser_false {username password : String}
    (h : createUser p now db username password = .ok (false, db')) : db' = db := by
  simp only [createUser] at h
  cases hinsert : insert p.conv now db .users
      [(.username, .text username), (.password, .text (p.sha256 password))] with
  | ok r =>
    rw [hinsert] at h
    cases h
  | error e =>
    rw [hinsert] at h
    cases e <;> cases h
    rfl

/-- A name that is taken is not given away, and the store is left as it is. -/
theorem createUser_taken {username password : String}
    (husers : schema db .users = some usersColumns)
    (htaken : ∃ row ∈ rows db .users, row.cells .username = .text username) :
    (perform p now db (.createUser username password)).1 ≠ .created true ∧
      (perform p now db (.createUser username password)).2 = db := by
  obtain ⟨row, hrow, hname⟩ := htaken
  simp only [perform]
  cases h : createUser p now db username password with
  | error e => exact ⟨by simp, rfl⟩
  | ok r =>
    obtain ⟨created, after⟩ := r
    cases created with
    | true => exact absurd hname ((createUser_true husers h).2 row hrow)
    | false => exact ⟨by simp, createUser_false h⟩

theorem verifyUser_eq {username password : String} (h : schema db .users = some usersColumns) :
    verifyUser p db username password = .ok (((rows db .users).find? fun row =>
      row.cells .username = .text username ∧
        row.cells .password = .text (p.sha256 password)).map fun row =>
          ⟨row.id, fromValue (row.cells .username)⟩) := by
  have hnames : ∀ c ∈ [ColumnName.username, .password], c ∈ usersColumns.map (·.name) := by decide
  simp only [verifyUser, select_of_schema h hnames, sql, Except.mapError, bind, Except.bind,
    List.head?_filter]

theorem verifyUser_some_iff {username password : String}
    (h : schema db .users = some usersColumns) :
    (∃ user, verifyUser p db username password = .ok (some user)) ↔
      ∃ row ∈ rows db .users, AccountOf username (p.sha256 password) row := by
  simp only [verifyUser_eq h, Except.ok.injEq, Option.map_eq_some_iff]
  constructor
  · rintro ⟨user, row, hfind, -⟩
    have hrow := List.find?_some hfind
    rw [decide_eq_true_eq] at hrow
    exact ⟨row, List.mem_of_find?_eq_some hfind, hrow⟩
  · rintro ⟨row, hmem, hrow⟩
    cases hfind : (rows db .users).find? fun row => decide (row.cells .username = .text username ∧
        row.cells .password = .text (p.sha256 password)) with
    | none => exact absurd (List.find?_eq_none.mp hfind row hmem) (by simp [hrow.1, hrow.2])
    | some found => exact ⟨_, found, rfl, rfl⟩

/-- What a call does to the accounts: `create_user` may add one under a new name. -/
theorem perform_users (now : Value) (H : HasSchema parent db) (operation : Operation) :
    rows (perform p now db operation).2 .users = rows db .users ∧
        registered [(operation, (perform p now db operation).1)] = [] ∨
      ∃ username password row,
        registered [(operation, (perform p now db operation).1)] = [(username, password)] ∧
        rows (perform p now db operation).2 .users = rows db .users ++ [row] ∧
        AccountOf username (p.sha256 password) row ∧
        ∀ r ∈ rows db .users, r.cells .username ≠ .text username := by
  cases operation with
  | createUser username password =>
    simp only [perform]
    cases h : createUser p now db username password with
    | error e => exact .inl ⟨rfl, rfl⟩
    | ok r =>
      obtain ⟨created, after⟩ := r
      cases created with
      | true =>
        obtain ⟨⟨row, hrows, hrow⟩, hnew⟩ := createUser_true H.users h
        exact .inr ⟨username, password, row, rfl, hrows, hrow, hnew⟩
      | false =>
        refine .inl ⟨?_, rfl⟩
        unfold createUser at h
        split at h
        · cases h
        · cases h; rfl
        · cases h
  | saveScan scan =>
    simp only [perform]
    split
    · rename_i h
      have S := saveScan_ok h
      exact .inl ⟨rows_congr (S.other .users (by decide) fun child => child.table_ne_users.symm),
        rfl⟩
    · exact .inl ⟨rfl, rfl⟩
  | deleteScan scanId userId =>
    simp only [perform]
    split
    · rename_i h
      cases deleteScan_ok H h with
      | absent => exact .inl ⟨rfl, rfl⟩
      | removed _ _ husers => exact .inl ⟨husers, rfl⟩
    · exact .inl ⟨rfl, rfl⟩
  | getScanDetails | history => simp only [perform]; split <;> exact .inl ⟨rfl, rfl⟩

/-! ## Sequences of calls -/

/-- The accounts are those at the start, then the users created since. -/
structure Accounts (p : Platform) (parent : TableName) (db₀ : ScanDb) (s : Session) : Prop where
  hasSchema : HasSchema parent s.db
  unique : UniqueNames s.db
  created : ∃ new, rows s.db .users = rows db₀ .users ++ new ∧
    List.Forall₂ (fun user row => AccountOf user.1 (p.sha256 user.2) row) (registered s.trace) new

theorem schema_step {s t : Session} {call : Call} (H : HasSchema parent s.db)
    (h : s.step p call = some t) : HasSchema parent t.db := by
  rw [step_eq_some h]
  have hperforms : Performs p call.now s.db call.operation _ _ :=
    perform_performs H call.operation
  exact H.of_eq hperforms.schema_eq

theorem accounts_step {s t : Session} {call : Call} (A : Accounts p parent db₀ s)
    (h : s.step p call = some t) : Accounts p parent db₀ t := by
  have hschema := schema_step A.hasSchema h
  rw [step_eq_some h] at hschema ⊢
  obtain ⟨new, hrows, hnew⟩ := A.created
  have hregistered : ∀ e : Operation × Reply,
      registered (s.trace ++ [e]) = registered s.trace ++ registered [e] :=
    fun e => List.filterMap_append
  rcases perform_users call.now A.hasSchema call.operation with
    ⟨hsame, hnone⟩ | ⟨username, password, row, hone, hadd, hrow, hfresh⟩
  · refine ⟨hschema, ?_, new, hsame.trans hrows, ?_⟩
    · rw [UniqueNames, hsame]
      exact A.unique
    · rw [hregistered, hnone, List.append_nil]
      exact hnew
  · refine ⟨hschema, ?_, new ++ [row], ?_, ?_⟩
    · rw [UniqueNames, hadd, List.map_append, List.map_singleton, List.nodup_append]
      refine ⟨A.unique, List.nodup_singleton _, fun name hname name' hname' => ?_⟩
      obtain ⟨r, hr, rfl⟩ := List.mem_map.mp hname
      rw [List.mem_singleton.mp hname', hrow.1]
      exact hfresh r hr
    · rw [hadd, hrows, List.append_assoc]
    · rw [hregistered, hone]
      exact List.rel_append hnew (.cons hrow .nil)

theorem accounts_run {calls : List Call} {s : Session} (H : HasSchema parent db₀)
    (hunique : UniqueNames db₀) (hrun : exec (Session.step p) ⟨db₀, []⟩ calls = some s) :
    Accounts p parent db₀ s :=
  exec_invariant (Accounts p parent db₀) (fun _ _ _ A h => accounts_step A h)
    ⟨H, hunique, [], (List.append_nil _).symm, .nil⟩ hrun

/-- A name belongs to the account of a row, of the start or created since. -/
theorem Accounts.registered_iff {s : Session} (A : Accounts p parent db₀ s)
    {username hash : String} : Registered p db₀ s.trace username hash ↔
      ∃ row ∈ rows s.db .users, AccountOf username hash row := by
  obtain ⟨new, hrows, hnew⟩ := A.created
  simp only [hrows, List.mem_append, or_and_right, exists_or, Registered]
  refine or_congr_right ?_
  constructor
  · rintro ⟨password, hmem, rfl⟩
    obtain ⟨row, hrow, haccount⟩ := Slots.exists_of_mem_left hnew hmem
    exact ⟨row, hrow, haccount⟩
  · rintro ⟨row, hrow, hname, hhash⟩
    obtain ⟨⟨username', password⟩, hmem, hname', hhash'⟩ := Slots.exists_of_mem_right hnew hrow
    cases hname.symm.trans hname'
    exact ⟨password, hmem, Value.text.inj (hhash.symm.trans hhash')⟩

/-- The account of a name is one row. -/
theorem UniqueNames.eq {username hash hash' : String} (h : UniqueNames db) {row row' : StoreRow}
    (hmem : row ∈ rows db .users) (hmem' : row' ∈ rows db .users)
    (hrow : AccountOf username hash row) (hrow' : AccountOf username hash' row') : row = row' :=
  List.inj_on_of_nodup_map h hmem hmem' (hrow.1.trans hrow'.1.symm)

/-- The accounts of a later state of a session start with those of the earlier one. -/
theorem users_grow {calls : List Call} {s t : Session} (H : HasSchema parent s.db)
    (hrun : exec (Session.step p) s calls = some t) : rows s.db .users <+: rows t.db .users := by
  refine exec_rel (fun s => HasSchema parent s.db)
    (fun s t => rows s.db .users <+: rows t.db .users) (fun _ => List.prefix_refl _)
    (fun _ _ _ => List.IsPrefix.trans) (fun _ _ _ => schema_step) (fun s call t H h => ?_) H hrun
  rw [step_eq_some h]
  rcases perform_users call.now H call.operation with ⟨hsame, -⟩ | ⟨_, _, row, -, hadd, -⟩
  · exact ⟨[], by rw [List.append_nil, hsame]⟩
  · exact ⟨[row], hadd.symm⟩

/-- Accounts are stable. In every state of every session a login succeeds exactly with the password
the name was registered with; a registered name is not given away again, and its login gives the
same user for good. -/
theorem accounts_stable {calls : List Call} {s : Session} (H : HasSchema parent db₀)
    (hunique : UniqueNames db₀) (hrun : exec (Session.step p) ⟨db₀, []⟩ calls = some s)
    (username : String) :
    (∀ password, (∃ user, verifyUser p s.db username password = .ok (some user)) ↔
      Registered p db₀ s.trace username (p.sha256 password)) ∧
    (∀ hash hash', Registered p db₀ s.trace username hash →
      Registered p db₀ s.trace username hash' → hash = hash') ∧
    (∀ hash, Registered p db₀ s.trace username hash → ∀ now password,
      (perform p now s.db (.createUser username password)).1 ≠ .created true ∧
        (perform p now s.db (.createUser username password)).2 = s.db) ∧
    (∀ password user later t, verifyUser p s.db username password = .ok (some user) →
      exec (Session.step p) s later = some t →
        verifyUser p t.db username password = .ok (some user)) := by
  have A := accounts_run H hunique hrun
  refine ⟨fun password => ?_, fun hash hash' h h' => ?_, fun hash h now password => ?_,
    fun password user later t huser hlater => ?_⟩
  · rw [A.registered_iff]
    exact verifyUser_some_iff A.hasSchema.users
  · obtain ⟨row, hmem, hrow⟩ := A.registered_iff.mp h
    obtain ⟨row', hmem', hrow'⟩ := A.registered_iff.mp h'
    cases A.unique.eq hmem hmem' hrow hrow'
    exact Value.text.inj (hrow.2.symm.trans hrow'.2)
  · obtain ⟨row, hmem, hname, -⟩ := A.registered_iff.mp h
    exact createUser_taken A.hasSchema.users ⟨row, hmem, hname⟩
  · have A' := accounts_run H hunique (exec_append_some.mpr ⟨s, hrun, hlater⟩)
    obtain ⟨new, hnew⟩ := users_grow A.hasSchema hlater
    rw [verifyUser_eq A.hasSchema.users, Except.ok.injEq, Option.map_eq_some_iff] at huser
    obtain ⟨row, hfind, rfl⟩ := huser
    rw [verifyUser_eq A'.hasSchema.users, ← hnew, List.find?_append, hfind]
    rfl

/-- A second user cannot take the name `bob`, and the first one can still log in. -/
theorem accounts_stable_shared : ∃ s,
    exec (Session.step sharedPlatform) ⟨sharedDb, []⟩
      [⟨.null, .createUser "bob" "pw"⟩, ⟨.null, .createUser "bob" "admin"⟩] = some s ∧
    (∃ user, verifyUser sharedPlatform s.db "bob" "pw" = .ok (some user)) ∧
    ¬∃ user, verifyUser sharedPlatform s.db "bob" "admin" = .ok (some user) := by
  obtain ⟨s, hs⟩ : ∃ s, exec (Session.step sharedPlatform) ⟨sharedDb, []⟩
      [⟨.null, .createUser "bob" "pw"⟩, ⟨.null, .createUser "bob" "admin"⟩] = some s := ⟨_, rfl⟩
  have hregistered : registered s.trace = [("bob", "pw")] := by
    cases hs
    decide
  obtain ⟨parent, H⟩ : ∃ parent, HasSchema parent sharedDb :=
    initDb_hasSchema (.current (.inl rfl) (.inl rfl) fun _ => .inl rfl) rfl
  have hunique : UniqueNames sharedDb := by
    unfold UniqueNames
    decide
  obtain ⟨hlogin, hone, -, -⟩ := accounts_stable H hunique hs "bob"
  have hpw : Registered sharedPlatform sharedDb s.trace "bob" (sharedPlatform.sha256 "pw") :=
    .inr ⟨"pw", by rw [hregistered]; exact List.mem_singleton_self _, rfl⟩
  refine ⟨s, hs, (hlogin "pw").mpr hpw, fun h => ?_⟩
  have hadmin := hone _ _ hpw ((hlogin "admin").mp h)
  exact absurd hadmin (by decide)

end ThreatScanner.Store
