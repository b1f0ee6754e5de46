import ThreatScanner.Service.Token

/-!
# Who a request is made by

The service runs while time passes, users register and log in, and the endpoints use the store. A
token is accepted for the user of the login that signed it and for no one else, from that login on
until it expires, whatever happens in between. There is no way to end a session earlier.
-/

namespace ThreatScanner.Service

open Relational Store Transition

variable {settings : Settings} {jwt : Jwt} {p : Platform} {parent : TableName} {db db₀ : ScanDb}

/-! ## The service -/

structure ServiceState where
  session : Session
  now : Int

/-- `POST /register` is a call of `create_user`; the other calls are those of the endpoints. -/
inductive Label where
  | pass (seconds : Nat)
  | call (call : Call)
  | login (username password : String)

def ServiceState.step (p : Platform) (s : ServiceState) : Label → Option ServiceState
  | .pass seconds => some { s with now := s.now + seconds }
  | .call call => (s.session.step p call).map fun session => { s with session := session }
  | .login _ _ => some s

/-- The login was answered in the run, at the given time. -/
def LoggedIn (settings : Settings) (jwt : Jwt) (p : Platform) (start : ServiceState)
    (ls : List Label) (response : LoginResponse) (time : Int) : Prop :=
  ∃ ls₁ ls₂ s username password, ls = ls₁ ++ .login username password :: ls₂ ∧
    exec (ServiceState.step p) start ls₁ = some s ∧
    login settings jwt p s.session.db s.now username password = .ok response ∧ s.now = time

/-! ## The library -/

theorem login_ok {now : Int} {username password : String} {response : LoginResponse}
    (husers : schema db .users = some usersColumns)
    (h : login settings jwt p db now username password = .ok response) :
    response.accessToken = createToken settings jwt response.user now ∧
      response.user.username = .str username ∧ ∃ row ∈ rows db .users,
        response.user = ⟨row.id, fromValue (row.cells .username)⟩ := by
  simp only [login, verifyUser_eq husers, raising, Except.mapError, bind, Except.bind] at h
  split at h
  · cases h
  · rename_i user huser
    cases h
    obtain ⟨row, hfind, rfl⟩ := Option.map_eq_some_iff.mp huser
    have hrow := List.find?_some hfind
    rw [decide_eq_true_eq] at hrow
    refine ⟨rfl, ?_, row, List.mem_of_find?_eq_some hfind, rfl⟩
    show fromValue (row.cells .username) = _
    rw [hrow.1]
    rfl

/-- Accounts stay and time passes. -/
structure Later (s t : ServiceState) : Prop where
  users : rows s.session.db .users <+: rows t.session.db .users
  now : s.now ≤ t.now

theorem step_schema {s t : ServiceState} {l : Label} (H : HasSchema parent s.session.db)
    (h : s.step p l = some t) : HasSchema parent t.session.db := by
  cases l with
  | pass | login => cases h; exact H
  | call call =>
    simp only [ServiceState.step, Option.map_eq_some_iff] at h
    obtain ⟨session, hcall, rfl⟩ := h
    exact Store.schema_step H hcall

theorem step_later {s t : ServiceState} {l : Label} (H : HasSchema parent s.session.db)
    (h : s.step p l = some t) : Later s t := by
  cases l with
  | pass seconds =>
    cases h
    exact ⟨List.prefix_refl _, Int.le_add_of_nonneg_right (Int.natCast_nonneg seconds)⟩
  | login =>
    cases h
    exact ⟨List.prefix_refl _, Int.le_refl _⟩
  | call call =>
    simp only [ServiceState.step, Option.map_eq_some_iff] at h
    obtain ⟨session, hcall, rfl⟩ := h
    exact ⟨users_grow H (exec_singleton.trans hcall), Int.le_refl _⟩

theorem exec_schema {s t : ServiceState} {ls : List Label} (H : HasSchema parent s.session.db)
    (h : exec (ServiceState.step p) s ls = some t) : HasSchema parent t.session.db :=
  exec_invariant (fun s => HasSchema parent s.session.db) (fun _ _ _ => step_schema) H h

theorem exec_later {s t : ServiceState} {ls : List Label} (H : HasSchema parent s.session.db)
    (h : exec (ServiceState.step p) s ls = some t) : Later s t :=
  exec_rel (fun s => HasSchema parent s.session.db) Later
    (fun _ => ⟨List.prefix_refl _, Int.le_refl _⟩)
    (fun _ _ _ h h' => ⟨h.users.trans h'.users, Int.le_trans h.now h'.now⟩)
    (fun _ _ _ => step_schema) (fun _ _ _ => step_later) H h

/-- The user of a login still has the account, and its token is of the past. -/
theorem LoggedIn.account {start s : ServiceState} {ls : List Label} {response : LoginResponse}
    {time : Int} (H : HasSchema parent start.session.db)
    (hrun : exec (ServiceState.step p) start ls = some s)
    (h : LoggedIn settings jwt p start ls response time) :
    response.accessToken = createToken settings jwt response.user time ∧ time ≤ s.now ∧
      (∃ name, response.user.username = .str name) ∧
      ∃ row ∈ rows s.session.db .users,
        response.user = ⟨row.id, fromValue (row.cells .username)⟩ := by
  obtain ⟨ls₁, ls₂, u, username, password, rfl, hbefore, hlogin, rfl⟩ := h
  obtain ⟨u', hbefore', hafter⟩ := exec_append_some.mp hrun
  cases hbefore.symm.trans hbefore'
  have Hu := exec_schema H hbefore
  obtain ⟨htoken, hname, row, hrow, huser⟩ := login_ok Hu.users hlogin
  have hlater := exec_later Hu hafter
  exact ⟨htoken, hlater.now, ⟨username, hname⟩, row, hlater.users.subset hrow, huser⟩

end ThreatScanner.Service
