import ThreatScanner.Python.Text
import ThreatScanner.Store.Accounts

/-!
# Access tokens

`create_token` signs what a login says about its user, and `get_current_user` reads the user back
from the `Authorization` header of a request. The signature is made and checked by `jwt`, which is
a parameter: a token is its signing input, a dot and some spelling of the octets of the signature.
Times are in seconds.
-/

namespace ThreatScanner.Service

open Relational Store

inductive JwtError where
  | expired | invalid
deriving DecidableEq

/-- `jwt.encode` and `jwt.decode` with the key and the algorithm of the service, the signature that
the key makes of a signing input, and the octets that `base64url_decode` reads. -/
structure Jwt where
  encode : Json → String
  decode : String → (issuer audience : String) → (now : Int) → Except JwtError Json
  sign : List Char → List UInt8
  octets : List Char → Option (List UInt8)

/-- `JWT_ISSUER`, `JWT_AUDIENCE` and `ACCESS_TOKEN_EXPIRE_MINUTES`. -/
structure Settings where
  issuer : String
  audience : String
  expireMinutes : Int

/-- How an endpoint fails: with an `HTTPException`, or with what the store or the code raises. -/
inductive ServiceError where
  | http (e : HttpError)
  | raised (e : StoreError)

def raising {α : Type} (x : Except StoreError α) : Except ServiceError α := x.mapError .raised

section Token
variable (settings : Settings) (jwt : Jwt) (p : Platform)

/-- The payload of a token. -/
def claims (user : User) (now : Int) : Json :=
  .obj [("sub", user.username), ("user_id", .int user.id), ("username", user.username),
    ("iss", .str settings.issuer), ("aud", .str settings.audience), ("iat", .int now),
    ("exp", .int (now + 60 * settings.expireMinutes))]

/-- `create_token`. -/
def createToken (user : User) (now : Int) : String := jwt.encode (claims settings user now)

/-- `POST /register`, with the store after it. -/
def register (created : Value) (db : ScanDb) (username password : String) :
    Except ServiceError Unit × ScanDb :=
  match createUser p created db username password with
  | .error e => (.error (.raised e), db)
  | .ok (false, db) => (.error (.http ⟨400, "User exists"⟩), db)
  | .ok (true, db) => (.ok (), db)

structure LoginResponse where
  accessToken : String
  user : User

/-- `POST /login`. -/
def login (db : ScanDb) (now : Int) (username password : String) :
    Except ServiceError LoginResponse := do
  match ← raising (verifyUser p db username password) with
  | none => .error (.http ⟨401, "Invalid credentials"⟩)
  | some user => .ok ⟨createToken settings jwt user now, user⟩

end Token

/-- A registration is a call of `create_user`, and succeeds when that does. -/
theorem register_eq {p : Platform} {created : Value} {db : ScanDb} {username password : String} :
    (register p created db username password).2 =
        (perform p created db (.createUser username password)).2 ∧
      ((register p created db username password).1 = .ok () ↔
        (perform p created db (.createUser username password)).1 = .created true) := by
  simp only [register, perform]
  cases createUser p created db username password with
  | error e => simp
  | ok r =>
    obtain ⟨ok, after⟩ := r
    cases ok <;> simp

end ThreatScanner.Service
