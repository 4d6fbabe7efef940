import Stellance.Auth.AuthService

/-! The world of the auth service: its tables, the clock, and the access tokens signed so
far. Signatures are checked by the library, and passwords by `argon2`; any operation may
also fail for reasons of its own, if faults are switched on, and a hash drawn twice counts
as one of them. -/
namespace Stellance.Auth
open Backend (Uuid UserRole)

structure World where
  db : Db
  clock : Nat
  signed : List AccessToken

/-- The statements, on the tables. -/
inductive Executes (db : Db) : (op : Op) → Except Failure op.Answer → Db → Prop where
  | foundUser (email : String) :
      Executes db (.findUserByEmail email) (.ok (db.findUserByEmail email)) db
  | createdUser {data : NewUser} {id : Uuid} {user : User} {db' : Db}
      (created : db.createUser id data = some (user, db')) :
      Executes db (.createUser data) (.ok user) db'
  | refusedUser {data : NewUser} (message : String) (taken : (db.findUserByEmail data.email).isSome = true) :
      Executes db (.createUser data) (.error (.internal message)) db
  | foundToken (token : String) :
      Executes db (.findRefreshToken token) (.ok (db.findRefreshToken token)) db
  | createdToken {data : NewToken} {id : Uuid} {db' : Db}
      (created : db.createRefreshToken id data = some db') :
      Executes db (.createRefreshToken data) (.ok (.issued id data)) db'
  | rotated {existingId rotatedId : Uuid} {data : NewToken} {db' : Db}
      (rotated : db.rotate existingId rotatedId data = some (.ok db')) :
      Executes db (.rotate existingId data) (.ok ()) db'
  | raced {existingId rotatedId : Uuid} {data : NewToken} {error : Failure}
      (raced : db.rotate existingId rotatedId data = some (.error error)) :
      Executes db (.rotate existingId data) (.error error) db
  | revoked (token : String) :
      Executes db (.revokeRefreshToken token) (.ok ()) (db.revokeMany (·.token = token) none)
  | incremented {userId : Uuid} {db' : Db} (incremented : db.incrementTokenVersion userId = some db') :
      Executes db (.incrementTokenVersion userId) (.ok ()) db'
  | noUser {userId : Uuid} (message : String) (absent : db.users.find userId = none) :
      Executes db (.incrementTokenVersion userId) (.error (.internal message)) db
  | revokedAll (userId : Uuid) :
      Executes db (.revokeAll userId) (.ok ()) (db.revokeMany (·.userId = userId) none)

/-- The answers of the world to the operations of a request. -/
inductive Serves (argon2 : String → String → Bool) (faults : Prop) (w : World) :
    (op : Op) → Except Failure op.Answer → World → Prop where
  | executed {op : Op} {answer : Except Failure op.Answer} {db : Db}
      (executed : Executes w.db op answer db) : Serves argon2 faults w op answer { w with db }
  | verified (hash password : String) :
      Serves argon2 faults w (.verifyPassword hash password) (.ok (argon2 hash password)) w
  | hashed {hash password : String} (verifies : argon2 hash password = true) :
      Serves argon2 faults w (.hashPassword password) (.ok hash) w
  | now : Serves argon2 faults w .now (.ok w.clock) w
  | random {bytes : String} (some' : bytes ≠ "") : Serves argon2 faults w .randomBytes (.ok bytes) w
  | signed (payload : JwtPayload) (expiresIn : Nat) :
      Serves argon2 faults w (.sign payload expiresIn) (.ok ⟨payload, w.clock + expiresIn⟩)
        { w with signed := w.signed ++ [⟨payload, w.clock + expiresIn⟩] }
  | accepted {token : AccessToken} (genuine : token ∈ w.signed) (fresh : w.clock < token.expiresAt) :
      Serves argon2 faults w (.verifyJwt token) (.ok ()) w
  | rejected {token : AccessToken} (invalid : token ∉ w.signed ∨ token.expiresAt ≤ w.clock) :
      Serves argon2 faults w (.verifyJwt token) (.error (.unauthorized "Unauthorized")) w
  | faulted {op : Op} (fault : faults) (message : String) :
      Serves argon2 faults w op (.error (.internal message)) w

/-- The requests in flight, and the world they share. -/
abbrev Service := Process.Pool World Endpoint Failure Op Op.Answer Response

abbrev Occurrence := Process.Event Endpoint Failure Op Op.Answer

/-- Time passes. -/
inductive Around : World → World → Prop where
  | passes {w : World} {clock : Nat} (later : w.clock ≤ clock) : Around w { w with clock }

def Service.Step (config : Config) (argon2 : String → String → Bool) (faults : Prop) :
    Service → Occurrence → Service → Prop :=
  Process.Pool.Step (handle config) (fun _ => Serves argon2 faults) Around

/-- Before the first session: no request yet, and no token stored or signed. -/
structure Service.Started (service : Service) : Prop where
  running : service.running = []
  refreshTokens : service.world.db.refreshTokens.rows = []
  signed : service.world.signed = []

end Stellance.Auth
