import Stellance.Auth.Lives
import Stellance.Auth.Versions

/-! Requests of sessions that take turns, and those that do not. In its turn a request has the
tables for itself and draws the times, bytes and signatures it has drawn among the others. -/
namespace Stellance.Auth
open AuthService
open Process hiding await
open Backend (Uuid UserRole)

def draws : Exchange → Bool
  | ⟨.now, .ok _⟩ | ⟨.randomBytes, .ok _⟩ | ⟨.sign .., .ok _⟩ => true
  | _ => false

/-- What a request has drawn. -/
def drawn (index : Nat) (history : List (Service × Occurrence)) : List Exchange :=
  (Process.told index history).filter draws

/-- The tables and what there is to draw, for one request. -/
inductive Alone : Db × List Exchange → (op : Op) → Except Failure op.Answer → Db × List Exchange → Prop where
  | executed {db db' : Db} {drawn : List Exchange} {op : Op} {answer : Except Failure op.Answer}
      (executed : Executes db op answer db') : Alone (db, drawn) op answer (db', drawn)
  | drawn {db : Db} {drawn : List Exchange} {op : Op} {answer : Except Failure op.Answer}
      (draws : draws ⟨op, answer⟩ = true) : Alone (db, ⟨op, answer⟩ :: drawn) op answer (db, drawn)

/-- A request of a finished run, run on its own to the result it has had. -/
def Turn (config : Config) (history : List (Service × Occurrence)) (service : Service) (db : Db)
    (index : Nat) (db' : Db) : Prop :=
  ∃ endpoint result rest, service.running[index]? = some (endpoint, ended result) ∧
    Process.Completes Alone (db, drawn index history) (handle config endpoint) result (db', rest)

/-- Turns of all requests, in some order, lead to the same tables with the same results. -/
def Serializable (config : Config) (start : Service) (history : List (Service × Occurrence))
    (service : Service) : Prop :=
  ∃ turns, (turns.map Prod.snd).Perm (List.range service.running.length) ∧
    Runs.Run (Turn config history service) start.world.db turns service.world.db

/-- A rotation meets its row revoked, though not in favour of another. -/
def FalseAlarm (history : List (Service × Occurrence)) : Prop :=
  ∃ (n : Nat) (pool : Service) (index : Nat) (existingId : Uuid) (data : NewToken)
    (answer : Except Failure Unit) (row : RefreshToken),
    history[n]? = some (pool, .served index (.rotate existingId data) answer) ∧
    pool.world.db.refreshTokens.find existingId = some row ∧ row.revoked = true ∧
    row.replacedByTokenId = none

/-- A refresh reads a row that can be exchanged but for the version of its user, and that
version has been raised since the start. -/
def HalfLoggedOut (start : Service) (history : List (Service × Occurrence)) : Prop :=
  ∃ (index : Nat) (token : String) (row : RefreshToken) (user : User) (now : Nat)
    (rest : List Exchange) (before : User),
    Process.told index history = seen token row user :: ⟨.now, .ok now⟩ :: rest ∧
    row.revoked = false ∧ now < row.expiresAt ∧ user.tokenVersion ≠ row.tokenVersion ∧
    start.world.db.users.find row.userId = some before ∧ row.tokenVersion = before.tokenVersion

/-- The tables as some run of the service has left them. -/
def Db.Reachable (config : Config) (db : Db) : Prop :=
  ∃ argon2 faults start history service,
    Runs.Run (Service.Step config argon2 faults) start history service ∧ start.Started ∧
      service.world.db = db

/-- Requests of sessions, begun on the tables of an earlier run and all ended. -/
structure SessionsOver (config : Config) (argon2 : String → String → Bool) (start : Service)
    (history : List (Service × Occurrence)) (service : Service) : Prop where
  run : Runs.Run (Service.Step config argon2 False) start history service
  idle : start.running = []
  reachable : start.world.db.Reachable config
  inSession : ∀ (index : Nat) endpoint rest, service.running[index]? = some (endpoint, rest) →
    endpoint.InSession
  finished : ∀ (index : Nat) endpoint rest, service.running[index]? = some (endpoint, rest) →
    ∃ result, rest = ended result

/-! ### Users -/

/-- The users, each logged out some more times. -/
def raised (users : Table User.id) (times : Uuid → Nat) : Table User.id :=
  users.updateMany (fun _ => true)
    (fun user => { user with tokenVersion := user.tokenVersion + times user.id }) fun _ => rfl

section Users
variable {users : Table User.id} {times : Uuid → Nat} {id userId : Uuid}

theorem raised_none : raised users (fun _ => 0) = users := by
  apply Table.ext
  simp [raised, Table.updateMany]

theorem raised_find : (raised users times).find id =
    (users.find id).map fun user => { user with tokenVersion := user.tokenVersion + times id } := by
  unfold raised
  rw [Table.find_updateMany]
  cases found : users.find id with
  | none => rfl
  | some user =>
    have here : user.id = id := Table.key_of_find found
    subst here
    rfl

theorem raised_modify : (raised users times).modify userId User.logOut User.logOut_id =
    raised users fun id => times id + if id = userId then 1 else 0 := by
  apply Table.ext
  unfold raised Table.modify Table.updateMany
  dsimp only
  rw [List.map_map]
  apply List.map_congr_left
  intro user _
  by_cases here : user.id = userId <;> simp [here, User.logOut, Nat.add_assoc]

end Users

end Stellance.Auth
