import Stellance.Auth.Database
import Stellance.Auth.Script

/-! Readings and the rows that rest on them. A request that issues a token has read one
user before, and a rotation the row it replaces; what they have found may be old by then. -/
namespace Stellance.Auth
open AuthService
open Process hiding await
open Backend (Uuid UserRole)

/-- The user an operation has found or made. -/
def reads : Exchange → Option User
  | ⟨.findUserByEmail _, .ok (some user)⟩ => some user
  | ⟨.createUser _, .ok user⟩ => some user
  | ⟨.findRefreshToken _, .ok (some (_, user))⟩ => some user
  | _ => none

/-- The row an operation would store. -/
def Op.issues : Op → Option NewToken
  | .createRefreshToken data => some data
  | .rotate _ data => some data
  | _ => none

variable {config : Config} {endpoint : Endpoint} {argon2 : String → String → Bool} {faults : Prop}
  {told : List Exchange} {op : Op} {answer : Except Failure op.Answer} {data : NewToken} {user : User}
  {start service service' : Service} {history : List (Service × Occurrence)} {index n : Nat}

theorem idle_reads {exchange : Exchange} (idle : exchange.1.Idle) : reads exchange = none := by
  obtain ⟨op, answer⟩ := exchange
  cases op <;> first | rfl | contradiction

theorem idle_filterMap (idle : ∀ exchange ∈ told, exchange.1.Idle) : told.filterMap reads = [] :=
  List.filterMap_eq_nil_iff.mpr fun exchange member => idle_reads (idle exchange member)

/-- What is issued rests on one reading, where a row was read with its own user. -/
theorem Script.issued (script : Script config endpoint told op) (issues : op.issues = some data)
    (own : ∀ token row user, seen token row user ∈ told → user.id = row.userId) :
    ∃ user, told.filterMap reads = [user] ∧ data.For user := by
  cases script with
  | @registered dto hash made user later _ idle for' =>
    cases issues
    refine ⟨user, ?_, for'⟩
    rw [List.filterMap_append, idle_filterMap idle]
    rfl
  | @loggedIn email password user later _ idle for' =>
    cases issues
    refine ⟨user, ?_, for'⟩
    rw [List.filterMap_append, idle_filterMap idle]
    rfl
  | @rotate refreshToken bytes row user now later able =>
    cases issues
    exact ⟨user, rfl, (own _ row user List.mem_cons_self).symm, rfl⟩
  | idle idle => cases op <;> contradiction
  | _ => contradiction

/-- Who reads a user has issued nothing yet. -/
theorem Script.unissued (script : Script config endpoint told op) (found : reads ⟨op, answer⟩ = some user) :
    ∀ exchange ∈ told, exchange.1.issues = none := by
  cases script with
  | findLogin | findRegister | read => exact fun _ member => absurd member List.not_mem_nil
  | createUser =>
    intro exchange member
    simp only [List.mem_cons, List.not_mem_nil, or_false] at member
    rcases member with rfl | rfl <;> rfl
  | idle idle =>
    rw [idle_reads idle] at found
    contradiction
  | _ => cases answer <;> contradiction

/-! ### In a run -/

/-- A row is found as the tables have it. -/
theorem step_found {token : String} {found : Option (RefreshToken × User)}
    (step : Service.Step config argon2 faults service
      (.served index (.findRefreshToken token) (.ok found)) service') :
    found = service.world.db.findRefreshToken token ∧ service'.world.db = service.world.db := by
  cases step with
  | served _ answered =>
    cases answered with
    | executed executed =>
      cases executed
      exact ⟨rfl, rfl⟩

/-- A user is found as the tables have it. -/
theorem step_reads (step : Service.Step config argon2 faults service (.served index op answer) service')
    (found : reads ⟨op, answer⟩ = some user) : service'.world.db.users.find user.id = some user := by
  cases step with
  | served _ answered =>
    cases answered with
    | executed executed =>
      cases executed with
      | foundUser email =>
        cases known : Db.findUserByEmail _ email with
        | none =>
          rw [known] at found
          contradiction
        | some user' =>
          rw [known] at found
          cases found
          exact Db.findUserByEmail_some known
      | createdUser created =>
        cases found
        exact (Db.createUser_some created).2.2.1
      | foundToken token =>
        cases known : Db.findRefreshToken _ token with
        | none =>
          rw [known] at found
          contradiction
        | some pair =>
          rw [known] at found
          cases found
          obtain ⟨_, _, there⟩ := Db.findRefreshToken_some known
          have here : pair.2.id = pair.1.userId := Table.key_of_find there
          exact here ▸ there
      | _ => contradiction
    | faulted => cases op <;> contradiction
    | _ => contradiction

section Run
variable (run : Runs.Run (Service.Step config argon2 faults) start history service)
  (idle : start.running = [])
include run

/-- What a request has read of a row and its user stays in the tables, as it was or later. -/
theorem seen_known {token : String} {row : RefreshToken} {user : User}
    (member : seen token row user ∈ Process.told index history) :
    row.token = token ∧ user.id = row.userId ∧
      (∃ current, service.world.db.refreshTokens.find row.id = some current ∧ row.Later current) ∧
      ∃ current, service.world.db.users.find row.userId = some current ∧ user.Later current := by
  obtain ⟨_, _, here⟩ := told_at.mp member
  obtain ⟨_, _, step, rest⟩ := run.pass here
  obtain ⟨answered, unchanged⟩ := step_found step
  obtain ⟨stored, hash, known⟩ := Db.findRefreshToken_some answered.symm
  have grows := unchanged ▸ run_grows rest
  exact ⟨hash, Table.key_of_find known, grows.tokens row.id row stored, grows.users row.userId user known⟩

/-- A user is read as the user was at the start, or later. -/
theorem seen_since {token : String} {row : RefreshToken} {user before : User}
    (member : seen token row user ∈ Process.told index history)
    (known : start.world.db.users.find row.userId = some before) : before.Later user := by
  obtain ⟨_, _, here⟩ := told_at.mp member
  obtain ⟨first, _, step, _⟩ := run.pass here
  obtain ⟨_, _, stored⟩ := Db.findRefreshToken_some (step_found step).1.symm
  obtain ⟨user', stored', later⟩ := (run_grows first).users row.userId before known
  obtain rfl := Option.some.inj (stored.symm.trans stored')
  exact later

include idle

/-- What a request issues carries what it has read of the user, and it has read no other. -/
theorem issue_reads (here : history[n]? = some (service', .served index op answer))
    (issues : op.issues = some data) :
    ∃ user, (Process.told index (history.take n)).filterMap reads = [user] ∧ data.For user := by
  obtain ⟨endpoint, _, _, script⟩ := run_script run idle (handle_follows config) here
  exact script.issued issues fun _ _ _ member => (seen_known (run.pass here).1 member).2.1

/-- A rotation is of the row its request has read. -/
theorem rotate_reads {existingId : Uuid} {answer : Except Failure Unit}
    (here : history[n]? = some (service', .served index (.rotate existingId data) answer)) :
    ∃ refreshToken bytes row user now later current,
      (∃ rest, service'.running[index]? = some (.refresh refreshToken, rest)) ∧
      Process.told index (history.take n) =
        prepared (hashRefreshToken config refreshToken) row user now bytes later ∧
      existingId = row.id ∧ data = successor config row user bytes later ∧ Exchangeable row user now ∧
      row.token = hashRefreshToken config refreshToken ∧ user.id = row.userId ∧
      service'.world.db.refreshTokens.find row.id = some current ∧ row.Later current := by
  obtain ⟨endpoint, _, found, script⟩ := run_script run idle (handle_follows config) here
  generalize same : Process.told index (history.take n) = told at script
  cases script with
  | idle idle => contradiction
  | @rotate refreshToken bytes row user now later able =>
    have read : seen (hashRefreshToken config refreshToken) row user ∈
        Process.told index (history.take n) := same ▸ List.mem_cons_self
    obtain ⟨hash, owner, ⟨current, there, later'⟩, _⟩ := seen_known (run.pass here).1 read
    exact ⟨refreshToken, bytes, row, user, now, later, current, ⟨_, found⟩, rfl, rfl, rfl, able, hash, owner,
      there, later'⟩

end Run

end Stellance.Auth
