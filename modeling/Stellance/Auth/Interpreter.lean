import Stellance.Auth.Server

/-! The world of the auth service, computed: one answer for each awaited operation, given
the ids, hashes and random bytes that would be drawn. -/
namespace Stellance.Auth
open Backend (Uuid UserRole)

/-- Where new ids, hashes and bytes come from. -/
structure Supply where
  userId : Db → Uuid
  tokenId : Db → Uuid
  bytes : Db → String
  passwordHash : String → String

section Computed
variable {argon2 : String → String → Bool} {supply : Supply} {w after : World}

def World.answer (argon2 : String → String → Bool) (supply : Supply) (w : World) :
    (op : Op) → Option (Except Failure op.Answer × World)
  | .findUserByEmail email => some (.ok (w.db.findUserByEmail email), w)
  | .verifyPassword hash password => some (.ok (argon2 hash password), w)
  | .hashPassword password =>
    if argon2 (supply.passwordHash password) password then
      some (.ok (supply.passwordHash password), w)
    else none
  | .createUser data => do
    let (user, db) ← w.db.createUser (supply.userId w.db) data
    some (.ok user, { w with db })
  | .findRefreshToken token => some (.ok (w.db.findRefreshToken token), w)
  | .createRefreshToken data => do
    let db ← w.db.createRefreshToken (supply.tokenId w.db) data
    some (.ok (.issued (supply.tokenId w.db) data), { w with db })
  | .rotate existingId data =>
    match w.db.rotate existingId (supply.tokenId w.db) data with
    | some (.ok db) => some (.ok (), { w with db })
    | some (.error error) => some (.error error, w)
    | none => none
  | .revokeRefreshToken token => some (.ok (), { w with db := w.db.revokeMany (·.token = token) none })
  | .incrementTokenVersion userId => do
    let db ← w.db.incrementTokenVersion userId
    some (.ok (), { w with db })
  | .revokeAll userId => some (.ok (), { w with db := w.db.revokeMany (·.userId = userId) none })
  | .now => some (.ok w.clock, w)
  | .randomBytes => if supply.bytes w.db = "" then none else some (.ok (supply.bytes w.db), w)
  | .sign payload expiresIn =>
    some (.ok ⟨payload, w.clock + expiresIn⟩,
      { w with signed := w.signed ++ [⟨payload, w.clock + expiresIn⟩] })
  | .verifyJwt token =>
    if token ∈ w.signed ∧ w.clock < token.expiresAt then some (.ok (), w)
    else some (.error (.unauthorized "Unauthorized"), w)

theorem answer_serves {op : Op} {given : Except Failure op.Answer}
    (answered : w.answer argon2 supply op = some (given, after)) : Serves argon2 False w op given after := by
  cases op with
  | findUserByEmail email =>
    cases answered
    exact .executed (.foundUser email)
  | verifyPassword hash password =>
    cases answered
    exact .verified hash password
  | hashPassword password =>
    obtain ⟨verifies, same⟩ := Option.ite_none_right_eq_some.mp answered
    cases same
    exact .hashed verifies
  | createUser data =>
    simp only [World.answer, Option.bind_eq_bind, Option.bind_eq_some_iff] at answered
    obtain ⟨⟨user, db⟩, created, same⟩ := answered
    cases same
    exact .executed (.createdUser created)
  | findRefreshToken token =>
    cases answered
    exact .executed (.foundToken token)
  | createRefreshToken data =>
    simp only [World.answer, Option.bind_eq_bind, Option.bind_eq_some_iff] at answered
    obtain ⟨db, created, same⟩ := answered
    cases same
    exact .executed (.createdToken created)
  | rotate existingId data =>
    simp only [World.answer] at answered
    split at answered
    · rename_i db rotated
      cases answered
      exact .executed (.rotated rotated)
    · rename_i error raced
      cases answered
      exact .executed (.raced raced)
    · contradiction
  | revokeRefreshToken token =>
    cases answered
    exact .executed (.revoked token)
  | incrementTokenVersion userId =>
    simp only [World.answer, Option.bind_eq_bind, Option.bind_eq_some_iff] at answered
    obtain ⟨db, incremented, same⟩ := answered
    cases same
    exact .executed (.incremented incremented)
  | revokeAll userId =>
    cases answered
    exact .executed (.revokedAll userId)
  | now =>
    cases answered
    exact .now
  | randomBytes =>
    obtain ⟨some', same⟩ := Option.ite_none_left_eq_some.mp answered
    cases same
    exact .random some'
  | sign payload expiresIn =>
    cases answered
    exact .signed payload expiresIn
  | verifyJwt token =>
    simp only [World.answer] at answered
    split at answered
    · rename_i valid
      cases answered
      exact .accepted valid.1 valid.2
    · rename_i invalid
      cases answered
      rw [Decidable.not_and_iff_not_or_not, Nat.not_lt] at invalid
      exact .rejected invalid

end Computed

/-! ### One account -/

namespace Sample

def config : Config where
  sha256 text := "#" ++ text
  refreshTokenPepper := "pepper"
  accessTokenExpiresIn := 900000
  refreshTokenDays := 30

/-- Passwords kept as they are. -/
def argon2 (hash password : String) : Bool := hash = password

def supply : Supply where
  userId db := .repeated ⟨db.users.rows.length % 16, Nat.mod_lt _ (by decide)⟩
  tokenId db := .repeated ⟨db.refreshTokens.rows.length % 16, Nat.mod_lt _ (by decide)⟩
  bytes db := String.ofList (List.replicate (db.refreshTokens.rows.length + 1) 'r')
  passwordHash password := password

def start : Service := ⟨⟨⟨.empty, .empty⟩, 0, []⟩, []⟩

theorem started : start.Started := ⟨rfl, rfl, rfl⟩

def userId : Uuid := .repeated ⟨0, by decide⟩

def dto : RegisterDto := ⟨"a@b.c", "secret", "A", none⟩

/-- The refresh token of the registration. -/
def token : String := "r"

/-- The moves of a schedule over a service. -/
def plays (service : Service) (moves : List (Process.Move Endpoint)) :
    Option (List (Service × Occurrence) × Service) :=
  service.playAll (handle config) (fun _ => World.answer argon2 supply) moves

theorem plays_run {service service' : Service} {moves : List (Process.Move Endpoint)}
    {trace : List (Service × Occurrence)} (played : plays service moves = some (trace, service')) :
    Runs.Run (Service.Step config argon2 False) service trace service' :=
  Process.Pool.playAll_run (fun _ => Serves argon2 False) answer_serves played

/-- A request from its start to its end, where nothing else goes on. -/
def alone (index awaits : Nat) (endpoint : Endpoint) : List (Process.Move Endpoint) :=
  .start endpoint :: List.replicate awaits (.serve index)

/-- The registration that opens the first session. -/
def registration : List (Process.Move Endpoint) := alone 0 7 (.register dto)

end Sample

end Stellance.Auth
