import Mathlib.Tactic.Push
import Stellance.Auth.Server

/-! The statements of the auth service on the tables: what each finds, what it leaves, and
that no statement takes a row away or a revocation back. -/
namespace Stellance.Auth
open Backend (Uuid UserRole)

variable {db db' : Db} {id key existingId rotatedId userId : Uuid} {row row' : RefreshToken}
  {data : NewToken} {user : User} {token : String} {replacement : Option Uuid}
  {where' : RefreshToken → Bool}

namespace Db

/-! ### One statement -/

theorem createRefreshToken_some (created : db.createRefreshToken id data = some db') :
    (∀ row ∈ db.refreshTokens.rows, row.token ≠ data.token) ∧ (db.users.find data.userId).isSome = true ∧
      db.refreshTokens.insert (.issued id data) = some db'.refreshTokens ∧ db'.users = db.users := by
  simp only [createRefreshToken, Option.bind_eq_bind, Option.bind_eq_some_iff] at created
  obtain ⟨_, possible, refreshTokens, inserted, same⟩ := created
  obtain ⟨free, known⟩ := (Option.guard_eq_some' _).mp possible
  cases same
  exact ⟨free, known, inserted, rfl⟩

theorem createRefreshToken_find (created : db.createRefreshToken id data = some db') (key : Uuid) :
    db'.refreshTokens.find key =
      if id = key then some (.issued id data) else db.refreshTokens.find key :=
  Table.find_insert (createRefreshToken_some created).2.2.1

theorem createRefreshToken_fresh (created : db.createRefreshToken id data = some db') :
    db.refreshTokens.find id = none :=
  (Table.insert_some (createRefreshToken_some created).2.2.1).1

theorem revokeMany_find (key : Uuid) : (db.revokeMany where' replacement).refreshTokens.find key =
    (db.refreshTokens.find key).map fun row =>
      if where' row ∧ row.revoked = false then row.revoke replacement else row := by
  unfold revokeMany
  dsimp only
  rw [Table.find_updateMany]
  simp only [decide_eq_true_eq]

theorem revokeMany_ids : (db.revokeMany where' replacement).refreshTokens.rows.map RefreshToken.id =
    db.refreshTokens.rows.map RefreshToken.id :=
  Table.keys_updateMany (RefreshToken.revoke_id replacement)

theorem createRefreshToken_ids (created : db.createRefreshToken id data = some db') :
    db'.refreshTokens.rows.map RefreshToken.id = db.refreshTokens.rows.map RefreshToken.id ++ [id] := by
  obtain ⟨_, _, inserted, _⟩ := createRefreshToken_some created
  rw [(Table.insert_some inserted).2, List.map_append]
  rfl

theorem unrevoked_key (key : Uuid) : db.unrevoked (·.id = key) =
    if (db.refreshTokens.find key).any (fun row => !row.revoked) then 1 else 0 := by
  have counted := db.refreshTokens.countP_key (fun row => !row.revoked) key
  rw [← counted, unrevoked]
  simp only [decide_eq_true_eq, Bool.not_eq_true']

/-- A rotation that went through, where the old row was there. -/
structure Rotates (db : Db) (row : RefreshToken) (rotatedId : Uuid) (data : NewToken) (db' : Db) : Prop where
  unrevoked : row.revoked = false
  fresh : db.refreshTokens.find rotatedId = none
  free : ∀ row ∈ db.refreshTokens.rows, row.token ≠ data.token
  known : (db.users.find data.userId).isSome = true
  users : db'.users = db.users
  ids : db'.refreshTokens.rows.map RefreshToken.id =
    db.refreshTokens.rows.map RefreshToken.id ++ [rotatedId]
  find : ∀ key, db'.refreshTokens.find key =
    if rotatedId = key then some (.issued rotatedId data)
    else if key = row.id then some (row.revoke (some rotatedId)) else db.refreshTokens.find key

theorem rotate_ok (rotated : db.rotate existingId rotatedId data = some (.ok db'))
    (found : db.refreshTokens.find existingId = some row) : db.Rotates row rotatedId data db' := by
  unfold rotate at rotated
  obtain ⟨created, inserted, outcome⟩ := Option.map_eq_some_iff.mp rotated
  obtain ⟨free, known, _, users⟩ := createRefreshToken_some inserted
  have fresh := createRefreshToken_fresh inserted
  have other : rotatedId ≠ existingId := by
    rintro rfl
    rw [fresh] at found
    contradiction
  have there : created.refreshTokens.find existingId = some row := by
    rw [createRefreshToken_find inserted, if_neg other]
    exact found
  have here : row.id = existingId := Table.key_of_find found
  split at outcome
  · contradiction
  · rename_i counted
    cases outcome
    have unrevoked : row.revoked = false := by
      rw [not_not, unrevoked_key, there] at counted
      simpa using counted
    refine ⟨unrevoked, fresh, free, known, users, ?_, fun key => ?_⟩
    · rw [revokeMany_ids]
      exact createRefreshToken_ids inserted
    · rw [revokeMany_find, createRefreshToken_find inserted]
      by_cases new : rotatedId = key
      · have another : key ≠ existingId := new ▸ other
        simp [new, RefreshToken.issued, another]
      · rw [if_neg new, if_neg new]
        by_cases old : key = existingId
        · subst old
          rw [found, if_pos here.symm]
          simp [here, unrevoked]
        · rw [if_neg (here ▸ old)]
          cases found' : db.refreshTokens.find key with
          | none => rfl
          | some row' =>
            have there' : row'.id = key := Table.key_of_find found'
            simp [there', old]

theorem rotate_users (rotated : db.rotate existingId rotatedId data = some (.ok db')) :
    db'.users = db.users := by
  unfold rotate at rotated
  obtain ⟨created, inserted, outcome⟩ := Option.map_eq_some_iff.mp rotated
  split at outcome
  · contradiction
  · cases outcome
    exact (createRefreshToken_some inserted).2.2.2

theorem rotate_forbidden {error : Failure}
    (raced : db.rotate existingId rotatedId data = some (.error error)) :
    error = .forbidden "Refresh token reuse detected" := by
  unfold rotate at raced
  obtain ⟨created, _, outcome⟩ := Option.map_eq_some_iff.mp raced
  split at outcome
  · cases outcome
    rfl
  · contradiction

/-- A rotation fails on the count where its row is revoked. -/
theorem rotate_error {error : Failure} (raced : db.rotate existingId rotatedId data = some (.error error))
    (found : db.refreshTokens.find existingId = some row) :
    row.revoked = true ∧ error = .forbidden "Refresh token reuse detected" := by
  unfold rotate at raced
  obtain ⟨created, inserted, outcome⟩ := Option.map_eq_some_iff.mp raced
  have other : rotatedId ≠ existingId := by
    rintro rfl
    rw [createRefreshToken_fresh inserted] at found
    contradiction
  split at outcome
  · rename_i counted
    cases outcome
    refine ⟨?_, rfl⟩
    rw [unrevoked_key, createRefreshToken_find inserted, if_neg other, found] at counted
    simpa using counted
  · contradiction

theorem incrementTokenVersion_some (incremented : db.incrementTokenVersion userId = some db') :
    ∃ user, db.users.find userId = some user ∧ db'.users.find userId = some user.logOut ∧
      (∀ key ≠ userId, db'.users.find key = db.users.find key) ∧
      db'.refreshTokens = db.refreshTokens := by
  unfold incrementTokenVersion at incremented
  split at incremented
  · rename_i known
    obtain ⟨user, found⟩ := Option.isSome_iff_exists.mp known
    cases incremented
    refine ⟨user, found, Table.find_modify_self User.logOut_id found, fun key other => ?_, rfl⟩
    exact Table.find_modify_other User.logOut_id other
  · contradiction

theorem createUser_some {made : NewUser} (created : db.createUser id made = some (user, db')) :
    db.users.find user.id = none ∧ user.tokenVersion = 0 ∧ db'.users.find user.id = some user ∧
      (∀ key ≠ user.id, db'.users.find key = db.users.find key) ∧
      db'.refreshTokens = db.refreshTokens := by
  simp only [createUser, Option.bind_eq_bind, Option.bind_eq_some_iff] at created
  obtain ⟨_, _, users, inserted, same⟩ := created
  cases same
  refine ⟨(Table.insert_some inserted).1, rfl, ?_, fun key other => ?_, rfl⟩
  · rw [Table.find_insert inserted, if_pos rfl]
  · rw [Table.find_insert inserted, if_neg (Ne.symm other)]

theorem findRefreshToken_some (found : db.findRefreshToken token = some (row, user)) :
    db.refreshTokens.find row.id = some row ∧ row.token = token ∧ db.users.find row.userId = some user := by
  simp only [findRefreshToken, Option.bind_eq_bind, Option.bind_eq_some_iff] at found
  obtain ⟨row', stored, user', known, same⟩ := found
  cases same
  refine ⟨Table.find_of_mem (List.mem_of_find?_eq_some stored), ?_, known⟩
  simpa using List.find?_some stored

theorem findUserByEmail_some {email : String} (found : db.findUserByEmail email = some user) :
    db.users.find user.id = some user :=
  Table.find_of_mem (List.mem_of_find?_eq_some found)

/-! ### Later states -/

end Db

/-- The row, or the row revoked. -/
def RefreshToken.Later (row row' : RefreshToken) : Prop :=
  row' = row ∨ row.revoked = false ∧ ∃ replacement, row' = row.revoke replacement

/-- The user, logged out some more times. -/
def User.Later (user user' : User) : Prop :=
  ∃ times, user' = { user with tokenVersion := user.tokenVersion + times }

namespace RefreshToken

theorem Later.refl (row : RefreshToken) : row.Later row := .inl rfl

theorem Later.trans {row'' : RefreshToken} (first : row.Later row') (second : row'.Later row'') :
    row.Later row'' := by
  rcases first with rfl | ⟨unrevoked, replacement, rfl⟩
  · exact second
  · rcases second with rfl | ⟨revoked, _⟩
    · exact .inr ⟨unrevoked, replacement, rfl⟩
    · contradiction

/-- What no revocation changes. -/
theorem Later.kept (later : row.Later row') : row'.id = row.id ∧ row'.token = row.token ∧
    row'.userId = row.userId ∧ row'.tokenVersion = row.tokenVersion ∧ row'.expiresAt = row.expiresAt := by
  rcases later with rfl | ⟨_, _, rfl⟩ <;> exact ⟨rfl, rfl, rfl, rfl, rfl⟩

/-- A revoked row is final. -/
theorem Later.final (later : row.Later row') (revoked : row.revoked = true) : row' = row := by
  rcases later with rfl | ⟨unrevoked, _⟩
  · rfl
  · rw [unrevoked] at revoked
    contradiction

end RefreshToken

theorem User.Later.refl (user : User) : user.Later user := ⟨0, rfl⟩

theorem User.Later.trans {user' user'' : User} (first : user.Later user') (second : user'.Later user'') :
    user.Later user'' := by
  obtain ⟨times, rfl⟩ := first
  obtain ⟨more, rfl⟩ := second
  exact ⟨times + more, by simp only [Nat.add_assoc]⟩

theorem User.Later.version {user' : User} (later : user.Later user') :
    user.tokenVersion ≤ user'.tokenVersion := by
  obtain ⟨times, rfl⟩ := later
  exact Nat.le_add_right _ _

/-- Rows and users stay, each as it was or later. -/
structure Db.Grows (db db' : Db) : Prop where
  tokens : ∀ id row, db.refreshTokens.find id = some row →
    ∃ row', db'.refreshTokens.find id = some row' ∧ row.Later row'
  users : ∀ id user, db.users.find id = some user → ∃ user', db'.users.find id = some user' ∧ user.Later user'

namespace Db

theorem Grows.refl (db : Db) : db.Grows db :=
  ⟨fun _ row found => ⟨row, found, .refl row⟩, fun _ user found => ⟨user, found, .refl user⟩⟩

theorem Grows.trans {db'' : Db} (first : db.Grows db') (second : db'.Grows db'') : db.Grows db'' := by
  constructor
  · intro id row found
    obtain ⟨row', found', later⟩ := first.tokens id row found
    obtain ⟨row'', found'', later'⟩ := second.tokens id row' found'
    exact ⟨row'', found'', later.trans later'⟩
  · intro id user found
    obtain ⟨user', found', later⟩ := first.users id user found
    obtain ⟨user'', found'', later'⟩ := second.users id user' found'
    exact ⟨user'', found'', later.trans later'⟩

theorem Grows.of_users (same : db'.users = db.users)
    (tokens : ∀ id row, db.refreshTokens.find id = some row →
      ∃ row', db'.refreshTokens.find id = some row' ∧ row.Later row') : db.Grows db' :=
  ⟨tokens, fun _ user found => ⟨user, same ▸ found, .refl user⟩⟩

theorem Grows.of_tokens (same : db'.refreshTokens = db.refreshTokens)
    (users : ∀ id user, db.users.find id = some user →
      ∃ user', db'.users.find id = some user' ∧ user.Later user') : db.Grows db' :=
  ⟨fun _ row found => ⟨row, same ▸ found, .refl row⟩, users⟩

theorem createRefreshToken_grows (created : db.createRefreshToken id data = some db') : db.Grows db' := by
  refine .of_users (createRefreshToken_some created).2.2.2 fun key row found => ⟨row, ?_, .refl row⟩
  rw [createRefreshToken_find created, if_neg]
  · exact found
  · rintro rfl
    rw [createRefreshToken_fresh created] at found
    contradiction

theorem revokeMany_grows : db.Grows (db.revokeMany where' replacement) := by
  refine .of_users rfl fun key row found => ?_
  rw [revokeMany_find, found]
  refine ⟨_, rfl, ?_⟩
  dsimp only
  split
  · rename_i revokes
    exact .inr ⟨revokes.2, replacement, rfl⟩
  · exact .refl row

theorem rotate_grows (rotated : db.rotate existingId rotatedId data = some (.ok db')) : db.Grows db' := by
  unfold rotate at rotated
  obtain ⟨created, inserted, outcome⟩ := Option.map_eq_some_iff.mp rotated
  split at outcome
  · contradiction
  · cases outcome
    exact (createRefreshToken_grows inserted).trans revokeMany_grows

theorem incrementTokenVersion_grows (incremented : db.incrementTokenVersion userId = some db') :
    db.Grows db' := by
  obtain ⟨user, found, stored, others, tokens⟩ := incrementTokenVersion_some incremented
  refine .of_tokens tokens fun key user' found' => ?_
  by_cases here : key = userId
  · subst here
    obtain rfl := Option.some.inj (found.symm.trans found')
    exact ⟨_, stored, 1, rfl⟩
  · exact ⟨user', (others key here).trans found', .refl user'⟩

theorem createUser_grows {made : NewUser} (created : db.createUser id made = some (user, db')) :
    db.Grows db' := by
  obtain ⟨fresh, _, stored, others, tokens⟩ := createUser_some created
  refine .of_tokens tokens fun key user' found' => ⟨user', ?_, .refl user'⟩
  rw [others key]
  · exact found'
  · rintro rfl
    rw [fresh] at found'
    contradiction

end Db

theorem executes_raced {error : Failure}
    (executed : Executes db (.rotate existingId data) (.error error) db') :
    ∃ rotatedId, db.rotate existingId rotatedId data = some (.error error) := by
  cases executed with
  | raced raced => exact ⟨_, raced⟩

theorem executes_rotated
    (executed : Executes db (.rotate existingId data) (.ok ()) db') :
    ∃ rotatedId, db.rotate existingId rotatedId data = some (.ok db') := by
  cases executed with
  | rotated rotated => exact ⟨_, rotated⟩

theorem executes_revoked (executed : Executes db (.revokeRefreshToken token) (.ok ()) db') :
    db' = db.revokeMany (·.token = token) none := by
  cases executed
  rfl

theorem executes_swept (executed : Executes db (.revokeAll userId) (.ok ()) db') :
    db' = db.revokeMany (·.userId = userId) none := by
  cases executed
  rfl

theorem executes_noUser {error : Failure}
    (executed : Executes db (.incrementTokenVersion userId) (.error error) db') :
    db.users.find userId = none ∧ db' = db ∧ ∃ message, error = .internal message := by
  cases executed with
  | noUser message absent => exact ⟨absent, rfl, message, rfl⟩

theorem executes_grows {op : Op} {answer : Except Failure op.Answer}
    (executed : Executes db op answer db') : db.Grows db' := by
  cases executed with
  | createdUser created => exact Db.createUser_grows created
  | createdToken created => exact Db.createRefreshToken_grows created
  | rotated rotated => exact Db.rotate_grows rotated
  | revoked | revokedAll => exact Db.revokeMany_grows
  | incremented incremented => exact Db.incrementTokenVersion_grows incremented
  | foundUser | refusedUser | foundToken | raced | noUser => exact .refl db

/-! ### Runs -/

variable {config : Config} {argon2 : String → String → Bool} {faults : Prop}
  {service service' start : Service} {occurrence : Occurrence} {trace : List (Service × Occurrence)}

theorem step_grows (step : Service.Step config argon2 faults service occurrence service') :
    service.world.db.Grows service'.world.db := by
  cases step with
  | start => exact .refl _
  | served found answered =>
    cases answered with
    | executed executed => exact executes_grows executed
    | _ => exact .refl _
  | outside around =>
    cases around
    exact .refl _

/-- From one state of a run to any later one. -/
theorem run_grows (run : Runs.Run (Service.Step config argon2 faults) start trace service) :
    start.world.db.Grows service.world.db := by
  induction run with
  | refl => exact .refl _
  | tail _ step ih => exact ih.trans (step_grows step)

end Stellance.Auth
