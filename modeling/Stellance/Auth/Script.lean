import Stellance.Library.Transcript
import Stellance.Auth.Server

/-! What the requests do, await by await: which statement rests on which reading, and how a
refresh, a logout and a logout from everywhere can go from their first answer to their last. -/
namespace Stellance.Auth
open AuthService
open Process hiding await
open Backend (Uuid UserRole)

abbrev Exchange := Process.Exchange Failure Op Op.Answer

/-- Operations that look at no table and change none. -/
def Op.Idle : Op → Prop
  | .verifyPassword .. | .hashPassword _ | .now | .randomBytes | .sign .. => True
  | _ => False

/-- The row of a token and its user, as a request has read them. -/
def seen (token : String) (row : RefreshToken) (user : User) : Exchange :=
  ⟨.findRefreshToken token, .ok (some (row, user))⟩

/-- The row may be exchanged at the time given. -/
structure Exchangeable (row : RefreshToken) (user : User) (now : Nat) : Prop where
  unrevoked : row.revoked = false
  unexpired : now < row.expiresAt
  current : user.tokenVersion = row.tokenVersion

/-- The row a rotation asks for. -/
def successor (config : Config) (row : RefreshToken) (user : User) (bytes : String) (now : Nat) :
    NewToken :=
  { token := hashRefreshToken config bytes, userId := row.userId, tokenVersion := user.tokenVersion,
    expiresAt := expiry config now }

/-- What a refresh is told before its rotation. -/
def prepared (token : String) (row : RefreshToken) (user : User) (now : Nat) (bytes : String)
    (later : Nat) : List Exchange :=
  [seen token row user, ⟨.now, .ok now⟩, ⟨.randomBytes, .ok bytes⟩, ⟨.now, .ok later⟩]

/-- What a registration is told before it goes on as a login does. -/
def registering (dto : RegisterDto) (hash : String) (made : NewUser) (user : User) : List Exchange :=
  [⟨.findUserByEmail dto.email, .ok none⟩, ⟨.hashPassword dto.password, .ok hash⟩,
    ⟨.createUser made, .ok user⟩]

/-- What a login is told before it signs. -/
def verifying (email password : String) (user : User) : List Exchange :=
  [⟨.findUserByEmail email, .ok (some user)⟩, ⟨.verifyPassword user.password password, .ok true⟩]

/-- The row is created for the user as read. -/
def NewToken.For (data : NewToken) (user : User) : Prop :=
  data.userId = user.id ∧ data.tokenVersion = user.tokenVersion

inductive Script (config : Config) : Endpoint → List Exchange → Op → Prop where
  | idle {endpoint : Endpoint} {told : List Exchange} {op : Op} (idle : op.Idle)
      (access : ∀ payload expiresIn, op = .sign payload expiresIn → payload.typ = some "access") :
      Script config endpoint told op
  | findLogin {email password : String} : Script config (.login email password) [] (.findUserByEmail email)
  | findRegister {dto : RegisterDto} : Script config (.register dto) [] (.findUserByEmail dto.email)
  | createUser {dto : RegisterDto} {hash : String} {data : NewUser} :
      Script config (.register dto)
        [⟨.findUserByEmail dto.email, .ok none⟩, ⟨.hashPassword dto.password, .ok hash⟩] (.createUser data)
  | registered {dto : RegisterDto} {hash : String} {made : NewUser} {user : User}
      {later : List Exchange} {data : NewToken} (idle : ∀ exchange ∈ later, exchange.1.Idle)
      (own : data.For user) :
      Script config (.register dto) (registering dto hash made user ++ later) (.createRefreshToken data)
  | loggedIn {email password : String} {user : User} {later : List Exchange} {data : NewToken}
      (idle : ∀ exchange ∈ later, exchange.1.Idle) (own : data.For user) :
      Script config (.login email password) (verifying email password user ++ later)
        (.createRefreshToken data)
  | read {refreshToken : String} :
      Script config (.refresh refreshToken) []
        (.findRefreshToken (hashRefreshToken config refreshToken))
  | rotate {refreshToken bytes : String} {row : RefreshToken} {user : User} {now later : Nat}
      (able : Exchangeable row user now) :
      Script config (.refresh refreshToken)
        (prepared (hashRefreshToken config refreshToken) row user now bytes later)
        (.rotate row.id (successor config row user bytes later))
  | reused {refreshToken : String} {row : RefreshToken} {user : User} (revoked : row.revoked = true)
      (replaced : row.replacedByTokenId.isSome = true) :
      Script config (.refresh refreshToken) [seen (hashRefreshToken config refreshToken) row user]
        (.incrementTokenVersion row.userId)
  | raced {refreshToken bytes : String} {row : RefreshToken} {user : User} {now later : Nat}
      {error : Failure} (able : Exchangeable row user now) (forbidden : Failure.isForbidden error = true) :
      Script config (.refresh refreshToken)
        (prepared (hashRefreshToken config refreshToken) row user now bytes later ++
          [⟨.rotate row.id (successor config row user bytes later), .error error⟩])
        (.incrementTokenVersion row.userId)
  | revoke {refreshToken : String} :
      Script config (.revokeRefreshToken refreshToken) []
        (.revokeRefreshToken (hashRefreshToken config refreshToken))
  | logoutAll {userId : Uuid} : Script config (.logoutAll userId) [] (.incrementTokenVersion userId)
  | revokeAll {endpoint : Endpoint} {told : List Exchange} {userId : Uuid} :
      Script config endpoint (told ++ [⟨.incrementTokenVersion userId, .ok ()⟩]) (.revokeAll userId)
  | verify {token : AccessToken} : Script config (.authenticate token) [] (.verifyJwt token)

/-- How a refresh goes, where none of its operations fails for reasons of its own. -/
inductive RefreshLife (config : Config) (refreshToken : String) :
    List Exchange → Except Failure Session → Prop where
  | missing (empty : refreshToken = "") :
      RefreshLife config refreshToken [] (.error (.unauthorized "Missing refresh token"))
  | unknown (given : refreshToken ≠ "") :
      RefreshLife config refreshToken
        [⟨.findRefreshToken (hashRefreshToken config refreshToken), .ok none⟩]
        (.error (.unauthorized "Invalid refresh token"))
  | revoked {row : RefreshToken} {user : User} (given : refreshToken ≠ "") (revoked : row.revoked = true)
      (unreplaced : row.replacedByTokenId = none) :
      RefreshLife config refreshToken [seen (hashRefreshToken config refreshToken) row user]
        (.error (.unauthorized "Refresh token revoked"))
  | reused {row : RefreshToken} {user : User} (given : refreshToken ≠ "") (revoked : row.revoked = true)
      (replaced : row.replacedByTokenId.isSome = true) :
      RefreshLife config refreshToken
        [seen (hashRefreshToken config refreshToken) row user,
          ⟨.incrementTokenVersion row.userId, .ok ()⟩, ⟨.revokeAll row.userId, .ok ()⟩]
        (.error (.forbidden "Refresh token reuse detected"))
  | expired {row : RefreshToken} {user : User} {now : Nat} (given : refreshToken ≠ "")
      (unrevoked : row.revoked = false) (expired : row.expiresAt ≤ now) :
      RefreshLife config refreshToken
        [seen (hashRefreshToken config refreshToken) row user, ⟨.now, .ok now⟩]
        (.error (.unauthorized "Refresh token expired"))
  | outdated {row : RefreshToken} {user : User} {now : Nat} (given : refreshToken ≠ "")
      (unrevoked : row.revoked = false) (unexpired : now < row.expiresAt)
      (outdated : user.tokenVersion ≠ row.tokenVersion) :
      RefreshLife config refreshToken
        [seen (hashRefreshToken config refreshToken) row user, ⟨.now, .ok now⟩]
        (.error (.unauthorized "Refresh token invalid"))
  | rotated {row : RefreshToken} {user : User} {now later : Nat} {bytes : String} {access : AccessToken}
      (given : refreshToken ≠ "") (able : Exchangeable row user now) :
      RefreshLife config refreshToken
        (prepared (hashRefreshToken config refreshToken) row user now bytes later ++
          [⟨.rotate row.id (successor config row user bytes later), .ok ()⟩,
            ⟨.sign (payload user.result) config.accessTokenExpiresIn, .ok access⟩])
        (.ok ⟨access, bytes⟩)
  | raced {row : RefreshToken} {user : User} {now later : Nat} {bytes : String} {error : Failure}
      (given : refreshToken ≠ "") (able : Exchangeable row user now)
      (forbidden : Failure.isForbidden error = true) :
      RefreshLife config refreshToken
        (prepared (hashRefreshToken config refreshToken) row user now bytes later ++
          [⟨.rotate row.id (successor config row user bytes later), .error error⟩,
            ⟨.incrementTokenVersion row.userId, .ok ()⟩, ⟨.revokeAll row.userId, .ok ()⟩])
        (.error error)
  | failed {told : List Exchange} {op : Op} {error : Failure}
      (failed : ∀ existingId data, op = .rotate existingId data → Failure.isForbidden error = false) :
      RefreshLife config refreshToken (told ++ [⟨op, .error error⟩]) (.error error)

/-! ### The requests -/

section Requests
variable {config : Config} {endpoint : Endpoint} {told : List Exchange} {refreshToken : String}

theorem scripted_sign {expiresIn : Nat} (user : SafeUser) :
    Script config endpoint told (.sign (payload user) expiresIn) := by
  refine .idle trivial ?_
  rintro _ _ ⟨⟩
  rfl

theorem logoutAll_follows {ends : List Exchange → Except Failure Unit → Prop} {userId : Uuid}
    (allowed : Script config endpoint told (.incrementTokenVersion userId))
    (returned : ends (told ++ [⟨.incrementTokenVersion userId, .ok ()⟩] ++ [⟨.revokeAll userId, .ok ()⟩])
      (.ok ()))
    (absent : ∀ error, ends (told ++ [⟨.incrementTokenVersion userId, .error error⟩]) (.error error))
    (failed : ∀ error, ends
      (told ++ [⟨.incrementTokenVersion userId, .ok ()⟩] ++ [⟨.revokeAll userId, .error error⟩])
      (.error error)) :
    (logoutAll userId).Follows (Script config endpoint) ends told := by
  unfold logoutAll
  refine follows_perform allowed absent fun _ => ?_
  refine ⟨.revokeAll, fun answer => ?_⟩
  cases answer with
  | ok => exact returned
  | error e => exact failed e

/-- A process that has returned was told exactly this, and one that has failed ends a refresh. -/
def Told (config : Config) (refreshToken : String) (told : List Exchange)
    (later : List Exchange) (result : Except Failure Unit) : Prop :=
  (result = .ok () → later = told) ∧
    ∀ error, result = .error error → RefreshLife config refreshToken later (.error error)

theorem logoutAll_told {userId : Uuid}
    (allowed : Script config (.refresh refreshToken) told (.incrementTokenVersion userId)) :
    (logoutAll userId).Follows (Script config (.refresh refreshToken))
      (Told config refreshToken
        (told ++ [⟨.incrementTokenVersion userId, .ok ()⟩, ⟨.revokeAll userId, .ok ()⟩])) told := by
  apply logoutAll_follows allowed
  · refine ⟨fun _ => ?_, nofun⟩
    rw [List.append_assoc]
    rfl
  · refine fun error => ⟨nofun, fun e same => ?_⟩
    cases same
    exact .failed nofun
  · refine fun error => ⟨nofun, fun e same => ?_⟩
    cases same
    exact .failed nofun

theorem rotateOrLogoutAll_told {row : RefreshToken} {user : User} {now later : Nat} {bytes : String}
    (given : refreshToken ≠ "") (able : Exchangeable row user now) :
    (rotateOrLogoutAll row (successor config row user bytes later)).Follows
      (Script config (.refresh refreshToken))
      (Told config refreshToken
        (prepared (hashRefreshToken config refreshToken) row user now bytes later ++
          [⟨.rotate row.id (successor config row user bytes later), .ok ()⟩]))
      (prepared (hashRefreshToken config refreshToken) row user now bytes later) := by
  unfold rotateOrLogoutAll
  refine follows_tryCatch (B := fun told result => told =
    prepared (hashRefreshToken config refreshToken) row user now bytes later ++
      [⟨.rotate row.id (successor config row user bytes later), result⟩]) ?_ ?_ ?_
  · refine ⟨.rotate able, fun answer => ?_⟩
    cases answer <;> rfl
  · rintro told ⟨⟩ rfl
    exact ⟨fun _ => rfl, nofun⟩
  · rintro told error rfl
    dsimp only
    split
    · rename_i forbidden
      refine follows_bind (logoutAll_told (.raced able forbidden)) (fun told e failed => ?_) ?_
      · exact ⟨nofun, failed.2⟩
      · rintro told ⟨⟩ returned
        refine ⟨nofun, fun e same => ?_⟩
        cases same
        rw [returned.1 rfl, List.append_assoc]
        exact .raced given able forbidden
    · rename_i other
      refine ⟨nofun, fun e same => ?_⟩
      cases same
      exact .failed fun _ _ _ => by simpa using other

theorem refresh_follows :
    (refresh config refreshToken).Follows (Script config (.refresh refreshToken))
      (RefreshLife config refreshToken) [] := by
  unfold refresh
  refine follows_throwIf .missing fun given => ?_
  refine follows_perform .read (fun e => .failed nofun) fun found => ?_
  refine follows_orThrow (fun none => ?_) ?_
  · rw [none]
    exact .unknown given
  rintro ⟨existing, user⟩ rfl
  dsimp only
  split
  · rename_i revoked
    split
    · rename_i replaced
      refine follows_bind (logoutAll_told (.reused revoked replaced)) (fun told e failed => failed.2 e rfl) ?_
      rintro told ⟨⟩ returned
      rw [returned.1 rfl]
      exact .reused given revoked replaced
    · rename_i unreplaced
      exact .revoked given revoked (by simpa using unreplaced)
  · rename_i unrevoked
    have unrevoked : existing.revoked = false := by simpa using unrevoked
    refine follows_perform (.idle trivial nofun) (fun e => .failed nofun) fun now => ?_
    refine follows_throwIf (fun expired => .expired given unrevoked expired) fun unexpired => ?_
    have unexpired : now < existing.expiresAt := Nat.lt_of_not_le unexpired
    refine follows_throwIf (fun outdated => .outdated given unrevoked unexpired outdated) fun current => ?_
    have able : Exchangeable existing user now := ⟨unrevoked, unexpired, not_not.mp current⟩
    refine follows_perform (.idle trivial nofun) (fun e => .failed nofun) fun bytes => ?_
    refine follows_perform (.idle trivial nofun) (fun e => .failed nofun) fun later => ?_
    refine follows_bind (rotateOrLogoutAll_told given able) (fun told e failed => failed.2 e rfl) ?_
    rintro told ⟨⟩ returned
    rw [returned.1 rfl]
    refine follows_perform (scripted_sign user.result) (fun e => .failed nofun) fun access => ?_
    rw [List.append_assoc]
    exact .rotated given able

/-- The tokens of a login carry the version the user had when it was read. -/
theorem login_follows {user : User}
    (allowed : ∀ later data, (∀ exchange ∈ later, exchange.1.Idle) → data.For user →
      Script config endpoint (told ++ later) (.createRefreshToken data)) :
    (login config user.result).Follows (Script config endpoint) (fun _ _ => True) told := by
  unfold login
  refine follows_perform (scripted_sign user.result) (fun _ => trivial) fun access => ?_
  refine follows_perform (.idle trivial nofun) (fun _ => trivial) fun bytes => ?_
  refine follows_perform (.idle trivial nofun) (fun _ => trivial) fun now => ?_
  refine follows_perform ?_ (fun _ => trivial) fun _ => trivial
  rw [List.append_assoc, List.append_assoc]
  refine allowed _ _ ?_ ⟨rfl, rfl⟩
  intro exchange member
  simp only [List.cons_append, List.nil_append, List.mem_cons, List.not_mem_nil, or_false] at member
  rcases member with rfl | rfl | rfl <;> trivial

/-- How the requests end, after what they were told. -/
def Ends (config : Config) : Endpoint → List Exchange → Except Failure Response → Prop
  | .refresh refreshToken, told, result =>
      ∃ session, RefreshLife config refreshToken told session ∧ result = session.map .session
  | .revokeRefreshToken refreshToken, told, result =>
      (refreshToken = "" ∧ told = [] ∧ result = .ok .done) ∨
      ∃ answer, refreshToken ≠ "" ∧
        told = [⟨.revokeRefreshToken (hashRefreshToken config refreshToken), answer⟩] ∧
        result = answer.map fun _ => .done
  | .logoutAll userId, told, result =>
      told = [⟨.incrementTokenVersion userId, .ok ()⟩, ⟨.revokeAll userId, .ok ()⟩] ∧
        result = .ok .done ∨
      ∃ error, result = .error error ∧ (told = [⟨.incrementTokenVersion userId, .error error⟩] ∨
        told = [⟨.incrementTokenVersion userId, .ok ()⟩, ⟨.revokeAll userId, .error error⟩])
  | .authenticate token, told, result =>
      ∃ answer, told = [⟨.verifyJwt token, answer⟩] ∧
        (token.payload.typ = some "access" → result = answer.map fun _ =>
          .authenticated ⟨token.payload.sub, token.payload.email, token.payload.role⟩)
  | .register _, _, _ | .login .., _, _ => True

/-- Who logs in was found by the email given. -/
theorem validate_follows {email password : String} :
    (LocalStrategy.validate email password).Follows (Script config (.login email password))
      (fun told result => ∀ safe, result = .ok safe →
        ∃ user : User, told = verifying email password user ∧ user.result = safe) [] := by
  unfold LocalStrategy.validate
  refine follows_bind (B := fun told result => ∀ safe, result = .ok (some safe) →
    ∃ user : User, told = verifying email password user ∧ user.result = safe) ?_
    (fun _ _ _ => nofun) ?_
  · unfold validateUser
    refine follows_perform .findLogin (fun _ => nofun) fun found => ?_
    cases found with
    | none => exact nofun
    | some user =>
      refine follows_perform (.idle trivial nofun) (fun _ => nofun) fun verified => ?_
      intro safe same
      cases verified with
      | false => cases same
      | true =>
        cases same
        exact ⟨user, rfl, rfl⟩
  · intro told found known
    cases found with
    | none => exact nofun
    | some user =>
      intro safe same
      cases same
      exact known user rfl

theorem handle_follows (config : Config) (endpoint : Endpoint) :
    (handle config endpoint).Follows (Script config endpoint) (Ends config endpoint) [] := by
  cases endpoint with
  | register dto =>
    apply follows_map
    unfold register
    refine follows_perform .findRegister (fun _ => trivial) fun existing => ?_
    refine follows_throwIf (fun _ => trivial) fun absent => ?_
    obtain rfl : existing = none := by simpa using absent
    refine follows_perform (.idle trivial nofun) (fun _ => trivial) fun hash => ?_
    refine follows_perform .createUser (fun _ => trivial) fun user => ?_
    refine follows_bind (login_follows ?_) (fun _ _ _ => trivial) fun _ _ _ => trivial
    exact fun later data idle own => .registered idle own
  | login email password =>
    apply follows_map
    refine follows_bind validate_follows (fun _ _ _ => trivial) ?_
    intro told safe found
    obtain ⟨user, rfl, rfl⟩ := found safe rfl
    apply login_follows
    exact fun later data idle own => .loggedIn idle own
  | refresh refreshToken =>
    apply follows_map
    exact refresh_follows.mono fun told session life => ⟨session, life, rfl⟩
  | revokeRefreshToken refreshToken =>
    apply follows_map
    unfold revokeRefreshToken
    split
    · rename_i empty
      exact .inl ⟨empty, rfl, rfl⟩
    · rename_i given
      refine ⟨.revoke, fun answer => ?_⟩
      cases answer <;> exact .inr ⟨_, given, rfl, rfl⟩
  | logoutAll userId =>
    apply follows_map
    refine logoutAll_follows .logoutAll (.inl ⟨rfl, rfl⟩) ?_ ?_
    · exact fun error => .inr ⟨error, rfl, .inl rfl⟩
    · exact fun error => .inr ⟨error, rfl, .inr rfl⟩
  | authenticate token =>
    apply follows_map
    refine follows_perform .verify (fun e => ⟨.error e, rfl, fun _ => rfl⟩) fun _ => ?_
    unfold JwtStrategy.validate
    refine follows_throwIf (fun bad => ⟨.ok (), rfl, fun access => ?_⟩) fun good => ⟨.ok (), rfl, fun _ => rfl⟩
    rw [access] at bad
    simp at bad

end Requests

end Stellance.Auth
