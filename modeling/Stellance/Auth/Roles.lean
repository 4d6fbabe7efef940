import Stellance.Library.Reliance
import Stellance.Auth.Database

/-! Where roles come from. A role is written once, by the registration that asks for it;
it is signed into every access token of the user and taken from there into every request. -/
namespace Stellance.Auth
open AuthService
open Process hiding await
open Backend (Uuid UserRole)

/-- The users have roles among these, and so have the access tokens. -/
structure World.Within (roles : UserRole → Prop) (w : World) : Prop where
  users : ∀ id user, w.db.users.find id = some user → roles user.role
  signed : ∀ token ∈ w.signed, roles token.payload.role

/-- The answer that makes a user with this role. -/
def Makes (role : UserRole) : (op : Op) → Except Failure op.Answer → Prop
  | .createUser _, .ok user => user.role = role
  | _, _ => False

/-- The answer tells of these roles only. -/
def Tells (roles : UserRole → Prop) : (op : Op) → Except Failure op.Answer → Prop
  | .findUserByEmail _, .ok found => ∀ user ∈ found, roles user.role
  | .createUser _, .ok user => roles user.role
  | .findRefreshToken _, .ok found => ∀ pair ∈ found, roles pair.2.role
  | .verifyJwt token, .ok () => roles token.payload.role
  | _, _ => True

/-- Roles are signed among these, and a user is made with the role it registers with. -/
def Endpoint.May (roles : UserRole → Prop) (endpoint : Endpoint) : Op → Prop
  | .sign payload _ => roles payload.role
  | .createUser data => ∃ dto, endpoint = .register dto ∧ data.role = dto.role.getD .client
  | _ => True

/-- An identity has one of these roles. -/
def Response.Within (roles : UserRole → Prop) : Response → Prop
  | .authenticated identity => roles identity.role
  | .registered .. | .session _ | .done => True

/-! ### The requests -/

section Requests
variable {config : Config} {endpoint : Endpoint} {roles : UserRole → Prop}

theorem login_relies {user : SafeUser} (within : roles user.role) :
    (login config user).Relies (Tells roles) (endpoint.May roles) fun _ => True := by
  unfold login
  refine relies_perform within fun access _ => ?_
  refine relies_perform trivial fun bytes _ => ?_
  refine relies_perform trivial fun now _ => ?_
  exact relies_perform trivial fun _ _ => trivial

theorem validateUser_relies {email password : String} :
    (validateUser email password).Relies (Tells roles) (endpoint.May roles)
      fun found => ∀ user ∈ found, roles user.role := by
  unfold validateUser
  refine relies_perform trivial fun found within => ?_
  cases found with
  | none => simp [pure, Relies]
  | some user =>
    refine relies_perform trivial fun verified _ safe member => ?_
    split at member
    · cases member
      exact within user rfl
    · contradiction

theorem logoutAll_relies {userId : Uuid} :
    (logoutAll userId).Relies (Tells roles) (endpoint.May roles) fun _ => True := by
  unfold logoutAll
  refine relies_perform trivial fun _ _ => ?_
  exact relies_last trivial fun _ _ => trivial

theorem rotateOrLogoutAll_relies {row : RefreshToken} {data : NewToken} :
    (rotateOrLogoutAll row data).Relies (Tells roles) (endpoint.May roles) fun _ => True := by
  unfold rotateOrLogoutAll
  refine relies_tryCatch (relies_last trivial fun _ _ => trivial) fun e => ?_
  dsimp only
  split
  · exact relies_bind logoutAll_relies fun _ _ => trivial
  · trivial

theorem refresh_relies {refreshToken : String} :
    (refresh config refreshToken).Relies (Tells roles) (endpoint.May roles) fun _ => True := by
  unfold refresh
  refine relies_throwIf fun _ => ?_
  refine relies_perform trivial fun found within => ?_
  refine relies_orThrow fun pair known => ?_
  obtain ⟨existing, user⟩ := pair
  dsimp only
  split
  · split
    · exact relies_bind logoutAll_relies fun _ _ => trivial
    · trivial
  · refine relies_perform trivial fun now _ => ?_
    refine relies_throwIf fun _ => relies_throwIf fun _ => ?_
    refine relies_perform trivial fun bytes _ => ?_
    refine relies_perform trivial fun later _ => ?_
    refine relies_bind rotateOrLogoutAll_relies fun _ _ => ?_
    have role : roles user.role := within _ known
    exact relies_perform role fun _ _ => trivial

theorem authenticate_relies {token : AccessToken} :
    (handle config (.authenticate token)).Relies (Tells roles) (endpoint.May roles) (Response.Within roles) := by
  apply relies_map
  refine relies_perform trivial fun _ within => ?_
  unfold JwtStrategy.validate
  exact relies_throwIf fun _ => within

/-- No request comes to a role that it was not told of, but a registration. -/
theorem handle_relies (config : Config) (endpoint : Endpoint) (roles : UserRole → Prop) :
    (handle config endpoint).Relies (Tells roles) (endpoint.May roles) (Response.Within roles) := by
  cases endpoint with
  | register dto =>
    apply relies_map
    unfold register
    refine relies_perform trivial fun existing _ => ?_
    refine relies_throwIf fun _ => ?_
    refine relies_perform trivial fun hash _ => ?_
    refine relies_perform ⟨dto, rfl, rfl⟩ fun user within => ?_
    exact relies_bind (login_relies within) fun _ _ => trivial
  | login email password =>
    apply relies_map
    refine relies_bind (relies_bind validateUser_relies fun found within => ?_) fun user within =>
      (login_relies within).mono fun _ _ => trivial
    exact relies_value fun user known => within user known
  | refresh refreshToken => exact relies_map (refresh_relies.mono fun _ _ => trivial)
  | revokeRefreshToken refreshToken =>
    apply relies_map
    unfold revokeRefreshToken
    split
    · trivial
    · exact relies_last trivial fun _ _ => trivial
  | logoutAll userId => exact relies_map (logoutAll_relies.mono fun _ _ => trivial)
  | authenticate token => exact authenticate_relies

end Requests

/-! ### The tables -/

section Tables
variable {db db' : Db} {w w' : World} {op : Op} {answer : Except Failure op.Answer}
  {argon2 : String → String → Bool} {faults : Prop} {endpoint : Endpoint} {roles : UserRole → Prop}

/-- After a statement a user has the role from before, unless the statement makes the user. -/
theorem executes_role {id : Uuid} {user : User} (executed : Executes db op answer db')
    (found : db'.users.find id = some user) :
    (∃ before, db.users.find id = some before ∧ before.role = user.role) ∨ Makes user.role op answer := by
  cases executed with
  | @createdUser data _ made _ created =>
    obtain ⟨_, _, stored, others, _⟩ := Db.createUser_some created
    by_cases here : id = made.id
    · subst here
      obtain rfl := Option.some.inj (stored.symm.trans found)
      exact .inr rfl
    · exact .inl ⟨user, (others id here).symm.trans found, rfl⟩
  | createdToken created =>
    exact .inl ⟨user, (Db.createRefreshToken_some created).2.2.2 ▸ found, rfl⟩
  | rotated rotated => exact .inl ⟨user, Db.rotate_users rotated ▸ found, rfl⟩
  | @incremented userId _ incremented =>
    obtain ⟨old, known, stored, others, _⟩ := Db.incrementTokenVersion_some incremented
    by_cases here : id = userId
    · subst here
      obtain rfl := Option.some.inj (stored.symm.trans found)
      exact .inl ⟨old, known, rfl⟩
    · exact .inl ⟨user, (others id here).symm.trans found, rfl⟩
  | _ => exact .inl ⟨user, found, rfl⟩

theorem executes_tells (executed : Executes db op answer db')
    (users : ∀ id user, db.users.find id = some user → roles user.role)
    (makes : ∀ role, Makes role op answer → roles role) : Tells roles op answer := by
  cases executed with
  | foundUser email => exact fun user found => users _ _ (Db.findUserByEmail_some found)
  | createdUser => exact makes _ rfl
  | foundToken token => exact fun pair found => users _ _ (Db.findRefreshToken_some found).2.2
  | _ => trivial

/-- An answer keeps the world within roles and tells of no others, unless it makes one. -/
theorem serves_within (served : Serves argon2 faults w op answer w') (within : w.Within roles)
    (may : endpoint.May roles op) (makes : ∀ role, Makes role op answer → roles role) :
    w'.Within roles ∧ Tells roles op answer := by
  cases served with
  | executed executed =>
    refine ⟨⟨fun id user found => ?_, within.signed⟩, executes_tells executed within.users makes⟩
    rcases executes_role executed found with ⟨before, known, same⟩ | made
    · exact same ▸ within.users id before known
    · exact makes _ made
  | signed payload expiresIn =>
    refine ⟨⟨within.users, fun token member => ?_⟩, trivial⟩
    rcases List.mem_append.mp member with earlier | new
    · exact within.signed token earlier
    · obtain rfl := List.mem_singleton.mp new
      exact may
  | accepted genuine => exact ⟨within, within.signed _ genuine⟩
  | faulted => exact ⟨within, by cases op <;> trivial⟩
  | _ => exact ⟨within, trivial⟩

/-- A user is made with the role asked for. -/
theorem executes_makes {data : NewUser} {user : User} (executed : Executes db (.createUser data) (.ok user) db') :
    user.role = data.role ∧ db'.users.find user.id = some user := by
  cases executed with
  | createdUser created =>
    have stored := (Db.createUser_some created).2.2.1
    simp only [Db.createUser, Option.bind_eq_bind, Option.bind_eq_some_iff] at created
    obtain ⟨_, _, _, _, same⟩ := created
    cases same
    exact ⟨rfl, stored⟩

theorem serves_makes {data : NewUser} {user : User}
    (served : Serves argon2 faults w (.createUser data) (.ok user) w') :
    user.role = data.role ∧ w'.db.users.find user.id = some user := by
  cases served with
  | executed executed => exact executes_makes executed

end Tables

/-! ### The service -/

section Service
variable {config : Config} {argon2 : String → String → Bool} {faults : Prop} {service service' : Service}
  {occurrence : Occurrence} {roles : UserRole → Prop}

/-- The world is within roles, and every request relies on it. -/
structure Service.Within (roles : UserRole → Prop) (service : Service) : Prop where
  world : service.world.Within roles
  requests : service.Relying (Tells roles) (Endpoint.May roles) fun _ => Response.Within roles

/-- A registration that gets its row makes a user with the role it asks for. -/
theorem step_makes {index : Nat} {data : NewUser} {user : User}
    (step : Service.Step config argon2 faults service (.served index (.createUser data) (.ok user)) service')
    (within : service.Within roles) : ∃ dto rest,
      service.running[index]? = some (.register dto, rest) ∧ user.role = dto.role.getD .client ∧
        service'.world.db.users.find user.id = some user := by
  obtain ⟨endpoint, next, found, dto, rfl, asked⟩ := step.allowed within.requests
  cases step with
  | served _ answered =>
    obtain ⟨made, stored⟩ := serves_makes answered
    exact ⟨dto, _, found, made.trans asked, stored⟩

/-- Only a new user can bring in a new role. -/
theorem step_within (step : Service.Step config argon2 faults service occurrence service')
    (made : ∀ index data user, occurrence = .served index (.createUser data) (.ok user) → roles user.role)
    (within : service.Within roles) : service'.Within roles := by
  have served : ∀ index op answer, occurrence = .served index op answer →
      service'.world.Within roles ∧ Tells roles op answer := by
    rintro index op answer rfl
    obtain ⟨endpoint, next, _, may⟩ := step.allowed within.requests
    have makes : ∀ role, Makes role op answer → roles role := by
      intro role makes
      cases op with
      | createUser data =>
        cases answer with
        | ok user => exact makes ▸ made index data user rfl
        | error => contradiction
      | _ => contradiction
    cases step with
    | served _ answered => exact serves_within answered within.world may makes
  refine ⟨?_, step.relying (fun request _ => handle_relies config request roles)
    (fun index op answer event => (served index op answer event).2) within.requests⟩
  cases step with
  | start => exact within.world
  | @served _ _ index _ op _ answer => exact (served index op answer rfl).1
  | outside around =>
    cases around with
    | passes => exact ⟨within.world.users, within.world.signed⟩

end Service
end Stellance.Auth
