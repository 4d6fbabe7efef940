import Stellance.Auth.Interpreter
import Stellance.Auth.Roles
import Stellance.Backend.Script
import Stellance.Platform.Server

/-! Who is an admin. Three endpoints are for admins only: to resolve a dispute, to cancel a
contract once it is funded, and to list all users. -/
namespace Stellance
open Backend (Uuid UserRole Address)
open Auth (Identity Endpoint.May Response.Within Tells Makes)
open Process hiding await

/-! ### The guards of the handlers -/

namespace Backend
open ContractsService
variable {config : Config} {endpoint : Endpoint} {id callerId : Uuid} {callerRole : UserRole}
  {dto : ResolveDisputeDto}

/-- What the request does is for admins only. A contract is funded, for the guard of a
cancellation, if it was so when the request read it. -/
inductive AdminOnly : Endpoint → List Exchange → UserRole → Prop where
  | resolveDispute {id : Uuid} {callerRole : UserRole} {dto : ResolveDisputeDto} {told : List Exchange} :
      AdminOnly (.resolveDispute id callerRole dto) told callerRole
  | cancel {id callerId : Uuid} {callerRole : UserRole} {view : ContractView} {later : List Exchange}
      (confirmed : view.escrowTxHash.isSome = true) (started : view.status ≠ .pending) :
      AdminOnly (.cancel id callerId callerRole) (seen id view :: later) callerRole

/-- A request that returns was an admin's, if what it did is for admins only. -/
def Guarded (endpoint : Endpoint) (told : List Exchange) (result : Except Failure Response) : Prop :=
  ∀ response role, result = .ok response → AdminOnly endpoint told role → role = .admin

theorem guarded_error {told : List Exchange} {error : Failure} : Guarded endpoint told (.error error) := by
  intro response role returned
  contradiction

/-- Endpoints that look at no role are for everybody. -/
theorem guarded_open {told : List Exchange} {result : Except Failure Response}
    (unguarded : ∀ told role, ¬ AdminOnly endpoint told role) : Guarded endpoint told result :=
  fun _ role _ only => absurd only (unguarded told role)

theorem resolveDispute_guarded : (handle config (.resolveDispute id callerRole dto)).Follows (fun _ _ => True)
    (Guarded (.resolveDispute id callerRole dto)) [] := by
  apply follows_map
  apply follows_throwIf
  · intro _
    exact guarded_error
  · intro allowed
    have admin : callerRole = .admin := not_not.mp allowed
    apply follows_ends
    intro later result response role _ only
    cases only
    exact admin

theorem cancel_guarded : (handle config (.cancel id callerId callerRole)).Follows (fun _ _ => True)
    (Guarded (.cancel id callerId callerRole)) [] := by
  apply follows_map
  unfold cancel getContractOrThrow
  rw [Process.bind_assoc]
  refine follows_perform trivial (fun _ => guarded_error) fun found => ?_
  refine follows_orThrow (fun _ => guarded_error) fun view read => ?_
  subst read
  refine follows_throwIf (fun _ => guarded_error) fun _ => ?_
  refine follows_throwIf (fun _ => guarded_error) fun _ => ?_
  refine follows_throwIf (fun _ => guarded_error) fun allowed => ?_
  apply follows_ends
  intro later result response role _ only
  cases only with
  | cancel confirmed started =>
    by_contra notAdmin
    exact allowed ⟨confirmed, started, notAdmin⟩

theorem handle_guarded (config : Config) (endpoint : Endpoint) :
    (handle config endpoint).Follows (fun _ _ => True) (Guarded endpoint) [] := by
  cases endpoint with
  | resolveDispute => exact resolveDispute_guarded
  | cancel => exact cancel_guarded
  | _ => exact follows_ends fun later result => guarded_open (by rintro told role ⟨⟩)

end Backend

/-! ### Nobody is let in as an admin -/

namespace Platform

section Runs
variable {τ : Type} {deployment : Deployment τ} {start platform platform' : Platform τ} {event : Event}
  {trace : List (Platform τ × Event)}

/-- Only an admin lists all users. -/
def Listed (request : Identity × Auth.UsersService.Endpoint) : Prop :=
  ∀ page limit, request.2 = .findAll page limit → request.1.role = .admin

theorem users_relies (request : Identity × Auth.UsersService.Endpoint) :
    (Auth.UsersService.handle request).Relies (fun _ _ => True) (fun _ => True) fun _ => Listed request := by
  obtain ⟨identity, endpoint⟩ := request
  cases endpoint with
  | me | updateMe =>
    apply relies_always
    intro _ page limit same
    contradiction
  | findAll page limit =>
    apply relies_map
    apply relies_throwIf
    intro allowed
    have admin : identity.role = .admin := not_not.mp allowed
    exact relies_always fun _ _ _ _ => admin

/-- Nobody is an admin, and nobody was let in as one. -/
structure Adminless (platform : Platform τ) : Prop where
  auth : platform.auth.Within (· ≠ .admin)
  users : ∀ entry ∈ platform.users, entry.1.1.role ≠ .admin ∧
    entry.2.Relies (fun _ _ => True) (fun _ => True) fun _ => Listed entry.1
  contracts : ∀ entry ∈ platform.contracts.running, ∀ role ∈ callerRole entry.1, role ≠ .admin

/-- A registration that asks for the role of an admin gets its row. -/
def SelfMade (platform : Platform τ) (event : Event) : Prop :=
  ∃ index dto rest data user, platform.auth.running[index]? = some (.register dto, rest) ∧
    dto.role = some .admin ∧ event = .auth (.served index (.createUser data) (.ok user))

theorem Adminless.admitted {identity : Identity} (adminless : platform.Adminless)
    (admitted : platform.Admitted identity) : identity.role ≠ .admin := by
  obtain ⟨index, token, found⟩ := admitted
  exact adminless.auth.requests _ (List.mem_of_getElem? found)

theorem auth_adminless {occurrence : Auth.Occurrence} {auth : Auth.Service}
    (step : Auth.Service.Step deployment.secrets deployment.argon2 deployment.faults platform.auth occurrence
      auth) (honest : ¬ SelfMade platform (.auth occurrence)) (within : platform.auth.Within (· ≠ .admin)) :
    auth.Within (· ≠ .admin) := by
  refine Auth.step_within step ?_ within
  rintro index data user rfl admin
  obtain ⟨dto, rest, found, role, _⟩ := Auth.step_makes step within
  refine honest ⟨index, dto, rest, data, user, found, ?_, rfl⟩
  rw [role] at admin
  cases asked : dto.role with
  | none => simp [asked] at admin
  | some asked' => simpa [asked] using admin

theorem users_adminless {usersEvent : UsersEvent} {tables : Auth.UsersService.Tables}
    {running : List UsersRequest}
    (admitted : ∀ request, usersEvent = .start request → platform.Admitted request.1)
    (step : Process.Pool.Step Auth.UsersService.handle (fun _ => Auth.UsersService.Serves) (fun _ _ => False)
      ⟨platform.tables, platform.users⟩ usersEvent ⟨tables, running⟩) (adminless : platform.Adminless) :
    (withAccounts platform.auth tables.accounts).Within (· ≠ .admin) ∧
      ∀ entry ∈ running, entry.1.1.role ≠ .admin ∧
        entry.2.Relies (fun _ _ => True) (fun _ => True) fun _ => Listed entry.1 := by
  refine ⟨⟨⟨fun id user stored => ?_, adminless.auth.world.signed⟩, adminless.auth.requests⟩, ?_⟩
  · obtain ⟨before, known, same⟩ : ∃ before, platform.auth.world.db.users.find id = some before ∧
        before.role = user.role := by
      cases step with
      | start => exact ⟨user, stored, rfl⟩
      | served _ answered => exact Auth.UsersService.serves_role answered stored
      | outside moved => exact moved.elim
    exact same ▸ adminless.auth.world.users id before known
  · refine step.each (fun request rest => request.1.role ≠ .admin ∧
      rest.Relies (fun _ _ => True) (fun _ => True) fun _ => Listed request) ?_ ?_ adminless.users
    · intro request starts
      exact ⟨adminless.admitted (admitted request starts), users_relies request⟩
    · intro _ request op next answer _ _ reliant
      exact ⟨reliant.1, reliant.2.2 answer trivial⟩

theorem contracts_adminless {occurrence : Backend.Occurrence} {contracts : Backend.Service τ}
    (admitted : ∀ endpoint, occurrence = .start endpoint →
      ∃ identity, platform.Admitted identity ∧ PassedOn identity endpoint)
    (step : Backend.Service.Step deployment.host deployment.config deployment.faults platform.contracts
      occurrence contracts) (adminless : platform.Adminless) :
    ∀ entry ∈ contracts.running, ∀ role ∈ callerRole entry.1, role ≠ .admin := by
  refine step.each (fun endpoint _ => ∀ role ∈ callerRole endpoint, role ≠ .admin) ?_
    (fun _ _ _ _ _ _ _ known => known) adminless.contracts
  intro endpoint starts role given
  obtain ⟨identity, letIn, _, passed⟩ := admitted endpoint starts
  exact passed role given ▸ adminless.admitted letIn

/-- Without a registration that asks for it, nobody comes to the role of an admin. -/
theorem step_adminless (step : Step deployment platform event platform') (honest : ¬ SelfMade platform event)
    (adminless : platform.Adminless) : platform'.Adminless := by
  cases step with
  | auth _ step => exact ⟨auth_adminless step honest adminless.auth, adminless.users, adminless.contracts⟩
  | users admitted step =>
    obtain ⟨auth, users⟩ := users_adminless admitted step adminless
    exact ⟨auth, users, adminless.contracts⟩
  | contracts admitted step =>
    exact ⟨adminless.auth, adminless.users, contracts_adminless admitted step adminless⟩

/-! ### The runs -/

/-- Before the first request. Access tokens that were signed earlier name roles of users. -/
structure Started (platform : Platform τ) : Prop where
  auth : platform.auth.running = []
  users : platform.users = []
  contracts : platform.contracts.running = []
  signed : ∀ token ∈ platform.auth.world.signed, ∃ id user,
    platform.auth.world.db.users.find id = some user ∧ user.role = token.payload.role

/-- No user is an admin. -/
def NoAdmin (platform : Platform τ) : Prop :=
  ∀ id user, platform.auth.world.db.users.find id = some user → user.role ≠ .admin

/-- Nothing that is for admins only has been done, in the course of the run that led here. -/
structure Unruled (trace : List (Platform τ × Event)) (platform : Platform τ) : Prop where
  contracts : ∀ (index : Nat) endpoint response role,
    platform.contracts.running[index]? = some (endpoint, .done response) →
      ¬ Backend.AdminOnly endpoint (told index (trace.map seenByContracts)) role
  users : ∀ identity page limit response, ((identity, .findAll page limit), .done response) ∉ platform.users

theorem adminOnly_callerRole {endpoint : Backend.ContractsService.Endpoint} {told : List Backend.Exchange}
    {role : UserRole} (only : Backend.AdminOnly endpoint told role) : role ∈ callerRole endpoint := by
  cases only <;> rfl

theorem Started.adminless (started : start.Started) (noAdmin : start.NoAdmin) : start.Adminless := by
  refine ⟨⟨⟨noAdmin, fun token member => ?_⟩, Pool.relying_idle started.auth⟩, ?_, ?_⟩
  · obtain ⟨id, user, known, same⟩ := started.signed token member
    exact same ▸ noAdmin id user known
  · rw [started.users]
    exact List.forall_mem_nil _
  · rw [started.contracts]
    exact List.forall_mem_nil _

theorem Adminless.unruled (adminless : platform.Adminless)
    (run : Runs.Run (Step deployment) start trace platform) (started : start.Started) :
    Unruled trace platform := by
  constructor
  · intro index endpoint response role found only
    have guarded := run_follows (run_contracts run) started.contracts
      (Backend.handle_guarded deployment.config) found
    have admin : role = .admin := guarded response role rfl only
    exact adminless.contracts _ (List.mem_of_getElem? found) role (adminOnly_callerRole only) admin
  · intro identity page limit response member
    obtain ⟨role, listed⟩ := adminless.users _ member
    exact role (listed page limit rfl)

/-- What is known of the requests whoever the users are. -/
theorem run_sound (run : Runs.Run (Step deployment) start trace platform) (started : start.Started) :
    platform.auth.Within fun _ => True := by
  refine run.invariant (I := fun platform => platform.auth.Within fun _ => True) ?_ ?_
  · intro s l t within step
    cases step with
    | auth _ step => exact Auth.step_within step (fun _ _ _ _ => trivial) within
    | users => exact ⟨⟨fun _ _ _ => trivial, fun _ _ => trivial⟩, within.requests⟩
    | contracts => exact within
  · exact ⟨⟨fun _ _ _ => trivial, fun _ _ => trivial⟩, Pool.relying_idle started.auth⟩

/-- A registration that asks for the role of an admin and gets its row makes one. -/
theorem selfMade_admin (step : Step deployment platform event platform') (selfMade : SelfMade platform event)
    (within : platform.auth.Within fun _ => True) : ¬ platform'.NoAdmin := by
  obtain ⟨index, dto, rest, data, user, found, admin, rfl⟩ := selfMade
  intro noAdmin
  cases step with
  | auth _ step =>
    obtain ⟨dto', rest', found', role, stored⟩ := Auth.step_makes step within
    cases found.symm.trans found'
    refine noAdmin user.id user stored ?_
    rw [role, admin]
    rfl

/-- Nobody is ever an admin, nor does what only admins may, in exactly the runs where no
registration that asks for the role gets its row. -/
theorem no_admins_iff (run : Runs.Run (Step deployment) start trace platform) (started : start.Started)
    (noAdmin : start.NoAdmin) :
    (∀ earlier rest between, trace = earlier ++ rest → Runs.Run (Step deployment) start earlier between →
      Runs.Run (Step deployment) between rest platform → between.NoAdmin ∧ Unruled earlier between) ↔
    ∀ point ∈ trace, ¬ SelfMade point.1 point.2 := by
  constructor
  · intro always point member selfMade
    obtain ⟨earlier, rest, rfl⟩ := List.append_of_mem member
    obtain ⟨before, after, step, later⟩ := run.cut rfl
    have made := selfMade_admin step selfMade (run_sound before started)
    have cut : earlier ++ point :: rest = (earlier ++ [point]) ++ rest := by
      rw [List.append_assoc]
      rfl
    exact made (always _ rest after cut (before.tail step) later).1
  · rintro honest earlier rest between rfl first _
    have adminless : between.Adminless := by
      refine first.invariant_of Adminless (fun platform event => ¬ SelfMade platform event) ?_ ?_
        (started.adminless noAdmin)
      · intro s l t adminless honest step
        exact step_adminless step honest adminless
      · exact fun point member => honest point (List.mem_append_left _ member)
    exact ⟨adminless.auth.world.users, adminless.unruled first started⟩

/-! ### One account -/

/-- What the auth service does on its own it does in the platform, as long as nobody logs
out from everywhere. -/
theorem run_auth (deployment : Deployment τ) (users : List UsersRequest) (contracts : Backend.Service τ)
    {auth auth' : Auth.Service} {history : List (Auth.Service × Auth.Occurrence)}
    (run : Runs.Run (Auth.Service.Step deployment.secrets deployment.argon2 deployment.faults) auth history auth')
    (stays : ∀ point ∈ history, ∀ userId, point.2 ≠ .start (.logoutAll userId)) :
    ∃ trace contracts', Runs.Run (Step deployment) ⟨auth, users, contracts⟩ trace ⟨auth', users, contracts'⟩ ∧
      trace.map (fun point => (point.1.auth, point.2)) =
        history.map (fun point => (point.1, .auth point.2)) := by
  induction run with
  | refl => exact ⟨[], contracts, .refl, rfl⟩
  | @tail history auth' occurrence auth'' run step ih =>
    obtain ⟨trace, contracts', ran, same⟩ := ih fun point member => stays point (List.mem_append_left _ member)
    have open' := stays _ (List.mem_append_right _ List.mem_cons_self)
    have taken : Step deployment ⟨auth', users, contracts'⟩ (.auth occurrence) _ :=
      .auth (fun userId starts => absurd starts (open' userId)) step
    refine ⟨_, _, ran.tail taken, ?_⟩
    rw [List.map_append, List.map_append, same]
    rfl

/-- A query of the only request to the users service. -/
theorem step_query (deployment : Deployment τ) {auth : Auth.Service} {contracts : Backend.Service τ}
    {request : Identity × Auth.UsersService.Endpoint} {op : Auth.UsersService.Op}
    {answer : Except Auth.Failure op.Answer}
    {next : Except Auth.Failure op.Answer → Auth.UsersService.Request Auth.UsersService.Response}
    (answered : Auth.UsersService.Serves ⟨auth.world.db.users, contracts.world.db.users⟩ op answer
      ⟨auth.world.db.users, contracts.world.db.users⟩) :
    Step deployment ⟨auth, [(request, Process.await op next)], contracts⟩ (.users (.served 0 op answer))
      ⟨auth, [(request, next answer)], contracts⟩ := by
  have step : Pool.Step Auth.UsersService.handle (fun _ => Auth.UsersService.Serves) (fun _ _ => False)
      ⟨⟨auth.world.db.users, contracts.world.db.users⟩, [(request, Process.await op next)]⟩ (.served 0 op answer)
      ⟨⟨auth.world.db.users, contracts.world.db.users⟩, [(request, next answer)]⟩ := .served rfl answered
  refine @Step.users τ deployment ⟨auth, [(request, Process.await op next)], contracts⟩ _ _ _ ?_ step
  rintro _ ⟨⟩

/-- Whoever is let in as an admin lists all users. -/
theorem run_listing (deployment : Deployment τ) {auth : Auth.Service} {contracts : Backend.Service τ} {id : Uuid}
    {email : String} (admitted : Admitted ⟨auth, [], contracts⟩ ⟨id, email, .admin⟩) :
    ∃ trace page, Runs.Run (Step deployment) ⟨auth, [], contracts⟩ trace
      ⟨auth, [((⟨id, email, .admin⟩, .findAll none none), .done (.page page))], contracts⟩ := by
  have asked : Step deployment ⟨auth, [], contracts⟩ (.users (.start (⟨id, email, .admin⟩, .findAll none none)))
      ⟨auth, [((⟨id, email, .admin⟩, .findAll none none),
        Auth.UsersService.handle (⟨id, email, .admin⟩, .findAll none none))], contracts⟩ := by
    refine .users ?_ (.start _)
    rintro _ ⟨⟩
    exact admitted
  exact ⟨_, _, ((Runs.Run.single asked).tail (step_query deployment (.listed 0 20))).tail
    (step_query deployment .counted)⟩

end Runs

namespace Sample
open Auth.Sample

def deployment : Deployment (Escrow.Bank Address) :=
  ⟨Backend.Sample.host, Backend.Sample.config, Auth.Sample.config, argon2, False⟩

def contracts : Backend.Service (Escrow.Bank Address) :=
  ⟨{ Backend.Sample.start.world with
      db :=
        { users := .empty, jobs := .empty, contracts := .empty, milestones := .empty, payments := .empty,
          notifications := [] } }, []⟩

def start : Platform (Escrow.Bank Address) := ⟨Auth.Sample.start, [], contracts⟩

theorem started : start.Started := ⟨rfl, rfl, rfl, fun _ signed => nomatch signed⟩

theorem noAdmin : start.NoAdmin := by
  intro id user found
  contradiction

def dto (role : Option UserRole) : Auth.RegisterDto := ⟨"al@ab.io", "secret", "A", role⟩

def identity : Identity := ⟨userId, "al@ab.io", .admin⟩

/-- The access token of a registration as an admin. -/
def access : Auth.AccessToken := ⟨⟨"al@ab.io", userId, .admin, 0, some "access"⟩, 900000⟩

/-- A registration as an admin, and a request with its access token. -/
def takeover : List (Process.Move Auth.Endpoint) :=
  alone 0 7 (.register (dto (some .admin))) ++ alone 1 1 (.authenticate access)

def staysIn (point : Auth.Service × Auth.Occurrence) : Bool :=
  match point.2 with
  | .start (.logoutAll _) => false
  | _ => true

theorem staysIn_all {history : List (Auth.Service × Auth.Occurrence)} (all : history.all staysIn = true) :
    ∀ point ∈ history, ∀ userId, point.2 ≠ .start (.logoutAll userId) := by
  rintro ⟨service, occurrence⟩ member userId rfl
  exact absurd (List.all_eq_true.mp all _ member) Bool.false_ne_true

/-- A registration that gets its row here did not ask for the role of an admin. -/
def honest (point : Auth.Service × Auth.Occurrence) : Bool :=
  match point.2 with
  | .served index (.createUser _) (.ok _) => point.1.running[index]?.all fun entry =>
      match entry.1 with
      | .register dto => dto.role ≠ some .admin
      | _ => true
  | _ => true

theorem honest_all {history : List (Auth.Service × Auth.Occurrence)}
    {trace : List (Platform (Escrow.Bank Address) × Event)} (all : history.all honest = true)
    (same : trace.map (fun point => (point.1.auth, point.2)) =
      history.map fun point => (point.1, .auth point.2)) : ∀ point ∈ trace, ¬ SelfMade point.1 point.2 := by
  rintro ⟨platform, event⟩ member ⟨index, dto, rest, data, user, found, admin, rfl⟩
  have there := same ▸ List.mem_map_of_mem member
  obtain ⟨⟨service, occurrence⟩, member', same⟩ := List.mem_map.mp there
  cases same
  have checked := List.all_eq_true.mp all _ member'
  simp [honest, found, admin] at checked

end Sample

/-- Whoever registers as an admin is one, and lists all users. -/
theorem no_admins_fails : ∃ trace platform, Runs.Run (Step Sample.deployment) Sample.start trace platform ∧
    Sample.start.Started ∧ Sample.start.NoAdmin ∧ ¬ platform.NoAdmin ∧ ¬ Unruled trace platform := by
  have happens : ∃ played, Auth.Sample.plays Auth.Sample.start Sample.takeover = some played ∧
      played.1.all Sample.staysIn = true ∧
      played.2.running[1]? = some (.authenticate Sample.access, .done (.authenticated Sample.identity)) ∧
      (played.2.world.db.users.find Auth.Sample.userId).map Auth.User.role = some .admin :=
    ⟨_, rfl, rfl, rfl, rfl⟩
  obtain ⟨⟨history, auth⟩, plays, stays, authenticated, admin⟩ := happens
  obtain ⟨trace, contracts, run, _⟩ := run_auth Sample.deployment [] Sample.contracts
    (Auth.Sample.plays_run plays) (Sample.staysIn_all stays)
  have admitted : Admitted ⟨auth, [], contracts⟩ Sample.identity := ⟨1, Sample.access, authenticated⟩
  obtain ⟨more, page, listing⟩ := run_listing Sample.deployment admitted
  refine ⟨_, _, run.trans listing, Sample.started, Sample.noAdmin, ?_, ?_⟩
  · intro noAdmin
    obtain ⟨user, stored, role⟩ := Option.map_eq_some_iff.mp admin
    exact noAdmin _ user stored role
  · intro unruled
    exact unruled.users _ none none _ (List.mem_singleton_self _)

/-- Somebody who registers without a role becomes a client, and nobody an admin. -/
theorem no_admins_iff_sample : ∃ trace platform,
    (platform.auth.world.db.users.find Auth.Sample.userId).map Auth.User.role = some .client ∧
    ∀ earlier rest between, trace = earlier ++ rest →
      Runs.Run (Step Sample.deployment) Sample.start earlier between →
      Runs.Run (Step Sample.deployment) between rest platform → between.NoAdmin ∧ Unruled earlier between := by
  have happens : ∃ played, Auth.Sample.plays Auth.Sample.start
        (Auth.Sample.alone 0 7 (.register (Sample.dto none))) = some played ∧
      played.1.all Sample.staysIn = true ∧ played.1.all Sample.honest = true ∧
      (played.2.world.db.users.find Auth.Sample.userId).map Auth.User.role = some .client :=
    ⟨_, rfl, rfl, rfl, rfl⟩
  obtain ⟨⟨history, auth⟩, plays, stays, honest, client⟩ := happens
  obtain ⟨trace, contracts, run, same⟩ := run_auth Sample.deployment [] Sample.contracts
    (Auth.Sample.plays_run plays) (Sample.staysIn_all stays)
  exact ⟨trace, _, client, (no_admins_iff run Sample.started Sample.noAdmin).mpr (Sample.honest_all honest same)⟩

end Platform
end Stellance
