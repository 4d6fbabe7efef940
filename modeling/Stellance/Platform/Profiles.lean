import Stellance.Library.Reliance
import Stellance.Backend.Readings
import Stellance.Backend.Vacancy
import Stellance.Platform.Admins

/-! Whose keys they are. The funding transaction that a client is given to sign names the
Stellar keys of both parties, as the contracts service finds them in the user table; only the
users service writes them there, and only for the user who asks. -/
namespace Stellance
open Backend (Uuid Address)
open Auth (Identity)
open Process hiding await

/-! ### The offer of a funding transaction -/

namespace Backend
open ContractsService EscrowService

/-- The call that is offered names the keys the request has read, and the contract it has made. -/
inductive Offers (clientId : Uuid) (dto : CreateContractDto) (told : List Exchange) (view : ContractView) :
    ChainCall → Prop where
  | fund {id : Uuid} {client freelancer : User} {clientKey freelancerKey admin token : Address} {amount : Escrow.I128}
      (client' : (⟨.query (.user clientId), .ok (some client)⟩ : Exchange) ∈ told)
      (freelancer' : (⟨.query (.user dto.freelancerId), .ok (some freelancer)⟩ : Exchange) ∈ told)
      (clientKey' : client.stellarPublicKey = some clientKey)
      (freelancerKey' : freelancer.stellarPublicKey = some freelancerKey)
      (read : (⟨.query (.contract id), .ok (some view)⟩ : Exchange) ∈ told) :
      Offers clientId dto told view (.fund id.symbol clientKey freelancerKey admin amount token)

/-- The terms of a funding transaction. -/
def Funds (id : Uuid) (client freelancer : User) (call : ChainCall) : Prop :=
  ∃ clientKey freelancerKey admin amount token, client.stellarPublicKey = some clientKey ∧
    freelancer.stellarPublicKey = some freelancerKey ∧
    call = .fund id.symbol clientKey freelancerKey admin amount token

section Offer
variable {config : Config} {told : List Exchange} {contract : Contract} {client freelancer : User}
  {total : config.numbers.Num}

theorem fundXdr_funds : (fundXdr config contract client freelancer total).Follows (fun _ _ => True)
    (fun later result => (∀ exchange ∈ told, exchange ∈ later) ∧
      ∀ call, result = .ok (some call) → Funds contract.id client freelancer call) told := by
  unfold fundXdr
  split
  · rename_i clientKey freelancerKey ofClient ofFreelancer
    refine follows_tryCatch (B := fun later result => (∀ exchange ∈ told, exchange ∈ later) ∧
      ∀ call, result = .ok (some call) → Funds contract.id client freelancer call) ?_ ?_ ?_
    · refine follows_orThrow (fun _ => ⟨fun _ member => member, fun _ => nofun⟩) fun admin _ => ?_
      refine follows_orThrow (fun _ => ⟨fun _ member => member, fun _ => nofun⟩) fun stroops _ => ?_
      unfold buildFundXdr i128
      rw [Process.bind_assoc]
      refine follows_orThrow (fun _ => ⟨fun _ member => member, fun _ => nofun⟩) fun amount _ => ?_
      rw [Process.bind_assoc]
      refine follows_perform trivial (fun _ => ⟨fun _ member => List.mem_append_left _ member, fun _ => nofun⟩) fun _ => ?_
      refine ⟨fun _ member => List.mem_append_left _ member, ?_⟩
      rintro call ⟨⟩
      exact ⟨clientKey, freelancerKey, admin, amount, _, (Option.filter_eq_some_iff.mp ofClient).1,
        (Option.filter_eq_some_iff.mp ofFreelancer).1, rfl⟩
    · exact fun _ _ kept => kept
    · exact fun _ _ kept => ⟨kept.1, fun _ => nofun⟩
  · exact ⟨fun _ member => member, fun _ => nofun⟩

theorem create_offers {clientId : Uuid} {dto : CreateContractDto} :
    (handle config (.create clientId dto)).Follows (fun _ _ => True) (fun told result => ∀ view call,
      result = .ok (.created view (some call)) → Offers clientId dto told view call) [] := by
  apply follows_map
  unfold create
  refine follows_perform trivial (fun _ _ _ => nofun) fun found => ?_
  refine follows_orThrow (fun _ _ _ => nofun) ?_
  rintro ⟨job, existing⟩ _
  refine follows_throwIf (fun _ _ _ => nofun) fun _ => ?_
  refine follows_throwIf (fun _ _ _ => nofun) fun _ => ?_
  refine follows_throwIf (fun _ _ _ => nofun) fun _ => ?_
  refine follows_perform trivial (fun _ _ _ => nofun) fun freelancer => ?_
  refine follows_orThrow (fun _ _ _ => nofun) ?_
  rintro freelancer rfl
  refine follows_perform trivial (fun _ _ _ => nofun) fun client => ?_
  refine follows_orThrow (fun _ _ _ => nofun) ?_
  rintro client rfl
  refine follows_throwIf (fun _ _ _ => nofun) fun _ => ?_
  refine follows_perform trivial (fun _ _ _ => nofun) fun contract => ?_
  refine follows_perform trivial (fun _ _ _ => nofun) fun _ => ?_
  refine follows_bind fundXdr_funds (fun _ _ _ _ _ => nofun) ?_
  rintro later offered ⟨kept, funds⟩
  unfold findOne getContractOrThrow
  rw [Process.bind_assoc, Process.bind_assoc]
  refine follows_perform trivial (fun _ _ _ => nofun) fun read => ?_
  refine follows_orThrow (fun _ _ _ => nofun) ?_
  rintro full rfl
  rw [Process.bind_assoc]
  refine follows_throwIf (fun _ _ _ => nofun) fun _ => ?_
  rintro view call same
  cases same
  obtain ⟨clientKey, freelancerKey, admin, amount, token, ofClient, ofFreelancer, rfl⟩ := funds call rfl
  refine .fund ?_ ?_ ofClient ofFreelancer (List.mem_append_right _ List.mem_cons_self)
  · exact List.mem_append_left _ (kept _ (by simp))
  · exact List.mem_append_left _ (kept _ (by simp))

/-- The contracts service writes no users. -/
theorem serves_users {τ : Type} {host : Escrow.Host Address τ} {faults : Prop} {w w' : World τ} {index : Nat} {op : Op}
    {answer : Except Failure op.Answer} (served : Serves host faults index w op answer w') :
    w'.db.users = w.db.users := by
  cases served with
  | created created => exact (Db.create_users created).1
  | contractUpdated updated | milestoneUpdated updated => exact (Db.execute_pairs updated).users
  | committed executed => exact (Db.executeAll_pairs executed).users
  | _ => rfl

end Offer
end Backend

/-! ### The keys of the user table -/

namespace Platform
variable {τ : Type}

/-- The user has asked for the key, with a token that was accepted. -/
inductive SetsKey (platform : Platform τ) (userId : Uuid) (key : String) : Prop where
  | intro {index : Nat} {identity : Identity} {dto : Auth.UpdateProfileDto}
      {rest : Auth.UsersService.Request Auth.UsersService.Response}
      (asked : platform.users[index]? = some ((identity, .updateMe dto), rest))
      (admitted : platform.Admitted identity) (own : identity.id = userId)
      (given : dto.stellarPublicKey = some (some key))

/-- The modules around these services write no users. -/
def ClosedStep (deployment : Deployment τ) (platform : Platform τ) (event : Event) (platform' : Platform τ) : Prop :=
  Step deployment platform event platform' ∧ (event = .contracts .outside →
    platform'.contracts.world.db.users = platform.contracts.world.db.users)

/-- Before the first request, when nobody has a key. -/
structure Keyless (platform : Platform τ) : Prop where
  users : platform.users = []
  contracts : platform.contracts.running = []
  keys : ∀ id user, platform.contracts.world.db.users.find id = some user → user.stellarPublicKey = none

/-- An update is what the request asks for. -/
def Asks (request : Identity × Auth.UsersService.Endpoint) : Auth.UsersService.Op → Prop
  | .update id name key => id = request.1.id ∧
      ∃ dto, request.2 = .updateMe dto ∧ name = dto.name ∧ key = dto.stellarPublicKey
  | _ => True

/-- Requests are of users who were let in, and every key was asked for by its owner. -/
structure OwnKeys (platform : Platform τ) : Prop where
  requests : ∀ entry ∈ platform.users, platform.Admitted entry.1.1 ∧
    entry.2.Relies (fun _ _ => True) (Asks entry.1) fun _ => True
  keys : ∀ id user key, platform.contracts.world.db.users.find id = some user →
    user.stellarPublicKey = some key → platform.SetsKey id key

section Runs
variable {deployment : Deployment τ} {start platform platform' : Platform τ} {event : Event}
  {trace : List (Platform τ × Event)} {identity : Identity} {userId : Uuid} {key : String}

theorem asks_relies (request : Identity × Auth.UsersService.Endpoint) :
    (Auth.UsersService.handle request).Relies (fun _ _ => True) (Asks request) fun _ => True := by
  obtain ⟨identity, endpoint⟩ := request
  cases endpoint with
  | me =>
    apply relies_map
    exact relies_perform trivial fun _ _ => relies_orThrow fun _ _ => trivial
  | updateMe dto =>
    apply relies_map
    have checks : (Auth.UsersService.checkKey identity.id dto.stellarPublicKey.join).Relies (fun _ _ => True)
        (Asks (identity, .updateMe dto)) fun _ => True := by
      unfold Auth.UsersService.checkKey
      split
      · trivial
      · refine relies_perform trivial fun _ _ => ?_
        unfold throwIf
        split <;> trivial
    refine relies_bind checks fun _ _ => ?_
    exact relies_perform ⟨rfl, dto, rfl, rfl, rfl⟩ fun _ _ => trivial
  | findAll page limit =>
    apply relies_map
    refine relies_throwIf fun _ => ?_
    exact relies_perform trivial fun _ _ => relies_perform trivial fun _ _ => trivial

theorem Step.admitted_later (step : Step deployment platform event platform') (admitted : platform.Admitted identity) :
    platform'.Admitted identity := by
  obtain ⟨index, token, there⟩ := admitted
  cases step with
  | auth _ step => exact ⟨index, token, step.done_kept there⟩
  | users | contracts => exact ⟨index, token, there⟩

theorem Step.setsKey_later (step : Step deployment platform event platform') (sets : platform.SetsKey userId key) :
    platform'.SetsKey userId key := by
  obtain ⟨asked, admitted, own, given⟩ := sets
  have admitted := step.admitted_later admitted
  cases step with
  | auth | contracts => exact .intro asked admitted own given
  | users _ step =>
    obtain ⟨_, there⟩ := step.request_held asked
    exact .intro there admitted own given

theorem enroll_find {keys : Table Backend.User.id} {occurrence : Auth.Occurrence} {user : Backend.User}
    (found : (enroll keys occurrence).find userId = some user) (given : user.stellarPublicKey = some key) :
    keys.find userId = some user := by
  unfold enroll at found
  split at found
  · rename_i account
    cases inserted : keys.insert ⟨account.id, none⟩ with
    | none =>
      rw [inserted] at found
      exact found
    | some keys' =>
      rw [inserted, Option.getD_some, Table.find_insert inserted] at found
      split at found
      · cases found
        contradiction
      · exact found
  · exact found

/-- A key in the tables was there before, or a request has just been served that asks for it. -/
theorem serves_key {tables tables' : Auth.UsersService.Tables} {op : Auth.UsersService.Op}
    {answer : Except Auth.Failure op.Answer} {user : Backend.User}
    (served : Auth.UsersService.Serves tables op answer tables') (found : tables'.keys.find userId = some user)
    (given : user.stellarPublicKey = some key) :
    (∃ before, tables.keys.find userId = some before ∧ before.stellarPublicKey = some key) ∨
      ∃ name, op = .update userId name (some (some key)) := by
  cases served with
  | @updated id name asked _ _ updated _ =>
    simp only [Auth.UsersService.Tables.update, Option.bind_eq_bind, Option.bind_eq_some_iff] at updated
    obtain ⟨_, _, same⟩ := updated
    cases same
    rw [Table.find_modify (Auth.UsersService.rekeyed_id asked)] at found
    split at found
    · rename_i here
      subst here
      obtain ⟨before, stored, rfl⟩ := Option.map_eq_some_iff.mp found
      cases asked with
      | none => exact .inl ⟨before, stored, given⟩
      | some asked =>
        refine .inr ⟨name, ?_⟩
        rw [← given]
        rfl
    · exact .inl ⟨user, found, given⟩
  | _ => exact .inl ⟨user, found, given⟩

theorem closed_users {service service' : Backend.Service τ} {occurrence : Backend.Occurrence}
    (step : Backend.Service.Step deployment.host deployment.config deployment.faults service occurrence service')
    (closed : Event.contracts occurrence = .contracts .outside → service'.world.db.users = service.world.db.users) :
    service'.world.db.users = service.world.db.users := by
  cases step with
  | start => rfl
  | served _ answered => exact Backend.serves_users answered
  | outside => exact closed rfl

theorem step_ownKeys (step : ClosedStep deployment platform event platform') (ownKeys : platform.OwnKeys) :
    platform'.OwnKeys := by
  obtain ⟨step, closed⟩ := step
  have requests : ∀ entry ∈ platform.users, platform'.Admitted entry.1.1 ∧
      entry.2.Relies (fun _ _ => True) (Asks entry.1) fun _ => True :=
    fun entry member => (ownKeys.requests entry member).imp_left step.admitted_later
  have keys : ∀ id user key, platform.contracts.world.db.users.find id = some user →
      user.stellarPublicKey = some key → platform'.SetsKey id key :=
    fun id user key found given => step.setsKey_later (ownKeys.keys id user key found given)
  cases step with
  | auth => exact ⟨requests, fun id user key found given => keys id user key (enroll_find found given) given⟩
  | contracts _ step =>
    have same := closed_users step closed
    exact ⟨requests, fun id user key found => keys id user key (same ▸ found)⟩
  | users admitted step =>
    constructor
    · refine step.each (fun request rest => platform.Admitted request.1 ∧
        rest.Relies (fun _ _ => True) (Asks request) fun _ => True) ?_ ?_ ownKeys.requests
      · exact fun request starts => ⟨admitted request starts, asks_relies request⟩
      · exact fun _ _ _ _ _ _ _ good => ⟨good.1, good.2.2 _ trivial⟩
    · intro id user key found given
      cases step with
      | start => exact keys id user key found given
      | @served _ _ index request op next answer _ there answered =>
        rcases serves_key answered found given with ⟨before, stored, given'⟩ | ⟨name, rfl⟩
        · exact keys id before key stored given'
        · obtain ⟨admitted, asks, _⟩ := ownKeys.requests _ (List.mem_of_getElem? there)
          obtain ⟨identity, endpoint⟩ := request
          obtain ⟨own, dto, asked, _, given'⟩ := asks
          dsimp only at own asked
          subst own asked
          have kept := List.getElem?_set_self (a := ((identity, .updateMe dto), next answer))
            (List.getElem?_eq_some_iff.mp there).1
          exact .intro kept admitted rfl given'.symm
      | outside moved => exact moved.elim

theorem ClosedStep.run (run : Runs.Run (ClosedStep deployment) start trace platform) :
    Runs.Run (Step deployment) start trace platform := by
  induction run with
  | refl => exact .refl
  | tail _ step ih => exact ih.tail step.1

theorem run_setsKey_later (run : Runs.Run (ClosedStep deployment) start trace platform)
    (sets : start.SetsKey userId key) : platform.SetsKey userId key :=
  run.invariant (I := fun platform => platform.SetsKey userId key) (fun sets step => step.1.setsKey_later sets) sets

theorem run_ownKeys (run : Runs.Run (ClosedStep deployment) start trace platform) (keyless : start.Keyless) :
    platform.OwnKeys := by
  refine run.invariant (I := OwnKeys) (fun ownKeys step => step_ownKeys step ownKeys) ⟨?_, ?_⟩
  · rw [keyless.users]
    exact List.forall_mem_nil _
  · intro id user key found given
    rw [keyless.keys id user found] at given
    contradiction

/-- A query is answered from the tables as they are at some point of the run. -/
theorem told_query (run : Runs.Run (ClosedStep deployment) start trace platform) {index : Nat}
    {query : Backend.Query} {value : query.Answer}
    (member : (⟨.query query, .ok value⟩ : Backend.Exchange) ∈ told index (trace.map seenByContracts)) :
    ∃ earlier rest between, Runs.Run (ClosedStep deployment) start earlier between ∧
      Runs.Run (ClosedStep deployment) between rest platform ∧ between.contracts.world.db.answer query = value := by
  obtain ⟨n, pool, here⟩ := told_at.mp member
  rw [List.getElem?_map] at here
  obtain ⟨⟨between, event⟩, there, same⟩ := Option.map_eq_some_iff.mp here
  obtain ⟨before, after, step, later⟩ := run.pass there
  refine ⟨_, _, between, before, .head step later, ?_⟩
  injection same with _ occurs
  have served : Backend.Service.Step deployment.host deployment.config deployment.faults
      (seenByContracts (between, event)).1 (seenByContracts (between, event)).2 after.contracts :=
    step.1.contracts_step
  exact (Backend.read_answer served occurs).symm

/-- Whose key a request has read. -/
theorem read_key (run : Runs.Run (ClosedStep deployment) start trace platform) (keyless : start.Keyless)
    {index : Nat} {user : Backend.User}
    (member : (⟨.query (.user userId), .ok (some user)⟩ : Backend.Exchange) ∈ told index (trace.map seenByContracts))
    (given : user.stellarPublicKey = some key) : platform.SetsKey userId key := by
  obtain ⟨_, _, between, before, later, found⟩ := told_query run member
  exact run_setsKey_later later ((run_ownKeys before keyless).keys userId user key found given)

/-- Whose keys are paid. In every run of the platform, the key of a user is one the user has asked
for with a token that was accepted, and the funding transaction that a client is given to sign for
a contract moves funds from a key the client has set to one the freelancer has set, under the id of
that contract. -/
theorem payees_own (run : Runs.Run (ClosedStep deployment) start trace platform) (keyless : start.Keyless) :
    (∀ id user key, platform.contracts.world.db.users.find id = some user → user.stellarPublicKey = some key →
      platform.SetsKey id key) ∧
    ∀ (index : Nat) (clientId : Uuid) (dto : Backend.CreateContractDto) (view : Backend.ContractView)
      (call : Backend.ChainCall), platform.contracts.running[index]? =
        some (.create clientId dto, .done (.created view (some call))) →
      ∃ (clientKey freelancerKey admin token : Address) (amount : Escrow.I128),
        call = .fund view.id.symbol clientKey freelancerKey admin amount token ∧
        platform.SetsKey clientId clientKey ∧ platform.SetsKey dto.freelancerId freelancerKey := by
  refine ⟨(run_ownKeys run keyless).keys, ?_⟩
  intro index clientId dto view call created
  have leads := run_leads (run_contracts (ClosedStep.run run)) keyless.contracts created
  obtain ⟨client, freelancer, clientKey, freelancerKey, read⟩ :=
    leads.follows Backend.create_offers view call rfl
  obtain ⟨_, _, between, _, _, found⟩ := told_query run read
  rw [Backend.view_id found]
  exact ⟨_, _, _, _, _, rfl, read_key run keyless client clientKey, read_key run keyless freelancer freelancerKey⟩

/-! ### A contract that is offered -/

/-- A step of the auth service in which nobody registers. -/
theorem auth_step (deployment : Deployment τ) {auth auth' : Auth.Service} {occurrence : Auth.Occurrence}
    (users : List UsersRequest) (contracts : Backend.Service τ)
    (step : Auth.Service.Step deployment.secrets deployment.argon2 deployment.faults auth occurrence auth')
    (stays : ∀ userId, occurrence ≠ .start (.logoutAll userId))
    (still : enroll contracts.world.db.users occurrence = contracts.world.db.users) :
    ClosedStep deployment ⟨auth, users, contracts⟩ (.auth occurrence) ⟨auth', users, contracts⟩ := by
  have taken : Step deployment ⟨auth, users, contracts⟩ (.auth occurrence)
      ⟨auth', users, withKeys contracts (enroll contracts.world.db.users occurrence)⟩ :=
    .auth (fun userId starts => absurd starts (stays userId)) step
  rw [still] at taken
  exact ⟨taken, nofun⟩

/-- Whoever has an access token is let in. -/
theorem run_enters (deployment : Deployment τ) (auth : Auth.Service) (users : List UsersRequest)
    (contracts : Backend.Service τ) {token : Auth.AccessToken} (genuine : token ∈ auth.world.signed)
    (fresh : auth.world.clock < token.expiresAt) (access : token.payload.typ = some "access") :
    ∃ trace, Runs.Run (ClosedStep deployment) ⟨auth, users, contracts⟩ trace
      ⟨⟨auth.world, auth.running ++ [(.authenticate token,
        .done (.authenticated ⟨token.payload.sub, token.payload.email, token.payload.role⟩))]⟩, users, contracts⟩ := by
  have opens : ∃ next, Auth.handle deployment.secrets (.authenticate token) = Process.await (.verifyJwt token) next ∧
      next (.ok ()) = .done (.authenticated ⟨token.payload.sub, token.payload.email, token.payload.role⟩) := by
    obtain ⟨⟨email, sub, role, tv, typ⟩, expiresAt⟩ := token
    cases access
    exact ⟨_, rfl, rfl⟩
  obtain ⟨next, waits, ends⟩ := opens
  have asked : Auth.Service.Step deployment.secrets deployment.argon2 deployment.faults auth
      (.start (.authenticate token))
      ⟨auth.world, auth.running ++ [(.authenticate token, Process.await (.verifyJwt token) next)]⟩ := by
    rw [← waits]
    exact Pool.Step.start (Auth.Endpoint.authenticate token)
  have accepted : Auth.Service.Step deployment.secrets deployment.argon2 deployment.faults
      ⟨auth.world, auth.running ++ [(.authenticate token, Process.await (.verifyJwt token) next)]⟩
      (.served auth.running.length (.verifyJwt token) (.ok ()))
      ⟨auth.world, auth.running ++ [(.authenticate token, next (.ok ()))]⟩ :=
    Pool.Step.served_last (Auth.Serves.accepted genuine fresh)
  rw [← ends]
  have first := auth_step deployment users contracts asked (by simp) rfl
  exact ⟨_, (Runs.Run.single first).tail (auth_step deployment users contracts accepted (by simp) rfl)⟩

theorem users_step (deployment : Deployment τ) (auth : Auth.Service) (contracts : Backend.Service τ)
    {users running : List UsersRequest} {event : UsersEvent} {tables : Auth.UsersService.Tables}
    (step : Process.Pool.Step Auth.UsersService.handle (fun _ => Auth.UsersService.Serves) (fun _ _ => False)
      ⟨⟨auth.world.db.users, contracts.world.db.users⟩, users⟩ event ⟨tables, running⟩)
    (admitted : ∀ request, event = .start request → Admitted ⟨auth, users, contracts⟩ request.1) :
    ClosedStep deployment ⟨auth, users, contracts⟩ (.users event)
      ⟨withAccounts auth tables.accounts, running, withKeys contracts tables.keys⟩ :=
  ⟨.users admitted step, nofun⟩

/-- A user sets a key that nobody has. -/
theorem run_sets (deployment : Deployment τ) (auth : Auth.Service) (users : List UsersRequest)
    (contracts : Backend.Service τ) {identity : Identity} {dto : Auth.UpdateProfileDto} {account : Auth.User}
    (admitted : Admitted ⟨auth, users, contracts⟩ identity) (named : dto.name = none)
    (given : dto.stellarPublicKey = some (some key)) (known : auth.world.db.users.find identity.id = some account)
    (free : ∀ user ∈ contracts.world.db.users.rows, user.stellarPublicKey ≠ some key) :
    ∃ trace request, Runs.Run (ClosedStep deployment) ⟨auth, users, contracts⟩ trace
      ⟨withAccounts auth (auth.world.db.users.modify identity.id (Auth.UsersService.renamed none)
        (Auth.UsersService.renamed_id none)), users ++ [request],
        withKeys contracts (contracts.world.db.users.modify identity.id (Auth.UsersService.rekeyed (some (some key)))
          (Auth.UsersService.rekeyed_id (some (some key))))⟩ := by
  have opens : ∃ next next', Auth.UsersService.handle (identity, .updateMe dto) =
        Process.await (.findOneByKey key) next ∧
      next (.ok none) = Process.await (.update identity.id none (some (some key))) next' := by
    obtain ⟨name, stellarPublicKey, _, _⟩ := dto
    cases named
    cases given
    exact ⟨_, _, rfl, rfl⟩
  obtain ⟨next, next', waits, checked⟩ := opens
  have unused : (contracts.world.db.users.rows.find? (·.stellarPublicKey = some key)).map Backend.User.id = none := by
    rw [List.find?_eq_none.mpr fun user member => by simpa using free user member]
    rfl
  have updated : Auth.UsersService.Tables.update ⟨auth.world.db.users, contracts.world.db.users⟩ identity.id none
      (some (some key)) = some ⟨auth.world.db.users.modify identity.id (Auth.UsersService.renamed none)
        (Auth.UsersService.renamed_id none), contracts.world.db.users.modify identity.id
          (Auth.UsersService.rekeyed (some (some key))) (Auth.UsersService.rekeyed_id (some (some key)))⟩ := by
    have allowed : (auth.world.db.users.find identity.id).isSome = true ∧ (none : Option (Option String)) ≠ some none ∧
        ∀ user ∈ contracts.world.db.users.rows, user.id = identity.id ∨ (some (some key)).join = none ∨
          user.stellarPublicKey ≠ (some (some key)).join :=
      ⟨by rw [known]; rfl, nofun, fun user member => .inr (.inr (free user member))⟩
    unfold Auth.UsersService.Tables.update
    rw [guard, if_pos allowed]
    rfl
  have stored := Table.find_modify_self (Auth.UsersService.renamed_id none) known
  have asked : ClosedStep deployment ⟨auth, users, contracts⟩ (.users (.start (identity, .updateMe dto)))
      ⟨auth, users ++ [((identity, .updateMe dto), Process.await (.findOneByKey key) next)], contracts⟩ := by
    rw [← waits]
    refine users_step deployment auth contracts (.start (identity, .updateMe dto)) ?_
    rintro _ ⟨⟩
    exact admitted
  have looked : Auth.UsersService.Serves ⟨auth.world.db.users, contracts.world.db.users⟩ (.findOneByKey key) _ _ :=
    .foundByKey key
  rw [unused] at looked
  have read : ClosedStep deployment
      ⟨auth, users ++ [((identity, .updateMe dto), Process.await (.findOneByKey key) next)], contracts⟩
      (.users (.served users.length (.findOneByKey key) (.ok none)))
      ⟨auth, users ++ [((identity, .updateMe dto), next (.ok none))], contracts⟩ :=
    users_step deployment auth contracts (Pool.Step.served_last looked) nofun
  rw [checked] at read
  have written : ClosedStep deployment
      ⟨auth, users ++ [((identity, .updateMe dto), Process.await _ next')], contracts⟩ _
      ⟨_, users ++ [((identity, .updateMe dto), _)], _⟩ :=
    users_step deployment auth contracts (Pool.Step.served_last (.updated updated stored)) nofun
  exact ⟨_, _, ((Runs.Run.single asked).tail read).tail written⟩

/-- What the contracts service does for users who were let in it does in the platform. -/
theorem run_offered (deployment : Deployment τ) {auth : Auth.Service} {users : List UsersRequest}
    {contracts contracts' : Backend.Service τ} {history : List (Backend.Service τ × Backend.Occurrence)}
    (run : Runs.Run (Backend.Service.Step deployment.host deployment.config deployment.faults) contracts history
      contracts')
    (inside : ∀ point ∈ history, point.2 ≠ .outside)
    (admitted : ∀ point ∈ history, ∀ endpoint, point.2 = .start endpoint →
      ∃ identity, Admitted ⟨auth, users, contracts⟩ identity ∧ PassedOn identity endpoint) :
    ∃ trace, Runs.Run (ClosedStep deployment) ⟨auth, users, contracts⟩ trace ⟨auth, users, contracts'⟩ := by
  induction run with
  | refl => exact ⟨[], .refl⟩
  | @tail history between occurrence after run step ih =>
    obtain ⟨trace, ran⟩ := ih (fun point member => inside point (List.mem_append_left _ member))
      fun point member => admitted point (List.mem_append_left _ member)
    have last : (between, occurrence) ∈ history ++ [(between, occurrence)] :=
      List.mem_append_right _ List.mem_cons_self
    have taken : Step deployment ⟨auth, users, between⟩ (.contracts occurrence) ⟨auth, users, after⟩ :=
      .contracts (admitted _ last) step
    refine ⟨_, ran.tail ⟨taken, fun outside => ?_⟩⟩
    cases outside
    exact absurd rfl (inside _ last)

end Runs

namespace Sample
open Backend.Sample (clientId freelancerId)

def account (id : Uuid) (email : String) (role : Backend.UserRole) : Auth.User := ⟨id, email, "A", role, "secret", 0⟩

def pass (account : Auth.User) : Auth.AccessToken :=
  ⟨⟨account.email, account.id, account.role, 0, some "access"⟩, 900000⟩

def client : Auth.User := account clientId "c@ab.io" .client
def freelancer : Auth.User := account freelancerId "f@ab.io" .freelancer

/-- A client with a job and a freelancer, both without a key, and an access token for each. -/
def market : Platform (Escrow.Bank Address) where
  auth := ⟨⟨⟨⟨[client, freelancer], by decide⟩, .empty⟩, 0, [pass client, pass freelancer]⟩, []⟩
  users := []
  contracts :=
    ⟨{ Backend.Sample.start.world with
        db := { Backend.Sample.start.world.db with
          users := ⟨[⟨clientId, none⟩, ⟨freelancerId, none⟩], by decide⟩ } }, []⟩

theorem keyless : market.Keyless := by
  refine ⟨rfl, rfl, fun id user found => ?_⟩
  rcases List.mem_pair.mp (Table.mem_of_find found) with rfl | rfl
  · rfl
  · rfl

def clientKey : String := "GCCCCCCCCCCCCCCCCCCCCCCCCCCCCCCCCCCCCCCCCCCCCCCCCCCCCCCC"
def freelancerKey : String := "GFFFFFFFFFFFFFFFFFFFFFFFFFFFFFFFFFFFFFFFFFFFFFFFFFFFFFFF"

def keyDto (key : String) (shaped : Backend.stellarKey key = true) : Auth.UpdateProfileDto where
  name := none
  stellarPublicKey := some (some key)
  short := nofun
  shaped := by
    rintro _ ⟨⟩
    exact shaped

def entry (account : Auth.User) : Auth.Endpoint × Process Auth.Failure Auth.Op Auth.Op.Answer Auth.Response :=
  (.authenticate (pass account), .done (.authenticated ⟨account.id, account.email, account.role⟩))

/-- The auth service once both were let in. -/
def inside : Auth.Service := ⟨market.auth.world, [entry client, entry freelancer]⟩

def rekeyed (contracts : Backend.Service (Escrow.Bank Address)) (id : Uuid) (key : String) :
    Backend.Service (Escrow.Bank Address) :=
  withKeys contracts (contracts.world.db.users.modify id (Auth.UsersService.rekeyed (some (some key)))
    (Auth.UsersService.rekeyed_id _))

/-- The contracts service once both have set their keys. -/
def keyed : Backend.Service (Escrow.Bank Address) :=
  rekeyed (rekeyed market.contracts clientId clientKey) freelancerId freelancerKey

def offer : List (Process.Move Backend.ContractsService.Endpoint) :=
  .start (.create clientId Backend.Sample.dto) :: List.replicate 7 (.serve 0)

/-- Both are let in and set their keys. -/
theorem keyed_run : ∃ trace auth users, Runs.Run (ClosedStep deployment) market trace ⟨auth, users, keyed⟩ ∧
    auth.running = inside.running := by
  obtain ⟨_, first⟩ := run_enters deployment market.auth [] market.contracts
    (show pass client ∈ market.auth.world.signed from List.mem_cons_self) (by decide) rfl
  obtain ⟨_, second⟩ := run_enters deployment ⟨market.auth.world, [entry client]⟩ [] market.contracts
    (show pass freelancer ∈ market.auth.world.signed from List.mem_cons_of_mem _ List.mem_cons_self) (by decide) rfl
  have letIn : Admitted ⟨inside, [], market.contracts⟩ ⟨clientId, "c@ab.io", .client⟩ := ⟨0, pass client, rfl⟩
  obtain ⟨_, request, third⟩ := run_sets deployment inside [] market.contracts letIn
    (show (keyDto clientKey (by decide)).name = none from rfl) rfl (show _ = some client from rfl) (by
      intro user member
      rcases List.mem_pair.mp member with rfl | rfl <;> nofun)
  have letIn' : Admitted ⟨withAccounts inside (inside.world.db.users.modify clientId
      (Auth.UsersService.renamed none) (Auth.UsersService.renamed_id none)), [request],
      rekeyed market.contracts clientId clientKey⟩ ⟨freelancerId, "f@ab.io", .freelancer⟩ := ⟨1, pass freelancer, rfl⟩
  obtain ⟨_, request', fourth⟩ := run_sets deployment _ [request] (rekeyed market.contracts clientId clientKey) letIn'
    (show (keyDto freelancerKey (by decide)).name = none from rfl) rfl (show _ = some freelancer from rfl) (by
      intro user member
      rcases List.mem_pair.mp member with rfl | rfl
      · decide
      · nofun)
  exact ⟨_, _, _, ((first.trans second).trans third).trans fourth, rfl⟩

/-- Nothing but requests of the client. -/
def own (point : Backend.Service (Escrow.Bank Address) × Backend.Occurrence) : Bool :=
  match point.2 with
  | .start endpoint => callerId endpoint = some clientId ∧ callerRole endpoint = none
  | .served .. => true
  | .outside => false

end Sample

theorem payees_own_sample : ∃ (platform : Platform (Escrow.Bank Address)) (view : Backend.ContractView)
    (amount : Escrow.I128), platform.contracts.running[0]? =
      some (.create Backend.Sample.clientId Backend.Sample.dto, .done (.created view (some
        (.fund view.id.symbol Sample.clientKey Sample.freelancerKey "admin" amount
          Backend.ContractsService.defaultTokenContractId)))) ∧
      platform.SetsKey Backend.Sample.freelancerId Sample.freelancerKey := by
  have happens : ∃ played, Backend.Sample.plays Sample.keyed Sample.offer = some played ∧
      played.1.all Sample.own = true ∧ ∃ view amount,
        played.2.running[0]? = some (.create Backend.Sample.clientId Backend.Sample.dto,
          .done (.created view (some (.fund view.id.symbol Sample.clientKey Sample.freelancerKey "admin" amount
            Backend.ContractsService.defaultTokenContractId)))) :=
    ⟨_, rfl, rfl, _, _, rfl⟩
  obtain ⟨⟨history, contracts⟩, plays, own, view, amount, offered⟩ := happens
  obtain ⟨_, auth, users, before, inside⟩ := Sample.keyed_run
  have letIn : Admitted ⟨auth, users, Sample.keyed⟩ ⟨Backend.Sample.clientId, "c@ab.io", .client⟩ := by
    refine ⟨0, Sample.pass Sample.client, ?_⟩
    rw [inside]
    rfl
  obtain ⟨_, after⟩ : ∃ trace, Runs.Run (ClosedStep Sample.deployment) ⟨auth, users, Sample.keyed⟩ trace
      ⟨auth, users, contracts⟩ := by
    refine run_offered Sample.deployment (Backend.Sample.plays_run plays) ?_ ?_
    · rintro point member outside
      have checked := List.all_eq_true.mp own point member
      simp [Sample.own, outside] at checked
    · rintro point member endpoint starts
      have checked := List.all_eq_true.mp own point member
      simp only [Sample.own, starts, decide_eq_true_eq] at checked
      refine ⟨_, letIn, ?_, ?_⟩
      · rw [checked.1]
        rintro _ ⟨⟩
        rfl
      · rw [checked.2]
        exact nofun
  obtain ⟨_, offers⟩ := payees_own (before.trans after) Sample.keyless
  obtain ⟨_, _, _, _, _, same, _, sets⟩ := offers 0 _ _ _ _ offered
  injection same with _ _ freelancer
  rw [← freelancer] at sets
  exact ⟨_, view, amount, offered, sets⟩

end Platform
end Stellance
