import Stellance.Auth.Server
import Stellance.Auth.UsersService
import Stellance.Backend.Interleaving

/-! The whole backend, as its users see it. Requests of the auth, users and contracts
services are in flight together, over one user table; a request that needs a user starts
with the identity of an access token that was accepted. The other services write neither
roles nor tokens; what they do write is among the moves around the contracts service. -/
namespace Stellance
open Backend (Uuid UserRole Address)
open Auth (Identity UsersService.Tables)

/-- A request to the users service, with what is left of it. -/
abbrev Platform.UsersRequest :=
  (Identity × Auth.UsersService.Endpoint) × Auth.UsersService.Request Auth.UsersService.Response

/-- The requests in flight, and the worlds they share. The accounts are in the auth
service's tables and the keys in the contracts service's. -/
structure Platform (τ : Type) where
  auth : Auth.Service
  users : List Platform.UsersRequest
  contracts : Backend.Service τ

/-- What the backend is run with. -/
structure Platform.Deployment (τ : Type) where
  host : Escrow.Host Address τ
  config : Backend.Config
  secrets : Auth.Config
  argon2 : String → String → Bool
  faults : Prop

namespace Platform
variable {τ : Type}

abbrev UsersEvent := Process.Event (Identity × Auth.UsersService.Endpoint) Auth.Failure
  Auth.UsersService.Op Auth.UsersService.Op.Answer

inductive Event where
  | auth (occurrence : Auth.Occurrence)
  | users (event : UsersEvent)
  | contracts (occurrence : Backend.Occurrence)

/-! ### Who is let in -/

/-- An access token of this identity was accepted. -/
def Admitted (platform : Platform τ) (identity : Identity) : Prop :=
  ∃ (index : Nat) (token : Auth.AccessToken),
    platform.auth.running[index]? = some (.authenticate token, .done (.authenticated identity))

section Contracts
open Backend.ContractsService

/-- The user an endpoint acts for, where its handler looks at it. -/
def callerId : Endpoint → Option Uuid
  | .create callerId _ | .confirmFund _ callerId _ | .submitMilestone _ _ callerId
  | .approveMilestone _ _ callerId | .dispute _ callerId | .cancel _ callerId _ => some callerId
  | .resolveDispute .. => none

/-- The role a handler looks at. -/
def callerRole : Endpoint → Option UserRole
  | .resolveDispute _ callerRole _ | .cancel _ _ callerRole => some callerRole
  | .create .. | .confirmFund .. | .submitMilestone .. | .approveMilestone .. | .dispute .. => none

/-- The controller passes on the id and the role of the identity. -/
def PassedOn (identity : Identity) (endpoint : Endpoint) : Prop :=
  (∀ id ∈ callerId endpoint, id = identity.id) ∧ ∀ role ∈ callerRole endpoint, role = identity.role

end Contracts

/-! ### The steps -/

/-- The user table, as the users service sees it. -/
def tables (platform : Platform τ) : UsersService.Tables :=
  ⟨platform.auth.world.db.users, platform.contracts.world.db.users⟩

/-- The auth service with these accounts. -/
def withAccounts (auth : Auth.Service) (users : Table Auth.User.id) : Auth.Service :=
  ⟨{ auth.world with db := { auth.world.db with users } }, auth.running⟩

/-- The contracts service with these keys. -/
def withKeys (contracts : Backend.Service τ) (users : Table Backend.User.id) : Backend.Service τ :=
  ⟨{ contracts.world with db := { contracts.world.db with users } }, contracts.running⟩

/-- A user that registers has no key yet. -/
def enroll (keys : Table Backend.User.id) : Auth.Occurrence → Table Backend.User.id
  | .served _ (.createUser _) (.ok user) => (keys.insert ⟨user.id, none⟩).getD keys
  | _ => keys

/-- One of the services takes a step. -/
inductive Step (deployment : Deployment τ) : Platform τ → Event → Platform τ → Prop where
  | auth {platform : Platform τ} {occurrence : Auth.Occurrence} {auth : Auth.Service}
      (admitted : ∀ userId, occurrence = .start (.logoutAll userId) →
        ∃ identity, platform.Admitted identity ∧ userId = identity.id)
      (step : Auth.Service.Step deployment.secrets deployment.argon2 deployment.faults platform.auth
        occurrence auth) :
      Step deployment platform (.auth occurrence)
        { platform with
          auth
          contracts := withKeys platform.contracts (enroll platform.contracts.world.db.users occurrence) }
  | users {platform : Platform τ} {event : UsersEvent} {tables : UsersService.Tables}
      {running : List UsersRequest}
      (admitted : ∀ request, event = .start request → platform.Admitted request.1)
      (step : Process.Pool.Step Auth.UsersService.handle (fun _ => Auth.UsersService.Serves) (fun _ _ => False)
        ⟨platform.tables, platform.users⟩ event ⟨tables, running⟩) :
      Step deployment platform (.users event)
        { auth := withAccounts platform.auth tables.accounts
          users := running
          contracts := withKeys platform.contracts tables.keys }
  | contracts {platform : Platform τ} {occurrence : Backend.Occurrence} {contracts : Backend.Service τ}
      (admitted : ∀ endpoint, occurrence = .start endpoint →
        ∃ identity, platform.Admitted identity ∧ PassedOn identity endpoint)
      (step : Backend.Service.Step deployment.host deployment.config deployment.faults platform.contracts
        occurrence contracts) :
      Step deployment platform (.contracts occurrence) { platform with contracts }

variable {deployment : Deployment τ} {start platform platform' : Platform τ} {event : Event}
  {trace : List (Platform τ × Event)}

/-! ### The contracts service on its own -/

/-- What an event is to the contracts service. -/
def Event.occurrence : Event → Backend.Occurrence
  | .contracts occurrence => occurrence
  | .auth _ | .users _ => .outside

/-- A point of a run, as the contracts service sees it. -/
def seenByContracts (point : Platform τ × Event) : Backend.Service τ × Backend.Occurrence :=
  (point.1.contracts, point.2.occurrence)

theorem withKeys_step (contracts : Backend.Service τ) (users : Table Backend.User.id) :
    Backend.Service.Step deployment.host deployment.config deployment.faults contracts .outside
      (withKeys contracts users) :=
  .outside (@Backend.Around.elsewhere τ deployment.host contracts.world users contracts.world.db.jobs
    contracts.world.db.notifications)

theorem Step.contracts_step (step : Step deployment platform event platform') :
    Backend.Service.Step deployment.host deployment.config deployment.faults platform.contracts
      event.occurrence platform'.contracts := by
  cases step with
  | auth => exact withKeys_step _ _
  | users => exact withKeys_step _ _
  | contracts _ step => exact step

/-- The rest of the backend is among what may happen around the contracts service. -/
theorem run_contracts (run : Runs.Run (Step deployment) start trace platform) :
    Runs.Run (Backend.Service.Step deployment.host deployment.config deployment.faults) start.contracts
      (trace.map seenByContracts) platform.contracts := by
  induction run with
  | refl => exact .refl
  | tail _ step ih =>
    rw [List.map_append]
    exact ih.tail step.contracts_step

end Platform
end Stellance
