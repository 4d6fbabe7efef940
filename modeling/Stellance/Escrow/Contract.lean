import Stellance.Escrow.Types
import Stellance.Library.Fallible

/-! The entry points of the escrow contract, statement by statement. A body that
stops keeps the writes it made before stopping: the rollback is the host's. -/
namespace Stellance.Escrow
variable {Address Symbol τ α : Type} [DecidableEq Address] [DecidableEq Symbol]

abbrev Contract (Address Symbol τ α : Type) := EStateM Stop (Env Address Symbol τ) α

def ttlExtendTo : Nat := 2076480
def ttlExtendIfBelow : Nat := 518400

def requireAuth (address : Address) : Contract Address Symbol τ Unit := fun env =>
  if address ∈ env.auths then .ok () env else .error .trap env

/-- `if condition { return Err(error) }` -/
def rejectIf (condition : Prop) [Decidable condition] (error : EscrowError) :
    Contract Address Symbol τ Unit := fun env =>
  if condition then .error (.err error) env else .ok () env

/-- `value.ok_or(error)?` -/
def okOr (value : Option α) (error : EscrowError) : Contract Address Symbol τ α := fun env =>
  match value with
  | some a => .ok a env
  | none => .error (.err error) env

/-- An operation of the language that panics where it has no value. -/
def orPanic (value : Option α) : Contract Address Symbol τ α := fun env =>
  match value with
  | some a => .ok a env
  | none => .error .trap env

def hasEntry (key : Symbol) : Contract Address Symbol τ Bool := fun env =>
  .ok (env.state.entries.lookup key).isSome env

/-- `storage().persistent().get(&key).ok_or(NotFound)?` -/
def getEntry (key : Symbol) : Contract Address Symbol τ (EscrowEntry Address) := fun env =>
  match env.state.entries.lookup key with
  | some entry => .ok entry env
  | none => .error (.err .notFound) env

def State.put (host : Host Address τ) (key : Symbol) (entry : EscrowEntry Address)
    (state : State Address Symbol τ) : State Address Symbol τ :=
  { state with
    entries := state.entries.insert key entry
    ttl := if (state.entries.lookup key).isSome then state.ttl
      else Function.update state.ttl key host.newEntryTtl }

/-- The remaining lifetime becomes the target when it is below the threshold. -/
def State.extend (key : Symbol) (threshold extendTo : Nat) (state : State Address Symbol τ) :
    State Address Symbol τ :=
  { state with
    ttl := if state.ttl key < threshold then Function.update state.ttl key extendTo else state.ttl }

def setEntry (host : Host Address τ) (key : Symbol) (entry : EscrowEntry Address) :
    Contract Address Symbol τ Unit := fun env =>
  .ok () { env with state := env.state.put host key entry }

def extendTtl (key : Symbol) : Contract Address Symbol τ Unit := fun env =>
  .ok () { env with state := env.state.extend key ttlExtendIfBelow ttlExtendTo }

def publish (event : Event Address Symbol) : Contract Address Symbol τ Unit := fun env =>
  .ok () { env with events := env.events ++ [event] }

def transfer (host : Host Address τ) (token recipient : Address) (amount : I128) :
    Contract Address Symbol τ Unit := fun env =>
  match host.transfer env.state.tokens token host.currentContractAddress recipient amount with
  | some tokens => .ok () { env with
      state := { env.state with tokens }
      tokenCalls := env.tokenCalls ++ [.transfer token recipient amount] }
  | none => .error .trap env

def transferFrom (host : Host Address τ) (token client : Address) (amount : I128) :
    Contract Address Symbol τ Unit := fun env =>
  match host.transferFrom env.state.tokens token host.currentContractAddress client
      host.currentContractAddress amount with
  | some tokens => .ok () { env with
      state := { env.state with tokens }
      tokenCalls := env.tokenCalls ++ [.transferFrom token client amount] }
  | none => .error .trap env

/-- `if amount > 0 { token_client.transfer(..) }` -/
def transferIfPositive (host : Host Address τ) (token recipient : Address) (amount : I128) :
    Contract Address Symbol τ Unit :=
  if 0 < amount.val then transfer host token recipient amount else pure ()

def fund (host : Host Address τ) (contractId : Symbol) (client freelancer admin : Address)
    (amount : I128) (token : Address) : Contract Address Symbol τ Unit := do
  requireAuth client
  rejectIf (amount.val ≤ 0) .invalidAmount
  let funded ← hasEntry contractId
  rejectIf (funded = true) .alreadyFunded
  transferFrom host token client amount
  setEntry host contractId
    { client, freelancer, totalAmount := amount, releasedAmount := I128.zero, token,
      status := .funded, admin }
  extendTtl contractId
  publish (.fund contractId client freelancer amount token)

def releaseMilestone (host : Host Address τ) (contractId : Symbol) (caller : Address)
    (milestoneAmount : I128) : Contract Address Symbol τ Unit := do
  requireAuth caller
  let entry ← getEntry contractId
  rejectIf (entry.status ≠ .funded) .invalidState
  rejectIf (caller ≠ entry.client ∧ caller ≠ entry.admin) .unauthorized
  let remaining ← okOr (entry.totalAmount.checkedSub entry.releasedAmount) .overflow
  rejectIf (milestoneAmount.val ≤ 0) .invalidAmount
  rejectIf (remaining.val < milestoneAmount.val) .invalidState
  transfer host entry.token entry.freelancer milestoneAmount
  let released ← okOr (entry.releasedAmount.checkedAdd milestoneAmount) .overflow
  setEntry host contractId
    { entry with
      releasedAmount := released
      status := if entry.totalAmount.val ≤ released.val then .released else entry.status }
  extendTtl contractId
  publish (.releaseMs contractId entry.freelancer milestoneAmount released)

def release (host : Host Address τ) (contractId : Symbol) (caller : Address) :
    Contract Address Symbol τ Unit := do
  requireAuth caller
  let entry ← getEntry contractId
  rejectIf (entry.status ≠ .funded) .invalidState
  rejectIf (caller ≠ entry.client ∧ caller ≠ entry.admin) .unauthorized
  let remaining ← okOr (entry.totalAmount.checkedSub entry.releasedAmount) .overflow
  transferIfPositive host entry.token entry.freelancer remaining
  setEntry host contractId
    { entry with releasedAmount := entry.totalAmount, status := .released }
  extendTtl contractId
  publish (.release contractId entry.freelancer remaining)

def refund (host : Host Address τ) (contractId : Symbol) (caller : Address) :
    Contract Address Symbol τ Unit := do
  requireAuth caller
  let entry ← getEntry contractId
  rejectIf (entry.status ≠ .funded) .invalidState
  rejectIf (caller ≠ entry.freelancer ∧ caller ≠ entry.admin) .unauthorized
  let remaining ← okOr (entry.totalAmount.checkedSub entry.releasedAmount) .overflow
  transferIfPositive host entry.token entry.client remaining
  setEntry host contractId { entry with status := .refunded }
  extendTtl contractId
  publish (.refund contractId entry.client remaining)

def dispute (host : Host Address τ) (contractId : Symbol) (caller : Address) :
    Contract Address Symbol τ Unit := do
  requireAuth caller
  let entry ← getEntry contractId
  rejectIf (entry.status ≠ .funded) .invalidState
  rejectIf (caller ≠ entry.client ∧ caller ≠ entry.freelancer) .unauthorized
  setEntry host contractId { entry with status := .disputed }
  extendTtl contractId
  publish (.dispute contractId caller)

/-- The arms of `match decision`: the transfers, and the status they end in. -/
def matchDecision (host : Host Address τ) (entry : EscrowEntry Address) (remaining : I128)
    (freelancerBps : UInt32) : DisputeDecision → Contract Address Symbol τ EscrowStatus
  | .releaseToFreelancer => do
    transferIfPositive host entry.token entry.freelancer remaining
    pure .released
  | .refundToClient => do
    transferIfPositive host entry.token entry.client remaining
    pure .refunded
  | .split => do
    rejectIf (10000 < freelancerBps.toNat) .invalidSplitBps
    let product ← okOr (remaining.checkedMul (I128.fromU32 freelancerBps)) .overflow
    let freelancerAmount ← orPanic (product.checkedDiv 10000)
    let clientAmount ← okOr (remaining.checkedSub freelancerAmount) .overflow
    transferIfPositive host entry.token entry.freelancer freelancerAmount
    transferIfPositive host entry.token entry.client clientAmount
    pure .resolved

def resolveDispute (host : Host Address τ) (contractId : Symbol) (caller : Address)
    (decision : DisputeDecision) (freelancerBps : UInt32) : Contract Address Symbol τ Unit := do
  requireAuth caller
  let entry ← getEntry contractId
  rejectIf (entry.status ≠ .disputed) .invalidState
  rejectIf (caller ≠ entry.admin) .unauthorized
  let remaining ← okOr (entry.totalAmount.checkedSub entry.releasedAmount) .overflow
  let status ← matchDecision host entry remaining freelancerBps decision
  setEntry host contractId { entry with status }
  extendTtl contractId
  publish (.resolve contractId decision freelancerBps)

/-- The two views need no authorisation and write nothing. -/
def getEscrow (contractId : Symbol) (state : State Address Symbol τ) :
    Option (EscrowEntry Address) :=
  state.entries.lookup contractId

def getAdmin (contractId : Symbol) (state : State Address Symbol τ) : Option Address :=
  (state.entries.lookup contractId).map EscrowEntry.admin

end Stellance.Escrow
