import Stellance.Backend.EscrowService

/-! The requests of the contracts service, statement by statement and await by
await. Notifications that the source sends together are awaited one after the
other. -/
namespace Stellance.Backend.ContractsService
open Process hiding await
open EscrowService
variable (config : Config)

/-- The wrapped native token of the test network. -/
def defaultTokenContractId : Address := "CDLZFC3SYJYDZT7K67VZ75HPJVIEUVNIXF47ZG2FB2RMQQVU2HHGCYSC"

def notify (userId : Uuid) (type : NotificationType) (title body : String) (contractId : Uuid)
    (milestoneId : Option Uuid) : Request Unit :=
  await (.notify { userId, type, title, body, contractId := some contractId, milestoneId })

/-- `txHash.slice(0, 10)` -/
def shortHash (txHash : TxHash) : String := String.ofList (txHash.text.toList.take 10)

/-- `parseFloat(amount.toString()).toFixed(2)` -/
def toFixed2 (stroops : Nat) : String :=
  match config.numbers.toFixed 2 (config.numbers.amount stroops) with
  | some cents => toString (cents / 100) ++ "." ++ toString (cents % 100 / 10) ++ toString (cents % 10)
  | none => "Infinity"

def getContractOrThrow (id : Uuid) : Request ContractView := do
  let contract ← await (.query (.contract id))
  orThrow contract (.notFound ("Contract " ++ String.ofList id.text ++ " not found"))

def findOne (id callerId : Uuid) (callerRole : UserRole) : Request ContractView := do
  let contract ← getContractOrThrow id
  throwIf (callerRole ≠ .admin ∧ contract.clientId ≠ callerId ∧ contract.freelancerId ≠ callerId)
    (.forbidden "Access denied")
  pure contract

/-- The unsigned funding transaction, or none where it cannot be built. -/
def fundXdr (contract : Contract) (client freelancer : User) (totalAmount : config.numbers.Num) :
    Request (Option ChainCall) :=
  match client.stellarPublicKey.filter (· ≠ ""), freelancer.stellarPublicKey.filter (· ≠ "") with
  | some clientPublicKey, some freelancerPublicKey =>
    tryCatch (fun _ => pure none) do
      let adminKey ← getAdminPublicKey config
      let amountStroops ← orThrow (config.numbers.amountStroops totalAmount) .notAnInteger
      let xdr ← buildFundXdr contract.id clientPublicKey freelancerPublicKey adminKey amountStroops
        (config.tokenContractId.getD defaultTokenContractId)
      pure (some xdr)
  | _, _ => pure none

def create (clientId : Uuid) (dto : CreateContractDto) : Request (ContractView × Option ChainCall) := do
  let found ← await (.query (.job dto.jobId))
  let (job, existing) ← orThrow found
    (.notFound ("Job " ++ String.ofList dto.jobId.text ++ " not found"))
  throwIf (job.clientId ≠ clientId) (.forbidden "You do not own this job")
  throwIf (job.status ≠ .open) (.badRequest "Job is not OPEN")
  throwIf (existing.isSome = true) (.conflict "Job already has a contract")
  let freelancer ← await (.query (.user dto.freelancerId))
  let freelancer ← orThrow freelancer (.notFound "Freelancer not found")
  let client ← await (.query (.user clientId))
  let client ← orThrow client (.notFound "Client not found")
  let totalAmount := config.numbers.sum (dto.milestones.map fun m => config.numbers.amount m.amount)
  -- the insert of an amount that the column does not hold fails, and the transaction with it
  throwIf (¬ ∀ m ∈ dto.milestones, config.numbers.holds m.amount = true) .numericOverflow
  let contract ← await <| .create
    { jobId := dto.jobId, clientId, freelancerId := dto.freelancerId,
      milestones := dto.milestones.map fun m => (m.title, m.amount) }
  notify dto.freelancerId .contractCreated "New contract offer"
    ("A contract has been created for \"" ++ job.title ++ "\". Waiting for escrow funding.")
    contract.id none
  let xdr ← fundXdr config contract client freelancer totalAmount
  let full ← findOne contract.id clientId .client
  pure (full, xdr)

def confirmFund (id callerId : Uuid) (txHash : TxHash) : Request Contract := do
  let contract ← getContractOrThrow id
  throwIf (contract.clientId ≠ callerId) (.forbidden "Only the client can confirm funding")
  throwIf (contract.escrowTxHash.isSome = true) (.conflict "Escrow already confirmed")
  throwIf (contract.status ≠ .pending ∧ contract.status ≠ .active)
    (.badRequest ("Cannot confirm funding for a " ++ contract.status.text ++ " contract"))
  verifyTransaction txHash
  -- PENDING becomes ACTIVE once the transaction is verified
  let updated ← await (.contractUpdate id .active (some txHash))
  let jobTitle := contract.job.title
  notify contract.freelancerId .contractFunded "Escrow funded — work can begin"
    ("The client has funded the escrow for \"" ++ jobTitle ++ "\". You can now start work.") id none
  notify contract.clientId .contractFunded "Escrow confirmed"
    ("Your escrow for \"" ++ jobTitle ++ "\" is confirmed on Stellar (tx: " ++ shortHash txHash ++
      "…).") id none
  pure updated

def submitMilestone (contractId milestoneId callerId : Uuid) : Request Milestone := do
  let contract ← getContractOrThrow contractId
  throwIf (contract.freelancerId ≠ callerId) (.forbidden "Only the freelancer can submit milestones")
  throwIf (contract.status ≠ .active) (.badRequest "Contract is not ACTIVE")
  let milestone ← orThrow (contract.milestones.find? (·.id = milestoneId))
    (.notFound "Milestone not found")
  throwIf (milestone.status ≠ .pending) (.badRequest "Milestone must be PENDING to submit")
  let updated ← await (.milestoneUpdate milestoneId .inReview)
  notify contract.clientId .milestoneSubmitted "Milestone ready for review"
    ("\"" ++ milestone.title ++ "\" has been submitted for your review on contract \"" ++
      contract.job.title ++ "\".") contractId (some milestoneId)
  pure updated

def maybeCompleteContract (contractId : Uuid) : Request Unit := do
  let contract ← getContractOrThrow contractId
  if ∀ m ∈ contract.milestones, m.status = .paid then
    let _ ← await (.contractUpdate contractId .completed none)
    notify contract.freelancerId .contractCompleted "Contract completed 🎉"
      ("All milestones on \"" ++ contract.job.title ++ "\" have been paid. Contract is now complete.")
      contractId none
    notify contract.clientId .contractCompleted "Contract completed"
      ("All milestones on \"" ++ contract.job.title ++ "\" have been paid. Contract is now complete.")
      contractId none
  else pure ()

def remainingAmount (contractId : Uuid) : Request config.numbers.Num := do
  let milestones ← await (.query (.milestoneAmounts contractId))
  let payments ← await (.query (.paymentAmounts contractId))
  pure (config.numbers.remaining milestones payments)

/-- What `approveMilestone` commits once the release is on chain. -/
def payMilestone (contractId : Uuid) (milestone : Milestone) (txHash : TxHash) : List Statement :=
  [.milestoneUpdate milestone.id .approved, .milestoneUpdate milestone.id .paid,
    .paymentCreate
      { contractId, milestoneId := some milestone.id, amount := milestone.amount,
        stellarTxHash := txHash }]

/-- After the release: the commit, the completion check and the notifications. -/
def recordApproval (contractId milestoneId : Uuid) (contract : ContractView) (milestone : Milestone)
    (txHash : TxHash) : Request (Option (Milestone × Option Payment)) := do
  await (.transaction (payMilestone contractId milestone txHash))
  maybeCompleteContract contractId
  notify contract.freelancerId .milestonePaid "Payment released 🎉"
    ("\"" ++ milestone.title ++ "\" approved — " ++ toFixed2 config milestone.amount ++
      " XLM has been released to your wallet (tx: " ++ shortHash txHash ++ "…).")
    contractId (some milestoneId)
  notify contract.clientId .milestoneApproved "Milestone approved"
    ("You approved \"" ++ milestone.title ++ "\" on contract \"" ++ contract.job.title ++
      "\". Payment sent on Stellar.") contractId (some milestoneId)
  await (.query (.milestone milestoneId))

def approveMilestone (contractId milestoneId callerId : Uuid) :
    Request (Option (Milestone × Option Payment)) := do
  let contract ← getContractOrThrow contractId
  throwIf (contract.clientId ≠ callerId) (.forbidden "Only the client can approve milestones")
  throwIf (contract.status ≠ .active) (.badRequest "Contract is not ACTIVE")
  let milestone ← orThrow (contract.milestones.find? (·.id = milestoneId))
    (.notFound "Milestone not found")
  throwIf (milestone.status ≠ .inReview) (.badRequest "Milestone must be IN_REVIEW to approve")
  -- submitted on chain before any change of the database
  let amountStroops ← orThrow (config.numbers.release milestone.amount) .notAnInteger
  let txHash ← submitReleaseMilestone config contractId amountStroops
  recordApproval config contractId milestoneId contract milestone txHash

def dispute (contractId callerId : Uuid) : Request Contract := do
  let contract ← getContractOrThrow contractId
  throwIf (contract.clientId ≠ callerId ∧ contract.freelancerId ≠ callerId)
    (.forbidden "Only contract parties can raise a dispute")
  throwIf (contract.status ≠ .active) (.badRequest "Contract must be ACTIVE to dispute")
  if contract.escrowTxHash.isSome then
    let _ ← submitDispute config contractId
  let updated ← await (.contractUpdate contractId .disputed none)
  let otherPartyId := if callerId = contract.clientId then contract.freelancerId else contract.clientId
  notify otherPartyId .disputeRaised "Dispute raised on your contract"
    ("A dispute has been raised on contract \"" ++ contract.job.title ++
      "\". Escrow is frozen pending admin review.") contractId none
  notify callerId .disputeRaised "Dispute submitted"
    ("Your dispute on \"" ++ contract.job.title ++
      "\" has been submitted. An admin will review it shortly.") contractId none
  pure updated

/-- What every object inherits. -/
def objectPrototype : List String :=
  ["constructor", "__defineGetter__", "__defineSetter__", "hasOwnProperty", "__lookupGetter__",
    "__lookupSetter__", "isPrototypeOf", "propertyIsEnumerable", "toString", "valueOf", "__proto__",
    "toLocaleString"]

/-- The decision of a name; that of an inherited key is defined as well, but no decision. -/
def decisionMap : String → Option (Option Escrow.DisputeDecision)
  | "release" => some (some .releaseToFreelancer)
  | "refund" => some (some .refundToClient)
  | "split" => some (some .split)
  | key => if key ∈ objectPrototype then some none else none

def finalStatus (decision : String) : ContractStatus :=
  if decision = "refund" then .cancelled else .completed

def outcomeText (dto : ResolveDisputeDto) : String :=
  if dto.decision = "release" then "Funds released to freelancer"
  else if dto.decision = "refund" then "Funds refunded to client"
  else "Funds split (" ++ toString (dto.freelancerBps.getD 0) ++ " bps to freelancer)"

def resolveDispute (contractId : Uuid) (callerRole : UserRole) (dto : ResolveDisputeDto) :
    Request (TxHash × ContractStatus) := do
  throwIf (callerRole ≠ .admin) (.forbidden "Only admins can resolve disputes")
  let contract ← getContractOrThrow contractId
  throwIf (contract.status ≠ .disputed) (.badRequest "Contract is not DISPUTED")
  let decision ← orThrow (decisionMap dto.decision)
    (.badRequest ("Unknown decision: " ++ dto.decision))
  let txHash ← submitResolveDispute config contractId decision (dto.freelancerBps.getD 0)
  let remaining ← remainingAmount config contractId
  let amount ← orThrow (config.numbers.column remaining) .numericOverflow
  await <| .transaction
    [.paymentCreate { contractId, milestoneId := none, amount, stellarTxHash := txHash },
      .contractUpdate contractId (finalStatus dto.decision) none]
  let body := "The dispute on \"" ++ contract.job.title ++ "\" has been resolved. " ++
    outcomeText dto ++ "."
  notify contract.clientId .disputeResolved "Dispute resolved" body contractId none
  notify contract.freelancerId .disputeResolved "Dispute resolved" body contractId none
  pure (txHash, finalStatus dto.decision)

/-- What `cancel` commits: a payment of the rest where a refund went out. -/
def cancelStatements (contractId jobId : Uuid) (amount : Nat) (txHash : Option TxHash) :
    List Statement :=
  (match txHash with
    | some hash => [.paymentCreate
        { contractId, milestoneId := none, amount, stellarTxHash := hash }]
    | none => []) ++
  [.contractUpdate contractId .cancelled none, .jobUpdate jobId .open]

/-- What a refund is recorded with, where there was one. -/
def refundedAmount (txHash : Option TxHash) (remaining : config.numbers.Num) : Request Nat :=
  if txHash.isSome then orThrow (config.numbers.column remaining) .numericOverflow else pure 0

def cancel (contractId callerId : Uuid) (callerRole : UserRole) : Request (Option TxHash) := do
  let contract ← getContractOrThrow contractId
  throwIf (contract.clientId ≠ callerId ∧ callerRole ≠ .admin)
    (.forbidden "Only the client or admin can cancel")
  throwIf (contract.status = .completed ∨ contract.status = .cancelled)
    (.badRequest ("Contract is already " ++ contract.status.text))
  throwIf (contract.escrowTxHash.isSome = true ∧ contract.status ≠ .pending ∧ callerRole ≠ .admin)
    (.forbidden "Escrow is funded — only an admin can cancel after funding")
  let txHash ← if contract.escrowTxHash.isSome then some <$> submitRefund config contractId
    else pure none
  let remaining ← remainingAmount config contractId
  let amount ← refundedAmount config txHash remaining
  await (.transaction (cancelStatements contractId contract.job.id amount txHash))
  notify contract.freelancerId .contractCancelled "Contract cancelled"
    ("The contract for \"" ++ contract.job.title ++ "\" has been cancelled." ++
      if txHash.isSome then " Any escrowed funds have been refunded." else "") contractId none
  notify contract.clientId .contractCancelled "Contract cancelled"
    ("Your contract for \"" ++ contract.job.title ++ "\" has been cancelled." ++
      if txHash.isSome then " Escrowed funds refunded on Stellar." else "") contractId none
  pure txHash

/-- The endpoints, with what authentication and validation pass on. -/
inductive Endpoint where
  | create (clientId : Uuid) (dto : CreateContractDto)
  | confirmFund (id callerId : Uuid) (txHash : TxHash)
  | submitMilestone (contractId milestoneId callerId : Uuid)
  | approveMilestone (contractId milestoneId callerId : Uuid)
  | dispute (contractId callerId : Uuid)
  | resolveDispute (contractId : Uuid) (callerRole : UserRole) (dto : ResolveDisputeDto)
  | cancel (contractId callerId : Uuid) (callerRole : UserRole)

inductive Response where
  | created (contract : ContractView) (fundXdr : Option ChainCall)
  | contract (contract : Contract)
  | milestone (milestone : Milestone)
  | approved (milestone : Option (Milestone × Option Payment))
  | resolved (txHash : TxHash) (status : ContractStatus)
  | cancelled (txHash : Option TxHash)

def handle : Endpoint → Request Response
  | .create clientId dto => (fun r => .created r.1 r.2) <$> create config clientId dto
  | .confirmFund id callerId txHash => .contract <$> confirmFund id callerId txHash
  | .submitMilestone contractId milestoneId callerId =>
      .milestone <$> submitMilestone contractId milestoneId callerId
  | .approveMilestone contractId milestoneId callerId =>
      .approved <$> approveMilestone config contractId milestoneId callerId
  | .dispute contractId callerId => .contract <$> dispute config contractId callerId
  | .resolveDispute contractId callerRole dto =>
      (fun r => .resolved r.1 r.2) <$> resolveDispute config contractId callerRole dto
  | .cancel contractId callerId callerRole =>
      .cancelled <$> cancel config contractId callerId callerRole

end Stellance.Backend.ContractsService
