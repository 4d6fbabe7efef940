import Stellance.Library.Process
import Stellance.Backend.Data
import Stellance.Backend.Numbers
import Stellance.Escrow.Calls

/-! What a request awaits, and the service that talks to the escrow contract. Every
call it submits itself is signed by the admin key. -/
namespace Stellance.Backend

/-- Stellar addresses, of accounts and of contracts. -/
abbrev Address := String

abbrev ChainCall := Escrow.Call Address Symbol

inductive Query where
  | job (id : Uuid)
  | user (id : Uuid)
  | contract (id : Uuid)
  | milestone (id : Uuid)
  | milestoneAmounts (contractId : Uuid)
  | paymentAmounts (contractId : Uuid)

abbrev Query.Answer : Query → Type
  | .job _ => Option (Job × Option Contract)
  | .user _ => Option User
  | .contract _ => Option ContractView
  | .milestone _ => Option (Milestone × Option Payment)
  | .milestoneAmounts _ => List Nat
  | .paymentAmounts _ => List Nat

/-- The operations of a request that leave the process. -/
inductive Op where
  | query (asked : Query)
  | create (data : NewContract)
  | contractUpdate (id : Uuid) (status : ContractStatus) (escrowTxHash : Option TxHash)
  | milestoneUpdate (id : Uuid) (status : MilestoneStatus)
  | transaction (statements : List Statement)
  | notify (notification : Notification)
  | horizon (txHash : TxHash)
  | simulate (call : ChainCall)
  | submit (signer : Address) (call : ChainCall)

abbrev Op.Answer : Op → Type
  | .query asked => asked.Answer
  | .create _ => Contract
  | .contractUpdate .. => Contract
  | .milestoneUpdate .. => Milestone
  | .transaction _ | .notify _ | .horizon _ | .simulate _ => Unit
  | .submit .. => TxHash

abbrev Request (α : Type) := Process Failure Op Op.Answer α

def await (op : Op) : Request op.Answer := Process.perform op

structure Config where
  /-- The public key of `STELLAR_ADMIN_SECRET`, where it is set. -/
  adminPublicKey : Option Address
  tokenContractId : Option Address
  numbers : Numbers

namespace Failure

def badRequest (message : String) : Failure := .http .badRequest message
def forbidden (message : String) : Failure := .http .forbidden message
def notFound (message : String) : Failure := .http .notFound message
def conflict (message : String) : Failure := .http .conflict message
def serviceUnavailable (message : String) : Failure := .http .serviceUnavailable message

/-- A number that does not fit its column. -/
def numericOverflow : Failure := .internal "numeric field overflow"

/-- An infinite number. -/
def notAnInteger : Failure := .internal "The number Infinity cannot be converted to a BigInt because it is not an integer"

def message : Failure → String
  | .http _ message | .internal message => message

end Failure

namespace EscrowService
open Process

/-- `nativeToScVal(value, { type: 'i128' })` -/
def i128 (value : Nat) : Request Escrow.I128 :=
  orThrow (CheckedInt.ofInt? value) (.internal "value out of range for i128")

def getAdminPublicKey (config : Config) : Request Address :=
  orThrow config.adminPublicKey
    (.serviceUnavailable "Admin keypair not configured (STELLAR_ADMIN_SECRET)")

def verifyTransaction (txHash : TxHash) : Request Unit :=
  tryCatch (fun error => fail (.serviceUnavailable
      ("Cannot verify tx " ++ txHash.text ++ " on Horizon: " ++ error.message)))
    (await (.horizon txHash))

/-- The unsigned envelope of the `fund` invocation, once the network simulated it. -/
def buildFundXdr (contractId : Uuid) (clientPublicKey freelancerPublicKey adminPublicKey : Address)
    (amountStroops : Nat) (tokenContractId : Address) : Request ChainCall := do
  let amount ← i128 amountStroops
  let call : ChainCall := .fund contractId.symbol clientPublicKey freelancerPublicKey adminPublicKey
    amount tokenContractId
  await (.simulate call)
  pure call

/-- `_submitAdminInvocation`: simulate, sign with the admin key, send and poll. -/
def submitAdminInvocation (config : Config) (call : ChainCall) : Request TxHash := do
  let signer ← getAdminPublicKey config
  await (.submit signer call)

def submitReleaseMilestone (config : Config) (contractId : Uuid) (amountStroops : Nat) :
    Request TxHash := do
  let admin ← getAdminPublicKey config
  let amount ← i128 amountStroops
  submitAdminInvocation config (.releaseMilestone contractId.symbol admin amount)

def submitRefund (config : Config) (contractId : Uuid) : Request TxHash := do
  let admin ← getAdminPublicKey config
  submitAdminInvocation config (.refund contractId.symbol admin)

def submitDispute (config : Config) (contractId : Uuid) : Request TxHash := do
  let admin ← getAdminPublicKey config
  submitAdminInvocation config (.dispute contractId.symbol admin)

/-- `variants[decision]` is undefined for what is no decision, and is not encoded then. -/
def submitResolveDispute (config : Config) (contractId : Uuid) (decision : Option Escrow.DisputeDecision)
    (freelancerBps : Nat) : Request TxHash := do
  let admin ← getAdminPublicKey config
  let variant ← orThrow decision (.internal "The \"string\" argument must not be undefined")
  submitAdminInvocation config
    (.resolveDispute contractId.symbol admin variant (UInt32.ofNat freelancerBps))

end EscrowService
end Stellance.Backend
