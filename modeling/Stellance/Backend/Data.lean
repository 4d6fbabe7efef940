import Stellance.Library.Table
import Stellance.Backend.Ids

/-! The database of the backend and the statements it executes. Amounts are whole
stroops, the 10⁻⁷ units of `Decimal(18,7)`. A statement that breaks a key, a unique
column or a reference is refused, and with it its whole transaction. -/
namespace Stellance.Backend

inductive UserRole where
  | client
  | freelancer
  | admin
  deriving DecidableEq

inductive JobStatus where
  | open
  | inProgress
  | completed
  | cancelled
  deriving DecidableEq

inductive ContractStatus where
  | pending
  | active
  | completed
  | disputed
  | cancelled
  deriving DecidableEq

def ContractStatus.text : ContractStatus → String
  | .pending => "PENDING"
  | .active => "ACTIVE"
  | .completed => "COMPLETED"
  | .disputed => "DISPUTED"
  | .cancelled => "CANCELLED"

inductive MilestoneStatus where
  | pending
  | inReview
  | approved
  | paid
  deriving DecidableEq

/-- Stellar transaction hashes, never empty. -/
structure TxHash where
  text : String
  notEmpty : text ≠ ""
  deriving DecidableEq

structure User where
  id : Uuid
  stellarPublicKey : Option String
  deriving DecidableEq

structure Job where
  id : Uuid
  title : String
  description : String
  budget : Nat
  category : String
  status : JobStatus
  clientId : Uuid
  deriving DecidableEq

structure Contract where
  id : Uuid
  jobId : Uuid
  freelancerId : Uuid
  clientId : Uuid
  status : ContractStatus
  escrowTxHash : Option TxHash
  deriving DecidableEq

structure Milestone where
  id : Uuid
  contractId : Uuid
  title : String
  amount : Nat
  status : MilestoneStatus
  deriving DecidableEq

structure Payment where
  contractId : Uuid
  milestoneId : Option Uuid
  amount : Nat
  stellarTxHash : TxHash
  deriving DecidableEq

inductive NotificationType where
  | contractCreated
  | contractFunded
  | contractCompleted
  | contractCancelled
  | milestoneSubmitted
  | milestoneApproved
  | milestonePaid
  | disputeRaised
  | disputeResolved
  deriving DecidableEq

structure Notification where
  userId : Uuid
  type : NotificationType
  title : String
  body : String
  contractId : Option Uuid
  milestoneId : Option Uuid
  deriving DecidableEq

structure Db where
  users : Table User.id
  jobs : Table Job.id
  contracts : Table Contract.id
  milestones : Table Milestone.id
  payments : Table Payment.stellarTxHash
  notifications : List Notification

/-- A contract row with the rows Prisma joins to it. -/
structure ContractView extends Contract where
  milestones : List Milestone
  payments : List Payment
  job : Job
  client : User
  freelancer : User

/-! ### Statements -/

inductive Statement where
  | contractUpdate (id : Uuid) (status : ContractStatus) (escrowTxHash : Option TxHash)
  | milestoneUpdate (id : Uuid) (status : MilestoneStatus)
  | jobUpdate (id : Uuid) (status : JobStatus)
  | paymentCreate (row : Payment)

/-- What `create` inserts, before ids are given out. -/
structure NewContract where
  jobId : Uuid
  clientId : Uuid
  freelancerId : Uuid
  milestones : List (String × Nat)

namespace Contract

/-- `data: { status, escrowTxHash? }`, where an absent hash leaves the column. -/
def updated (status : ContractStatus) (escrowTxHash : Option TxHash) (row : Contract) : Contract :=
  { row with status, escrowTxHash := escrowTxHash <|> row.escrowTxHash }

@[simp] theorem updated_id (status : ContractStatus) (hash : Option TxHash) (row : Contract) :
    (row.updated status hash).id = row.id := rfl

end Contract

namespace Milestone

def updated (status : MilestoneStatus) (row : Milestone) : Milestone := { row with status }

@[simp] theorem updated_id (status : MilestoneStatus) (row : Milestone) :
    (row.updated status).id = row.id := rfl

end Milestone

namespace Job

def updated (status : JobStatus) (row : Job) : Job := { row with status }

@[simp] theorem updated_id (status : JobStatus) (row : Job) : (row.updated status).id = row.id := rfl

end Job

namespace Db

def milestonesOf (db : Db) (contractId : Uuid) : List Milestone :=
  db.milestones.select (·.contractId = contractId)

def paymentsOf (db : Db) (contractId : Uuid) : List Payment :=
  db.payments.select (·.contractId = contractId)

/-- `contract.findUnique` with its includes. References are kept, so a row has what
it points to. -/
def contractView (db : Db) (id : Uuid) : Option ContractView := do
  let contract ← db.contracts.find id
  let job ← db.jobs.find contract.jobId
  let client ← db.users.find contract.clientId
  let freelancer ← db.users.find contract.freelancerId
  some { contract with
    milestones := db.milestonesOf id
    payments := db.paymentsOf id
    job, client, freelancer }

/-- The contract of a job, if it has one. -/
def contractOfJob (db : Db) (jobId : Uuid) : Option Contract :=
  db.contracts.rows.find? fun contract => contract.jobId = jobId

/-- A hash no other contract carries. -/
def hashFree (db : Db) (id : Uuid) (hash : Option TxHash) : Bool :=
  db.contracts.rows.all fun contract => contract.id = id ∨ hash = none ∨ contract.escrowTxHash ≠ hash

/-- What a payment refers to is there, and its milestone is not paid twice. -/
def payable (db : Db) (row : Payment) : Bool :=
  (db.contracts.find row.contractId).isSome ∧
    (row.milestoneId.all fun id => (db.milestones.find id).isSome ∧
      db.payments.rows.all fun payment => payment.milestoneId ≠ some id)

def execute (db : Db) : Statement → Option Db
  | .contractUpdate id status hash =>
      if (db.contracts.find id).isSome ∧ db.hashFree id hash then
        some { db with
          contracts := db.contracts.modify id (·.updated status hash) (Contract.updated_id status hash) }
      else none
  | .milestoneUpdate id status =>
      if (db.milestones.find id).isSome then
        some { db with
          milestones := db.milestones.modify id (·.updated status) (Milestone.updated_id status) }
      else none
  | .jobUpdate id status =>
      if (db.jobs.find id).isSome then
        some { db with jobs := db.jobs.modify id (·.updated status) (Job.updated_id status) }
      else none
  | .paymentCreate row =>
      if db.payable row then
        (db.payments.insert row).map fun payments => { db with payments }
      else none

/-- Statements in order, all of them or none. -/
def executeAll (db : Db) : List Statement → Option Db
  | [] => some db
  | statement :: rest => (db.execute statement).bind (·.executeAll rest)

/-- The transaction of `create`, under the ids it was given. -/
def create (db : Db) (id : Uuid) (milestoneIds : List Uuid) (data : NewContract) : Option Db := do
  guard (milestoneIds.length = data.milestones.length ∧ (db.contractOfJob data.jobId).isNone ∧
    (db.users.find data.clientId).isSome ∧ (db.users.find data.freelancerId).isSome)
  let contracts ← db.contracts.insert
    { id, jobId := data.jobId, freelancerId := data.freelancerId, clientId := data.clientId,
      status := .pending, escrowTxHash := none }
  let milestones ← db.milestones.insertAll <|
    (milestoneIds.zip data.milestones).map fun (milestoneId, title, amount) =>
      { id := milestoneId, contractId := id, title, amount, status := .pending }
  { db with contracts, milestones }.execute (.jobUpdate data.jobId .inProgress)

end Db

/-! ### Requests -/

/-- A milestone as asked for: a title and a positive amount. -/
structure MilestoneInputDto where
  title : String
  amount : Nat
  titled : title ≠ ""
  positive : 0 < amount

structure CreateContractDto where
  jobId : Uuid
  freelancerId : Uuid
  milestones : List MilestoneInputDto
  someMilestone : milestones ≠ []

structure ResolveDisputeDto where
  decision : String
  freelancerBps : Option Nat
  atMost : ∀ bps ∈ freelancerBps, bps ≤ 10000

inductive HttpStatus where
  | badRequest
  | forbidden
  | notFound
  | conflict
  | serviceUnavailable
  deriving DecidableEq

/-- What a request is rejected with: an answer of its own, or an error of a
library it awaited. -/
inductive Failure where
  | http (status : HttpStatus) (message : String)
  | internal (message : String)
  deriving DecidableEq

end Stellance.Backend
