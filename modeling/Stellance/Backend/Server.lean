import Stellance.Backend.ContractsService
import Stellance.Library.Runs

/-! The world the requests act on: the database and the network with the escrow
contract on it. `Serves` says which answers an awaited operation may get and what it
leaves behind. Faults (an operation that rejects, a submission whose fate is not
known to its sender) are answers like others and can be switched off. -/
namespace Stellance.Backend
variable {τ : Type}

abbrev Ledger (τ : Type) := Escrow.Ledger Address Symbol τ

/-- A call the backend sent, with the request that sent it and its signer. -/
structure Sent where
  request : Nat
  signer : Address
  call : ChainCall
  deriving DecidableEq

/-- The network: the ledger with the escrow contract, the hashes of the transactions
on it, the calls sent whose senders gave up waiting, and those that were executed. -/
structure Chain (τ : Type) where
  ledger : Ledger τ
  included : List TxHash
  pending : List Sent
  executed : List Sent

structure World (τ : Type) where
  db : Db
  chain : Chain τ

namespace Chain
variable (host : Escrow.Host Address τ)

def Succeeds (chain : Chain τ) (auths : Finset Address) (call : ChainCall) : Prop :=
  (Escrow.invoke host auths call chain.ledger.state).1.outcome = .ok

instance (chain : Chain τ) (auths : Finset Address) (call : ChainCall) :
    Decidable (chain.Succeeds host auths call) :=
  inferInstanceAs (Decidable (_ = _))

/-- A transaction with one call enters the ledger under a new hash. -/
def enter (chain : Chain τ) (auths : Finset Address) (call : ChainCall) (hash : TxHash) : Chain τ :=
  { chain with
    ledger := chain.ledger.act host (.call auths call)
    included := chain.included ++ [hash] }

/-- A transaction in which the escrow contract has no part. -/
def pass (chain : Chain τ) (tokens : τ) (hash : TxHash) : Chain τ :=
  { chain with
    ledger := chain.ledger.act host (.outside tokens)
    included := chain.included ++ [hash] }

/-- The same for a call of the backend, noted when it went through. -/
def execute (chain : Chain τ) (sent : Sent) (hash : TxHash) : Chain τ :=
  { chain.enter host {sent.signer} sent.call hash with
    executed := if chain.Succeeds host {sent.signer} sent.call then chain.executed ++ [sent]
      else chain.executed }

end Chain

namespace Db

def jobWithContract (db : Db) (id : Uuid) : Option (Job × Option Contract) :=
  (db.jobs.find id).map fun job => (job, db.contractOfJob id)

def milestoneWithPayment (db : Db) (id : Uuid) : Option (Milestone × Option Payment) :=
  (db.milestones.find id).map fun milestone =>
    (milestone, db.payments.rows.find? (·.milestoneId = some id))

def answer (db : Db) : (query : Query) → query.Answer
  | .job id => db.jobWithContract id
  | .user id => db.users.find id
  | .contract id => db.contractView id
  | .milestone id => db.milestoneWithPayment id
  | .milestoneAmounts contractId => (db.milestonesOf contractId).map Milestone.amount
  | .paymentAmounts contractId => (db.paymentsOf contractId).map Payment.amount

end Db

/-- The answers of the world to the operations of a request. -/
inductive Serves (host : Escrow.Host Address τ) (faults : Prop) (request : Nat) (w : World τ) :
    (op : Op) → Except Failure op.Answer → World τ → Prop where
  | read (query : Query) : Serves host faults request w (.query query) (.ok (w.db.answer query)) w
  | created {data : NewContract} {id : Uuid} {milestoneIds : List Uuid} {db : Db} {row : Contract}
      (created : w.db.create id milestoneIds data = some db) (stored : db.contracts.find id = some row) :
      Serves host faults request w (.create data) (.ok row) { w with db }
  | contractUpdated {id : Uuid} {status : ContractStatus} {hash : Option TxHash} {db : Db}
      {row : Contract} (updated : w.db.execute (.contractUpdate id status hash) = some db)
      (stored : db.contracts.find id = some row) :
      Serves host faults request w (.contractUpdate id status hash) (.ok row) { w with db }
  | milestoneUpdated {id : Uuid} {status : MilestoneStatus} {db : Db} {row : Milestone}
      (updated : w.db.execute (.milestoneUpdate id status) = some db)
      (stored : db.milestones.find id = some row) :
      Serves host faults request w (.milestoneUpdate id status) (.ok row) { w with db }
  | committed {statements : List Statement} {db : Db}
      (executed : w.db.executeAll statements = some db) :
      Serves host faults request w (.transaction statements) (.ok ()) { w with db }
  | notified (notification : Notification) :
      Serves host faults request w (.notify notification) (.ok ())
        { w with db := { w.db with notifications := w.db.notifications ++ [notification] } }
  | onHorizon {txHash : TxHash} (included : txHash ∈ w.chain.included) :
      Serves host faults request w (.horizon txHash) (.ok ()) w
  | notOnHorizon {txHash : TxHash} (error : Failure) (absent : txHash ∉ w.chain.included) :
      Serves host faults request w (.horizon txHash) (.error error) w
  | simulated (call : ChainCall) : Serves host faults request w (.simulate call) (.ok ()) w
  | notSimulated (call : ChainCall) (error : Failure) :
      Serves host faults request w (.simulate call) (.error error) w
  | applied {signer : Address} {call : ChainCall} {hash : TxHash} (fresh : hash ∉ w.chain.included)
      (succeeds : w.chain.Succeeds host {signer} call) :
      Serves host faults request w (.submit signer call) (.ok hash)
        { w with chain := w.chain.execute host ⟨request, signer, call⟩ hash }
  | refused (signer : Address) (call : ChainCall) (error : Failure) :
      Serves host faults request w (.submit signer call) (.error error) w
  | failed {signer : Address} {call : ChainCall} {hash : TxHash} (error : Failure)
      (fresh : hash ∉ w.chain.included) (fails : ¬ w.chain.Succeeds host {signer} call) :
      Serves host faults request w (.submit signer call) (.error error)
        { w with chain := w.chain.execute host ⟨request, signer, call⟩ hash }
  | rejectedCreate {data : NewContract} (error : Failure)
      (impossible : faults ∨ ∀ id ids, w.db.create id ids data = none) :
      Serves host faults request w (.create data) (.error error) w
  | rejectedContractUpdate {id : Uuid} {status : ContractStatus} {hash : Option TxHash}
      (error : Failure)
      (impossible : faults ∨ w.db.execute (.contractUpdate id status hash) = none) :
      Serves host faults request w (.contractUpdate id status hash) (.error error) w
  | rejectedMilestoneUpdate {id : Uuid} {status : MilestoneStatus} (error : Failure)
      (impossible : faults ∨ w.db.execute (.milestoneUpdate id status) = none) :
      Serves host faults request w (.milestoneUpdate id status) (.error error) w
  | rejectedTransaction {statements : List Statement} (error : Failure)
      (impossible : faults ∨ w.db.executeAll statements = none) :
      Serves host faults request w (.transaction statements) (.error error) w
  | unanswered {query : Query} (error : Failure) (fault : faults) :
      Serves host faults request w (.query query) (.error error) w
  | unnotified {notification : Notification} (error : Failure) (fault : faults) :
      Serves host faults request w (.notify notification) (.error error) w
  | unreachable {txHash : TxHash} (error : Failure) (fault : faults) :
      Serves host faults request w (.horizon txHash) (.error error) w
  | lost {signer : Address} {call : ChainCall} (error : Failure) (fault : faults) :
      Serves host faults request w (.submit signer call) (.error error)
        { w with chain := { w.chain with pending := w.chain.pending ++ [⟨request, signer, call⟩] } }

/-- The network on its own: others call contracts and move tokens, and a call whose
sender gave up waiting is executed after all, or never. -/
inductive Outside (host : Escrow.Host Address τ) : World τ → World τ → Prop where
  | called {w : World τ} (auths : Finset Address) (call : ChainCall) {hash : TxHash}
      (fresh : hash ∉ w.chain.included) :
      Outside host w { w with chain := w.chain.enter host auths call hash }
  | unrelated {w : World τ} (tokens : τ) {hash : TxHash} (fresh : hash ∉ w.chain.included) :
      Outside host w { w with chain := w.chain.pass host tokens hash }
  | settled {w : World τ} {index : Nat} {sent : Sent} {hash : TxHash}
      (waiting : w.chain.pending[index]? = some sent) (fresh : hash ∉ w.chain.included) :
      Outside host w { w with chain :=
        { w.chain.execute host sent hash with pending := w.chain.pending.eraseIdx index } }
  | expired {w : World τ} (index : Nat) :
      Outside host w { w with chain := { w.chain with
        pending := w.chain.pending.eraseIdx index } }

end Stellance.Backend
