import Stellance.Backend.Database
import Stellance.Backend.Numbers

/-! The payment views. Both are read off the payment rows by one query: the history
of a user, every row signed by the part the user has in its contract, and what a
freelancer has earned, in all and by contract. Amounts are shown with seven decimals,
here without the point; infinity has no digits. -/
namespace Stellance.Backend

inductive TransactionType where
  | escrowFunded
  | milestoneReleased
  | fullRelease
  | refund
  | withdrawal
  | disputeResolved
  deriving DecidableEq

inductive TransactionStatus where
  | pending
  | confirmed
  | failed
  deriving DecidableEq

inductive Asset where
  | xlm
  | usdc
  deriving DecidableEq

/-- Credits show as `+`, debits as `-`. -/
inductive Sign where
  | credit
  | debit
  deriving DecidableEq

structure PaymentTransaction where
  type : TransactionType
  status : TransactionStatus
  asset : Asset
  sign : Sign
  amount : Option Nat
  description : String
  stellarTxHash : TxHash
  counterparty : Option String
  contractId : Uuid
  deriving DecidableEq

/-- What has been earned under one contract. -/
structure ContractEarnings where
  contractId : Uuid
  jobTitle : Option String
  amount : Option Nat
  paymentCount : Nat
  deriving DecidableEq

structure EarningsSummary where
  totalEarned : Option Nat
  currency : Asset
  paymentCount : Nat
  byContract : List ContractEarnings
  deriving DecidableEq

/-- A payment row with the rows Prisma joins to it. -/
structure PaymentView extends Payment where
  contract : Contract
  client : Option User
  freelancer : Option User
  job : Option Job
  milestone : Option Milestone

namespace Db

def paymentView (db : Db) (payment : Payment) : Option PaymentView :=
  (db.contracts.find payment.contractId).map fun contract =>
    { payment with
      contract
      client := db.users.find contract.clientId
      freelancer := db.users.find contract.freelancerId
      job := db.jobs.find contract.jobId
      milestone := payment.milestoneId.bind db.milestones.find }

/-- `payment.findMany` over the contracts a filter admits, newest first. -/
def paymentsUnder (db : Db) (p : Contract → Bool) : List PaymentView :=
  ((db.payments.rows.filterMap db.paymentView).filter fun view => p view.contract).reverse

end Db

namespace PaymentsService
variable (numbers : Numbers)

/-- A title that is there and not empty. -/
def shown (title : Option String) : Option String := title.filter (· ≠ "")

/-- The milestone title, else the job title, else the first of the contract id. -/
def description (view : PaymentView) : String :=
  match shown (view.milestone.map Milestone.title), shown (view.job.map Job.title) with
  | some title, _ => "Milestone: " ++ title
  | none, some title => "Contract: " ++ title
  | none, none => "Contract " ++ String.ofList (view.contract.id.text.take 8)

/-- One line of the history. Rows carry no direction: the client's are debits and the
freelancer's are credits, whatever the row was made for. -/
def transaction (userId : Uuid) (view : PaymentView) : PaymentTransaction :=
  let isClient := view.contract.clientId = userId
  let counterparty := if isClient then view.freelancer else view.client
  { type := if view.milestoneId ≠ none then .milestoneReleased else .fullRelease
    status := .confirmed
    asset := .xlm
    sign := if isClient then .debit else .credit
    amount := numbers.toFixed 7 (numbers.amount view.amount)
    description := description view
    stellarTxHash := view.stellarTxHash
    counterparty := counterparty.bind User.stellarPublicKey
    contractId := view.contractId }

def getTransactions (db : Db) (userId : Uuid) : List PaymentTransaction :=
  (db.paymentsUnder fun contract => contract.clientId = userId ∨ contract.freelancerId = userId).map
    (transaction numbers userId)

/-- An entry of `contractMap`. -/
structure Info where
  contractId : Uuid
  jobTitle : Option String
  amountCents : numbers.Num
  count : Nat

/-- `Math.round(parseFloat(p.amount.toString()) * SCALE)` -/
def cents (view : PaymentView) : numbers.Num := numbers.toStroops (numbers.amount view.amount)

/-- The map of the contracts seen so far, in the order they were first seen. -/
def addPayment (view : PaymentView) : List (Info numbers) → List (Info numbers)
  | [] => [⟨view.contractId, view.job.map Job.title, cents numbers view, 1⟩]
  | existing :: rest =>
      if existing.contractId = view.contractId then
        { existing with
          amountCents := numbers.add existing.amountCents (cents numbers view)
          count := existing.count + 1 } :: rest
      else existing :: addPayment view rest

/-- The loop over the payments: `totalCents`, and the map by contract. -/
def aggregate : List PaymentView → numbers.Num × List (Info numbers) → numbers.Num × List (Info numbers)
  | [], aggregated => aggregated
  | view :: rest, (totalCents, contractMap) =>
      aggregate rest (numbers.add totalCents (cents numbers view), addPayment numbers view contractMap)

/-- `(cents / SCALE).toFixed(7)` -/
def inXlm (cents : numbers.Num) : Option Nat := numbers.toFixed 7 (numbers.div cents numbers.scale)

/-- The summary of the payments that were found, in the order they were found in. -/
def summarize (payments : List PaymentView) : EarningsSummary :=
  let aggregated := aggregate numbers payments (numbers.ofNat 0, [])
  { totalEarned := inXlm numbers aggregated.1
    currency := .xlm
    paymentCount := payments.length
    byContract := aggregated.2.map fun info =>
      { contractId := info.contractId
        jobTitle := info.jobTitle
        amount := inXlm numbers info.amountCents
        paymentCount := info.count } }

def getEarnings (db : Db) (freelancerId : Uuid) : EarningsSummary :=
  summarize numbers (db.paymentsUnder fun contract => contract.freelancerId = freelancerId)

end PaymentsService

/-! ### What the views are read off -/

open PaymentsService

/-- The credits that a history shows for a contract. -/
def credited (history : List PaymentTransaction) (contractId : Uuid) : Nat :=
  ((history.filter fun line => line.contractId = contractId ∧ line.sign = .credit).map fun line =>
    line.amount.getD 0).sum

/-- The payments on record for a contract, together. -/
def Db.recorded (db : Db) (id : Uuid) : Nat := ((db.paymentsOf id).map Payment.amount).sum

/-- Joined payments are the rows they come from, newest first. -/
theorem amounts_paymentsUnder (db : Db) (p : Contract → Bool) (keep : PaymentView → Bool) (q : Payment → Bool)
    (same : ∀ payment, (db.paymentView payment).any (fun view => keep view && p view.contract) =
      q payment) :
    ((db.paymentsUnder p).filter keep).map (·.amount) = ((db.payments.rows.filter q).map Payment.amount).reverse := by
  unfold Db.paymentsUnder
  rw [List.filter_reverse, List.filter_filter, List.map_reverse]
  congr 1
  induction db.payments.rows with
  | nil => rfl
  | cons payment rest ih =>
    have here := same payment
    cases found : db.paymentView payment with
    | none =>
      rw [found] at here
      rw [List.filterMap_cons_none found, ih, List.filter_cons_of_neg (by simp [← here])]
    | some view =>
      have amount : view.amount = payment.amount := by
        obtain ⟨_, _, rfl⟩ := Option.map_eq_some_iff.mp found
        rfl
      rw [found, Option.any_some] at here
      rw [List.filterMap_cons_some found, List.filter_cons, List.filter_cons, here]
      cases q payment with
      | false => exact ih
      | true => simp [ih, amount]

/-- The amounts that the earnings of a freelancer are read off. -/
theorem amounts_getEarnings (db : Db) (freelancerId : Uuid) :
    (db.paymentsUnder fun contract => contract.freelancerId = freelancerId).map (·.amount) =
      ((db.payments.rows.filter fun payment =>
        (db.contracts.find payment.contractId).any (·.freelancerId = freelancerId)).map Payment.amount).reverse := by
  have views := amounts_paymentsUnder db (fun contract => contract.freelancerId = freelancerId)
    (fun _ => true)
    (fun payment => (db.contracts.find payment.contractId).any (·.freelancerId = freelancerId)) (by
      intro payment
      unfold Db.paymentView
      cases db.contracts.find payment.contractId <;> simp)
  rwa [List.filter_true] at views

variable {numbers : Numbers} {view : PaymentView} {payments : List PaymentView}

theorem aggregate_totalCents (payments : List PaymentView) (totalCents : numbers.Num)
    (contractMap : List (Info numbers)) :
    (aggregate numbers payments (totalCents, contractMap)).1 =
      (payments.map (cents numbers)).foldl numbers.add totalCents := by
  induction payments generalizing totalCents contractMap with
  | nil => rfl
  | cons view rest ih => exact ih _ _

/-- What was earned in all is the sum of all amounts, rounded as it may be. -/
theorem summarize_totalEarned : (summarize numbers payments).totalEarned =
    inXlm numbers (numbers.cents (payments.map (·.amount))) := by
  rw [Numbers.cents, List.map_map]
  exact congrArg (inXlm numbers) (aggregate_totalCents payments _ _)

end Stellance.Backend
