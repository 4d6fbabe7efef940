import Stellance.Library.Binary64
import Stellance.Backend.Marketplace
import Stellance.Backend.PaymentsService

/-! Withdrawals. The backend pays them from the admin account, to whatever address the
request names and in the amount it asks for. What the user has earned is in the payment
rows, which `withdraw` does not read. -/

namespace Stellance.Backend
open Process (completes_bind completes_throwIf completes_orThrow completes_pure completes_perform
  completes_tryCatch completes_fail)

/-- `/^G[A-Z2-7]{55}$/` -/
def stellarKey (text : String) : Bool :=
  match text.toList with
  | initial :: rest => initial = 'G' && rest.length = 55 &&
      rest.all fun c => ('A' ≤ c && c ≤ 'Z') || ('2' ≤ c && c ≤ '7')
  | [] => false

structure WithdrawDto where
  asset : Asset
  amount : Numeral
  destinationAddress : String
  shaped : stellarKey destinationAddress = true

/-- A payment in XLM from the admin account, in stroops. -/
structure NativePayment where
  source : Address
  sequence : Nat
  fee : Nat
  destination : Address
  amount : Nat

/-- The answer to a withdrawal, a line of the history that is under no contract. -/
structure WithdrawalTransaction where
  type : TransactionType
  status : TransactionStatus
  asset : Asset
  sign : Sign
  amount : Nat
  description : String
  stellarTxHash : TxHash
  counterparty : String
  deriving DecidableEq

namespace PaymentsService

/-- What a withdrawal awaits from Horizon. -/
inductive Op where
  | loadAccount (publicKey : Address)
  | fetchBaseFee
  | submitTransaction (payment : NativePayment)

abbrev Op.Answer : Op → Type
  | .loadAccount _ | .fetchBaseFee => Nat
  | .submitTransaction _ => TxHash

abbrev Request (α : Type) := Process Failure Op Op.Answer α

def await (op : Op) : Request op.Answer := Process.perform op

/-- The amounts a payment operation takes: positive, and at most the greatest `Int64`. -/
def payable (numbers : Numbers) (amount : numbers.Num) : Option Nat :=
  (numbers.toFixed 7 amount).filter fun stroops => 0 < stroops ∧ stroops ≤ 9223372036854775807

/-- `destination.slice(0, 6)…destination.slice(-6)` -/
def shortened (destination : String) : String :=
  let letters := destination.toList
  String.ofList (letters.take 6) ++ "…" ++ String.ofList (letters.drop (letters.length - 6))

/-- The withdrawal, over any numbers. The user who asks is not among what the body reads. -/
def withdrawIn (numbers : Numbers) (isValidEd25519PublicKey : String → Bool) (config : Config)
    (dto : WithdrawDto) : Request WithdrawalTransaction := do
  Process.throwIf (isValidEd25519PublicKey dto.destinationAddress = false)
    (.badRequest ("Invalid Stellar address: " ++ dto.destinationAddress))
  let amountNum := numbers.parseFloat dto.amount
  Process.throwIf (numbers.notPositive amountNum = true)
    (.badRequest "Amount must be a positive number")
  Process.throwIf (dto.asset ≠ .xlm)
    (.badRequest "Only XLM withdrawals are supported at this time")
  let adminPublicKey ← Process.orThrow config.adminPublicKey
    (.serviceUnavailable "Withdrawal service not configured (STELLAR_ADMIN_SECRET missing)")
  Process.tryCatch (fun error => .fail (.serviceUnavailable ("Withdrawal failed: " ++ error.message))) do
    let sequence ← await (.loadAccount adminPublicKey)
    let fee ← await .fetchBaseFee
    let amount ← Process.orThrow (payable numbers amountNum) (.internal
      "amount argument must be of type String, represent a positive number and have at most 7 digits after the decimal")
    let txHash ← await (.submitTransaction
      ⟨adminPublicKey, sequence + 1, fee, dto.destinationAddress, amount⟩)
    pure
      { type := .withdrawal
        status := .confirmed
        asset := .xlm
        sign := .debit
        amount
        description := "Withdrawal to " ++ shortened dto.destinationAddress
        stellarTxHash := txHash
        counterparty := dto.destinationAddress }

def withdraw (isValidEd25519PublicKey : String → Bool) (config : Config) (dto : WithdrawDto) :
    Request WithdrawalTransaction := withdrawIn .doubles isValidEd25519PublicKey config dto

end PaymentsService

/-- What a withdrawal sends, in stroops: its amount to seven places. -/
def WithdrawDto.asked (dto : WithdrawDto) : Option Nat :=
  PaymentsService.payable .doubles (Numbers.doubles.parseFloat dto.amount)

/-- Up to 2²⁹ XLM an amount of seven places at most is sent as it is written. -/
theorem asked_exact {dto : WithdrawDto} {n : Nat} (positive : 0 < n)
    (small : dto.amount.numerator < 2 ^ 29 * dto.amount.denominator)
    (exact : dto.amount.numerator * 10 ^ 7 = n * dto.amount.denominator) : dto.asked = some n := by
  have some_denominator : 0 < dto.amount.denominator := Nat.pow_pos (by omega)
  have printed : Numbers.doubles.toFixed 7 (Numbers.doubles.parseFloat dto.amount) = some n :=
    Double.toFixed_nearest (k := 28) some_denominator small (by norm_num) exact
  have bounded : n < 2 ^ 29 * 10 ^ 7 := by
    refine Nat.lt_of_mul_lt_mul_right (a := dto.amount.denominator) ?_
    rw [← exact, Nat.mul_right_comm]
    exact Nat.mul_lt_mul_of_pos_right small (by norm_num)
  unfold WithdrawDto.asked PaymentsService.payable
  rw [printed, Option.filter_some, if_pos]
  simp only [positive, true_and, decide_eq_true_eq]
  omega

/-! ### The admin account -/

/-- A payment of the admin account, and the user whose request sent it. -/
structure Transfer where
  userId : Uuid
  destination : Address
  amount : Nat

/-- The world, and the payments that withdrawals have made in it. -/
structure Treasury (τ : Type) where
  world : World τ
  transfers : List Transfer

variable {τ : Type} {host : Escrow.Host Address τ} {config : Config}
  {isValidEd25519PublicKey : String → Bool}

namespace Treasury

/-- A payment enters the ledger. The escrow contract has no part in it. -/
def pay (treasury : Treasury τ) (host : Escrow.Host Address τ) (userId : Uuid) (payment : NativePayment)
    (tokens : τ) (hash : TxHash) : Treasury τ where
  world := { treasury.world with chain := treasury.world.chain.pass host tokens hash }
  transfers := treasury.transfers ++ [⟨userId, payment.destination, payment.amount⟩]

/-- What the withdrawals of a user have sent. -/
def withdrawn (treasury : Treasury τ) (userId : Uuid) : Nat :=
  ((treasury.transfers.filter (·.userId = userId)).map Transfer.amount).sum

/-- `getEarnings(userId).totalEarned`, where it is finite. -/
def earned (treasury : Treasury τ) (userId : Uuid) : Option Nat :=
  (PaymentsService.getEarnings .doubles treasury.world.db userId).totalEarned

/-- Nobody has withdrawn more than they have earned. -/
def Covered (treasury : Treasury τ) : Prop :=
  ∀ userId, ∀ earned ∈ treasury.earned userId, treasury.withdrawn userId ≤ earned

/-- The answers of Horizon. A payment that is applied may still be answered by an error. -/
inductive Serves (host : Escrow.Host Address τ) (userId : Uuid) (treasury : Treasury τ) :
    (op : PaymentsService.Op) → Except Failure op.Answer → Treasury τ → Prop where
  | loaded (publicKey : Address) (sequence : Nat) :
      Serves host userId treasury (.loadAccount publicKey) (.ok sequence) treasury
  | fee (stroops : Nat) : Serves host userId treasury .fetchBaseFee (.ok stroops) treasury
  | applied (payment : NativePayment) (tokens : τ) {hash : TxHash}
      (fresh : hash ∉ treasury.world.chain.included) :
      Serves host userId treasury (.submitTransaction payment) (.ok hash)
        (treasury.pay host userId payment tokens hash)
  | unconfirmed (payment : NativePayment) (tokens : τ) (error : Failure) {hash : TxHash}
      (fresh : hash ∉ treasury.world.chain.included) :
      Serves host userId treasury (.submitTransaction payment) (.error error)
        (treasury.pay host userId payment tokens hash)
  | rejected (op : PaymentsService.Op) (error : Failure) : Serves host userId treasury op (.error error) treasury

inductive Label where
  | market (label : Market.Label)
  | withdraw (userId : Uuid) (dto : WithdrawDto) (made : List Transfer)

/-- A step of the marketplace, or a withdrawal run to its end. -/
inductive Step (host : Escrow.Host Address τ) (config : Config) (isValidEd25519PublicKey : String → Bool) :
    Treasury τ → Label → Treasury τ → Prop where
  | market {w w' : World τ} {transfers : List Transfer} {label : Market.Label}
      (step : Market.Step host config w label w') :
      Step host config isValidEd25519PublicKey ⟨w, transfers⟩ (.market label) ⟨w', transfers⟩
  | withdraw {treasury treasury' : Treasury τ} {userId : Uuid} {dto : WithdrawDto}
      {result : Except Failure WithdrawalTransaction} {made : List Transfer}
      (ran : Process.Completes (Serves host userId) treasury
        (PaymentsService.withdraw isValidEd25519PublicKey config dto) result treasury')
      (booked : treasury'.transfers = treasury.transfers ++ made) :
      Step host config isValidEd25519PublicKey treasury (.withdraw userId dto made) treasury'

/-- A withdrawal is paid that asks for more than its user has left. -/
def Overdraws (treasury : Treasury τ) : Label → Prop
  | .market _ => False
  | .withdraw userId dto made => made ≠ [] ∧ ∃ amount, dto.asked = some amount ∧
      ∃ earned ∈ treasury.earned userId, earned < treasury.withdrawn userId + amount

end Treasury

/-! ### Earnings only grow -/

namespace Db
variable {db db' : Db} {id : Uuid} {statement : Statement}

/-- Payments are added at most, and a contract keeps its freelancer. -/
structure Keeps (db db' : Db) : Prop where
  payments : db.payments.rows <+: db'.payments.rows
  freelancer : ∀ key row, db.contracts.find key = some row →
    ∃ row', db'.contracts.find key = some row' ∧ row'.freelancerId = row.freelancerId

theorem Keeps.of_eq (payments : db'.payments = db.payments) (contracts : db'.contracts = db.contracts) :
    Keeps db db' where
  payments := by rw [payments]
  freelancer key row found := ⟨row, by rw [contracts, found], rfl⟩

theorem Keeps.trans {db'' : Db} (first : Keeps db db') (second : Keeps db' db'') : Keeps db db'' where
  payments := first.payments.trans second.payments
  freelancer := by
    intro key row found
    obtain ⟨row', found', same⟩ := first.freelancer key row found
    obtain ⟨row'', found'', same'⟩ := second.freelancer key row' found'
    exact ⟨row'', found'', same'.trans same⟩

theorem contractUpdate_keeps {status : ContractStatus} {hash : Option TxHash}
    (updated : db.execute (.contractUpdate id status hash) = some db') : Keeps db db' := by
  obtain ⟨row, found, stored, others, _, payments⟩ := contractUpdate_some updated
  refine ⟨by rw [payments], fun key old found' => ?_⟩
  by_cases here : key = id
  · subst here
    obtain rfl := Option.some.inj (found.symm.trans found')
    exact ⟨_, stored, rfl⟩
  · exact ⟨old, by rw [others key here, found'], rfl⟩

theorem execute_keeps (executed : db.execute statement = some db') : Keeps db db' := by
  cases statement with
  | contractUpdate => exact contractUpdate_keeps executed
  | milestoneUpdate =>
    obtain ⟨contracts, payments, _⟩ := milestoneUpdate_some executed
    exact .of_eq payments contracts
  | jobUpdate =>
    obtain ⟨contracts, _, payments⟩ := jobUpdate_some executed
    exact .of_eq payments contracts
  | paymentCreate row =>
    obtain ⟨contracts, _, _, _, payments, _⟩ := paymentCreate_some executed
    exact ⟨payments ▸ List.prefix_append _ _, fun key row found => ⟨row, contracts ▸ found, rfl⟩⟩

theorem executeAll_keeps {statements : List Statement} (executed : db.executeAll statements = some db') :
    Keeps db db' := by
  induction statements generalizing db with
  | nil =>
    obtain rfl := Option.some.inj executed
    exact .of_eq rfl rfl
  | cons statement rest ih =>
    obtain ⟨between, first, later⟩ := executeAll_cons executed
    exact (execute_keeps first).trans (ih later)

theorem create_keeps {ids : List Uuid} {data : NewContract} (created : db.create id ids data = some db') :
    Keeps db db' := by
  obtain ⟨_, absent, _, others, payments, _⟩ := create_some created
  refine ⟨by rw [payments], fun key row found => ⟨row, ?_, rfl⟩⟩
  have other : key ≠ id := by
    rintro rfl
    rw [absent] at found
    contradiction
  rw [others key other, found]

/-- The payments to a freelancer remain, among others. -/
theorem Keeps.amounts (keeps : Keeps db db') (userId : Uuid) :
    ((db.paymentsUnder fun contract => contract.freelancerId = userId).map (·.amount)).Sublist
      ((db'.paymentsUnder fun contract => contract.freelancerId = userId).map (·.amount)) := by
  obtain ⟨added, rows⟩ := keeps.payments
  rw [amounts_getEarnings, amounts_getEarnings, ← rows, List.filter_append, List.reverse_sublist]
  refine List.Sublist.map _ (List.Sublist.trans ?_ (List.sublist_append_left _ _))
  refine List.monotone_filter_right _ fun payment mine => ?_
  obtain ⟨row, found, freelancer⟩ := (Option.any_eq_true _ _).mp mine
  obtain ⟨row', found', same⟩ := keeps.freelancer _ row found
  exact (Option.any_eq_true _ _).mpr ⟨row', found', same ▸ freelancer⟩

/-- What has been earned stays earned, whatever is rounded. -/
theorem Keeps.earned (keeps : Keeps db db') (userId : Uuid) {earned' : Nat}
    (shown : (PaymentsService.getEarnings .doubles db' userId).totalEarned = some earned') :
    ∃ earned ≤ earned', (PaymentsService.getEarnings .doubles db userId).totalEarned = some earned := by
  have total := Double.sum_mono ((keeps.amounts userId).map fun k =>
    Numbers.doubles.toStroops (Numbers.doubles.amount k)) (.refl (.ofNat 0)) (Double.ofNat_rounded 0)
  rw [PaymentsService.getEarnings, summarize_totalEarned] at shown ⊢
  exact Double.toFixed_mono (Double.div_mono total _) shown

end Db

section Earnings
variable {w w' : World τ} {db db' : Db}

theorem serves_keeps {faults : Prop} {request : Nat} {op : Op} {answer : Except Failure op.Answer}
    (served : Serves host faults request w op answer w') : Db.Keeps w.db w'.db := by
  cases served with
  | created created => exact Db.create_keeps created
  | contractUpdated updated => exact Db.execute_keeps updated
  | milestoneUpdated updated => exact Db.execute_keeps updated
  | committed executed => exact Db.executeAll_keeps executed
  | _ => exact .of_eq rfl rfl

theorem leaves_keeps (left : JobsService.Leaves db db') : Db.Keeps db db' := by
  cases left with
  | nothing | created | updated | cancelled => exact .of_eq rfl rfl

theorem market_keeps {label : Market.Label} (step : Market.Step host config w label w') :
    Db.Keeps w.db w'.db := by
  cases step with
  | contracts ran =>
    exact ran.invariant (I := fun w' => Db.Keeps w.db w'.db)
      (fun served kept => kept.trans (serves_keeps served)) (.of_eq rfl rfl)
  | jobs ran => exact leaves_keeps (JobsService.completes_leaves ran)
  | network moved =>
    have same : w'.db = w.db := by cases moved <;> rfl
    exact same ▸ .of_eq rfl rfl
  | accounts => exact .of_eq rfl rfl

end Earnings

/-! ### One withdrawal -/

namespace Treasury
variable {treasury treasury' : Treasury τ} {userId : Uuid} {dto : WithdrawDto}
  {result : Except Failure WithdrawalTransaction} {made : List Transfer} {label : Label}

theorem serves_db {op : PaymentsService.Op} {answer : Except Failure op.Answer}
    (served : Serves host userId treasury op answer treasury') :
    treasury'.world.db = treasury.world.db := by
  cases served <;> rfl

/-- What a withdrawal comes to: nothing is sent, or once what it asks for. -/
def Leaves (treasury : Treasury τ) (userId : Uuid) (dto : WithdrawDto) (treasury' : Treasury τ) : Prop :=
  treasury'.transfers = treasury.transfers ∨ ∃ amount, dto.asked = some amount ∧
    treasury'.transfers = treasury.transfers ++ [⟨userId, dto.destinationAddress, amount⟩]

theorem submit_leaves {payment : NativePayment} {answer : Except Failure TxHash}
    (served : Serves host userId treasury (.submitTransaction payment) answer treasury')
    (destination : payment.destination = dto.destinationAddress)
    (amount : dto.asked = some payment.amount) : treasury.Leaves userId dto treasury' := by
  cases served with
  | applied | unconfirmed => exact .inr ⟨payment.amount, amount, by rw [← destination]; rfl⟩
  | rejected => exact .inl rfl

theorem idle_same {op : PaymentsService.Op} {answer : Except Failure op.Answer}
    (served : Serves host userId treasury op answer treasury')
    (idle : ∀ payment, op ≠ .submitTransaction payment) : treasury' = treasury := by
  cases served with
  | loaded | fee | rejected => rfl
  | applied | unconfirmed => exact absurd rfl (idle _)

theorem withdraw_leaves (ran : Process.Completes (Serves host userId) treasury
      (PaymentsService.withdraw isValidEd25519PublicKey config dto) result treasury') :
    treasury.Leaves userId dto treasury' := by
  unfold PaymentsService.withdraw PaymentsService.withdrawIn at ran
  rcases completes_throwIf.mp ran with ⟨_, _, rfl⟩ | ⟨_, ran⟩
  · exact .inl rfl
  rcases completes_throwIf.mp ran with ⟨_, _, rfl⟩ | ⟨_, ran⟩
  · exact .inl rfl
  rcases completes_throwIf.mp ran with ⟨_, _, rfl⟩ | ⟨_, ran⟩
  · exact .inl rfl
  rcases completes_orThrow.mp ran with ⟨_, _, rfl⟩ | ⟨adminPublicKey, _, ran⟩
  · exact .inl rfl
  obtain ⟨_, _, ran⟩ := Process.completes_rethrown.mp ran
  rcases completes_bind.mp ran with ⟨_, _, asked⟩ | ⟨sequence, _, asked, ran⟩
  · exact .inl (congrArg transfers (idle_same (completes_perform.mp asked) (by simp)))
  rw [idle_same (completes_perform.mp asked) (by simp)] at ran
  rcases completes_bind.mp ran with ⟨_, _, asked⟩ | ⟨fee, _, asked, ran⟩
  · exact .inl (congrArg transfers (idle_same (completes_perform.mp asked) (by simp)))
  rw [idle_same (completes_perform.mp asked) (by simp)] at ran
  rcases completes_orThrow.mp ran with ⟨_, _, rfl⟩ | ⟨amount, payable, ran⟩
  · exact .inl rfl
  rcases completes_bind.mp ran with ⟨_, _, asked⟩ | ⟨txHash, _, asked, ran⟩
  · exact submit_leaves (completes_perform.mp asked) rfl payable
  · obtain ⟨_, rfl⟩ := completes_pure.mp ran
    exact submit_leaves (completes_perform.mp asked) rfl payable

theorem withdraw_db (ran : Process.Completes (Serves host userId) treasury
      (PaymentsService.withdraw isValidEd25519PublicKey config dto) result treasury') :
    treasury'.world.db = treasury.world.db :=
  ran.invariant (I := fun treasury' => treasury'.world.db = treasury.world.db)
    (fun served same => (serves_db served).trans same) rfl

/-! ### Every run -/

theorem withdrawn_append {sent : Transfer} (booked : treasury'.transfers = treasury.transfers ++ [sent])
    (userId : Uuid) : treasury'.withdrawn userId =
      treasury.withdrawn userId + if sent.userId = userId then sent.amount else 0 := by
  unfold withdrawn
  rw [booked, List.filter_append, List.map_append, List.sum_append, List.filter_singleton]
  by_cases mine : sent.userId = userId <;> simp [mine]

/-- Where all is covered, it stays so unless a withdrawal overdraws. -/
theorem step_covered (covered : treasury.Covered)
    (step : Step host config isValidEd25519PublicKey treasury label treasury') :
    treasury'.Covered ↔ ¬ treasury.Overdraws label := by
  cases step with
  | market step =>
    refine iff_of_true (fun userId earned' shown => ?_) not_false
    obtain ⟨earned, less, before⟩ := (market_keeps step).earned userId shown
    exact (covered userId earned before).trans less
  | @withdraw _ _ userId dto _ made ran booked =>
    have same : treasury'.earned = treasury.earned := by
      unfold Treasury.earned
      rw [withdraw_db ran]
    rcases withdraw_leaves ran with unpaid | ⟨amount, asked, paid⟩
    · have nothing : made = [] := List.self_eq_append_right.mp (unpaid.symm.trans booked)
      refine iff_of_true (fun userId => ?_) fun overdraws => overdraws.1 nothing
      rw [same, withdrawn, unpaid]
      exact covered userId
    · have once : made ≠ [] := by
        rintro rfl
        simp [paid] at booked
      have total := withdrawn_append paid
      constructor
      · rintro covered' ⟨_, other, asked', earned, shown, exceeds⟩
        obtain rfl := Option.some.inj (asked.symm.trans asked')
        have after := covered' userId earned (same ▸ shown)
        rw [total, if_pos rfl] at after
        dsimp only at after
        omega
      · intro within other earned shown
        rw [same] at shown
        rw [total]
        split
        · rename_i mine
          subst mine
          by_contra exceeds
          exact within ⟨once, amount, asked, earned, shown, Nat.lt_of_not_le exceeds⟩
        · exact covered other earned shown

/-- In a run of complete requests the withdrawals are covered throughout exactly where none
is paid that asks for more than its user has earned and not yet withdrawn. -/
theorem withdrawals_covered_iff {start last : Treasury τ} {trace : List (Treasury τ × Label)}
    (run : Runs.Run (Step host config isValidEd25519PublicKey) start trace last)
    (nothing : start.transfers = []) :
    (∀ earlier rest treasury, trace = earlier ++ rest →
      Runs.Run (Step host config isValidEd25519PublicKey) start earlier treasury →
      Runs.Run (Step host config isValidEd25519PublicKey) treasury rest last → treasury.Covered) ↔
      ∀ point ∈ trace, ¬ point.1.Overdraws point.2 := by
  have covered : start.Covered := by
    intro userId earned _
    rw [withdrawn, nothing]
    exact Nat.zero_le _
  exact run.throughout_iff (J := fun _ => True) trivial covered
    fun _ covered step => ⟨trivial, step_covered covered step⟩

end Treasury

/-! ### One who has earned something, and one who has not -/

namespace Sample

def destination : String := "GDQOE23CFSUMSVQK4Y5JHPPYK73VYCNHZHA7ENKCV37P6SUEO6XQBKPP"

def isDestination (text : String) : Bool := text = destination

/-- 100 XLM. -/
def withdrawDto : WithdrawDto where
  asset := .xlm
  amount := ⟨[1, 0, 0], [], by simp⟩
  destinationAddress := destination
  shaped := by decide

/-- 1.00000001 XLM. -/
def eightPlaces : WithdrawDto := { withdrawDto with amount := ⟨[1], [0, 0, 0, 0, 0, 0, 0, 1], by simp⟩ }

/-- The freelancer has been paid 200 XLM. -/
def treasury : Treasury (Escrow.Bank Address) where
  world := { start.world with
    db := { start.world.db with
      contracts := ⟨[⟨contractId, jobId, freelancerId, clientId, .completed, none⟩], by decide⟩
      payments := ⟨[⟨contractId, none, 2000000000, supply.hash []⟩], by decide⟩ } }
  transfers := []

theorem withdrawDto_asked : withdrawDto.asked = some 1000000000 :=
  asked_exact (by decide) (by decide) (by decide)

/-- What is left when the network has applied its payment. -/
def withdrawnBy (userId : Uuid) : Treasury (Escrow.Bank Address) :=
  Sample.treasury.pay Sample.host userId ⟨"admin", 8, 100, destination, 1000000000⟩
    Sample.treasury.world.chain.ledger.state.tokens (supply.hash [])

def receipt : WithdrawalTransaction where
  type := .withdrawal
  status := .confirmed
  asset := .xlm
  sign := .debit
  amount := 1000000000
  description := "Withdrawal to " ++ PaymentsService.shortened destination
  stellarTxHash := supply.hash []
  counterparty := destination

/-- A withdrawal passes its checks and is paid, whoever asks for it. -/
theorem withdraw_step (userId : Uuid) :
    Treasury.Step Sample.host Sample.config isDestination Sample.treasury
      (.withdraw userId withdrawDto [⟨userId, destination, 1000000000⟩]) (withdrawnBy userId) := by
  have ran : Process.Completes (Treasury.Serves Sample.host userId) Sample.treasury
      (PaymentsService.withdraw isDestination Sample.config withdrawDto) (.ok receipt)
      (withdrawnBy userId) := by
    refine completes_throwIf.mpr (.inr ⟨by decide, completes_throwIf.mpr (.inr ⟨by decide +kernel, ?_⟩)⟩)
    refine completes_throwIf.mpr (.inr ⟨by decide, completes_orThrow.mpr (.inr ⟨"admin", rfl, ?_⟩)⟩)
    refine completes_tryCatch.mpr (.inl ⟨_, rfl, ?_⟩)
    refine completes_bind.mpr (.inr ⟨7, _, completes_perform.mpr (.loaded _ 7), ?_⟩)
    refine completes_bind.mpr (.inr ⟨100, _, completes_perform.mpr (.fee 100), ?_⟩)
    refine completes_orThrow.mpr (.inr ⟨_, withdrawDto_asked, ?_⟩)
    exact completes_bind.mpr (.inr ⟨_, _, completes_perform.mpr (.applied _ _ List.not_mem_nil),
      completes_pure.mpr ⟨rfl, rfl⟩⟩)
  exact .withdraw ran rfl

end Sample

namespace Treasury

/-- The client withdraws 100 XLM and has earned none. -/
theorem withdrawals_covered_fails : ¬ ∀ (start last : Treasury (Escrow.Bank Address))
    (trace : List (Treasury (Escrow.Bank Address) × Label)),
    Runs.Run (Step Sample.host Sample.config Sample.isDestination) start trace last →
      start.transfers = [] → last.Covered := by
  intro always
  have none' : (Sample.withdrawnBy Sample.clientId).earned Sample.clientId = some 0 := by decide
  have covered := always _ _ _ (.single (Sample.withdraw_step Sample.clientId)) rfl Sample.clientId 0 none'
  revert covered
  decide

/-- The freelancer withdraws half of what they have earned. -/
theorem withdrawals_covered_iff_sample : (Sample.withdrawnBy Sample.freelancerId).Covered := by
  have run := Runs.Run.single (Sample.withdraw_step Sample.freelancerId)
  refine (withdrawals_covered_iff run rfl).mpr ?_ _ [] _ (List.append_nil _).symm run .refl
  intro point member
  obtain rfl := List.mem_singleton.mp member
  rintro ⟨_, amount, asked, earned, shown, exceeds⟩
  obtain rfl := Option.some.inj (Sample.withdrawDto_asked.symm.trans asked)
  have all : Sample.treasury.earned Sample.freelancerId = some 2000000000 := by decide
  obtain rfl := Option.some.inj (all.symm.trans shown)
  revert exceeds
  decide

end Treasury
end Stellance.Backend
