import Mathlib.Algebra.BigOperators.Ring.Finset
import Stellance.Escrow.Payees
import Stellance.Backend.Earnings

/-! The payment views against the money, in exact decimals. Every transfer is on record with
its amount, but not with its payee, and the views credit all of it to the freelancer: they
tell what the parties received exactly where nothing went back to the client. -/

namespace Stellance.Backend
open PaymentsService

/-! ### What the views add up to -/

section Rows
variable {db : Db} {id userId freelancerId : Uuid} {contract : Contract}

/-- Of a contract's payments its freelancer sees each as a credit, and its client none. -/
theorem credited_getTransactions (found : db.contracts.find id = some contract) :
    credited (getTransactions .decimals db userId) id =
      if contract.freelancerId = userId ∧ contract.clientId ≠ userId then db.recorded id else 0 := by
  have lines := amounts_paymentsUnder db
    (fun contract => contract.clientId = userId ∨ contract.freelancerId = userId)
    (fun view => (transaction .decimals userId view).contractId = id ∧
      (transaction .decimals userId view).sign = .credit)
    (fun payment => payment.contractId = id ∧
      contract.freelancerId = userId ∧ contract.clientId ≠ userId) (by
      intro payment
      unfold Db.paymentView
      by_cases own : payment.contractId = id
      · rw [own, found]
        by_cases client : contract.clientId = userId <;> simp [transaction, own, client]
      · cases db.contracts.find payment.contractId <;> simp [transaction, own])
  have shown : (fun line : PaymentTransaction => line.amount.getD 0) ∘ transaction .decimals userId =
      fun view => view.amount :=
    funext fun view => congrArg (fun amount : Option Nat => amount.getD 0) (Numbers.decimals_shown view.amount)
  unfold credited getTransactions
  rw [List.filter_map, List.map_map, shown]
  refine (congrArg List.sum lines).trans ?_
  rw [List.sum_reverse]
  split
  · rename_i sees
    simp only [sees, ne_eq, not_false_eq_true, and_self, and_true]
    rfl
  · rename_i unseen
    simp [unseen]

/-- The total is what is on record for the contracts of the freelancer. -/
theorem totalEarned_getEarnings : (getEarnings .decimals db freelancerId).totalEarned =
    some ((db.contracts.select (·.freelancerId = freelancerId)).map fun contract =>
      db.recorded contract.id).sum := by
  have grouped := db.contracts.sum_grouped (·.freelancerId = freelancerId) Payment.contractId
    Payment.amount db.payments.rows
  have rows := congrArg List.sum (amounts_getEarnings db freelancerId)
  rw [List.sum_reverse, grouped] at rows
  rw [getEarnings, totalEarned_counted Numbers.decimalsCount (fun _ _ => trivial) trivial trivial]
  exact congrArg some rows

end Rows

/-! ### The views and the money -/

section Views
variable {τ : Type} {host : Escrow.Host Address τ} {config : Config}
  {start joint joint' : Joint τ} {label : Label} {trace : List (Joint τ × Label)} {w w' : World τ}
  {contract : Contract} {entry : Entry}

/-- The calls accepted under the key of a contract. -/
def World.accepted (w : World τ) (id : Uuid) : List ChainCall :=
  Escrow.accepted w.chain.ledger.receipts id.symbol

/-- The tokens that the escrow contract has transferred to a party of a contract. -/
def World.received (w : World τ) (id : Uuid) (party : Entry → Address) : Int :=
  (w.chain.ledger.entry id.symbol).elim 0 fun entry =>
    Escrow.paidTo w.chain.ledger.receipts id.symbol (party entry)

/-- Both parties see as credits what each has received under the contract. -/
def World.Tells (w : World τ) (contract : Contract) : Prop :=
  (credited (getTransactions .decimals w.db contract.clientId) contract.id : Int) =
      w.received contract.id (·.client) ∧
    (credited (getTransactions .decimals w.db contract.freelancerId) contract.id : Int) =
      w.received contract.id (·.freelancer)

/-- The earnings of a freelancer are what they have received under all their contracts. -/
def World.TellsEarnings (w : World τ) (freelancerId : Uuid) : Prop :=
  ∃ totalEarned, (getEarnings .decimals w.db freelancerId).totalEarned = some totalEarned ∧
    (totalEarned : Int) = ((w.db.contracts.select (·.freelancerId = freelancerId)).map fun contract =>
      w.received contract.id (·.freelancer)).sum

/-- A call has given some of the deposit to the client, at an address of their own. -/
def World.Returned (w : World τ) (contract : Contract) : Prop :=
  ∃ entry, w.chain.ledger.entry contract.id.symbol = some entry ∧ entry.client ≠ entry.freelancer ∧
    ∃ call ∈ w.accepted contract.id, call.PaysClient

/-- A call has paid the client's address, or anything at all to a user who is both. -/
def World.Diverted (w : World τ) (contract : Contract) : Prop :=
  ∃ entry, w.chain.ledger.entry contract.id.symbol = some entry ∧
    ∃ call ∈ w.accepted contract.id,
      call.Reaches entry ∨ contract.clientId = contract.freelancerId ∧ call.Pays

/-! ### Along a run -/

theorem step_joint_reachable {ours : Uuid → Prop}
    (reached : Escrow.Reachable host joint.world.chain.ledger)
    (step : Joint.Step host config ours joint label joint') :
    Escrow.Reachable host joint'.world.chain.ledger := by
  cases step with
  | request ran =>
    exact ran.invariant (I := fun w => Escrow.Reachable host w.chain.ledger)
      (fun served reached => serves_reachable served reached) reached
  | fund | other => exact reached.act (.call _ _)
  | tokens => exact reached.act (.outside _)
  | elsewhere => exact reached

theorem run_joint_reachable {ours : Uuid → Prop}
    (run : Runs.Run (Joint.Step host config ours) start trace joint) (started : start.Started) :
    Escrow.Reachable host joint.world.chain.ledger := by
  obtain ⟨ttl, tokens, deployed⟩ := started.ledger
  refine run.invariant (I := fun joint => Escrow.Reachable host joint.world.chain.ledger)
    step_joint_reachable ?_
  rw [deployed]
  exact ⟨[], ttl, tokens, .refl⟩

/-- What is on record for a contract is what has been paid under it. -/
theorem run_recorded (run : Runs.Run (Joint.Step host config fun _ => True) start trace joint)
    (started : start.Started) (exact' : config.numbers = .decimals) (id : Uuid) :
    (joint.world.db.recorded id : Int) =
      Escrow.paidOut joint.world.chain.ledger.receipts id.symbol := by
  have sound := run.invariant (I := Joint.Sound config fun _ => True) step_sound started.sound
  refine ((sound.books id trivial).accounts ?_).recorded
  rw [Dossier.Exact, exact']
  exact Numbers.decimals_exact _

/-! ### Views and shares -/

theorem World.Returned.diverted (returned : w.Returned contract) : w.Diverted contract := by
  obtain ⟨entry, stored, _, call, member, paysClient⟩ := returned
  exact ⟨entry, stored, call, member, .inl (.inl paysClient)⟩

section Shares
variable (reached : Escrow.Reachable host w.chain.ledger)
  (recorded : ∀ id, (w.db.recorded id : Int) = Escrow.paidOut w.chain.ledger.receipts id.symbol)

theorem received_unfunded {party : Entry → Address}
    (absent : w.chain.ledger.entry contract.id.symbol = none) : w.received contract.id party = 0 := by
  rw [World.received, absent]
  rfl

theorem received_funded {party : Entry → Address}
    (stored : w.chain.ledger.entry contract.id.symbol = some entry) :
    w.received contract.id party =
      Escrow.paidTo w.chain.ledger.receipts contract.id.symbol (party entry) := by
  rw [World.received, stored]
  rfl

theorem clean_iff (stored : w.chain.ledger.entry contract.id.symbol = some entry) :
    ¬ w.Diverted contract ↔ (∀ call ∈ w.accepted contract.id, ¬ call.Reaches entry) ∧
      (contract.clientId = contract.freelancerId → ∀ call ∈ w.accepted contract.id, ¬ call.Pays) := by
  unfold World.Diverted
  constructor
  · intro clean
    refine ⟨fun call member reaches => ?_, fun both call member pays => ?_⟩
    · exact clean ⟨entry, stored, call, member, .inl reaches⟩
    · exact clean ⟨entry, stored, call, member, .inr ⟨both, pays⟩⟩
  · rintro ⟨unreached, unpaid⟩ ⟨entry', found, call, member, reaches | ⟨both, pays⟩⟩
    · obtain rfl := Option.some.inj (stored.symm.trans found)
      exact unreached call member reaches
    · exact unpaid both call member pays

include reached recorded

/-- Both parties are told the truth exactly where nothing was diverted. -/
theorem tells_iff (found : w.db.contracts.find contract.id = some contract) :
    w.Tells contract ↔ ¬ w.Diverted contract := by
  have shown := recorded contract.id
  unfold World.Tells
  rw [credited_getTransactions found, credited_getTransactions found, if_neg (by simp)]
  cases stored : w.chain.ledger.entry contract.id.symbol with
  | none =>
    have unpaid := (Escrow.reachable_unpaid reached stored).2
    rw [received_unfunded stored, received_unfunded stored]
    refine iff_of_true ⟨rfl, ?_⟩ ?_
    · split
      · omega
      · rfl
    · rintro ⟨entry, found, _⟩
      rw [stored] at found
      contradiction
  | some entry =>
    have shares : Escrow.Shares entry (w.accepted contract.id) _ _ _ :=
      Escrow.reachable_shares reached stored
    rw [received_funded stored, received_funded stored, clean_iff stored, ← shares.toClient_zero,
      ← shares.paidOut_zero]
    by_cases both : contract.clientId = contract.freelancerId
    · have nothing := shares.nothing
      rw [if_neg (by simp [both])]
      simp only [both, forall_const]
      omega
    · have all := shares.toFreelancer_all
      rw [if_pos ⟨rfl, both⟩, shown, all]
      simp only [both, false_implies, and_true]
      omega

/-- What is missing from the earnings under one contract went back to its client. -/
theorem earned_iff : (w.db.recorded contract.id : Int) = w.received contract.id (·.freelancer) ↔
    ¬ w.Returned contract := by
  rw [recorded contract.id]
  cases stored : w.chain.ledger.entry contract.id.symbol with
  | none =>
    have unpaid := (Escrow.reachable_unpaid reached stored).2
    rw [received_unfunded stored, unpaid]
    refine iff_of_true rfl ?_
    rintro ⟨entry, found, _⟩
    rw [stored] at found
    contradiction
  | some entry =>
    have shares : Escrow.Shares entry (w.accepted contract.id) _ _ _ :=
      Escrow.reachable_shares reached stored
    rw [received_funded stored, shares.toFreelancer_all, shares.toClient_zero]
    constructor
    · rintro (same | unreached) ⟨entry', found, different, call, member, paysClient⟩
      · obtain rfl := Option.some.inj (stored.symm.trans found)
        exact different same
      · exact unreached call member (.inl paysClient)
    · intro kept
      by_cases same : entry.client = entry.freelancer
      · exact .inl same
      · right
        rintro call member (paysClient | ⟨equal, _⟩)
        · exact kept ⟨entry, stored, same, call, member, paysClient⟩
        · exact same equal

theorem received_le : w.received contract.id (·.freelancer) ≤ (w.db.recorded contract.id : Int) := by
  rw [recorded contract.id]
  cases stored : w.chain.ledger.entry contract.id.symbol with
  | none =>
    have unpaid := (Escrow.reachable_unpaid reached stored).2
    rw [received_unfunded stored, unpaid]
  | some entry =>
    rw [received_funded stored]
    exact (Escrow.reachable_shares reached stored).toFreelancer_le

/-- The earnings are true exactly where no client of the freelancer got anything back. -/
theorem tellsEarnings_iff (freelancerId : Uuid) : w.TellsEarnings freelancerId ↔
    ∀ contract ∈ w.db.contracts.rows, contract.freelancerId = freelancerId → ¬ w.Returned contract := by
  unfold World.TellsEarnings
  have bounded : ∀ contract ∈ w.db.contracts.select (·.freelancerId = freelancerId),
      w.received contract.id (·.freelancer) ≤ (w.db.recorded contract.id : Int) :=
    fun _ _ => received_le reached recorded
  have each := Table.sum_eq_iff bounded
  rw [totalEarned_getEarnings]
  simp only [Option.some.injEq, exists_eq_left']
  rw [Nat.cast_list_sum, List.map_map]
  refine each.trans ?_
  constructor
  · intro same contract member own
    exact (earned_iff reached recorded).mp (same contract (Table.mem_select.mpr ⟨member, by simpa using own⟩))
  · intro kept contract selected
    obtain ⟨member, own⟩ := Table.mem_select.mp selected
    exact (earned_iff reached recorded).mpr (kept contract member (by simpa using own))

end Shares

/-- The views tell the truth about every contract to both of its parties, and about
the earnings of every freelancer. -/
structure World.Truthful (w : World τ) : Prop where
  history : ∀ contract ∈ w.db.contracts.rows, w.Tells contract
  earnings : ∀ freelancerId, w.TellsEarnings freelancerId

/-- In every state reached, the histories tell the truth about the contracts under which
nothing was diverted, and the earnings about the freelancers whose clients got nothing back. -/
theorem truthful_iff (run : Runs.Run (Joint.Step host config fun _ => True) start trace joint)
    (started : start.Started) (exact' : config.numbers = .decimals) :
    (∀ contract ∈ joint.world.db.contracts.rows,
      joint.world.Tells contract ↔ ¬ joint.world.Diverted contract) ∧
    (∀ freelancerId, joint.world.TellsEarnings freelancerId ↔
      ∀ contract ∈ joint.world.db.contracts.rows, contract.freelancerId = freelancerId →
        ¬ joint.world.Returned contract) ∧
    (joint.world.Truthful ↔
      ∀ contract ∈ joint.world.db.contracts.rows, ¬ joint.world.Diverted contract) := by
  have reached := run_joint_reachable run started
  have recorded := run_recorded run started exact'
  have tells : ∀ contract ∈ joint.world.db.contracts.rows,
      joint.world.Tells contract ↔ ¬ joint.world.Diverted contract := by
    intro contract member
    exact tells_iff reached recorded (Table.find_of_mem member)
  have earnings := tellsEarnings_iff reached recorded
  refine ⟨tells, earnings, fun truthful contract member => ?_, fun clean => ⟨?_, ?_⟩⟩
  · exact (tells contract member).mp (truthful.history contract member)
  · exact fun contract member => (tells contract member).mpr (clean contract member)
  · intro freelancerId
    refine (earnings freelancerId).mpr fun contract member own returned => ?_
    exact clean contract member returned.diverted

end Views

namespace Sample

/-- Amounts of exact decimals. -/
def exactly : Config := { config with numbers := .decimals }

/-- The admin cancels the contract after its funding was confirmed, and all of it goes
back to the client. -/
theorem refunded : ∃ trace joint,
    Runs.Run (Joint.Step host exactly fun _ => True) start trace joint ∧
      (getEarnings .decimals joint.world.db freelancerId).totalEarned = some 300 ∧
      ∃ contract ∈ joint.world.db.contracts.rows, contract.freelancerId = freelancerId ∧
        joint.world.received contract.id (·.freelancer) = 0 ∧
        credited (getTransactions .decimals joint.world.db contract.clientId) contract.id = 0 ∧
        joint.world.received contract.id (·.client) = 300 := by
  have happens : ∃ created, start.request host exactly supply (.create clientId dto) = some created ∧
      ∃ funded, created.fund host supply contractId {"client"} = some funded ∧
      ∃ confirmed, funded.2.request host exactly supply
        (.confirmFund contractId clientId (supply.hash [])) = some confirmed ∧
      ∃ cancelled, confirmed.request host exactly supply (.cancel contractId clientId .admin) =
        some cancelled ∧
      (getEarnings .decimals cancelled.world.db freelancerId).totalEarned = some 300 ∧
      ∃ contract ∈ cancelled.world.db.contracts.rows, contract.freelancerId = freelancerId ∧
        cancelled.world.received contract.id (·.freelancer) = 0 ∧
        credited (getTransactions .decimals cancelled.world.db contract.clientId) contract.id = 0 ∧
        cancelled.world.received contract.id (·.client) = 300 := by
    decide +kernel
  obtain ⟨created, first, funded, second, confirmed, third, cancelled, fourth, shown⟩ := happens
  have run : Runs.Run (Joint.Step host exactly fun _ => True) start _ cancelled :=
    .tail (.tail (.tail (.tail .refl (Joint.request_step first)) (Joint.fund_step second))
      (Joint.request_step third)) (Joint.request_step fourth)
  exact ⟨_, cancelled, run, shown⟩

end Sample

/-- A refund is shown as an earning of the freelancer and not as a credit of the client. -/
theorem truthful_fails : ¬ ∀ (start joint : Joint (Escrow.Bank Address))
    (trace : List (Joint (Escrow.Bank Address) × Label)), start.Started →
    Runs.Run (Joint.Step Sample.host Sample.exactly fun _ => True) start trace joint →
    joint.world.Truthful := by
  intro always
  obtain ⟨trace, joint, run, _, contract, member, _, _, credit, received⟩ := Sample.refunded
  have shown := (always _ joint trace Sample.started run).history contract member
  have same := shown.1
  rw [credit, received] at same
  contradiction

/-- In that run something was diverted. -/
theorem truthful_iff_sample : ∃ trace joint,
    Runs.Run (Joint.Step Sample.host Sample.exactly fun _ => True) Sample.start trace joint ∧
      ∃ contract ∈ joint.world.db.contracts.rows, joint.world.Diverted contract := by
  obtain ⟨trace, joint, run, _, contract, member, _, _, credit, received⟩ := Sample.refunded
  refine ⟨trace, joint, run, contract, member, ?_⟩
  by_contra clean
  have shown := ((truthful_iff run Sample.started rfl).1 contract member).mpr clean
  have same := shown.1
  rw [credit, received] at same
  contradiction

end Stellance.Backend
