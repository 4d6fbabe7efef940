import Stellance.Library.Pot
import Stellance.Escrow.Lifecycle
import Mathlib.Algebra.Order.BigOperators.Group.List

/-! Accounts of one escrow. Every id is a pot: what was paid out under it and what
its entry still owes make up the deposit, at every point of every run. -/
namespace Stellance.Escrow
variable {Address Symbol τ : Type}

/-- What an entry still owes its parties. -/
def EscrowEntry.outstanding (entry : EscrowEntry Address) : Int :=
  if entry.status.isOpen then entry.totalAmount.val - entry.releasedAmount.val else 0

theorem outstanding_open {entry : EscrowEntry Address} (isOpen : entry.status.isOpen = true) :
    entry.outstanding = entry.totalAmount.val - entry.releasedAmount.val := by
  rw [EscrowEntry.outstanding, if_pos isOpen]

theorem outstanding_closed {entry : EscrowEntry Address} (closed : entry.status.isOpen = false) :
    entry.outstanding = 0 := by
  rw [EscrowEntry.outstanding, closed]
  rfl

theorem EscrowEntry.WellFormed.outstanding_nonneg {entry : EscrowEntry Address}
    (formed : entry.WellFormed) : 0 ≤ entry.outstanding := by
  have := formed.bounded
  unfold EscrowEntry.outstanding
  split <;> omega

/-! ### Payouts -/

def payoutSum (payouts : List (Payout Address)) : Int :=
  (payouts.map fun payout => payout.2.val).sum

def payoutSumTo [DecidableEq Address] (party : Address) (payouts : List (Payout Address)) : Int :=
  (payouts.map fun payout => if payout.1 = party then payout.2.val else 0).sum

section Payouts
variable {first second : List (Payout Address)} {party other : Address} {amount : I128}

theorem payoutSum_append : payoutSum (first ++ second) = payoutSum first + payoutSum second := by
  simp [payoutSum]

/-- Skipping a zero transfer pays the same. -/
theorem payoutSum_positivePay (nonneg : 0 ≤ amount.val) :
    payoutSum (positivePay party amount) = amount.val := by
  unfold positivePay payoutSum
  split
  · simp
  · simp only [List.map_nil, List.sum_nil]
    omega

theorem payee_of_positivePay {payout : Payout Address}
    (member : payout ∈ positivePay party amount) : payout.1 = party ∧ 0 < payout.2.val := by
  unfold positivePay at member
  split at member
  · rename_i positive
    obtain rfl := List.mem_singleton.mp member
    exact ⟨rfl, positive⟩
  · contradiction

variable [DecidableEq Address]

theorem payoutSumTo_append :
    payoutSumTo party (first ++ second) = payoutSumTo party first + payoutSumTo party second := by
  simp [payoutSumTo]

theorem payoutSumTo_positivePay_self (nonneg : 0 ≤ amount.val) :
    payoutSumTo party (positivePay party amount) = amount.val := by
  unfold positivePay payoutSumTo
  split
  · simp
  · simp only [List.map_nil, List.sum_nil]
    omega

theorem payoutSumTo_positivePay_other (different : party ≠ other) :
    payoutSumTo other (positivePay party amount) = 0 := by
  unfold positivePay payoutSumTo
  split <;> simp [different]

end Payouts

namespace Moves
variable {call : Call Address Symbol} {entry next : EscrowEntry Address}
  {payouts : List (Payout Address)} {event : Event Address Symbol}

/-- A move pays out what it takes off the entry, and nothing else. -/
theorem pays (moves : Moves call entry payouts next event) (formed : entry.WellFormed) :
    payoutSum payouts = entry.outstanding - next.outstanding := by
  have strict := formed.unspent moves.was_open
  rw [outstanding_open moves.was_open]
  cases moves with
  | releaseMilestone funded allowed remaining left positive covered released sum =>
    simp only [payoutSum, EscrowEntry.outstanding, List.map_cons, List.map_nil, List.sum_cons,
      List.sum_nil]
    split
    · simp only [EscrowStatus.isOpen, Bool.false_eq_true, if_false]
      omega
    · simp only [funded, EscrowStatus.isOpen, if_true]
      omega
  | release funded allowed remaining left =>
    rw [payoutSum_positivePay (by omega), outstanding_closed rfl]
    omega
  | refund funded allowed remaining left =>
    rw [payoutSum_positivePay (by omega), outstanding_closed rfl]
    omega
  | dispute =>
    rw [outstanding_open rfl]
    exact (Int.sub_self _).symm
  | resolve disputed allowed remaining left arm =>
    cases arm with
    | releaseToFreelancer =>
      rw [payoutSum_positivePay (by omega), outstanding_closed rfl]
      omega
    | refundToClient =>
      rw [payoutSum_positivePay (by omega), outstanding_closed rfl]
      omega
    | split percentage product freelancerAmount clientAmount multiplied divided rest =>
      obtain ⟨low, high, _⟩ := share_bounds (by omega) percentage multiplied divided
      rw [payoutSum_append, payoutSum_positivePay low, payoutSum_positivePay (by omega),
        outstanding_closed rfl]
      omega

/-- Every payout of a move is positive and goes to a recorded party. -/
theorem payees (moves : Moves call entry payouts next event) {payout : Payout Address}
    (member : payout ∈ payouts) :
    (payout.1 = entry.client ∨ payout.1 = entry.freelancer) ∧ 0 < payout.2.val := by
  cases moves with
  | releaseMilestone funded allowed remaining left positive =>
    obtain rfl := List.mem_singleton.mp member
    exact ⟨.inr rfl, positive⟩
  | release =>
    obtain ⟨same, positive⟩ := payee_of_positivePay member
    exact ⟨.inr same, positive⟩
  | refund =>
    obtain ⟨same, positive⟩ := payee_of_positivePay member
    exact ⟨.inl same, positive⟩
  | dispute => contradiction
  | resolve disputed allowed remaining left arm =>
    cases arm with
    | releaseToFreelancer =>
      obtain ⟨same, positive⟩ := payee_of_positivePay member
      exact ⟨.inr same, positive⟩
    | refundToClient =>
      obtain ⟨same, positive⟩ := payee_of_positivePay member
      exact ⟨.inl same, positive⟩
    | split =>
      rcases List.mem_append.mp member with first | second
      · obtain ⟨same, positive⟩ := payee_of_positivePay first
        exact ⟨.inr same, positive⟩
      · obtain ⟨same, positive⟩ := payee_of_positivePay second
        exact ⟨.inl same, positive⟩

theorem payoutSum_nonneg (moves : Moves call entry payouts next event) : 0 ≤ payoutSum payouts := by
  refine List.sum_nonneg fun amount member => ?_
  obtain ⟨payout, inside, rfl⟩ := List.mem_map.mp member
  exact le_of_lt (moves.payees inside).2

end Moves

/-! ### Receipts -/

section Receipts
variable {receipts more : List (Receipt Address Symbol)} {id : Symbol} {token client party : Address}
  {amount : I128} {payouts : List (Payout Address)} [DecidableEq Symbol]

theorem paidOut_paid (paid : tokenCalls more id = tokenCalls receipts id ++
    payouts.map fun payout => .transfer token payout.1 payout.2) :
    paidOut more id = paidOut receipts id + payoutSum payouts := by
  rw [paidOut, paid, paidOut, List.map_append, List.sum_append, List.map_map]
  rfl

theorem paidOut_pulled
    (pulled : tokenCalls more id = tokenCalls receipts id ++ [.transferFrom token client amount]) :
    paidOut more id = paidOut receipts id := by
  rw [paidOut, pulled, List.map_append, List.sum_append]
  exact Int.add_zero _

variable [DecidableEq Address]

theorem paidTo_paid (paid : tokenCalls more id = tokenCalls receipts id ++
    payouts.map fun payout => .transfer token payout.1 payout.2) :
    paidTo more id party = paidTo receipts id party + payoutSumTo party payouts := by
  rw [paidTo, paid, paidTo, List.map_append, List.sum_append, List.map_map]
  rfl

theorem paidTo_pulled
    (pulled : tokenCalls more id = tokenCalls receipts id ++ [.transferFrom token client amount]) :
    paidTo more id party = paidTo receipts id party := by
  rw [paidTo, pulled, List.map_append, List.sum_append]
  exact Int.add_zero _

end Receipts

/-! ### An id as a pot -/

variable {host : Host Address τ} {before after ledger later : Ledger Address Symbol τ}
  {action : Action Address Symbol τ} {id : Symbol} {entry : EscrowEntry Address}
  {trace : List (Ledger Address Symbol τ × Action Address Symbol τ)} [DecidableEq Symbol]

/-- The pot of an id. While the entry is open its books agree with what was paid. -/
inductive Holds (id : Symbol) (ledger : Ledger Address Symbol τ) : Option Pot → Prop where
  | unfunded (absent : ledger.entry id = none) (untouched : tokenCalls ledger.receipts id = []) :
      Holds id ledger none
  | funded {entry : EscrowEntry Address} {pot : Pot} (found : ledger.entry id = some entry)
      (formed : entry.WellFormed) (deposit : pot.deposit = entry.totalAmount.val)
      (paid : pot.paid = paidOut ledger.receipts id) (closed : pot.closed = !entry.status.isOpen)
      (booked : entry.status.isOpen = true → entry.releasedAmount.val = pot.paid) :
      Holds id ledger (some pot)

theorem Holds.untouched {pot : Option Pot} (holds : Holds id ledger pot) (absent : ledger.entry id = none) :
    tokenCalls ledger.receipts id = [] := by
  cases holds with
  | unfunded _ untouched => exact untouched
  | funded found =>
    rw [absent] at found
    contradiction

theorem Holds.wellFormed {pot : Option Pot} (holds : Holds id ledger pot)
    (found : ledger.entry id = some entry) : entry.WellFormed := by
  cases holds with
  | unfunded absent =>
    rw [absent] at found
    contradiction
  | funded found' formed =>
    obtain rfl := Option.some.inj (found.symm.trans found')
    exact formed

theorem Holds.outstanding {pot : Pot} (holds : Holds id ledger (some pot))
    (found : ledger.entry id = some entry) :
    pot.deposit = entry.totalAmount.val ∧ pot.paid = paidOut ledger.receipts id ∧
      pot.held = entry.outstanding := by
  cases holds with
  | funded found' formed deposit paid closed booked =>
    obtain rfl := Option.some.inj (found.symm.trans found')
    refine ⟨deposit, paid, ?_⟩
    cases opened : entry.status.isOpen with
    | true =>
      rw [opened] at closed
      rw [Pot.held, closed, outstanding_open opened, booked opened, deposit]
      rfl
    | false =>
      rw [opened] at closed
      rw [Pot.held, closed, outstanding_closed opened]
      rfl

variable [DecidableEq Address]

/-- Each action of the ledger draws on the pot of an id once, or not at all. -/
theorem step_holds {pot : Option Pot} (holds : Holds id before pot)
    (stepped : Step host before action after) :
    Holds id after pot ∨ ∃ act pot', Pot.Step pot act pot' ∧ Holds id after pot' := by
  cases didTo_of_step id stepped with
  | nothing same quiet =>
    left
    cases holds with
    | unfunded absent untouched => exact .unfunded (same.trans absent) (quiet.trans untouched)
    | funded found formed deposit paid closed booked =>
      refine .funded (same.trans found) formed deposit ?_ closed booked
      rw [paid, paidOut, paidOut, quiet]
  | @opened auths client freelancer admin amount token after authorised positive absent stored pulled =>
    right
    have untouched := holds.untouched absent
    cases holds with
    | unfunded =>
      let pot : Pot := ⟨amount.val, 0, false, le_refl _, le_of_lt positive, fun closed => nomatch closed⟩
      refine ⟨.opened, some pot, .opened rfl rfl, ?_⟩
      refine .funded stored (opened_wellFormed positive) rfl ?_ rfl fun _ => rfl
      rw [paidOut_pulled pulled, paidOut, untouched]
      rfl
    | funded found =>
      rw [absent] at found
      contradiction
  | @moved auths call entry payouts next event after own authorised found moves carried stored drawn =>
    right
    cases holds with
    | unfunded absent =>
      rw [absent] at found
      contradiction
    | @funded entry' pot found' formed deposit paid closed booked =>
      obtain rfl := Option.some.inj (found.symm.trans found')
      have isOpen := moves.was_open
      have pays := moves.pays formed
      have formed' := moves.wellFormed formed
      have owed := formed'.outstanding_nonneg
      have nonneg := moves.payoutSum_nonneg
      have same := moves.sameTerms.totalAmount
      have booked := booked isOpen
      have := pot.paid_nonneg
      rw [outstanding_open isOpen] at pays
      let pot' : Pot := ⟨pot.deposit, pot.paid + payoutSum payouts, !next.status.isOpen, by omega,
        by omega, fun shut => by
          rw [outstanding_closed (by simpa using shut)] at pays
          omega⟩
      refine ⟨.drawn (payoutSum payouts), some pot', .drawn ?_ nonneg rfl rfl, ?_⟩
      · rw [closed, isOpen]
        rfl
      · refine .funded stored formed' (deposit.trans (by rw [same])) ?_ rfl ?_
        · rw [paidOut_paid drawn, ← paid]
        · intro isOpen'
          rw [outstanding_open isOpen', same] at pays
          show next.releasedAmount.val = pot.paid + payoutSum payouts
          omega

/-- The ledger refines the pot, for every id at once. -/
theorem run_holds (run : RunTo host trace ledger) (id : Symbol) :
    ∃ acts pot, Runs.Run Pot.Step none acts pot ∧ Holds id ledger pot := by
  obtain ⟨ttl, tokens, run⟩ := run
  exact run.simulated step_holds (.unfunded rfl rfl)

theorem reachable_pot (reached : Reachable host ledger) (found : ledger.entry id = some entry) :
    ∃ pot, Holds id ledger (some pot) := by
  obtain ⟨trace, run⟩ := reached
  obtain ⟨_, pot, _, holds⟩ := run_holds run id
  cases holds with
  | unfunded absent =>
    rw [absent] at found
    contradiction
  | funded found' formed deposit paid closed booked =>
    exact ⟨_, .funded found' formed deposit paid closed booked⟩

/-- What was paid out and what is owed make up the deposit; a closed entry has
paid out all of it. -/
theorem conservation (run : RunTo host trace ledger) (found : ledger.entry id = some entry) :
    paidOut ledger.receipts id + entry.outstanding = entry.totalAmount.val ∧
      paidOut ledger.receipts id ≤ entry.totalAmount.val ∧
      (entry.status.isOpen = false → paidOut ledger.receipts id = entry.totalAmount.val) := by
  obtain ⟨pot, holds⟩ := reachable_pot ⟨trace, run⟩ found
  obtain ⟨deposit, paid, held⟩ := holds.outstanding found
  have sum := pot.paid_add_held
  have := pot.held_nonneg
  refine ⟨by omega, by omega, ?_⟩
  intro closed
  have := outstanding_closed closed
  omega

/-- The split on the bank has paid out its deposit and owes nothing. -/
theorem conservation_split : ∃ entry, (Bank.ledger Bank.splitting).entry 7 = some entry ∧
    paidOut (Bank.ledger Bank.splitting).receipts 7 = entry.totalAmount.val := by
  have found : ∃ entry, (Bank.ledger Bank.splitting).entry 7 = some entry ∧
      entry.status.isOpen = false := by decide
  obtain ⟨entry, found, closed⟩ := found
  obtain ⟨trace, run, _⟩ := Bank.ledger_run Bank.splitting
  exact ⟨entry, found, (conservation run found).2.2 closed⟩

end Stellance.Escrow
