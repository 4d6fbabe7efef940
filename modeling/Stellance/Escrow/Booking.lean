import Stellance.Escrow.Conservation

/-! The released amount of an entry against what its freelancer was paid. The two
part where a dispute is resolved in the freelancer's favour: those branches pay and
leave the field as it was. -/
namespace Stellance.Escrow
variable {Address Symbol τ : Type} [DecidableEq Address] [DecidableEq Symbol]
  {host : Host Address τ} {before after ledger : Ledger Address Symbol τ}
  {action : Action Address Symbol τ} {id : Symbol} {entry : EscrowEntry Address}
  {trace : List (Ledger Address Symbol τ × Action Address Symbol τ)}

/-- The field tells what the freelancer was paid. -/
def ReleasedLaw (ledger : Ledger Address Symbol τ) (id : Symbol) (entry : EscrowEntry Address) :
    Prop :=
  entry.releasedAmount.val = paidTo ledger.receipts id entry.freelancer ∧
    (entry.status = .released → entry.releasedAmount = entry.totalAmount)

/-- The admin decides for the freelancer: all of the deposit is paid, none of it booked. -/
theorem releasedLaw_fails : ¬ ∀ (ledger : Ledger Nat Nat (Bank Nat)), Reachable (Bank.host 0) ledger →
    ∀ id entry, ledger.entry id = some entry → ReleasedLaw ledger id entry := by
  intro law
  have broken : ∃ entry, (Bank.ledger [Bank.funding, .call {1} (.dispute 7 1),
      .call {3} (.resolveDispute 7 3 .releaseToFreelancer 0)]).entry 7 = some entry ∧
      entry.status = .released ∧ entry.releasedAmount ≠ entry.totalAmount := by decide
  obtain ⟨entry, found, released, differs⟩ := broken
  exact differs ((law _ (Bank.ledger_reachable _) 7 entry found).2 released)

/-- The calls that pay the freelancer's address and leave the books: a resolution
for the freelancer, a split with a share for them, and, where both parties have one
address, whatever goes back to the client. -/
def Call.Unbooked (entry : EscrowEntry Address) : Call Address Symbol → Prop
  | .resolveDispute _ _ .releaseToFreelancer _ => True
  | .resolveDispute _ _ .split bps =>
      10000 ≤ (entry.totalAmount.val - entry.releasedAmount.val) * bps.toNat ∨
        entry.client = entry.freelancer
  | .resolveDispute _ _ .refundToClient _ | .refund .. => entry.client = entry.freelancer
  | _ => False

/-- What goes back to the client is the freelancer's where both have one address. -/
theorem payoutSumTo_returned {client freelancer : Address} {amount : I128} {booked : Int}
    (positive : 0 < amount.val) :
    (client ≠ freelancer → payoutSumTo freelancer (positivePay client amount) = booked - booked) ∧
      (client = freelancer → booked - booked < payoutSumTo freelancer (positivePay client amount)) := by
  constructor
  · intro different
    rw [payoutSumTo_positivePay_other different]
    omega
  · intro same
    rw [same, payoutSumTo_positivePay_self (by omega)]
    omega

omit [DecidableEq Symbol] in
theorem Moves.unbooked {call : Call Address Symbol} {next : EscrowEntry Address}
    {payouts : List (Payout Address)} {event : Event Address Symbol}
    (moves : Moves call entry payouts next event) (formed : entry.WellFormed) :
    (¬ call.Unbooked entry → payoutSumTo entry.freelancer payouts =
      next.releasedAmount.val - entry.releasedAmount.val) ∧
    (call.Unbooked entry → next.releasedAmount.val - entry.releasedAmount.val <
      payoutSumTo entry.freelancer payouts) := by
  have strict := formed.unspent moves.was_open
  cases moves with
  | releaseMilestone funded allowed remaining left positive covered released sum =>
    refine ⟨fun _ => ?_, fun unbooked => unbooked.elim⟩
    simp only [payoutSumTo, List.map_cons, List.map_nil, List.sum_cons, List.sum_nil, if_true]
    omega
  | release funded allowed remaining left =>
    refine ⟨fun _ => ?_, fun unbooked => unbooked.elim⟩
    rw [payoutSumTo_positivePay_self (by omega)]
    exact left
  | refund funded allowed remaining left =>
    exact payoutSumTo_returned (by omega)
  | dispute =>
    refine ⟨fun _ => ?_, fun unbooked => unbooked.elim⟩
    exact (Int.sub_self _).symm
  | resolve disputed allowed remaining left arm =>
    cases arm with
    | releaseToFreelancer =>
      refine ⟨fun unbooked => (unbooked trivial).elim, fun _ => ?_⟩
      rw [payoutSumTo_positivePay_self (by omega)]
      dsimp only
      omega
    | refundToClient =>
      exact payoutSumTo_returned (by omega)
    | split percentage product freelancerAmount clientAmount multiplied divided rest =>
      obtain ⟨low, high, some'⟩ := share_bounds (by omega) percentage multiplied divided
      rw [left] at multiplied
      simp only [Call.Unbooked, ← multiplied]
      rw [payoutSumTo_append, payoutSumTo_positivePay_self low]
      by_cases same : entry.client = entry.freelancer
      · rw [same, payoutSumTo_positivePay_self (by omega)]
        exact ⟨fun neither => (neither (.inr rfl)).elim, fun _ => by omega⟩
      · rw [payoutSumTo_positivePay_other same]
        constructor
        · intro neither
          have := mt some'.mp fun enough => neither (.inl enough)
          omega
        · rintro (enough | equal)
          · have := some'.mpr enough
            omega
          · exact absurd equal same

/-- An action that pays the freelancer's address off the books. -/
def OffTheBooks (host : Host Address τ) (id : Symbol) (ledger : Ledger Address Symbol τ)
    (action : Action Address Symbol τ) : Prop :=
  ∃ auths call entry payouts next event, action = .call auths call ∧ call.contractId = id ∧
    call.caller ∈ auths ∧ ledger.entry id = some entry ∧ Moves call entry payouts next event ∧
    (payAll host entry.token payouts ledger.state.tokens).isSome ∧ call.Unbooked entry

/-- What the freelancer was paid beyond the released amount. -/
def excess (id : Symbol) (ledger : Ledger Address Symbol τ) : Int :=
  match ledger.entry id with
  | some entry => paidTo ledger.receipts id entry.freelancer - entry.releasedAmount.val
  | none => 0

theorem excess_found (found : ledger.entry id = some entry) :
    excess id ledger = paidTo ledger.receipts id entry.freelancer - entry.releasedAmount.val := by
  rw [excess, found]

theorem step_excess {pot : Option Pot} (holds : Holds id before pot)
    (stepped : Step host before action after) (booked : ¬ OffTheBooks host id before action) :
    excess id after = excess id before := by
  cases didTo_of_step id stepped with
  | nothing same quiet => simp only [excess, same, paidTo, quiet]
  | opened authorised positive absent stored pulled =>
    rw [excess_found stored, paidTo_pulled pulled, paidTo, holds.untouched absent, excess, absent]
    rfl
  | moved own authorised found moves carried stored paid =>
    have onBooks := (moves.unbooked (holds.wellFormed found)).1 fun unbooked =>
      booked ⟨_, _, _, _, _, _, rfl, own, authorised, found, moves, carried, unbooked⟩
    rw [excess_found stored, excess_found found, paidTo_paid paid, moves.sameTerms.freelancer]
    omega

theorem step_excess_raised {pot : Option Pot} (holds : Holds id before pot)
    (stepped : Step host before action after) (off : OffTheBooks host id before action) :
    excess id before < excess id after := by
  obtain ⟨auths, call, entry, payouts, next, event, rfl, rfl, authorised, found, moves, carried,
    unbooked⟩ := off
  obtain ⟨stored, paid⟩ := step_moved authorised found moves carried stepped
  have raised := (moves.unbooked (holds.wellFormed found)).2 unbooked
  rw [excess_found stored, excess_found found, paidTo_paid paid, moves.sameTerms.freelancer]
  omega

/-- On the books, a released entry has released everything. -/
structure Booked (id : Symbol) (ledger : Ledger Address Symbol τ) : Prop where
  holds : ∃ pot, Holds id ledger pot
  released : ∀ entry, ledger.entry id = some entry → entry.status = .released →
    entry.releasedAmount = entry.totalAmount

omit [DecidableEq Address] in
theorem deployed_booked (ttl : Symbol → Nat) (tokens : τ) :
    Booked id (Ledger.deployed ttl tokens : Ledger Address Symbol τ) :=
  ⟨⟨none, .unfunded rfl rfl⟩, fun _ found => nomatch found⟩

theorem step_holds_some (holds : ∃ pot, Holds id before pot)
    (stepped : Step host before action after) : ∃ pot, Holds id after pot := by
  obtain ⟨pot, holds⟩ := holds
  rcases step_holds holds stepped with same | ⟨_, pot', _, moved⟩
  · exact ⟨pot, same⟩
  · exact ⟨pot', moved⟩

theorem step_booked (together : Booked id before) (booked : ¬ OffTheBooks host id before action)
    (stepped : Step host before action after) : Booked id after := by
  obtain ⟨holds, released⟩ := together
  refine ⟨step_holds_some holds stepped, ?_⟩
  obtain ⟨pot, holds⟩ := holds
  intro entry found closed
  cases didTo_of_step id stepped with
  | nothing same => exact released entry (same ▸ found) closed
  | opened authorised positive absent stored =>
    obtain rfl := Option.some.inj (stored.symm.trans found)
    contradiction
  | moved own authorised earlier moves carried stored =>
    obtain rfl := Option.some.inj (stored.symm.trans found)
    have booked := fun unbooked =>
      booked ⟨_, _, _, _, _, _, rfl, own, authorised, earlier, moves, carried, unbooked⟩
    have bounded := (moves.wellFormed (holds.wellFormed earlier)).bounded
    cases moves with
    | releaseMilestone funded =>
      dsimp only at closed bounded ⊢
      split at closed
      · rename_i all
        exact CheckedInt.ext_val (le_antisymm bounded all)
      · rw [funded] at closed
        contradiction
    | release => rfl
    | refund | dispute => contradiction
    | resolve disputed allowed remaining left arm =>
      cases arm with
      | releaseToFreelancer => exact (booked trivial).elim
      | refundToClient | split => contradiction

/-- The released amount tells what the freelancer was paid after exactly the runs
that paid them nothing off the books. -/
theorem releasedLaw_iff (run : RunTo host trace ledger) (found : ledger.entry id = some entry) :
    ReleasedLaw ledger id entry ↔ ∀ point ∈ trace, ¬ OffTheBooks host id point.1 point.2 := by
  obtain ⟨ttl, tokens, run⟩ := run
  have initial : Booked id (Ledger.deployed ttl tokens : Ledger Address Symbol τ) :=
    deployed_booked ttl tokens
  have unchanged := (run.unchanged_iff initial.holds step_holds_some
    (fun holds stepped booked => step_excess holds.choose_spec stepped booked)
    (fun holds stepped off => step_excess_raised holds.choose_spec stepped off)).2
  rw [excess_found found] at unchanged
  have start : excess id (Ledger.deployed ttl tokens : Ledger Address Symbol τ) = 0 := rfl
  constructor
  · intro law
    apply unchanged.mp
    rw [start, law.1]
    exact Int.sub_self _
  · intro booked
    have same := unchanged.mpr booked
    refine ⟨by omega, ?_⟩
    have final := run.invariant_of (Booked id) (fun ledger action => ¬ OffTheBooks host id ledger action)
      step_booked booked initial
    exact final.released entry found

/-- The split on the bank paid 650 and booked 300, so one of its actions was off the books. -/
theorem releasedLaw_iff_split : ∃ trace, RunTo (Bank.host 0) trace (Bank.ledger Bank.splitting) ∧
    ∃ point ∈ trace, OffTheBooks (Bank.host 0) 7 point.1 point.2 := by
  obtain ⟨trace, run, _⟩ := Bank.ledger_run Bank.splitting
  have differs : ∃ entry, (Bank.ledger Bank.splitting).entry 7 = some entry ∧
      entry.releasedAmount.val ≠ paidTo (Bank.ledger Bank.splitting).receipts 7 entry.freelancer := by
    decide
  obtain ⟨entry, found, differs⟩ := differs
  refine ⟨trace, run, ?_⟩
  by_contra clean
  refine differs ((releasedLaw_iff run found).mpr ?_).1
  intro point member off
  exact clean ⟨point, member, off⟩

end Stellance.Escrow
