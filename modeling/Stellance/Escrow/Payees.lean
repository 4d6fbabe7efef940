import Stellance.Escrow.History

/-! Whom the calls accepted under an id have paid. Which of the parties a call pays can
be told from the call, so what reached them is told by the history. -/
namespace Stellance.Escrow
variable {Address Symbol τ : Type}

/-- The calls that pay somebody. -/
def Call.Pays : Call Address Symbol → Prop
  | .fund .. | .dispute .. => False
  | .releaseMilestone .. | .release .. | .refund .. | .resolveDispute .. => True

/-- The calls that give some of what remains to the client. -/
def Call.PaysClient : Call Address Symbol → Prop
  | .refund .. | .resolveDispute _ _ .refundToClient _ => True
  | .resolveDispute _ _ .split bps => bps.toNat < 10000
  | _ => False

theorem Call.PaysClient.pays {call : Call Address Symbol} (pays : call.PaysClient) : call.Pays := by
  cases call with
  | refund | resolveDispute => trivial
  | fund | releaseMilestone | release | dispute => exact pays.elim

/-- The calls that pay the client's address, which may be the freelancer's too. -/
def Call.Reaches (entry : EscrowEntry Address) (call : Call Address Symbol) : Prop :=
  call.PaysClient ∨ entry.client = entry.freelancer ∧ call.Pays

/-! ### Payouts to two parties -/

section Payouts
variable {payouts : List (Payout Address)} {client freelancer : Address}

theorem payoutSum_cons (payout : Payout Address) :
    payoutSum (payout :: payouts) = payout.2.val + payoutSum payouts := by
  rw [payoutSum, List.map_cons, List.sum_cons, payoutSum]

variable [DecidableEq Address]

theorem payoutSumTo_cons (party : Address) (payout : Payout Address) :
    payoutSumTo party (payout :: payouts) =
      (if payout.1 = party then payout.2.val else 0) + payoutSumTo party payouts := by
  rw [payoutSumTo, List.map_cons, List.sum_cons, payoutSumTo]

/-- Two parties share what is paid to no one else. -/
theorem payoutSum_shared (different : client ≠ freelancer)
    (payees : ∀ payout ∈ payouts, payout.1 = client ∨ payout.1 = freelancer) :
    payoutSum payouts = payoutSumTo client payouts + payoutSumTo freelancer payouts := by
  induction payouts with
  | nil => rfl
  | cons payout rest ih =>
    have shared := ih fun payout member => payees payout (List.mem_cons_of_mem _ member)
    rw [payoutSum_cons, payoutSumTo_cons, payoutSumTo_cons, shared]
    rcases payees payout List.mem_cons_self with same | same
    · rw [same, if_pos rfl, if_neg different]
      omega
    · rw [same, if_pos rfl, if_neg different.symm]
      omega

theorem payoutSum_one (payees : ∀ payout ∈ payouts, payout.1 = client) :
    payoutSum payouts = payoutSumTo client payouts := by
  induction payouts with
  | nil => rfl
  | cons payout rest ih =>
    rw [payoutSum_cons, payoutSumTo_cons, payees payout List.mem_cons_self, if_pos rfl,
      ih fun payout member => payees payout (List.mem_cons_of_mem _ member)]

end Payouts

namespace Moves
variable {call : Call Address Symbol} {entry next : EscrowEntry Address}
  {payouts : List (Payout Address)} {event : Event Address Symbol}

theorem pays_iff (moves : Moves call entry payouts next event) (formed : entry.WellFormed) :
    0 < payoutSum payouts ↔ call.Pays := by
  have strict := formed.unspent moves.was_open
  have owed := moves.pays formed
  rw [outstanding_open moves.was_open] at owed
  cases moves with
  | releaseMilestone funded allowed remaining left positive =>
    simp only [Call.Pays, iff_true, payoutSum_cons]
    exact lt_of_lt_of_eq positive (Int.add_zero _).symm
  | release funded allowed remaining left =>
    rw [outstanding_closed rfl] at owed
    simp only [Call.Pays, iff_true]
    omega
  | refund funded allowed remaining left =>
    rw [outstanding_closed rfl] at owed
    simp only [Call.Pays, iff_true]
    omega
  | dispute =>
    simp only [Call.Pays, iff_false]
    exact lt_irrefl _
  | resolve disputed allowed remaining left arm =>
    simp only [Call.Pays, iff_true]
    cases arm <;>
    · rw [outstanding_closed rfl] at owed
      omega

/-- A share of less than all leaves something over. -/
theorem share_lt_iff {remaining product share : Int} {bps : Nat} (positive : 0 < remaining)
    (percentage : bps ≤ 10000) (multiplied : product = remaining * bps)
    (divided : share = product.tdiv 10000) : share < remaining ↔ bps < 10000 := by
  have low : 0 ≤ product := by
    rw [multiplied]
    exact Int.mul_nonneg (le_of_lt positive) (Int.natCast_nonneg bps)
  rw [Int.tdiv_eq_ediv_of_nonneg low] at divided
  constructor
  · intro less
    by_contra all
    obtain rfl : bps = 10000 := by omega
    omega
  · intro less
    have smaller : remaining * bps < remaining * 10000 :=
      Int.mul_lt_mul_of_pos_left (by omega) positive
    omega

variable [DecidableEq Address]

/-- What a call pays to a client who is not the freelancer as well. -/
theorem paysClient_iff (moves : Moves call entry payouts next event) (formed : entry.WellFormed)
    (different : entry.client ≠ entry.freelancer) :
    0 < payoutSumTo entry.client payouts ↔ call.PaysClient := by
  have strict := formed.unspent moves.was_open
  cases moves with
  | releaseMilestone =>
    simp only [Call.PaysClient, iff_false, payoutSumTo_cons, if_neg different.symm]
    exact lt_irrefl _
  | release =>
    simp only [Call.PaysClient, iff_false, payoutSumTo_positivePay_other different.symm]
    exact lt_irrefl _
  | refund funded allowed remaining left =>
    simp only [Call.PaysClient, iff_true]
    rw [payoutSumTo_positivePay_self (by omega)]
    omega
  | dispute =>
    simp only [Call.PaysClient, iff_false]
    exact lt_irrefl _
  | resolve disputed allowed remaining left arm =>
    cases arm with
    | releaseToFreelancer =>
      simp only [Call.PaysClient, iff_false, payoutSumTo_positivePay_other different.symm]
      exact lt_irrefl _
    | refundToClient =>
      simp only [Call.PaysClient, iff_true]
      rw [payoutSumTo_positivePay_self (by omega)]
      omega
    | split percentage product freelancerAmount clientAmount multiplied divided rest =>
      obtain ⟨low, high, _⟩ := share_bounds (by omega) percentage multiplied divided
      simp only [Call.PaysClient]
      rw [payoutSumTo_append, payoutSumTo_positivePay_other different.symm,
        payoutSumTo_positivePay_self (by omega)]
      rw [← share_lt_iff (by omega) percentage multiplied divided]
      omega

/-- Where the two parties have one address, it gets all there is. -/
theorem payoutSum_same (moves : Moves call entry payouts next event)
    (same : entry.client = entry.freelancer) :
    payoutSum payouts = payoutSumTo entry.client payouts := by
  apply payoutSum_one
  intro payout member
  rcases (moves.payees member).1 with client | freelancer
  · exact client
  · exact freelancer.trans same.symm

/-- A call pays the client's address something exactly when it reaches it. -/
theorem reaches_iff (moves : Moves call entry payouts next event) (formed : entry.WellFormed) :
    0 < payoutSumTo entry.client payouts ↔ call.Reaches entry := by
  unfold Call.Reaches
  by_cases same : entry.client = entry.freelancer
  · rw [← moves.payoutSum_same same, moves.pays_iff formed]
    refine ⟨fun pays => .inr ⟨same, pays⟩, ?_⟩
    rintro (paysClient | ⟨_, pays⟩)
    · exact paysClient.pays
    · exact pays
  · rw [moves.paysClient_iff formed same]
    refine ⟨.inl, ?_⟩
    rintro (paysClient | ⟨equal, _⟩)
    · exact paysClient
    · exact absurd equal same

theorem payoutSumTo_nonneg (moves : Moves call entry payouts next event) (party : Address) :
    0 ≤ payoutSumTo party payouts := by
  refine List.sum_nonneg fun amount member => ?_
  obtain ⟨payout, inside, rfl⟩ := List.mem_map.mp member
  have := (moves.payees inside).2
  split <;> omega

end Moves

/-! ### Histories -/

variable {host : Host Address τ} {before after ledger : Ledger Address Symbol τ}
  {action : Action Address Symbol τ} {id : Symbol} {entry : EscrowEntry Address}

/-- What was paid under an id, against the calls accepted under it. -/
structure Shares (entry : EscrowEntry Address) (calls : List (Call Address Symbol))
    (paidOut toClient toFreelancer : Int) : Prop where
  nonneg : 0 ≤ toClient
  shared : entry.client ≠ entry.freelancer → paidOut = toClient + toFreelancer
  whole : entry.client = entry.freelancer → paidOut = toClient ∧ paidOut = toFreelancer
  low : 0 ≤ paidOut
  paid : 0 < paidOut ↔ ∃ call ∈ calls, call.Pays
  reached : 0 < toClient ↔ ∃ call ∈ calls, call.Reaches entry

section Zero
variable {calls : List (Call Address Symbol)} {paidOut toClient toFreelancer : Int}

theorem Shares.paidOut_zero (shares : Shares entry calls paidOut toClient toFreelancer) :
    paidOut = 0 ↔ ∀ call ∈ calls, ¬ call.Pays := by
  have low := shares.low
  have positive : ¬ 0 < paidOut ↔ ∀ call ∈ calls, ¬ call.Pays := by
    rw [shares.paid]
    push Not
    rfl
  rw [← positive]
  omega

theorem Shares.toClient_zero (shares : Shares entry calls paidOut toClient toFreelancer) :
    toClient = 0 ↔ ∀ call ∈ calls, ¬ call.Reaches entry := by
  have nonneg := shares.nonneg
  have positive : ¬ 0 < toClient ↔ ∀ call ∈ calls, ¬ call.Reaches entry := by
    rw [shares.reached]
    push Not
    rfl
  rw [← positive]
  omega

/-- The freelancer's address gets all there is where the client's is the same or gets nothing. -/
theorem Shares.toFreelancer_all (shares : Shares entry calls paidOut toClient toFreelancer) :
    paidOut = toFreelancer ↔ entry.client = entry.freelancer ∨ toClient = 0 := by
  by_cases same : entry.client = entry.freelancer
  · exact iff_of_true (shares.whole same).2 (.inl same)
  · have shared := shares.shared same
    simp only [same, false_or]
    omega

theorem Shares.nothing (shares : Shares entry calls paidOut toClient toFreelancer) :
    toClient = 0 ∧ toFreelancer = 0 ↔ toClient = 0 ∧ paidOut = 0 := by
  by_cases same : entry.client = entry.freelancer
  · have whole := shares.whole same
    omega
  · have shared := shares.shared same
    omega

theorem Shares.toFreelancer_le (shares : Shares entry calls paidOut toClient toFreelancer) :
    toFreelancer ≤ paidOut := by
  have nonneg := shares.nonneg
  by_cases same : entry.client = entry.freelancer
  · exact le_of_eq (shares.whole same).2.symm
  · have shared := shares.shared same
    omega

end Zero

/-- A sum over a history is positive where something in the history adds to it. -/
theorem positive_more {total more : Int} {calls : List (Call Address Symbol)}
    {call : Call Address Symbol} {adds : Call Address Symbol → Prop} (low : 0 ≤ total)
    (more_low : 0 ≤ more) (known : 0 < total ↔ ∃ call ∈ calls, adds call)
    (grows : 0 < more ↔ adds call) : 0 < total + more ↔ ∃ call' ∈ calls ++ [call], adds call' := by
  have either : 0 < total + more ↔ 0 < total ∨ 0 < more := by omega
  rw [either, known, grows]
  simp only [List.mem_append, List.mem_singleton, or_and_right, exists_or, exists_eq_left]

theorem Call.reaches_kept {next : EscrowEntry Address} (terms : entry.SameTerms next)
    (call : Call Address Symbol) : call.Reaches next ↔ call.Reaches entry := by
  unfold Reaches
  rw [terms.client, terms.freelancer]

variable [DecidableEq Address]

/-- A move keeps the shares. -/
theorem Shares.moves {calls : List (Call Address Symbol)} {call : Call Address Symbol}
    {next : EscrowEntry Address} {payouts : List (Payout Address)} {event : Event Address Symbol}
    {paidOut toClient toFreelancer : Int} (shares : Shares entry calls paidOut toClient toFreelancer)
    (formed : entry.WellFormed) (moves : Moves call entry payouts next event) :
    Shares next (calls ++ [call]) (paidOut + payoutSum payouts)
      (toClient + payoutSumTo entry.client payouts)
      (toFreelancer + payoutSumTo entry.freelancer payouts) := by
  have terms := moves.sameTerms
  have nonneg := shares.nonneg
  have low := shares.low
  have toClient_low := moves.payoutSumTo_nonneg entry.client
  have all_low := moves.payoutSum_nonneg
  constructor
  · omega
  · rw [terms.client, terms.freelancer]
    intro different
    have before := shares.shared different
    have more := payoutSum_shared different fun payout member => (moves.payees member).1
    omega
  · rw [terms.client, terms.freelancer]
    intro same
    have before := shares.whole same
    have more := moves.payoutSum_same same
    rw [← same]
    omega
  · omega
  · exact positive_more low all_low shares.paid (moves.pays_iff formed)
  · simp only [Call.reaches_kept terms]
    exact positive_more nonneg toClient_low shares.reached (moves.reaches_iff formed)

/-- The calls accepted under an id, the token calls they made and what is stored. -/
inductive Accounted : List (Call Address Symbol) → List (TokenCall Address) →
    Option (EscrowEntry Address) → Prop where
  | unfunded : Accounted [] [] none
  | funded {calls : List (Call Address Symbol)} {made : List (TokenCall Address)}
      {entry : EscrowEntry Address} (formed : entry.WellFormed)
      (shares : Shares entry calls (made.map TokenCall.sent).sum
        (made.map (TokenCall.sentTo entry.client)).sum
        (made.map (TokenCall.sentTo entry.freelancer)).sum) : Accounted calls made (some entry)

/-- A funding pays nobody. -/
theorem opened_accounted {client freelancer admin token : Address} {amount : I128} {key : Symbol}
    (positive : 0 < amount.val) :
    Accounted [.fund key client freelancer admin amount token] [.transferFrom token client amount]
      (some (.opened client freelancer admin amount token)) := by
  refine .funded (opened_wellFormed positive) ⟨le_refl 0, fun _ => rfl, fun _ => ⟨rfl, rfl⟩, le_refl 0, ?_, ?_⟩
  · simp [TokenCall.sent, Call.Pays]
  · simp [TokenCall.sentTo, Call.Reaches, Call.PaysClient, Call.Pays]

theorem Accounted.moves {calls : List (Call Address Symbol)} {made : List (TokenCall Address)}
    {call : Call Address Symbol} {next : EscrowEntry Address} {payouts : List (Payout Address)}
    {event : Event Address Symbol} (known : Accounted calls made (some entry))
    (moves : Moves call entry payouts next event) :
    Accounted (calls ++ [call])
      (made ++ payouts.map fun payout => .transfer entry.token payout.1 payout.2) (some next) := by
  cases known with
  | funded formed shares =>
    have more := shares.moves formed moves
    refine .funded (moves.wellFormed formed) ?_
    simp only [List.map_append, List.sum_append, List.map_map, moves.sameTerms.client,
      moves.sameTerms.freelancer]
    exact more

variable [DecidableEq Symbol]

def Ledger.Accounted (ledger : Ledger Address Symbol τ) : Prop :=
  ∀ id, Escrow.Accounted (accepted ledger.receipts id) (tokenCalls ledger.receipts id) (ledger.entry id)

theorem Accounted.grown {receipts : List (Receipt Address Symbol)} {receipt : Receipt Address Symbol}
    {found : Option (EscrowEntry Address)} (own : receipt.call.contractId = id)
    (ok : receipt.outcome = .ok)
    (known : Accounted (accepted receipts id ++ [receipt.call])
      (tokenCalls receipts id ++ receipt.tokenCalls) found) :
    Accounted (accepted (receipts ++ [receipt]) id) (tokenCalls (receipts ++ [receipt]) id) found := by
  rw [accepted_own own ok, tokenCalls_own own]
  exact known

theorem step_accounted (known : before.Accounted) (stepped : Step host before action after) :
    after.Accounted := by
  intro id
  have here := known id
  cases did_of_step stepped with
  | outside => exact here
  | stopped =>
    rw [accepted_stopped (by simp), tokenCalls_stopped]
    exact here
  | @opened auths key client freelancer admin amount token tokens authorised positive absent pulled =>
    rw [stored_entry]
    by_cases same : id = key
    · subst same
      rw [absent] at here
      rw [if_pos rfl]
      apply Accounted.grown
      · rfl
      · rfl
      · generalize accepted before.receipts id = calls at here ⊢
        generalize tokenCalls before.receipts id = made at here ⊢
        cases here
        exact opened_accounted positive
    · rw [if_neg same, accepted_other (Ne.symm same), tokenCalls_other (Ne.symm same)]
      exact here
  | @moved auths call entry payouts next event tokens authorised found moves paid =>
    rw [stored_entry]
    by_cases same : id = call.contractId
    · subst same
      rw [found] at here
      rw [if_pos rfl]
      apply Accounted.grown
      · rfl
      · rfl
      · exact here.moves moves
    · rw [if_neg same, accepted_other (Ne.symm same), tokenCalls_other (Ne.symm same)]
      exact here

theorem reachable_accounted (reached : Reachable host ledger) : ledger.Accounted := by
  obtain ⟨_, ttl, tokens, run⟩ := reached
  exact run.invariant step_accounted fun _ => .unfunded

/-- What was paid to the parties of an entry is told by the calls accepted under its id. -/
theorem reachable_shares (reached : Reachable host ledger) (found : ledger.entry id = some entry) :
    Shares entry (accepted ledger.receipts id) (paidOut ledger.receipts id)
      (paidTo ledger.receipts id entry.client) (paidTo ledger.receipts id entry.freelancer) := by
  have known := reachable_accounted reached id
  rw [found] at known
  unfold paidOut paidTo
  generalize accepted ledger.receipts id = calls at known ⊢
  generalize tokenCalls ledger.receipts id = made at known ⊢
  cases known with
  | funded formed shares => exact shares

/-- Nothing is paid where nothing is stored. -/
theorem reachable_unpaid (reached : Reachable host ledger) (absent : ledger.entry id = none) :
    accepted ledger.receipts id = [] ∧ paidOut ledger.receipts id = 0 := by
  have known := reachable_accounted reached id
  rw [absent] at known
  unfold paidOut
  generalize accepted ledger.receipts id = calls at known ⊢
  generalize tokenCalls ledger.receipts id = made at known ⊢
  cases known
  exact ⟨rfl, rfl⟩

end Stellance.Escrow
