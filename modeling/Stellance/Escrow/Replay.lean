import Stellance.Escrow.Conservation

/-! The escrow as its events tell it. An event carries what a call changed, so an
indexer has to recompute statuses and the parts of a split; what it rebuilds is the
stored entry and what the parties were paid. -/
namespace Stellance.Escrow
variable {Address Symbol τ : Type} [DecidableEq Address]

def Event.contractId : Event Address Symbol → Symbol
  | .fund id .. | .releaseMs id .. | .release id .. | .refund id .. | .dispute id ..
  | .resolve id .. => id

/-- What an indexer keeps of an escrow. -/
structure Copy (Address : Type) where
  client : Address
  freelancer : Address
  token : Address
  totalAmount : I128
  status : EscrowStatus
  releasedAmount : I128
  paidToClient : Int
  paidToFreelancer : Int
  deriving DecidableEq

/-- One address may stand on both sides, and is then paid as both. -/
def Copy.pay (copy : Copy Address) (party : Address) (amount : Int) : Copy Address :=
  { copy with
    paidToClient := copy.paidToClient + if party = copy.client then amount else 0
    paidToFreelancer := copy.paidToFreelancer + if party = copy.freelancer then amount else 0 }

/-- A resolution tells its decision only; what it paid is computed from what was left. -/
def Copy.resolve (copy : Copy Address) (decision : DisputeDecision) (freelancerBps : UInt32) :
    Copy Address :=
  let remaining := copy.totalAmount.val - copy.releasedAmount.val
  match decision with
  | .releaseToFreelancer => { copy.pay copy.freelancer remaining with status := .released }
  | .refundToClient => { copy.pay copy.client remaining with status := .refunded }
  | .split =>
      let freelancerAmount := (remaining * freelancerBps.toNat).tdiv 10000
      { (copy.pay copy.freelancer freelancerAmount).pay copy.client (remaining - freelancerAmount) with
        status := .resolved }

def replayEvent : Option (Copy Address) → Event Address Symbol → Option (Copy Address)
  | _, .fund _ client freelancer amount token =>
      some ⟨client, freelancer, token, amount, .funded, I128.zero, 0, 0⟩
  | none, _ => none
  | some copy, .releaseMs _ freelancer milestoneAmount releasedAmount =>
      some { copy.pay freelancer milestoneAmount.val with
        releasedAmount
        status := if copy.totalAmount.val ≤ releasedAmount.val then .released else copy.status }
  | some copy, .release _ freelancer remaining =>
      some { copy.pay freelancer remaining.val with
        releasedAmount := copy.totalAmount, status := .released }
  | some copy, .refund _ client remaining =>
      some { copy.pay client remaining.val with status := .refunded }
  | some copy, .dispute .. => some { copy with status := .disputed }
  | some copy, .resolve _ decision freelancerBps => some (copy.resolve decision freelancerBps)

def replay (events : List (Event Address Symbol)) : Option (Copy Address) :=
  events.foldl replayEvent none

/-- The events published for an id, in order. -/
def published [DecidableEq Symbol] (receipts : List (Receipt Address Symbol)) (id : Symbol) :
    List (Event Address Symbol) :=
  (receipts.flatMap Receipt.events).filter (·.contractId = id)

/-- The copy an entry should have, given what its parties were paid. -/
def EscrowEntry.copied (entry : EscrowEntry Address) (paidToClient paidToFreelancer : Int) :
    Copy Address :=
  ⟨entry.client, entry.freelancer, entry.token, entry.totalAmount, entry.status,
    entry.releasedAmount, paidToClient, paidToFreelancer⟩

theorem payoutSumTo_positivePay {party other : Address} {amount : I128} (nonneg : 0 ≤ amount.val) :
    payoutSumTo other (positivePay party amount) = if party = other then amount.val else 0 := by
  split
  · rename_i same
    rw [same, payoutSumTo_positivePay_self nonneg]
  · rename_i different
    exact payoutSumTo_positivePay_other different

theorem payoutSumTo_one {party other : Address} {amount : I128} :
    payoutSumTo other [(party, amount)] = if party = other then amount.val else 0 :=
  Int.add_zero _

namespace Moves
variable {call : Call Address Symbol} {entry next : EscrowEntry Address}
  {payouts : List (Payout Address)} {event : Event Address Symbol}

omit [DecidableEq Address] in
theorem event_contractId (moves : Moves call entry payouts next event) :
    event.contractId = call.contractId := by
  cases moves <;> rfl

/-- The event of a move replays as the move. -/
theorem replayed (moves : Moves call entry payouts next event) (formed : entry.WellFormed)
    (toClient toFreelancer : Int) :
    replayEvent (some (entry.copied toClient toFreelancer)) event =
      some (next.copied (toClient + payoutSumTo entry.client payouts)
        (toFreelancer + payoutSumTo entry.freelancer payouts)) := by
  have bounded := formed.bounded
  cases moves with
  | releaseMilestone funded allowed remaining left positive covered released sum =>
    rw [payoutSumTo_one, payoutSumTo_one]
    rfl
  | release funded allowed remaining left =>
    rw [payoutSumTo_positivePay (by omega), payoutSumTo_positivePay (by omega)]
    rfl
  | refund funded allowed remaining left =>
    rw [payoutSumTo_positivePay (by omega), payoutSumTo_positivePay (by omega)]
    rfl
  | dispute =>
    simp [replayEvent, EscrowEntry.copied, payoutSumTo]
  | resolve disputed allowed remaining left arm =>
    cases arm with
    | releaseToFreelancer =>
      rw [payoutSumTo_positivePay (by omega), payoutSumTo_positivePay (by omega), left]
      rfl
    | refundToClient =>
      rw [payoutSumTo_positivePay (by omega), payoutSumTo_positivePay (by omega), left]
      rfl
    | split percentage product freelancerAmount clientAmount multiplied divided rest =>
      obtain ⟨low, high, _⟩ := share_bounds (by omega) percentage multiplied divided
      have clientLow : 0 ≤ clientAmount.val := by omega
      rw [payoutSumTo_append, payoutSumTo_append, payoutSumTo_positivePay low,
        payoutSumTo_positivePay low, payoutSumTo_positivePay clientLow,
        payoutSumTo_positivePay clientLow, ← Int.add_assoc, ← Int.add_assoc, rest, divided,
        multiplied, left]
      rfl

end Moves

/-! ### Runs -/

variable {host : Host Address τ} {before after ledger : Ledger Address Symbol τ}
  {action : Action Address Symbol τ} {id : Symbol} {entry : EscrowEntry Address}
  {trace : List (Ledger Address Symbol τ × Action Address Symbol τ)}

theorem replay_snoc (events : List (Event Address Symbol)) (event : Event Address Symbol) :
    replay (events ++ [event]) = replayEvent (replay events) event :=
  List.foldl_concat _ _ _ _

variable [DecidableEq Symbol]

section Published
variable {receipts : List (Receipt Address Symbol)} {receipt : Receipt Address Symbol}
omit [DecidableEq Address]

theorem published_append (more : List (Receipt Address Symbol)) :
    published (receipts ++ more) id = published receipts id ++ published more id := by
  simp only [published, List.flatMap_append, List.filter_append]

theorem published_own {event : Event Address Symbol} (one : receipt.events = [event])
    (own : event.contractId = id) :
    published (receipts ++ [receipt]) id = published receipts id ++ [event] := by
  rw [published_append]
  simp [published, one, own]

theorem published_other {event : Event Address Symbol} (one : receipt.events = [event])
    (other : event.contractId ≠ id) : published (receipts ++ [receipt]) id = published receipts id := by
  rw [published_append]
  simp [published, one, other]

theorem published_stopped (silent : receipt.events = []) :
    published (receipts ++ [receipt]) id = published receipts id := by
  rw [published_append]
  simp [published, silent]

end Published

/-- What get_escrow answers, with what was paid, as a copy. -/
def Ledger.copy (ledger : Ledger Address Symbol τ) (id : Symbol) : Option (Copy Address) :=
  (getEscrow id ledger.state).map fun entry =>
    entry.copied (paidTo ledger.receipts id entry.client) (paidTo ledger.receipts id entry.freelancer)

def Ledger.Replayed (ledger : Ledger Address Symbol τ) : Prop :=
  ∀ id, replay (published ledger.receipts id) = ledger.copy id

theorem copy_same (same : after.entry id = before.entry id)
    (quiet : tokenCalls after.receipts id = tokenCalls before.receipts id) :
    after.copy id = before.copy id := by
  unfold Ledger.copy paidTo
  rw [quiet]
  exact congrArg (Option.map _) same

theorem copy_found (found : ledger.entry id = some entry) :
    ledger.copy id = some (entry.copied (paidTo ledger.receipts id entry.client)
      (paidTo ledger.receipts id entry.freelancer)) :=
  congrArg (Option.map _) found

/-- What one action told of an id: nothing, its funding, or a move of its entry. -/
inductive Tells (host : Host Address τ) (id : Symbol) (before after : Ledger Address Symbol τ) : Prop where
  | nothing (same : after.entry id = before.entry id)
      (quiet : tokenCalls after.receipts id = tokenCalls before.receipts id)
      (silent : published after.receipts id = published before.receipts id)
  | opened {client freelancer admin amount token} (absent : before.entry id = none)
      (stored : after.entry id = some (.opened client freelancer admin amount token))
      (pulled : tokenCalls after.receipts id =
        tokenCalls before.receipts id ++ [.transferFrom token client amount])
      (told : published after.receipts id =
        published before.receipts id ++ [.fund id client freelancer amount token])
  | moved {call entry payouts next event} (found : before.entry id = some entry)
      (moves : Moves call entry payouts next event) (stored : after.entry id = some next)
      (paid : tokenCalls after.receipts id = tokenCalls before.receipts id ++
        payouts.map fun payout => .transfer entry.token payout.1 payout.2)
      (told : published after.receipts id = published before.receipts id ++ [event])

theorem tells_of_step (stepped : Step host before action after) (id : Symbol) :
    Tells host id before after := by
  cases did_of_step stepped with
  | outside => exact .nothing rfl rfl rfl
  | stopped => exact .nothing rfl tokenCalls_stopped (published_stopped rfl)
  | @opened auths key client freelancer admin amount token tokens authorised positive absent =>
    by_cases same : id = key
    · subst same
      exact .opened absent stored_here (tokenCalls_own rfl) (published_own rfl rfl)
    · have other := Ne.symm same
      exact .nothing (stored_apart same) (tokenCalls_other other) (published_other rfl other)
  | @moved auths call entry payouts next event tokens authorised found moves =>
    have event_id := moves.event_contractId
    by_cases same : id = call.contractId
    · subst same
      exact .moved found moves stored_here (tokenCalls_own rfl) (published_own rfl event_id)
    · have other : event.contractId ≠ id := fun own => same (own.symm.trans event_id)
      exact .nothing (stored_apart same) (tokenCalls_other (Ne.symm same)) (published_other rfl other)

theorem step_replayed (formed : before.WellFormed)
    (unfunded : ∀ id, before.entry id = none → tokenCalls before.receipts id = [])
    (told : before.Replayed) (stepped : Step host before action after) : after.Replayed := by
  intro id
  have earlier := told id
  cases tells_of_step stepped id with
  | nothing same quiet silent => rw [silent, earlier, copy_same same quiet]
  | opened absent stored pulled told =>
    rw [told, replay_snoc, copy_found stored, paidTo_pulled pulled, paidTo_pulled pulled, paidTo,
      paidTo, unfunded id absent]
    cases replay (published before.receipts id) <;> rfl
  | moved found moves stored paid told =>
    rw [told, replay_snoc, earlier, copy_found found, moves.replayed (formed id _ found),
      copy_found stored, paidTo_paid paid, paidTo_paid paid, moves.sameTerms.client,
      moves.sameTerms.freelancer]

theorem reachable_unfunded (reached : Reachable host ledger) (absent : ledger.entry id = none) :
    tokenCalls ledger.receipts id = [] := by
  obtain ⟨trace, run⟩ := reached
  obtain ⟨_, pot, _, holds⟩ := run_holds run id
  exact holds.untouched absent

/-- Folding the events of an id rebuilds its entry and what its parties were paid. -/
theorem events_tell (run : RunTo host trace ledger) (id : Symbol) :
    replay (published ledger.receipts id) = (getEscrow id ledger.state).map fun entry =>
      { client := entry.client
        freelancer := entry.freelancer
        token := entry.token
        totalAmount := entry.totalAmount
        status := entry.status
        releasedAmount := entry.releasedAmount
        paidToClient := paidTo ledger.receipts id entry.client
        paidToFreelancer := paidTo ledger.receipts id entry.freelancer } := by
  obtain ⟨ttl, tokens, run⟩ := run
  have replayed : ledger.Replayed := by
    refine run.along (I := fun _ ledger => ledger.Replayed) ?_ fun _ => rfl
    intro trace before action after earlier told stepped
    have reached : Reachable host before := ⟨trace, ttl, tokens, earlier⟩
    exact step_replayed (reachable_wellFormed reached) (fun _ => reachable_unfunded reached) told stepped
  exact replayed id

/-- The split on the bank, told by its events: the freelancer has 300 and half of 700. -/
theorem events_tell_split : ∃ trace, RunTo (Bank.host 0) trace (Bank.ledger Bank.splitting) ∧
    replay (published (Bank.ledger Bank.splitting).receipts 7) =
      some ⟨1, 2, 9, .fromU32 1000, .resolved, .fromU32 300, 350, 650⟩ := by
  obtain ⟨trace, run, _⟩ := Bank.ledger_run Bank.splitting
  refine ⟨trace, run, (events_tell run 7).trans ?_⟩
  decide

end Stellance.Escrow
