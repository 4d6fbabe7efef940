import Stellance.Escrow.Bank
import Stellance.Escrow.Steps

/-! The life of an entry: the bounds every stored entry keeps, the terms that never
change, and the only arrows its status follows. -/
namespace Stellance.Escrow
variable {Address Symbol τ : Type}

/-- An open entry still holds tokens. -/
def EscrowStatus.isOpen : EscrowStatus → Bool
  | .funded | .disputed => true
  | .released | .refunded | .resolved => false

inductive EscrowStatus.Follows : EscrowStatus → EscrowStatus → Prop where
  | release : Follows .funded .released
  | refund : Follows .funded .refunded
  | dispute : Follows .funded .disputed
  | resolveRelease : Follows .disputed .released
  | resolveRefund : Follows .disputed .refunded
  | resolveSplit : Follows .disputed .resolved

structure EscrowEntry.WellFormed (entry : EscrowEntry Address) : Prop where
  positive : 0 < entry.totalAmount.val
  nonneg : 0 ≤ entry.releasedAmount.val
  bounded : entry.releasedAmount.val ≤ entry.totalAmount.val
  unspent : entry.status.isOpen = true → entry.releasedAmount.val < entry.totalAmount.val

/-- What the parties agreed on when the entry was funded. -/
structure EscrowEntry.SameTerms (before after : EscrowEntry Address) : Prop where
  client : after.client = before.client
  freelancer : after.freelancer = before.freelancer
  admin : after.admin = before.admin
  token : after.token = before.token
  totalAmount : after.totalAmount = before.totalAmount

theorem EscrowEntry.SameTerms.refl (entry : EscrowEntry Address) : entry.SameTerms entry :=
  ⟨rfl, rfl, rfl, rfl, rfl⟩

theorem EscrowEntry.SameTerms.trans {first second third : EscrowEntry Address}
    (one : first.SameTerms second) (two : second.SameTerms third) : first.SameTerms third :=
  ⟨two.client.trans one.client, two.freelancer.trans one.freelancer, two.admin.trans one.admin,
    two.token.trans one.token, two.totalAmount.trans one.totalAmount⟩

theorem opened_wellFormed {client freelancer admin token : Address} {amount : I128}
    (positive : 0 < amount.val) :
    (EscrowEntry.opened client freelancer admin amount token).WellFormed :=
  ⟨positive, le_refl _, le_of_lt positive, fun _ => positive⟩

namespace Moves
variable {call : Call Address Symbol} {entry after : EscrowEntry Address}
  {payouts : List (Payout Address)} {event : Event Address Symbol}

theorem was_open (moves : Moves call entry payouts after event) : entry.status.isOpen = true := by
  cases moves with
  | releaseMilestone funded => rw [funded]; rfl
  | release funded => rw [funded]; rfl
  | refund funded => rw [funded]; rfl
  | dispute funded => rw [funded]; rfl
  | resolve disputed => rw [disputed]; rfl

theorem sameTerms (moves : Moves call entry payouts after event) : entry.SameTerms after := by
  cases moves <;> exact ⟨rfl, rfl, rfl, rfl, rfl⟩

theorem follows (moves : Moves call entry payouts after event) :
    after.status = entry.status ∨ EscrowStatus.Follows entry.status after.status := by
  cases moves with
  | releaseMilestone funded =>
    dsimp only
    split
    · rw [funded]
      exact .inr .release
    · exact .inl rfl
  | release funded => rw [funded]; exact .inr .release
  | refund funded => rw [funded]; exact .inr .refund
  | dispute funded => rw [funded]; exact .inr .dispute
  | resolve disputed allowed remaining left arm =>
    rw [disputed]
    cases arm with
    | releaseToFreelancer => exact .inr .resolveRelease
    | refundToClient => exact .inr .resolveRefund
    | split => exact .inr .resolveSplit

theorem wellFormed (moves : Moves call entry payouts after event) (formed : entry.WellFormed) :
    after.WellFormed := by
  obtain ⟨positive, nonneg, bounded, unspent⟩ := formed
  have strict := unspent moves.was_open
  cases moves with
  | releaseMilestone funded allowed remaining left more covered released sum =>
    refine ⟨positive, by dsimp only; omega, by dsimp only; omega, ?_⟩
    dsimp only
    split
    · intro open'
      contradiction
    · intro _
      omega
  | release => exact ⟨positive, le_of_lt positive, le_refl _, fun open' => by contradiction⟩
  | refund => exact ⟨positive, nonneg, bounded, fun open' => by contradiction⟩
  | dispute => exact ⟨positive, nonneg, bounded, fun _ => strict⟩
  | resolve disputed allowed remaining left arm =>
    refine ⟨positive, nonneg, bounded, ?_⟩
    cases arm <;> exact fun open' => by contradiction

end Moves

/-! ### Ledgers -/

variable {host : Host Address τ} {before after ledger later : Ledger Address Symbol τ}
  {action : Action Address Symbol τ} {id : Symbol} {entry : EscrowEntry Address}
  {trace : List (Ledger Address Symbol τ × Action Address Symbol τ)} [DecidableEq Symbol]

def Ledger.WellFormed (ledger : Ledger Address Symbol τ) : Prop :=
  ∀ id entry, ledger.entry id = some entry → entry.WellFormed

theorem deployed_entry (ttl : Symbol → Nat) (tokens : τ) :
    (Ledger.deployed ttl tokens).entry id = (none : Option (EscrowEntry Address)) := rfl

theorem deployed_wellFormed (ttl : Symbol → Nat) (tokens : τ) :
    (Ledger.deployed ttl tokens : Ledger Address Symbol τ).WellFormed := by
  intro id entry found
  rw [deployed_entry] at found
  contradiction

variable [DecidableEq Address]

theorem step_wellFormed (formed : before.WellFormed) (stepped : Step host before action after) :
    after.WellFormed := by
  intro id entry found
  cases didTo_of_step id stepped with
  | nothing same => exact formed id entry (same ▸ found)
  | opened authorised positive absent stored =>
    obtain rfl := Option.some.inj (stored.symm.trans found)
    exact opened_wellFormed positive
  | moved own authorised earlier moves carried stored =>
    obtain rfl := Option.some.inj (stored.symm.trans found)
    exact moves.wellFormed (formed id _ earlier)

theorem run_wellFormed (run : Runs.Run (Step host) before trace after) (formed : before.WellFormed) :
    after.WellFormed :=
  run.invariant step_wellFormed formed

theorem reachable_wellFormed (reached : Reachable host ledger) : ledger.WellFormed := by
  obtain ⟨_, ttl, tokens, run⟩ := reached
  exact run_wellFormed run (deployed_wellFormed ttl tokens)

theorem step_status (stepped : Step host before action after) (found : before.entry id = some entry) :
    ∃ next, after.entry id = some next ∧ entry.SameTerms next ∧
      (next = entry ∨ entry.status.isOpen = true) ∧
      (next.status = entry.status ∨ EscrowStatus.Follows entry.status next.status) := by
  cases didTo_of_step id stepped with
  | nothing same => exact ⟨entry, same.trans found, .refl entry, .inl rfl, .inl rfl⟩
  | opened authorised positive absent =>
    rw [absent] at found
    contradiction
  | moved own authorised earlier moves carried stored =>
    obtain rfl := Option.some.inj (earlier.symm.trans found)
    exact ⟨_, stored, moves.sameTerms, .inr moves.was_open, moves.follows⟩

/-- An entry starts funded. -/
theorem step_starts (stepped : Step host before action after) (absent : before.entry id = none)
    (found : after.entry id = some entry) : entry.status = .funded := by
  cases didTo_of_step id stepped with
  | nothing same =>
    rw [same, absent] at found
    contradiction
  | opened authorised positive absent' stored =>
    obtain rfl := Option.some.inj (stored.symm.trans found)
    rfl
  | moved own authorised earlier =>
    rw [absent] at earlier
    contradiction

/-- Entries are never lost, keep their terms, and are final once closed. -/
theorem run_keeps (run : Runs.Run (Step host) before trace after)
    (found : before.entry id = some entry) :
    ∃ next, after.entry id = some next ∧ entry.SameTerms next ∧
      (entry.status.isOpen = false → next = entry) := by
  induction run with
  | refl => exact ⟨entry, found, .refl entry, fun _ => rfl⟩
  | tail _ stepped ih =>
    obtain ⟨middle, reached, terms, final⟩ := ih
    obtain ⟨next, stored, kept, changed, _⟩ := step_status stepped reached
    refine ⟨next, stored, terms.trans kept, ?_⟩
    intro closed
    have same := final closed
    subst same
    rcases changed with unchanged | opened
    · exact unchanged
    · rw [closed] at opened
      contradiction

/-- Successful fundings of an id. -/
def Receipt.funds (id : Symbol) (receipt : Receipt Address Symbol) : Bool :=
  match receipt.call with
  | .fund key .. => key = id ∧ receipt.outcome = .ok
  | _ => false

def fundings (id : Symbol) (receipts : List (Receipt Address Symbol)) : Nat :=
  receipts.countP (·.funds id)

/-- An id was funded once if it has an entry, and never if it has none. -/
def Ledger.FundedOnce (ledger : Ledger Address Symbol τ) : Prop :=
  ∀ id, fundings id ledger.receipts = if (ledger.entry id).isSome then 1 else 0

omit [DecidableEq Address] in
theorem fundings_append (receipts more : List (Receipt Address Symbol)) :
    fundings id (receipts ++ more) = fundings id receipts + fundings id more :=
  List.countP_append

omit [DecidableEq Address] in
theorem Moves.not_fund {call : Call Address Symbol} {next : EscrowEntry Address}
    {payouts : List (Payout Address)} {event : Event Address Symbol}
    (moves : Moves call entry payouts next event) (auths : Finset Address) (token : Address) :
    fundings id [Receipt.moved call auths token payouts event] = 0 := by
  cases moves <;> rfl

theorem step_fundedOnce (once : before.FundedOnce) (stepped : Step host before action after) :
    after.FundedOnce := by
  intro id
  have counted := once id
  cases did_of_step stepped with
  | outside => exact counted
  | @stopped auths call stop env failed =>
    have nothing : fundings id [⟨call, auths, .stopped stop, [], []⟩] = 0 := by
      cases call <;> simp [fundings, Receipt.funds]
    rw [fundings_append, nothing, counted]
    rfl
  | @opened auths key client freelancer admin amount token tokens authorised positive absent =>
    rw [fundings_append, counted, stored_entry]
    by_cases same : key = id
    · subst same
      rw [absent, if_pos rfl]
      simp [fundings, Receipt.funds]
    · rw [if_neg (Ne.symm same)]
      simp [fundings, Receipt.funds, same]
  | @moved auths call entry payouts next event tokens authorised found moves =>
    rw [fundings_append, moves.not_fund, counted, stored_entry]
    by_cases same : id = call.contractId
    · rw [if_pos same, same, found]
      rfl
    · rw [if_neg same, Nat.add_zero]

theorem reachable_fundedOnce (reached : Reachable host ledger) : ledger.FundedOnce := by
  obtain ⟨_, ttl, tokens, run⟩ := reached
  exact run.invariant step_fundedOnce fun _ => rfl

/-- The life of an entry, from any reachable ledger. -/
theorem lifecycle (reached : Reachable host ledger) :
    (∀ id entry, ledger.entry id = some entry → entry.WellFormed) ∧
    (∀ trace later, Runs.Run (Step host) ledger trace later →
      ∀ id entry, ledger.entry id = some entry → ∃ next, later.entry id = some next ∧
        entry.SameTerms next ∧ (entry.status.isOpen = false → next = entry)) ∧
    (∀ action next, Step host ledger action next → ∀ id after, next.entry id = some after →
      match ledger.entry id with
      | none => after.status = .funded
      | some entry =>
          after.status = entry.status ∨ EscrowStatus.Follows entry.status after.status) ∧
    (∀ id, fundings id ledger.receipts ≤ 1) ∧
    ∀ auths call next, Step host ledger (.call auths call) next →
      ∀ id, id ≠ call.contractId → next.entry id = ledger.entry id := by
  refine ⟨reachable_wellFormed reached, ?_, ?_, ?_, ?_⟩
  · intro trace later run id entry found
    exact run_keeps run found
  · intro action next stepped id after found
    cases earlier : ledger.entry id with
    | none => exact step_starts stepped earlier found
    | some entry =>
      obtain ⟨next', stored, _, _, status⟩ := step_status stepped earlier
      rw [stored, Option.some.injEq] at found
      subst found
      exact status
  · intro id
    rw [reachable_fundedOnce reached id]
    split <;> omega
  · intro auths call next stepped id other
    exact call_frame stepped other

/-- A split entry on the bank. -/
theorem lifecycle_split :
    ((Bank.ledger Bank.splitting).entry 7).map EscrowEntry.status = some .resolved ∧
      ∀ entry, (Bank.ledger Bank.splitting).entry 7 = some entry → entry.WellFormed :=
  ⟨by decide, (lifecycle (Bank.ledger_reachable Bank.splitting)).1 7⟩

end Stellance.Escrow
