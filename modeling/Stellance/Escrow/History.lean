import Stellance.Escrow.Conservation

/-! An entry as its history tells it. The calls accepted under an id, in order, decide
whether its entry is funded, and on which terms. -/
namespace Stellance.Escrow
variable {Address Symbol τ : Type}
  {host : Host Address τ} {before after ledger : Ledger Address Symbol τ}
  {action : Action Address Symbol τ} {id : Symbol} {entry : EscrowEntry Address}
  {receipts : List (Receipt Address Symbol)} {receipt : Receipt Address Symbol}

/-- Milestones released by their callers, one after the other. -/
def releases (id : Symbol) (payments : List (Payout Address)) : List (Call Address Symbol) :=
  payments.map fun payment => .releaseMilestone id payment.1 payment.2

theorem releases_append (payments : List (Payout Address)) (caller : Address) (amount : I128) :
    releases id payments ++ [.releaseMilestone id caller amount] =
      releases id (payments ++ [(caller, amount)]) := by
  simp [releases]

theorem releases_injective {first second : List (Payout Address)}
    (same : releases id first = releases id second) : first = second := by
  refine List.map_injective_iff.mpr ?_ same
  rintro ⟨caller, amount⟩ ⟨caller', amount'⟩ equal
  cases equal
  rfl

/-- A history of releases ends in a release. -/
theorem release_of_releases {rest : List (Call Address Symbol)} {call : Call Address Symbol}
    {payments : List (Payout Address)} (same : rest ++ [call] = releases id payments) :
    ∃ caller amount, call = .releaseMilestone id caller amount := by
  have member : call ∈ releases id payments := by
    rw [← same]
    exact List.mem_append_right _ List.mem_cons_self
  obtain ⟨payment, _, rfl⟩ := List.mem_map.mp member
  exact ⟨_, _, rfl⟩

/-- What the accepted calls tell about the entry: it was never funded, it was funded and
only milestones short of the total were released, or it is past that. -/
inductive Told (id : Symbol) : List (Call Address Symbol) → Option (EscrowEntry Address) → Prop where
  | nothing : Told id [] none
  | funded {client freelancer admin token : Address} {amount : I128} {entry : EscrowEntry Address}
      {payments : List (Payout Address)}
      (terms : (EscrowEntry.opened client freelancer admin amount token).SameTerms entry)
      (status : entry.status = .funded) (released : entry.releasedAmount.val = payoutSum payments) :
      Told id (.fund id client freelancer admin amount token :: releases id payments) (some entry)
  | past {client freelancer admin token : Address} {amount : I128} {entry : EscrowEntry Address}
      {rest : List (Call Address Symbol)}
      (terms : (EscrowEntry.opened client freelancer admin amount token).SameTerms entry)
      (status : entry.status ≠ .funded)
      (spent : ∀ payments, rest = releases id payments → amount.val ≤ payoutSum payments) :
      Told id (.fund id client freelancer admin amount token :: rest) (some entry)

/-- A funded entry moved by anything but a milestone release is funded no more. -/
theorem Moves.past_funded {call : Call Address Symbol} {next : EscrowEntry Address}
    {payouts : List (Payout Address)} {event : Event Address Symbol}
    (moves : Moves call entry payouts next event)
    (other : ∀ caller amount, call ≠ .releaseMilestone id caller amount)
    (own : call.contractId = id) : next.status ≠ .funded := by
  cases moves with
  | @releaseMilestone key caller amount =>
    obtain rfl : key = id := own
    exact absurd rfl (other caller amount)
  | release => exact fun funded => by contradiction
  | refund => exact fun funded => by contradiction
  | dispute => exact fun funded => by contradiction
  | resolve disputed allowed remaining left arm =>
    cases arm <;> exact fun funded => by contradiction

/-- An open entry that is not funded is disputed, and only its resolution moves it. -/
theorem Moves.resolves {call : Call Address Symbol} {next : EscrowEntry Address}
    {payouts : List (Payout Address)} {event : Event Address Symbol}
    (moves : Moves call entry payouts next event) (status : entry.status ≠ .funded) :
    ∀ caller amount, call ≠ .releaseMilestone id caller amount := by
  rintro caller amount rfl
  cases moves with
  | releaseMilestone funded => exact status funded

/-- An accepted call takes the history on. -/
theorem Told.moves {calls : List (Call Address Symbol)} {call : Call Address Symbol}
    {next : EscrowEntry Address} {payouts : List (Payout Address)} {event : Event Address Symbol}
    (told : Told id calls (some entry)) (own : call.contractId = id)
    (moves : Moves call entry payouts next event) : Told id (calls ++ [call]) (some next) := by
  cases told with
  | @funded client freelancer admin token amount _ payments terms status released =>
    have terms' := terms.trans moves.sameTerms
    have total : entry.totalAmount = amount := terms.totalAmount
    rw [List.cons_append]
    by_cases milestone : ∃ caller paid, call = .releaseMilestone id caller paid
    · obtain ⟨caller, paid, rfl⟩ := milestone
      rw [releases_append]
      cases moves with
      | releaseMilestone funded allowed remaining left positive covered sum' sum =>
        have more : payoutSum (payments ++ [(caller, paid)]) = sum'.val := by
          rw [payoutSum_append, sum, released]
          simp [payoutSum]
        by_cases all : entry.totalAmount.val ≤ sum'.val
        · refine .past terms' (by simp [all]) ?_
          intro payments' same
          obtain rfl := releases_injective same
          rw [more, ← total]
          exact all
        · exact .funded terms' (by simp [all, funded]) more.symm
    · push Not at milestone
      apply Told.past terms' (moves.past_funded milestone own)
      intro payments' same
      obtain ⟨caller, paid, rfl⟩ := release_of_releases same
      exact absurd rfl (milestone caller paid)
  | past terms status spent =>
    have milestone : ∀ caller amount, call ≠ .releaseMilestone id caller amount :=
      moves.resolves status
    apply Told.past (terms.trans moves.sameTerms) (moves.past_funded milestone own)
    intro payments' same
    obtain ⟨caller, paid, rfl⟩ := release_of_releases same
    exact absurd rfl (milestone caller paid)

theorem Told.absent {calls : List (Call Address Symbol)} (told : Told id calls none) : calls = [] := by
  cases told
  rfl

variable [DecidableEq Symbol]

/-- The calls accepted under an id. -/
def accepted (receipts : List (Receipt Address Symbol)) (id : Symbol) : List (Call Address Symbol) :=
  (receipts.filter fun receipt => receipt.call.contractId = id ∧ receipt.outcome = .ok).map
    Receipt.call

theorem accepted_own (own : receipt.call.contractId = id) (ok : receipt.outcome = .ok) :
    accepted (receipts ++ [receipt]) id = accepted receipts id ++ [receipt.call] := by
  simp [accepted, own, ok]

theorem accepted_other (other : receipt.call.contractId ≠ id) :
    accepted (receipts ++ [receipt]) id = accepted receipts id := by
  simp [accepted, other]

theorem accepted_stopped (stopped : receipt.outcome ≠ .ok) :
    accepted (receipts ++ [receipt]) id = accepted receipts id := by
  simp [accepted, stopped]

theorem Told.grown {found : Option (EscrowEntry Address)} (own : receipt.call.contractId = id)
    (ok : receipt.outcome = .ok) (told : Told id (accepted receipts id ++ [receipt.call]) found) :
    Told id (accepted (receipts ++ [receipt]) id) found := by
  rw [accepted_own own ok]
  exact told

def Ledger.Told (ledger : Ledger Address Symbol τ) : Prop :=
  ∀ id, Escrow.Told id (accepted ledger.receipts id) (ledger.entry id)

variable [DecidableEq Address]

theorem step_told (told : before.Told) (stepped : Step host before action after) : after.Told := by
  intro id
  have known := told id
  cases did_of_step stepped with
  | outside => exact known
  | stopped =>
    rw [accepted_stopped (by simp)]
    exact known
  | @opened auths key client freelancer admin amount token tokens authorised positive absent =>
    rw [stored_entry]
    by_cases same : id = key
    · subst same
      rw [absent] at known
      rw [if_pos rfl]
      apply Told.grown
      · rfl
      · rfl
      · rw [known.absent]
        have opened : Escrow.Told id (.fund id client freelancer admin amount token :: releases id [])
            (some (.opened client freelancer admin amount token)) := .funded (.refl _) rfl rfl
        exact opened
    · rw [accepted_other (Ne.symm same), if_neg same]
      exact known
  | @moved auths call entry payouts next event tokens authorised found moves =>
    rw [stored_entry]
    by_cases same : id = call.contractId
    · subst same
      rw [found] at known
      rw [if_pos rfl]
      apply Told.grown
      · rfl
      · rfl
      · exact known.moves rfl moves
    · rw [accepted_other (Ne.symm same), if_neg same]
      exact known

theorem reachable_told (reached : Reachable host ledger) : ledger.Told := by
  obtain ⟨_, ttl, tokens, run⟩ := reached
  exact run.invariant step_told fun _ => .nothing

/-- The terms of a funding, as the funder gave them. -/
structure Terms (Address : Type) where
  client : Address
  freelancer : Address
  admin : Address
  amount : Int
  deriving DecidableEq

/-- An entry is funded on these terms. -/
structure EscrowEntry.FundedOn (entry : EscrowEntry Address) (terms : Terms Address) : Prop where
  funded : entry.status = .funded
  client : entry.client = terms.client
  freelancer : entry.freelancer = terms.freelancer
  admin : entry.admin = terms.admin
  totalAmount : entry.totalAmount.val = terms.amount

/-- A funding on these terms, and after it only milestone releases short of the amount. -/
def Terms.Opens (terms : Terms Address) (id : Symbol) (calls : List (Call Address Symbol)) : Prop :=
  ∃ amount token payments,
    calls = .fund id terms.client terms.freelancer terms.admin amount token :: releases id payments ∧
      amount.val = terms.amount ∧ payoutSum payments < terms.amount

/-- What is stored under an id is funded on given terms exactly when the calls accepted
under it are a funding on these terms and milestone releases that leave some of it. -/
theorem funded_iff_history (reached : Reachable host ledger) (terms : Terms Address) :
    (∃ entry, ledger.entry id = some entry ∧ entry.FundedOn terms) ↔
      terms.Opens id (accepted ledger.receipts id) := by
  have told := reachable_told reached id
  have formed := reachable_wellFormed reached id
  generalize accepted ledger.receipts id = calls at told ⊢
  constructor
  · rintro ⟨entry, found, funded⟩
    have unspent := (formed entry found).unspent (by rw [funded.funded]; rfl)
    rw [found] at told
    cases told with
    | @funded client freelancer admin token amount _ payments same status released =>
      have exactly := funded.totalAmount
      rw [same.totalAmount] at exactly
      rw [same.totalAmount, released] at unspent
      refine ⟨amount, token, payments, ?_, exactly, lt_of_lt_of_eq unspent exactly⟩
      rw [← funded.client, ← funded.freelancer, ← funded.admin, same.client, same.freelancer, same.admin]
      rfl
    | past same status => exact absurd funded.funded status
  · rintro ⟨amount, token, payments, calls, exactly, short⟩
    rw [← exactly] at short
    generalize ledger.entry id = found at told
    cases told with
    | nothing => contradiction
    | funded same status released =>
      cases (List.cons.inj calls).1
      exact ⟨_, rfl, status, same.client, same.freelancer, same.admin,
        (congrArg (·.val) same.totalAmount).trans exactly⟩
    | past same status spent =>
      obtain ⟨call, rest⟩ := List.cons.inj calls
      cases call
      exact absurd (spent payments rest) (not_le_of_gt short)

end Stellance.Escrow
