import Stellance.Escrow.Moves

/-! One action of a ledger, as one of four: the tokens moved on their own, a call
stopped and left no trace but its receipt, an entry was opened, or an entry made a
move. Every law of the ledger is a case split over these. -/
namespace Stellance.Escrow
variable {Address Symbol τ : Type} [DecidableEq Address] [DecidableEq Symbol]

/-- The receipt of a move. -/
def Receipt.moved (call : Call Address Symbol) (auths : Finset Address) (token : Address)
    (payouts : List (Payout Address)) (event : Event Address Symbol) : Receipt Address Symbol :=
  ⟨call, auths, .ok, payouts.map fun payout => .transfer token payout.1 payout.2, [event]⟩

inductive Did (host : Host Address τ) (before : Ledger Address Symbol τ) :
    Action Address Symbol τ → Ledger Address Symbol τ → Prop where
  | outside (tokens : τ) :
      Did host before (.outside tokens) ⟨{ before.state with tokens }, before.receipts⟩
  | stopped {auths call stop env}
      (failed : call.body host (enter auths before.state) = .error stop env) :
      Did host before (.call auths call)
        ⟨before.state, before.receipts ++ [⟨call, auths, .stopped stop, [], []⟩]⟩
  | opened {auths id client freelancer admin amount token tokens} (authorised : client ∈ auths)
      (positive : 0 < amount.val) (absent : before.entry id = none)
      (pulled : host.transferFrom before.state.tokens token host.currentContractAddress client
        host.currentContractAddress amount = some tokens) :
      Did host before (.call auths (.fund id client freelancer admin amount token))
        ⟨before.state.stored host tokens id (.opened client freelancer admin amount token),
          before.receipts ++ [⟨.fund id client freelancer admin amount token, auths, .ok,
            [.transferFrom token client amount], [.fund id client freelancer amount token]⟩]⟩
  | moved {auths call entry payouts after event tokens} (authorised : call.caller ∈ auths)
      (found : before.entry call.contractId = some entry)
      (moves : Moves call entry payouts after event)
      (paid : payAll host entry.token payouts before.state.tokens = some tokens) :
      Did host before (.call auths call)
        ⟨before.state.stored host tokens call.contractId after,
          before.receipts ++ [Receipt.moved call auths entry.token payouts event]⟩

variable {host : Host Address τ} {before after : Ledger Address Symbol τ}
  {action : Action Address Symbol τ}

theorem did_of_step (stepped : Step host before action after) : Did host before action after := by
  subst stepped
  cases action with
  | outside tokens => exact .outside tokens
  | call auths call =>
    simp only [Ledger.act, invoke]
    split
    · rename_i env returned
      rcases body_ok.mp returned with opens | settles
      · obtain ⟨authorised, positive, absent, pulled⟩ := opens
        exact .opened authorised positive absent pulled
      · obtain ⟨authorised, found, moves, paid⟩ := settles
        exact .moved authorised found moves paid
    · rename_i stop env failed
      exact .stopped failed

theorem step_of_did (did : Did host before action after) : Step host before action after := by
  cases did with
  | outside tokens => rfl
  | stopped failed =>
    simp only [Step, Ledger.act, invoke, failed]
  | @opened auths id client freelancer admin amount token tokens authorised positive absent pulled =>
    have opens : Opens host (.fund id client freelancer admin amount token)
        (enter auths before.state) _ := .intro authorised positive absent pulled
    have returned := (body_ok (u := ())).mpr (.inl opens)
    simp only [Step, Ledger.act, invoke, returned]
    rfl
  | @moved auths call entry payouts after event tokens authorised found moves paid =>
    have settles : Settles host call (enter auths before.state) _ :=
      .intro authorised found moves paid
    have returned := (body_ok (u := ())).mpr (.inr settles)
    simp only [Step, Ledger.act, invoke, returned]
    rfl

/-! ### One id -/

variable {id : Symbol}

section Stored
omit [DecidableEq Address]

theorem stored_entry (tokens : τ) (entry : EscrowEntry Address)
    (receipts : List (Receipt Address Symbol)) (key : Symbol) :
    (Ledger.mk (before.state.stored host tokens id entry) receipts).entry key =
      if key = id then some entry else before.entry key := by
  unfold Ledger.entry getEscrow
  rw [State.stored_entries]
  split
  · rename_i same
    rw [same]
    exact Finmap.lookup_insert _
  · rename_i different
    exact Finmap.lookup_insert_of_ne _ different

theorem stored_here {tokens : τ} {entry : EscrowEntry Address}
    {receipts : List (Receipt Address Symbol)} :
    (Ledger.mk (before.state.stored host tokens id entry) receipts).entry id = some entry := by
  rw [stored_entry, if_pos rfl]

theorem stored_apart {tokens : τ} {entry : EscrowEntry Address}
    {receipts : List (Receipt Address Symbol)} {key : Symbol} (other : key ≠ id) :
    (Ledger.mk (before.state.stored host tokens id entry) receipts).entry key = before.entry key := by
  rw [stored_entry, if_neg other]

theorem tokenCalls_own {receipts : List (Receipt Address Symbol)} {receipt : Receipt Address Symbol}
    (own : receipt.call.contractId = id) :
    tokenCalls (receipts ++ [receipt]) id = tokenCalls receipts id ++ receipt.tokenCalls := by
  simp [tokenCalls, own]

theorem tokenCalls_other {receipts : List (Receipt Address Symbol)}
    {receipt : Receipt Address Symbol} (other : receipt.call.contractId ≠ id) :
    tokenCalls (receipts ++ [receipt]) id = tokenCalls receipts id := by
  simp [tokenCalls, other]

theorem tokenCalls_stopped {receipts : List (Receipt Address Symbol)} {auths : Finset Address}
    {call : Call Address Symbol} {stop : Stop} :
    tokenCalls (receipts ++ [⟨call, auths, .stopped stop, [], []⟩]) id = tokenCalls receipts id := by
  by_cases own : call.contractId = id
  · exact (tokenCalls_own own).trans (List.append_nil _)
  · exact tokenCalls_other own

end Stored

/-- What one action did to one id: nothing, its funding, or a move of its entry. -/
inductive DidTo (host : Host Address τ) (id : Symbol) (before : Ledger Address Symbol τ) :
    Action Address Symbol τ → Ledger Address Symbol τ → Prop where
  | nothing {action : Action Address Symbol τ} {after : Ledger Address Symbol τ}
      (same : after.entry id = before.entry id)
      (quiet : tokenCalls after.receipts id = tokenCalls before.receipts id) :
      DidTo host id before action after
  | opened {auths client freelancer admin amount token} {after : Ledger Address Symbol τ}
      (authorised : client ∈ auths) (positive : 0 < amount.val) (absent : before.entry id = none)
      (stored : after.entry id = some (.opened client freelancer admin amount token))
      (pulled : tokenCalls after.receipts id =
        tokenCalls before.receipts id ++ [.transferFrom token client amount]) :
      DidTo host id before (.call auths (.fund id client freelancer admin amount token)) after
  | moved {auths call entry payouts next event} {after : Ledger Address Symbol τ} (own : call.contractId = id)
      (authorised : call.caller ∈ auths) (found : before.entry id = some entry)
      (moves : Moves call entry payouts next event)
      (carried : (payAll host entry.token payouts before.state.tokens).isSome)
      (stored : after.entry id = some next)
      (paid : tokenCalls after.receipts id = tokenCalls before.receipts id ++
        payouts.map fun payout => .transfer entry.token payout.1 payout.2) :
      DidTo host id before (.call auths call) after

theorem didTo_of_step (id : Symbol) (stepped : Step host before action after) :
    DidTo host id before action after := by
  cases did_of_step stepped with
  | outside => exact .nothing rfl rfl
  | stopped => exact .nothing rfl tokenCalls_stopped
  | @opened auths key client freelancer admin amount token tokens authorised positive absent =>
    by_cases same : id = key
    · subst same
      refine .opened authorised positive absent ?_ (tokenCalls_own rfl)
      rw [stored_entry, if_pos rfl]
    · refine .nothing ?_ (tokenCalls_other (Ne.symm same))
      rw [stored_entry, if_neg same]
  | @moved auths call entry payouts next event tokens authorised found moves paid =>
    by_cases same : id = call.contractId
    · subst same
      refine .moved rfl authorised found moves ?_ ?_ (tokenCalls_own rfl)
      · rw [paid]
        rfl
      · rw [stored_entry, if_pos rfl]
    · refine .nothing ?_ (tokenCalls_other (Ne.symm same))
      rw [stored_entry, if_neg same]

/-- A call the table has a move for is taken whenever the token carries it out. -/
theorem step_moved {auths : Finset Address} {call : Call Address Symbol}
    {entry next : EscrowEntry Address} {payouts : List (Payout Address)}
    {event : Event Address Symbol} (authorised : call.caller ∈ auths)
    (found : before.entry call.contractId = some entry) (moves : Moves call entry payouts next event)
    (carried : (payAll host entry.token payouts before.state.tokens).isSome)
    (stepped : Step host before (.call auths call) after) :
    after.entry call.contractId = some next ∧
      tokenCalls after.receipts call.contractId = tokenCalls before.receipts call.contractId ++
        payouts.map fun payout => .transfer entry.token payout.1 payout.2 := by
  obtain ⟨tokens, paid⟩ := Option.isSome_iff_exists.mp carried
  have taken := step_of_did (.moved authorised found moves paid)
  obtain rfl := stepped.trans taken.symm
  refine ⟨?_, tokenCalls_own rfl⟩
  rw [stored_entry, if_pos rfl]

/-- A call on one id leaves the entries of the others. -/
theorem call_frame {auths : Finset Address} {call : Call Address Symbol}
    (stepped : Step host before (.call auths call) after) (other : id ≠ call.contractId) :
    after.entry id = before.entry id := by
  cases didTo_of_step id stepped with
  | nothing same => exact same
  | opened => exact absurd rfl other
  | moved own => exact absurd own.symm other

/-! ### Calls by their outcome -/

theorem call_frame_tokenCalls {auths : Finset Address} {call : Call Address Symbol}
    (stepped : Step host before (.call auths call) after) (other : id ≠ call.contractId) :
    tokenCalls after.receipts id = tokenCalls before.receipts id := by
  cases didTo_of_step id stepped with
  | nothing same quiet => exact quiet
  | opened => exact absurd rfl other
  | moved own => exact absurd own.symm other

/-- A call that fails leaves every entry as it is. -/
theorem call_failed (id : Symbol) {auths : Finset Address} {call : Call Address Symbol}
    (fails : (invoke host auths call before.state).1.outcome ≠ .ok) :
    (before.act host (.call auths call)).entry id = before.entry id ∧
      tokenCalls (before.act host (.call auths call)).receipts id = tokenCalls before.receipts id := by
  unfold invoke at fails
  split at fails
  · contradiction
  · rename_i stop env failed
    simp only [Ledger.act, invoke, failed]
    exact ⟨rfl, tokenCalls_stopped⟩

/-- A call that succeeds moves its entry. -/
theorem call_moved {auths : Finset Address} {call : Call Address Symbol}
    (succeeds : (invoke host auths call before.state).1.outcome = .ok)
    (known : call.isFund = false) :
    ∃ entry payouts next event, before.entry call.contractId = some entry ∧
      Moves call entry payouts next event ∧
      (before.act host (.call auths call)).entry call.contractId = some next ∧
      tokenCalls (before.act host (.call auths call)).receipts call.contractId =
        tokenCalls before.receipts call.contractId ++
          payouts.map fun payout => .transfer entry.token payout.1 payout.2 := by
  unfold invoke at succeeds
  split at succeeds
  · rename_i env returned
    rcases body_ok.mp returned with opens | settles
    · cases opens
      contradiction
    · obtain ⟨authorised, found, moves, paid⟩ := settles
      have carried := Option.isSome_iff_exists.mpr ⟨_, paid⟩
      exact ⟨_, _, _, _, found, moves, step_moved authorised found moves carried rfl⟩
  · contradiction

/-- A funding that succeeds opens its entry. -/
theorem fund_opened {auths : Finset Address} {client freelancer admin token : Address} {amount : I128}
    (succeeds : (invoke host auths (.fund id client freelancer admin amount token)
      before.state).1.outcome = .ok) :
    0 < amount.val ∧ before.entry id = none ∧
      (before.act host (.call auths (.fund id client freelancer admin amount token))).entry id =
        some (.opened client freelancer admin amount token) ∧
      tokenCalls (before.act host
        (.call auths (.fund id client freelancer admin amount token))).receipts id =
        tokenCalls before.receipts id ++ [.transferFrom token client amount] := by
  unfold invoke at succeeds
  split at succeeds
  · rename_i env returned
    rcases body_ok.mp returned with opens | settles
    · cases opens with
      | intro authorised positive absent pulled =>
        have opened : Did host before (.call auths (.fund id client freelancer admin amount token)) _ :=
          .opened authorised positive absent pulled
        rw [← step_of_did opened]
        refine ⟨positive, absent, ?_, tokenCalls_own rfl⟩
        rw [stored_entry, if_pos rfl]
    · obtain ⟨_, _, moves, _⟩ := settles
      cases moves
  · contradiction

end Stellance.Escrow
