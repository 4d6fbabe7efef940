import Stellance.Escrow.Token
import Stellance.Escrow.Conservation
import Stellance.Escrow.Refusals
import Stellance.Library.KeyedTotal

/-! All escrows of a token share one balance of the contract. It covers what the
open entries still owe, so no payout ever falls short and an error is always a
guard of the contract itself. -/
namespace Stellance.Escrow
variable {Address Symbol τ : Type} [DecidableEq Address] [DecidableEq Symbol]
  {host : Host Address τ} {before after ledger : Ledger Address Symbol τ}
  {action : Action Address Symbol τ} {id : Symbol} {entry : EscrowEntry Address} {T : Address}
  {trace : List (Ledger Address Symbol τ × Action Address Symbol τ)}

/-- What an entry keeps of a token. -/
def EscrowEntry.locked (T : Address) (entry : EscrowEntry Address) : Int :=
  if entry.token = T then entry.outstanding else 0

/-- The contract's balance of a token covers what its open entries owe. -/
def Solvent (host : Host Address τ) (T : Address) (ledger : Ledger Address Symbol τ) : Prop :=
  KeyedTotal.total (EscrowEntry.locked T) ledger.state.entries ≤
    host.balance ledger.state.tokens T host.currentContractAddress

theorem payAll_balance (laws : TokenLaws host T) {token : Address} {payouts : List (Payout Address)}
    {tokens moved : τ} (positive : ∀ payout ∈ payouts, 0 < payout.2.val)
    (paid : payAll host token payouts tokens = some moved) :
    host.balance tokens T host.currentContractAddress -
        (if token = T then payoutSum payouts else 0) ≤
      host.balance moved T host.currentContractAddress := by
  induction payouts generalizing tokens with
  | nil =>
    obtain rfl := Option.some.inj paid
    simp [payoutSum]
  | cons payout rest ih =>
    obtain ⟨party, amount⟩ := payout
    obtain ⟨between, first, others⟩ := Option.bind_eq_some_iff.mp paid
    have later := ih (fun payout member => positive payout (List.mem_cons_of_mem _ member)) others
    have here : 0 < amount.val := positive (party, amount) List.mem_cons_self
    simp only [payoutSum, List.map_cons, List.sum_cons] at later ⊢
    by_cases same : token = T
    · subst same
      have exact' := laws.transfer_exact _ _ _ _ _ first host.currentContractAddress
      simp only [shift, if_true] at exact' later ⊢
      split at exact' <;> omega
    · have apart := laws.transfer_apart _ _ _ _ _ _ same first
      simp only [if_neg same] at later ⊢
      omega

theorem locked_nonneg (formed : entry.WellFormed) : 0 ≤ entry.locked T := by
  have := formed.outstanding_nonneg
  unfold EscrowEntry.locked
  split <;> omega

theorem step_solvent (laws : TokenLaws host T) (formed : before.WellFormed)
    (solvent : Solvent host T before) (fair : Fair host T before action)
    (stepped : Step host before action after) : Solvent host T after := by
  unfold Solvent at solvent ⊢
  cases did_of_step stepped with
  | outside tokens => exact le_trans solvent fair
  | stopped => exact solvent
  | @opened auths key client freelancer admin amount token tokens authorised positive absent pulled =>
    rw [State.stored_entries, State.stored_tokens, KeyedTotal.total_insert_new absent]
    rw [EscrowEntry.locked, outstanding_open rfl]
    simp only [EscrowEntry.opened, I128.val_zero, Int.sub_zero]
    split
    · rename_i same
      subst same
      have exact' := laws.transferFrom_exact _ _ _ _ _ _ pulled host.currentContractAddress
      have other : host.currentContractAddress ≠ client :=
        fun same => fair same.symm (same ▸ authorised)
      simp only [shift, if_true, if_neg other] at exact'
      omega
    · rename_i different
      have apart := laws.transferFrom_apart _ _ _ _ _ _ _ different pulled
      omega
  | @moved auths call entry payouts next event tokens authorised found moves paid =>
    have formed := formed _ entry found
    have booked := KeyedTotal.total_insert_found (f := EscrowEntry.locked T) (b := next) found
    have balance := payAll_balance laws (fun payout member => (moves.payees member).2) paid
    have pays := moves.pays formed
    rw [State.stored_entries, State.stored_tokens]
    simp only [EscrowEntry.locked, moves.sameTerms.token] at booked
    split at balance
    · rename_i same
      simp only [if_pos same] at booked
      omega
    · rename_i different
      simp only [if_neg different] at booked
      omega

/-- A ledger a run can rest on. -/
structure Sound (host : Host Address τ) (T : Address) (ledger : Ledger Address Symbol τ) : Prop where
  formed : ledger.WellFormed
  solvent : Solvent host T ledger

theorem run_sound (laws : TokenLaws host T) (run : RunTo host trace ledger)
    (fair : ∀ point ∈ trace, Fair host T point.1 point.2) : Sound host T ledger := by
  obtain ⟨ttl, tokens, run⟩ := run
  have keeps {before after : Ledger Address Symbol τ} {action : Action Address Symbol τ}
      (sound : Sound host T before) (fair : Fair host T before action)
      (stepped : Step host before action after) : Sound host T after :=
    ⟨step_wellFormed sound.formed stepped, step_solvent laws sound.formed sound.solvent fair stepped⟩
  refine run.invariant_of (Sound host T) (Fair host T) keeps fair
    ⟨deployed_wellFormed ttl tokens, ?_⟩
  exact laws.nonneg tokens _

/-- The balance of every lawful token covers the open entries, whatever was called. -/
theorem solvency (laws : TokenLaws host T) (run : RunTo host trace ledger)
    (fair : ∀ point ∈ trace, Fair host T point.1 point.2) :
    KeyedTotal.total (fun entry => if entry.token = T ∧ (entry.status = .funded ∨
        entry.status = .disputed) then entry.totalAmount.val - entry.releasedAmount.val else 0)
      ledger.state.entries ≤ host.balance ledger.state.tokens T host.currentContractAddress := by
  refine le_trans (le_of_eq ?_) (run_sound laws run fair).solvent
  congr 1
  funext entry
  unfold EscrowEntry.locked EscrowEntry.outstanding
  cases entry.status <;> simp [EscrowStatus.isOpen]

/-- After a deposit and a partial release the bank still holds what is owed. -/
theorem solvency_bank :
    KeyedTotal.total (fun entry => if entry.token = 9 ∧ (entry.status = .funded ∨
        entry.status = .disputed) then entry.totalAmount.val - entry.releasedAmount.val else 0)
      (Bank.ledger Bank.releasing).state.entries ≤
        (Bank.ledger Bank.releasing).state.tokens.balance 9 0 := by
  obtain ⟨trace, run, same⟩ := Bank.ledger_run Bank.releasing
  refine solvency bank_laws run (bank_fair same ?_)
  intro action member
  simp only [Bank.releasing, Bank.funding, List.mem_cons, List.not_mem_nil, or_false] at member
  rcases member with rfl | rfl
  · exact ⟨_, _, rfl, by decide⟩
  · exact ⟨_, _, rfl, by decide⟩

/-! ### No hidden failure -/

theorem payAll_covered (laws : TokenLaws host T) (covers : Covers host T)
    {payouts : List (Payout Address)} {tokens : τ} (positive : ∀ payout ∈ payouts, 0 < payout.2.val)
    (enough : payoutSum payouts ≤ host.balance tokens T host.currentContractAddress) :
    (payAll host T payouts tokens).isSome := by
  induction payouts generalizing tokens with
  | nil => rfl
  | cons payout rest ih =>
    obtain ⟨party, amount⟩ := payout
    have here : 0 < amount.val := positive (party, amount) List.mem_cons_self
    have others := fun payout member => positive payout (List.mem_cons_of_mem (party, amount) member)
    have nonneg : 0 ≤ payoutSum rest := by
      refine List.sum_nonneg fun value member => ?_
      obtain ⟨payout, inside, rfl⟩ := List.mem_map.mp member
      exact le_of_lt (others payout inside)
    simp only [payoutSum, List.map_cons, List.sum_cons] at enough
    change amount.val + payoutSum rest ≤ _ at enough
    obtain ⟨between, first⟩ := Option.isSome_iff_exists.mp (covers tokens party amount here (by omega))
    have exact' := laws.transfer_exact _ _ _ _ _ first host.currentContractAddress
    rw [payAll, first]
    apply ih others
    simp only [shift, if_true] at exact'
    split at exact' <;> omega

/-- The balance covers every move of a stored entry. -/
theorem Sound.carries (sound : Sound host entry.token ledger) (laws : TokenLaws host entry.token)
    (covers : Covers host entry.token) {call : Call Address Symbol}
    {next : EscrowEntry Address} {payouts : List (Payout Address)} {event : Event Address Symbol}
    (found : ledger.entry id = some entry) (moves : Moves call entry payouts next event) :
    (payAll host entry.token payouts ledger.state.tokens).isSome := by
  have formed := sound.formed id entry found
  have pays := moves.pays formed
  have rest := (moves.wellFormed formed).outstanding_nonneg
  have share : KeyedTotal.share (EscrowEntry.locked entry.token) ledger.state.entries id =
      entry.outstanding := by
    rw [KeyedTotal.share_found found, EscrowEntry.locked, if_pos rfl]
  have part := KeyedTotal.share_le_total (f := EscrowEntry.locked entry.token)
    (m := ledger.state.entries) (k := id) fun key => by
      unfold KeyedTotal.share
      cases stored : ledger.state.entries.lookup key with
      | none => exact le_refl _
      | some other => exact locked_nonneg (sound.formed key other stored)
  have solvent := sound.solvent
  unfold Solvent at solvent
  exact payAll_covered laws covers (fun payout member => (moves.payees member).2) (by omega)

/-- When a call on an entry is meant to go through. -/
def Call.Succeeds (entry : EscrowEntry Address) : Call Address Symbol → Prop
  | .fund .. => False
  | .releaseMilestone _ caller amount => entry.status = .funded ∧
      (caller = entry.client ∨ caller = entry.admin) ∧ 0 < amount.val ∧
      amount.val ≤ entry.totalAmount.val - entry.releasedAmount.val
  | .release _ caller => entry.status = .funded ∧ (caller = entry.client ∨ caller = entry.admin)
  | .refund _ caller => entry.status = .funded ∧ (caller = entry.freelancer ∨ caller = entry.admin)
  | .dispute _ caller => entry.status = .funded ∧
      (caller = entry.client ∨ caller = entry.freelancer)
  | .resolveDispute _ caller decision bps => entry.status = .disputed ∧ caller = entry.admin ∧
      (decision = .split → bps.toNat ≤ 10000 ∧
        (entry.totalAmount.val - entry.releasedAmount.val) * bps.toNat ≤ 2 ^ 127 - 1)

omit [DecidableEq Address] [DecidableEq Symbol] in
theorem Moves.succeeds {call : Call Address Symbol} {next : EscrowEntry Address}
    {payouts : List (Payout Address)} {event : Event Address Symbol}
    (moves : Moves call entry payouts next event) : call.Succeeds entry := by
  cases moves with
  | releaseMilestone funded allowed remaining left positive covered =>
    exact ⟨funded, allowed, positive, left ▸ covered⟩
  | release funded allowed => exact ⟨funded, allowed⟩
  | refund funded allowed => exact ⟨funded, allowed⟩
  | dispute funded allowed => exact ⟨funded, allowed⟩
  | resolve disputed allowed remaining left arm =>
    refine ⟨disputed, allowed, ?_⟩
    rintro rfl
    cases arm with
    | split percentage product freelancerAmount clientAmount multiplied =>
      refine ⟨percentage, ?_⟩
      rw [← left, ← multiplied]
      exact product.le_hi

omit [DecidableEq Address] [DecidableEq Symbol] in
/-- Nothing the table refuses is meant to go through. -/
theorem Refused.not_succeeds {call : Call Address Symbol} {error : EscrowError}
    (refused : Refused call (some entry) error) : ¬ call.Succeeds entry := by
  intro succeeds
  cases refused with
  | notPositive | alreadyFunded => exact succeeds
  | wrongStatus known status =>
    cases call with
    | fund => contradiction
    | _ => exact status succeeds.1
  | stranger status stranger =>
    cases call with
    | fund => exact stranger
    | releaseMilestone => exact succeeds.2.1.elim stranger.1 stranger.2
    | release | refund | dispute => exact succeeds.2.elim stranger.1 stranger.2
    | resolveDispute => exact stranger succeeds.2.1
  | emptyMilestone funded allowed least => exact absurd succeeds.2.2.1 (not_lt.mpr least)
  | beyondRemaining funded allowed positive beyond => exact absurd succeeds.2.2.2 (not_le.mpr beyond)
  | splitBps disputed allowed beyond => exact absurd (succeeds.2.2 rfl).1 (not_le.mpr beyond)
  | overflow disputed allowed percentage beyond => exact absurd (succeeds.2.2 rfl).2 (not_le.mpr beyond)

/-- A call on a stored entry goes through exactly when it is meant to; else the
contract refuses it with an error of its own, overflow only where a split multiplies. -/
theorem Sound.call (sound : Sound host entry.token ledger) (laws : TokenLaws host entry.token)
    (covers : Covers host entry.token) {call : Call Address Symbol} {auths : Finset Address}
    (found : ledger.entry call.contractId = some entry) (authorised : call.caller ∈ auths) :
    ((invoke host auths call ledger.state).1.outcome = .ok ∧ call.Succeeds entry) ∨
    (¬ call.Succeeds entry ∧ ∃ error, Refused call (some entry) error ∧
      (invoke host auths call ledger.state).1.outcome = .stopped (.err error)) := by
  unfold invoke
  cases returned : call.body host (enter auths ledger.state) with
  | ok u env =>
    left
    refine ⟨rfl, ?_⟩
    rcases body_ok.mp returned with opens | settles
    · cases opens with
      | intro _ _ absent => exact absurd (found.symm.trans absent) (by simp)
    · cases settles with
      | intro _ found' moves =>
        obtain rfl := Option.some.inj (found.symm.trans found')
        exact moves.succeeds
  | error stop env =>
    right
    have formed : ∀ entry, ledger.state.entries.lookup call.contractId = some entry →
        entry.WellFormed := fun entry => sound.formed _ entry
    cases body_error formed returned with
    | unauthorised missing => exact absurd authorised missing
    | refused why =>
      have why : Refused call (ledger.entry call.contractId) _ := why
      rw [found] at why
      exact ⟨why.not_succeeds, _, why, rfl⟩
    | pullPanicked funding absent => exact absurd (found.symm.trans absent) (by simp)
    | payoutPanicked found' moves panicked =>
      obtain rfl := Option.some.inj (found.symm.trans found')
      have carried := sound.carries laws covers found moves
      rw [show ledger.state.tokens = (enter auths ledger.state).state.tokens from rfl, panicked]
        at carried
      contradiction

/-- Every call on a funded id returns `Ok` exactly when its guards hold, never traps
for want of balance, and overflows in a split's product alone; an error has done
nothing. -/
theorem no_hidden_failure (run : RunTo host trace ledger) :
    (∀ entry (call : Call Address Symbol) auths, TokenLaws host entry.token →
      Covers host entry.token → (∀ point ∈ trace, Fair host entry.token point.1 point.2) →
      ledger.entry call.contractId = some entry → call.caller ∈ auths →
      ((invoke host auths call ledger.state).1.outcome = .ok ↔ call.Succeeds entry) ∧
      (invoke host auths call ledger.state).1.outcome ≠ .stopped .trap ∧
      ((invoke host auths call ledger.state).1.outcome = .stopped (.err .overflow) →
        ∃ id bps, call = .resolveDispute id entry.admin .split bps ∧ entry.status = .disputed ∧
          (2 : Int) ^ 127 - 1 < (entry.totalAmount.val - entry.releasedAmount.val) * bps.toNat)) ∧
    ∀ (call : Call Address Symbol) auths error env,
      call.body host (enter auths ledger.state) = .error (.err error) env →
      env = enter auths ledger.state := by
  constructor
  · intro entry call auths laws covers fair found authorised
    rcases (run_sound laws run fair).call laws covers found authorised with
      ⟨ok, succeeds⟩ | ⟨refused, error, why, stopped⟩
    · rw [ok]
      exact ⟨iff_of_true rfl succeeds, nofun, nofun⟩
    · rw [stopped]
      refine ⟨iff_of_false nofun refused, nofun, ?_⟩
      intro overflowed
      cases overflowed
      cases why with
      | overflow disputed allowed percentage beyond =>
        subst allowed
        exact ⟨_, _, rfl, disputed, beyond⟩
  · intro call auths error env failed
    have formed : ∀ entry, (enter auths ledger.state).state.entries.lookup call.contractId =
        some entry → entry.WellFormed := fun entry => reachable_wellFormed ⟨trace, run⟩ _ entry
    cases body_error formed failed with
    | refused => rfl

/-! ### On the bank -/

/-- The rest of the funded entry can be released, whatever else the bank did before. -/
theorem no_hidden_failure_bank :
    (invoke (Bank.host 0) {1} (.release 7 1) (Bank.ledger [Bank.funding]).state).1.outcome = .ok := by
  obtain ⟨trace, run, same⟩ := Bank.ledger_run [Bank.funding]
  have found : (Bank.ledger [Bank.funding]).entry 7 = some (.opened 1 2 3 (.fromU32 1000) 9) := by
    decide
  refine ((no_hidden_failure run).1 _ (.release 7 1) {1} bank_laws bank_covers
    (bank_fair same ?_) found (by decide)).1.mpr ⟨rfl, .inl rfl⟩
  intro action member
  obtain rfl := List.mem_singleton.mp member
  exact ⟨_, _, rfl, by decide⟩

end Stellance.Escrow
