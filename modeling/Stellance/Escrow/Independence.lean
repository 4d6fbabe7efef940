import Stellance.Escrow.Solvency

/-! Escrows share the contract's balances and nothing else. What a call does is decided
by the entry it finds, and the balance covers it whatever else was called, so calls on
two ids may trade places. -/

namespace Stellance.Escrow
variable {Address Symbol τ : Type}

/-- A token that moves exactly what a transfer says, and does so when the balance covers it. -/
structure ExactToken [DecidableEq Address] (host : Host Address τ) (token : Address) : Prop where
  laws : TokenLaws host token
  covers : Covers host token
  transfer_only : ∀ tokens sender recipient amount moved,
    host.transfer tokens token sender recipient amount = some moved → ∀ T owner, T ≠ token →
      host.balance moved T owner = host.balance tokens T owner

theorem bank_exact {self token : Nat} : ExactToken (Bank.host self) token where
  laws := bank_laws
  covers := bank_covers
  transfer_only _ _ _ _ _ paid T owner different := by
    have same := bank_transfer paid T owner
    rw [if_neg different, Int.add_zero] at same
    exact same

/-! ### A call is decided by its entry -/

section Decided
variable {call : Call Address Symbol} {entry next next' : EscrowEntry Address}
  {payouts payouts' : List (Payout Address)} {event event' : Event Address Symbol}

theorem Arm.unique {remaining : I128} {bps : UInt32} {decision : DisputeDecision}
    {status status' : EscrowStatus} (first : Arm entry remaining bps decision payouts status)
    (second : Arm entry remaining bps decision payouts' status') :
    payouts = payouts' ∧ status = status' := by
  cases first with
  | releaseToFreelancer =>
    cases second
    exact ⟨rfl, rfl⟩
  | refundToClient =>
    cases second
    exact ⟨rfl, rfl⟩
  | split percentage product freelancerAmount clientAmount multiplied divided rest =>
    cases second with
    | split _ product' freelancerAmount' clientAmount' multiplied' divided' rest' =>
      have same : freelancerAmount = freelancerAmount' :=
        CheckedInt.ext_val (by rw [divided, divided', multiplied, multiplied'])
      have other : clientAmount = clientAmount' := CheckedInt.ext_val (by rw [rest, rest', same])
      rw [same, other]
      exact ⟨rfl, rfl⟩

theorem Moves.unique (first : Moves call entry payouts next event)
    (second : Moves call entry payouts' next' event') :
    payouts = payouts' ∧ next = next' ∧ event = event' := by
  cases first with
  | releaseMilestone funded allowed remaining left positive covered released sum =>
    cases second with
    | releaseMilestone _ _ _ _ _ _ released' sum' =>
      obtain rfl : released = released' := CheckedInt.ext_val (sum.trans sum'.symm)
      exact ⟨rfl, rfl, rfl⟩
  | release funded allowed remaining left =>
    cases second with
    | release _ _ remaining' left' =>
      obtain rfl : remaining = remaining' := CheckedInt.ext_val (left.trans left'.symm)
      exact ⟨rfl, rfl, rfl⟩
  | refund funded allowed remaining left =>
    cases second with
    | refund _ _ remaining' left' =>
      obtain rfl : remaining = remaining' := CheckedInt.ext_val (left.trans left'.symm)
      exact ⟨rfl, rfl, rfl⟩
  | dispute =>
    cases second
    exact ⟨rfl, rfl, rfl⟩
  | resolve disputed allowed remaining left arm =>
    cases second with
    | resolve _ _ remaining' left' arm' =>
      obtain rfl : remaining = remaining' := CheckedInt.ext_val (left.trans left'.symm)
      obtain ⟨rfl, rfl⟩ := arm.unique arm'
      exact ⟨rfl, rfl, rfl⟩

/-- The guards are checked one after the other: a call fails on one of them only. -/
theorem Refused.unique {found : Option (EscrowEntry Address)} {error error' : EscrowError}
    (first : Refused call found error) (second : Refused call found error') : error = error' := by
  cases first with
  | notPositive least =>
    cases second with
    | notPositive => rfl
    | alreadyFunded positive => exact absurd positive (not_lt.mpr least)
    | notFound known | wrongStatus known => contradiction
    | stranger _ stranger => exact stranger.elim
  | alreadyFunded positive =>
    cases second with
    | notPositive least => exact absurd positive (not_lt.mpr least)
    | alreadyFunded => rfl
    | wrongStatus known => contradiction
    | stranger _ stranger => exact stranger.elim
  | notFound known =>
    cases second with
    | notPositive => contradiction
    | notFound => rfl
  | wrongStatus known status =>
    cases second with
    | notPositive | alreadyFunded => contradiction
    | wrongStatus => rfl
    | stranger needed => exact absurd needed status
    | emptyMilestone funded | beyondRemaining funded => exact absurd funded status
    | splitBps disputed | overflow disputed => exact absurd disputed status
  | stranger status stranger =>
    cases second with
    | notPositive | alreadyFunded => exact stranger.elim
    | wrongStatus _ other => exact absurd status other
    | stranger => rfl
    | emptyMilestone _ allowed | beyondRemaining _ allowed =>
      exact absurd stranger (by simp [Call.Stranger, ← not_or, allowed])
    | splitBps _ allowed | overflow _ allowed => exact absurd allowed stranger
  | emptyMilestone funded allowed least =>
    cases second with
    | wrongStatus _ status => exact absurd funded status
    | stranger _ stranger => exact absurd stranger (by simp [Call.Stranger, ← not_or, allowed])
    | emptyMilestone => rfl
    | beyondRemaining _ _ positive => exact absurd positive (not_lt.mpr least)
  | beyondRemaining funded allowed positive beyond =>
    cases second with
    | wrongStatus _ status => exact absurd funded status
    | stranger _ stranger => exact absurd stranger (by simp [Call.Stranger, ← not_or, allowed])
    | emptyMilestone _ _ least => exact absurd positive (not_lt.mpr least)
    | beyondRemaining => rfl
  | splitBps disputed allowed beyond =>
    cases second with
    | wrongStatus _ status => exact absurd disputed status
    | stranger _ stranger => exact absurd allowed stranger
    | splitBps => rfl
    | overflow _ _ percentage => exact absurd beyond (not_lt.mpr percentage)
  | overflow disputed allowed percentage beyond =>
    cases second with
    | wrongStatus _ status => exact absurd disputed status
    | stranger _ stranger => exact absurd allowed stranger
    | splitBps _ _ beyond' => exact absurd beyond' (not_lt.mpr percentage)
    | overflow => rfl

end Decided

/-- What a call does to the entry it finds, and the transfers it makes. -/
inductive Does (auths : Finset Address) (call : Call Address Symbol) :
    Option (EscrowEntry Address) → Outcome → Option (EscrowEntry Address) →
      List (TokenCall Address) → Prop where
  | moved {entry payouts next event} (authorised : call.caller ∈ auths)
      (moves : Moves call entry payouts next event) :
      Does auths call (some entry) .ok (some next)
        (payouts.map fun payout => .transfer entry.token payout.1 payout.2)
  | unsigned {found} (missing : call.caller ∉ auths) :
      Does auths call found (.stopped .trap) found []
  | refused {found error} (authorised : call.caller ∈ auths) (why : Refused call found error) :
      Does auths call found (.stopped (.err error)) found []

theorem Does.unique {call : Call Address Symbol} {auths : Finset Address} {found after after' : Option (EscrowEntry Address)}
    {outcome outcome' : Outcome} {made made' : List (TokenCall Address)}
    (first : Does auths call found outcome after made)
    (second : Does auths call found outcome' after' made') :
    outcome = outcome' ∧ after = after' ∧ made = made' := by
  cases first with
  | moved authorised moves =>
    cases second with
    | moved _ moves' =>
      obtain ⟨rfl, rfl, _⟩ := moves.unique moves'
      exact ⟨rfl, rfl, rfl⟩
    | unsigned missing => exact absurd authorised missing
    | refused _ why => exact absurd moves.succeeds why.not_succeeds
  | unsigned missing =>
    cases second with
    | moved authorised | refused authorised => exact absurd authorised missing
    | unsigned => exact ⟨rfl, rfl, rfl⟩
  | refused authorised why =>
    cases second with
    | moved _ moves => exact absurd moves.succeeds why.not_succeeds
    | unsigned missing => exact absurd authorised missing
    | refused _ why' =>
      rw [why.unique why']
      exact ⟨rfl, rfl, rfl⟩

/-! ### Calls on a sound ledger -/

variable {host : Host Address τ} {before after ledger : Ledger Address Symbol τ} {id : Symbol}
  {entry : EscrowEntry Address} {auths : Finset Address} {call : Call Address Symbol}
  {trace : List (Ledger Address Symbol τ × Action Address Symbol τ)} [DecidableEq Address] [DecidableEq Symbol]

/-- What a transfer out of the contract adds to a balance. -/
def TokenCall.delta (self T owner : Address) : TokenCall Address → Int
  | .transfer token recipient amount => if token = T then shift self recipient amount.val owner else 0
  | .transferFrom .. => 0

def deltas (self T owner : Address) (made : List (TokenCall Address)) : Int :=
  (made.map (TokenCall.delta self T owner)).sum

theorem payAll_exact {token : Address} (exact' : ExactToken host token) {payouts : List (Payout Address)}
    {tokens moved : τ} (paid : payAll host token payouts tokens = some moved) (T owner : Address) :
    host.balance moved T owner = host.balance tokens T owner +
      deltas host.currentContractAddress T owner
        (payouts.map fun payout => .transfer token payout.1 payout.2) := by
  induction payouts generalizing tokens with
  | nil =>
    obtain rfl := Option.some.inj paid
    exact (Int.add_zero _).symm
  | cons payout rest ih =>
    obtain ⟨party, amount⟩ := payout
    obtain ⟨between, first, others⟩ := Option.bind_eq_some_iff.mp paid
    have later := ih others
    simp only [deltas, List.map_cons, List.sum_cons, TokenCall.delta] at later ⊢
    by_cases same : token = T
    · subst same
      have moved := exact'.laws.transfer_exact _ _ _ _ _ first owner
      rw [if_pos rfl]
      omega
    · have kept := exact'.transfer_only _ _ _ _ _ first T owner (Ne.symm same)
      rw [if_neg same]
      omega

/-- The host asks for the caller's authorisation before anything else. -/
theorem body_unsigned (missing : call.caller ∉ auths) (state : State Address Symbol τ) :
    (invoke host auths call state).1.outcome = .stopped .trap := by
  have trapped : ∃ env, call.body host (enter auths state) = .error .trap env := by
    refine ⟨enter auths state, ?_⟩
    cases call <;> exact Fallible.bind_error.mpr (.inl (requireAuth_error.mpr ⟨missing, rfl, rfl⟩))
  obtain ⟨env, trapped⟩ := trapped
  simp only [invoke, trapped]

/-- The token of an escrow is exact, and the contract's balance covers what is owed in it. -/
def Ledger.Backed (ledger : Ledger Address Symbol τ) (host : Host Address τ) (id : Symbol) : Prop :=
  ∀ entry, ledger.entry id = some entry → ExactToken host entry.token ∧ Sound host entry.token ledger

theorem backed_of_found (found : ledger.entry id = some entry) (exact' : ExactToken host entry.token)
    (sound : Sound host entry.token ledger) : ledger.Backed host id := by
  intro entry' found'
  obtain rfl := Option.some.inj (found.symm.trans found')
  exact ⟨exact', sound⟩

theorem settled_does (backed : ledger.Backed host call.contractId) {env : Env Address Symbol τ}
    (settles : Settles host call (enter auths ledger.state) env) :
    ∃ made, Does auths call (ledger.entry call.contractId) .ok
        (env.state.entries.lookup call.contractId) made ∧
      ∀ T owner, host.balance env.state.tokens T owner =
        host.balance ledger.state.tokens T owner + deltas host.currentContractAddress T owner made := by
  cases settles with
  | @intro entry payouts next event tokens authorised found moves paid =>
    refine ⟨_, ?_, payAll_exact (backed entry found).1 paid⟩
    have stored : (ledger.state.stored host tokens call.contractId next).entries.lookup call.contractId =
        some next := Finmap.lookup_insert _
    have found : ledger.entry call.contractId = some entry := found
    rw [found]
    exact stored.symm ▸ .moved authorised moves

/-- On a backed escrow a call does what its entry decides, and moves the balances by
the transfers it makes. -/
theorem call_does (backed : ledger.Backed host call.contractId) (auths : Finset Address) (known : call.isFund = false) : ∃ made,
    Does auths call (ledger.entry call.contractId) (invoke host auths call ledger.state).1.outcome
      ((ledger.act host (.call auths call)).entry call.contractId) made ∧
    ∀ T owner, host.balance (ledger.act host (.call auths call)).state.tokens T owner =
      host.balance ledger.state.tokens T owner + deltas host.currentContractAddress T owner made := by
  by_cases authorised : call.caller ∈ auths
  · simp only [Ledger.act, invoke]
    cases returned : call.body host (enter auths ledger.state) with
    | ok u env =>
      rcases body_ok.mp returned with opens | settles
      · cases opens
        contradiction
      · exact settled_does backed settles
    | error stop env =>
      have formed : ∀ entry, ledger.state.entries.lookup call.contractId = some entry →
          entry.WellFormed := fun entry found => (backed entry found).2.formed _ entry found
      refine ⟨[], ?_, fun T owner => (Int.add_zero _).symm⟩
      cases body_error formed returned with
      | unauthorised missing => exact absurd authorised missing
      | refused why => exact .refused authorised why
      | pullPanicked funding => simp [known] at funding
      | @payoutPanicked entry _ _ _ _ found moves panicked =>
        obtain ⟨exact', sound⟩ := backed entry found
        have carried := sound.carries exact'.laws exact'.covers found moves
        rw [show ledger.state.tokens = (enter auths ledger.state).state.tokens from rfl, panicked]
          at carried
        contradiction
  · have trapped : (invoke host auths call ledger.state).1.outcome = .stopped .trap :=
      body_unsigned authorised ledger.state
    have fails : (invoke host auths call ledger.state).1.outcome ≠ .ok := by
      rw [trapped]
      simp
    refine ⟨[], ?_, ?_⟩
    · rw [trapped, (call_failed call.contractId fails).1]
      exact .unsigned authorised
    · intro T owner
      unfold invoke at trapped
      split at trapped
      · contradiction
      · rename_i stop env failed
        simp only [Ledger.act, invoke, failed]
        exact (Int.add_zero _).symm

omit [DecidableEq Address] [DecidableEq Symbol] in
theorem Call.fair {T : Address} (known : call.isFund = false) : Fair host T ledger (.call auths call) := by
  cases call with
  | fund => contradiction
  | _ => trivial

theorem call_sound {T : Address} (laws : TokenLaws host T) (sound : Sound host T ledger)
    (auths : Finset Address) (known : call.isFund = false) : Sound host T (ledger.act host (.call auths call)) where
  formed := step_wellFormed sound.formed rfl
  solvent := step_solvent laws sound.formed sound.solvent (Call.fair known) rfl

/-- A call on another id leaves an escrow backed. -/
theorem Ledger.Backed.apart (backed : ledger.Backed host id) (auths : Finset Address) (known : call.isFund = false)
    (apart : id ≠ call.contractId) : (ledger.act host (.call auths call)).Backed host id := by
  intro entry found
  rw [call_frame rfl apart] at found
  obtain ⟨exact', sound⟩ := backed entry found
  exact ⟨exact', call_sound exact'.laws sound auths known⟩

/-- A call answers and leaves its entry the same after a call on another id, and draws
the same from the balances. -/
theorem call_apart {other : Call Address Symbol} (backed : ledger.Backed host call.contractId)
    (auths auths' : Finset Address) (known : call.isFund = false) (known' : other.isFund = false)
    (apart : call.contractId ≠ other.contractId) :
    (invoke host auths call (ledger.act host (.call auths' other)).state).1.outcome =
        (invoke host auths call ledger.state).1.outcome ∧
      ((ledger.act host (.call auths' other)).act host (.call auths call)).entry call.contractId =
        (ledger.act host (.call auths call)).entry call.contractId ∧
      ∀ T owner,
        host.balance ((ledger.act host (.call auths' other)).act host (.call auths call)).state.tokens
            T owner - host.balance (ledger.act host (.call auths' other)).state.tokens T owner =
          host.balance (ledger.act host (.call auths call)).state.tokens T owner -
            host.balance ledger.state.tokens T owner := by
  obtain ⟨made, first, moved⟩ := call_does backed auths known
  obtain ⟨made', second, moved'⟩ := call_does (backed.apart auths' known' apart) auths known
  rw [call_frame (rfl : Step host ledger (.call auths' other) _) apart] at second
  obtain ⟨outcome, stored, rfl⟩ := second.unique first
  refine ⟨outcome, stored, fun T owner => ?_⟩
  rw [moved T owner, moved' T owner]
  omega

/-- Calls on two escrows in exact tokens may trade places: each answers the same, and they
leave the same entries and the same balances. -/
theorem escrows_apart (run : RunTo host trace ledger) (first second : Call Address Symbol)
    (exact' : ∀ entry, ledger.entry first.contractId = some entry ∨ ledger.entry second.contractId = some entry →
      ExactToken host entry.token)
    (fair : ∀ entry, ledger.entry first.contractId = some entry ∨ ledger.entry second.contractId = some entry →
      ∀ point ∈ trace, Fair host entry.token point.1 point.2)
    (auths auths' : Finset Address) (known : first.isFund = false) (known' : second.isFund = false)
    (apart : first.contractId ≠ second.contractId) :
    (invoke host auths' second (ledger.act host (.call auths first)).state).1.outcome =
        (invoke host auths' second ledger.state).1.outcome ∧
      (invoke host auths first (ledger.act host (.call auths' second)).state).1.outcome =
        (invoke host auths first ledger.state).1.outcome ∧
      (∀ id, getEscrow id
          ((ledger.act host (.call auths first)).act host (.call auths' second)).state =
        getEscrow id ((ledger.act host (.call auths' second)).act host (.call auths first)).state) ∧
      ∀ T owner, host.balance
          ((ledger.act host (.call auths first)).act host (.call auths' second)).state.tokens T owner =
        host.balance
          ((ledger.act host (.call auths' second)).act host (.call auths first)).state.tokens T owner := by
  have backed : ledger.Backed host first.contractId := fun entry found =>
    ⟨exact' entry (.inl found), run_sound (exact' entry (.inl found)).laws run (fair entry (.inl found))⟩
  have backed' : ledger.Backed host second.contractId := fun entry found =>
    ⟨exact' entry (.inr found), run_sound (exact' entry (.inr found)).laws run (fair entry (.inr found))⟩
  obtain ⟨outcome, stored, moved⟩ := call_apart backed auths auths' known known' apart
  obtain ⟨outcome', stored', moved'⟩ := call_apart backed' auths' auths known' known (Ne.symm apart)
  refine ⟨outcome', outcome, ?_, ?_⟩
  · intro id
    change Ledger.entry _ id = Ledger.entry _ id
    by_cases here : id = first.contractId
    · subst here
      rw [stored, call_frame rfl apart]
    · by_cases there : id = second.contractId
      · subst there
        rw [stored', call_frame rfl (Ne.symm apart)]
      · rw [call_frame rfl there, call_frame rfl here, call_frame rfl here, call_frame rfl there]
  · intro T owner
    have one := moved T owner
    have two := moved' T owner
    omega

/-- A second deposit for the same parties. -/
def Bank.sharing : List (Action Nat Nat (Bank Nat)) :=
  [funding, .call {1} (.fund 8 1 2 3 (.fromU32 500) 9)]

/-- Releasing one of two escrows and refunding the other, in either order. -/
theorem escrows_apart_bank :
    (invoke (Bank.host 0) {2} (.refund 8 2)
      ((Bank.ledger Bank.sharing).act (Bank.host 0) (.call {1} (.release 7 1))).state).1.outcome = .ok ∧
    ∀ T owner, (Bank.host 0).balance
        (((Bank.ledger Bank.sharing).act (Bank.host 0) (.call {1} (.release 7 1))).act (Bank.host 0)
          (.call {2} (.refund 8 2))).state.tokens T owner =
      (Bank.host 0).balance
        (((Bank.ledger Bank.sharing).act (Bank.host 0) (.call {2} (.refund 8 2))).act (Bank.host 0)
          (.call {1} (.release 7 1))).state.tokens T owner := by
  obtain ⟨trace, run, same⟩ := Bank.ledger_run Bank.sharing
  have fair : ∀ T, ∀ point ∈ trace, Fair (Bank.host 0) T point.1 point.2 := by
    intro T
    refine bank_fair same ?_
    intro action member
    simp only [Bank.sharing, Bank.funding, List.mem_cons, List.not_mem_nil, or_false] at member
    rcases member with rfl | rfl
    · exact ⟨_, _, rfl, by decide⟩
    · exact ⟨_, _, rfl, by decide⟩
  obtain ⟨outcome, _, _, balances⟩ := escrows_apart run (.release 7 1) (.refund 8 2) (fun _ _ => bank_exact)
    (fun entry _ => fair entry.token) {1} {2} rfl rfl (by decide)
  exact ⟨outcome.trans (by decide), balances⟩

end Stellance.Escrow
