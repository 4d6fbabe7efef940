import Stellance.Escrow.Lifecycle

/-! Why a call stops. Over well-formed entries an error is always one of the guards
of the table below, raised before anything was written; everything else is a trap
of the host or of a token. -/
namespace Stellance.Escrow
open Fallible
variable {Address Symbol τ : Type}

/-- The status a call acts on. -/
def Call.needs : Call Address Symbol → EscrowStatus
  | .resolveDispute .. => .disputed
  | _ => .funded

/-- The callers a call turns away. -/
def Call.Stranger (entry : EscrowEntry Address) : Call Address Symbol → Prop
  | .fund .. => False
  | .releaseMilestone _ caller _ | .release _ caller => caller ≠ entry.client ∧ caller ≠ entry.admin
  | .refund _ caller => caller ≠ entry.freelancer ∧ caller ≠ entry.admin
  | .dispute _ caller => caller ≠ entry.client ∧ caller ≠ entry.freelancer
  | .resolveDispute _ caller .. => caller ≠ entry.admin

/-- The errors of a call on what is stored under its id. -/
inductive Refused : Call Address Symbol → Option (EscrowEntry Address) → EscrowError → Prop where
  | notPositive {id client freelancer admin token stored} {amount : I128} (least : amount.val ≤ 0) :
      Refused (.fund id client freelancer admin amount token) stored .invalidAmount
  | alreadyFunded {id client freelancer admin token entry} {amount : I128}
      (positive : 0 < amount.val) :
      Refused (.fund id client freelancer admin amount token) (some entry) .alreadyFunded
  | notFound {call} (known : call.isFund = false) : Refused call none .notFound
  | wrongStatus {call entry} (known : call.isFund = false) (status : entry.status ≠ call.needs) :
      Refused call (some entry) .invalidState
  | stranger {call entry} (status : entry.status = call.needs) (stranger : call.Stranger entry) :
      Refused call (some entry) .unauthorized
  | emptyMilestone {id caller entry} {amount : I128} (funded : entry.status = .funded)
      (allowed : caller = entry.client ∨ caller = entry.admin) (least : amount.val ≤ 0) :
      Refused (.releaseMilestone id caller amount) (some entry) .invalidAmount
  | beyondRemaining {id caller entry} {amount : I128} (funded : entry.status = .funded)
      (allowed : caller = entry.client ∨ caller = entry.admin) (positive : 0 < amount.val)
      (beyond : entry.totalAmount.val - entry.releasedAmount.val < amount.val) :
      Refused (.releaseMilestone id caller amount) (some entry) .invalidState
  | splitBps {id caller entry} {bps : UInt32} (disputed : entry.status = .disputed)
      (allowed : caller = entry.admin) (beyond : 10000 < bps.toNat) :
      Refused (.resolveDispute id caller .split bps) (some entry) .invalidSplitBps
  | overflow {id caller entry} {bps : UInt32} (disputed : entry.status = .disputed)
      (allowed : caller = entry.admin) (percentage : bps.toNat ≤ 10000)
      (beyond : (2 : Int) ^ 127 - 1 <
        (entry.totalAmount.val - entry.releasedAmount.val) * bps.toNat) :
      Refused (.resolveDispute id caller .split bps) (some entry) .overflow

/-- How a call stops. -/
inductive Fails [DecidableEq Symbol] (host : Host Address τ) (call : Call Address Symbol)
    (env : Env Address Symbol τ) :
    Stop → Env Address Symbol τ → Prop where
  | unauthorised (missing : call.caller ∉ env.auths) : Fails host call env .trap env
  | refused {error} (why : Refused call (env.state.entries.lookup call.contractId) error) :
      Fails host call env (.err error) env
  | pullPanicked {env' : Env Address Symbol τ} (funding : call.isFund = true)
      (absent : env.state.entries.lookup call.contractId = none) : Fails host call env .trap env'
  | payoutPanicked {entry payouts next event} {env' : Env Address Symbol τ}
      (found : env.state.entries.lookup call.contractId = some entry)
      (moves : Moves call entry payouts next event)
      (panicked : payAll host entry.token payouts env.state.tokens = none) :
      Fails host call env .trap env'

/-! ### Statements -/

variable {host : Host Address τ} {env env' : Env Address Symbol τ} {id : Symbol} {stop : Stop}
  {token party caller address : Address} {amount remaining : I128} {entry : EscrowEntry Address}

theorem requireAuth_error [DecidableEq Address] : requireAuth address env = .error stop env' ↔
    address ∉ env.auths ∧ stop = .trap ∧ env = env' := by
  unfold requireAuth
  split <;> simp_all [eq_comm]

theorem rejectIf_error {condition : Prop} [Decidable condition] {error : EscrowError} :
    rejectIf condition error env = .error stop env' ↔
      condition ∧ stop = .err error ∧ env = env' := by
  unfold rejectIf
  split <;> simp_all [eq_comm]

theorem okOr_error {α : Type} {value : Option α} {error : EscrowError} :
    okOr value error env = .error stop env' ↔ value = none ∧ stop = .err error ∧ env = env' := by
  unfold okOr
  cases value <;> simp [eq_comm]

theorem orPanic_bind {α β : Type} {a : α} {value : Option α} {k : α → Contract Address Symbol τ β}
    (some' : value = some a) : (orPanic value >>= k) env = k a env := by
  subst some'
  rfl

theorem okOr_bind {α β : Type} {a : α} {value : Option α} {error : EscrowError}
    {k : α → Contract Address Symbol τ β} (some' : value = some a) :
    (okOr value error >>= k) env = k a env := by
  subst some'
  rfl

theorem transfer_error : transfer host token party amount env = .error stop env' ↔
    payAll host token [(party, amount)] env.state.tokens = none ∧ stop = .trap ∧ env = env' := by
  simp only [transfer, payAll]
  cases host.transfer env.state.tokens token host.currentContractAddress party amount <;>
    simp [eq_comm]

theorem transferIfPositive_error : transferIfPositive host token party amount env = .error stop env' ↔
    payAll host token (positivePay party amount) env.state.tokens = none ∧ stop = .trap ∧
      env = env' := by
  unfold transferIfPositive positivePay
  split
  · exact transfer_error
  · simp [pure_error, payAll]

theorem transferFrom_error (failed : transferFrom host token party amount env = .error stop env') :
    stop = .trap := by
  unfold transferFrom at failed
  split at failed
  · contradiction
  · cases failed
    rfl

/-- The arms fail on the basis points, on the product, or where a token does. -/
theorem matchDecision_error {decision : DisputeDecision} {bps : UInt32} (nonneg : 0 ≤ remaining.val)
    (failed : matchDecision host entry remaining bps decision env = .error stop env') :
    (decision = .split ∧ env' = env ∧ (10000 < bps.toNat ∧ stop = .err .invalidSplitBps ∨
      bps.toNat ≤ 10000 ∧ 2 ^ 127 - 1 < remaining.val * bps.toNat ∧ stop = .err .overflow)) ∨
    stop = .trap ∧ ∃ payouts status, Arm entry remaining bps decision payouts status ∧
      payAll host entry.token payouts env.state.tokens = none := by
  cases decision with
  | releaseToFreelancer =>
    rcases bind_error.mp failed with panicked | ⟨_, _, _, failed⟩
    · obtain ⟨short, rfl, rfl⟩ := transferIfPositive_error.mp panicked
      exact .inr ⟨rfl, _, _, .releaseToFreelancer, short⟩
    · exact absurd failed pure_error
  | refundToClient =>
    rcases bind_error.mp failed with panicked | ⟨_, _, _, failed⟩
    · obtain ⟨short, rfl, rfl⟩ := transferIfPositive_error.mp panicked
      exact .inr ⟨rfl, _, _, .refundToClient, short⟩
    · exact absurd failed pure_error
  | split =>
    unfold matchDecision at failed
    rcases bind_error.mp failed with rejected | ⟨_, _, passed, failed⟩
    · obtain ⟨beyond, rfl, rfl⟩ := rejectIf_error.mp rejected
      exact .inl ⟨rfl, rfl, .inl ⟨beyond, rfl⟩⟩
    obtain ⟨within, rfl⟩ := rejectIf_ok.mp passed
    rw [not_lt] at within
    have low : 0 ≤ remaining.val * bps.toNat := Int.mul_nonneg nonneg (Int.natCast_nonneg _)
    rcases bind_error.mp failed with overflowed | ⟨product, _, multiplied, failed⟩
    · obtain ⟨beyond, rfl, rfl⟩ := okOr_error.mp overflowed
      rw [CheckedInt.checkedMul_eq_none, I128.val_fromU32] at beyond
      refine .inl ⟨rfl, rfl, .inr ⟨within, ?_, rfl⟩⟩
      by_contra small
      exact beyond ⟨by omega, by omega⟩
    obtain ⟨fits, rfl⟩ := okOr_ok.mp multiplied
    have multiplied := CheckedInt.checkedMul_eq_some.mp fits
    rw [I128.val_fromU32] at multiplied
    obtain ⟨least, most, _⟩ := share_bounds nonneg within multiplied rfl
    obtain ⟨share, divided⟩ : ∃ share : I128, share.val = product.val.tdiv 10000 :=
      ⟨⟨product.val.tdiv 10000, by omega, by have := remaining.le_hi; omega⟩, rfl⟩
    obtain ⟨rest, left⟩ := CheckedInt.exists_checkedSub (a := remaining) (b := share) (by norm_num)
      (by omega) (by omega)
    rw [orPanic_bind (CheckedInt.checkedDiv_eq_some.mpr ⟨by decide, divided⟩),
      okOr_bind (CheckedInt.checkedSub_eq_some.mpr left)] at failed
    have arm : Arm entry remaining bps .split _ _ :=
      .split within product share rest multiplied divided left
    rcases bind_error.mp failed with panicked | ⟨_, _, first, failed⟩
    · obtain ⟨short, rfl, rfl⟩ := transferIfPositive_error.mp panicked
      exact .inr ⟨rfl, _, _, arm, by rw [payAll_append, short]; rfl⟩
    obtain ⟨tokens, paid, rfl⟩ := transferIfPositive_ok.mp first
    rcases bind_error.mp failed with panicked | ⟨_, _, _, failed⟩
    · obtain ⟨short, rfl, rfl⟩ := transferIfPositive_error.mp panicked
      exact .inr ⟨rfl, _, _, arm, by rw [payAll_append, paid]; exact short⟩
    · exact absurd failed pure_error

variable [DecidableEq Symbol]

theorem getEntry_error : getEntry id env = .error stop env' ↔
    env.state.entries.lookup id = none ∧ stop = .err .notFound ∧ env = env' := by
  unfold getEntry
  cases env.state.entries.lookup id <;> simp [eq_comm]

theorem hasEntry_error : ¬ hasEntry id env = .error stop env' := by
  simp [hasEntry]

/-- Storing, extending and publishing never fail. -/
theorem epilogue_error {event : Event Address Symbol} :
    ¬ (do setEntry host id entry; extendTtl id; publish event) env = .error stop env' := by
  simp [bind_error, setEntry, extendTtl, publish]

/-! ### Entry points -/

/-- The subtraction of a well-formed entry never fails. -/
theorem remaining_some (formed : entry.WellFormed) :
    ∃ remaining : I128, entry.totalAmount.checkedSub entry.releasedAmount = some remaining ∧
      remaining.val = entry.totalAmount.val - entry.releasedAmount.val := by
  obtain ⟨remaining, left⟩ := CheckedInt.exists_checkedSub (by norm_num) formed.nonneg formed.bounded
  exact ⟨remaining, CheckedInt.checkedSub_eq_some.mpr left, left⟩

/-- A payout of the rest to one party fails only where the token does. -/
theorem payout_error {call : Call Address Symbol} {entry next : EscrowEntry Address} {payee : Address}
    {event : I128 → Event Address Symbol} (formed : entry.WellFormed)
    (found : env.state.entries.lookup call.contractId = some entry)
    (failed : (do
      let remaining ← okOr (entry.totalAmount.checkedSub entry.releasedAmount) .overflow
      transferIfPositive host entry.token payee remaining
      setEntry host call.contractId next
      extendTtl call.contractId
      publish (event remaining)) env = .error stop env')
    (moves : ∀ remaining : I128, remaining.val = entry.totalAmount.val - entry.releasedAmount.val →
      Moves call entry (positivePay payee remaining) next (event remaining)) :
    Fails host call env stop env' := by
  obtain ⟨remaining, some', left⟩ := remaining_some formed
  rw [okOr_bind some'] at failed
  rcases bind_error.mp failed with panicked | ⟨_, _, _, failed⟩
  · obtain ⟨short, rfl, rfl⟩ := transferIfPositive_error.mp panicked
    exact .payoutPanicked found (moves remaining left) short
  · exact absurd failed epilogue_error

variable [DecidableEq Address]

/-- The guards every entry point but `fund` begins with. -/
theorem guards_error {status : EscrowStatus} {stranger : EscrowEntry Address → Prop}
    [DecidablePred stranger] {rest : EscrowEntry Address → Contract Address Symbol τ Unit}
    (failed : (do
      requireAuth caller
      let entry ← getEntry id
      rejectIf (entry.status ≠ status) .invalidState
      rejectIf (stranger entry) .unauthorized
      rest entry) env = .error stop env') :
    (caller ∉ env.auths ∧ stop = .trap ∧ env = env') ∨
    (env.state.entries.lookup id = none ∧ stop = .err .notFound ∧ env = env') ∨
    ∃ entry, env.state.entries.lookup id = some entry ∧
      ((entry.status ≠ status ∧ stop = .err .invalidState ∧ env = env') ∨
      (entry.status = status ∧ stranger entry ∧ stop = .err .unauthorized ∧ env = env') ∨
      (entry.status = status ∧ ¬ stranger entry ∧ rest entry env = .error stop env')) := by
  simp only [bind_error, requireAuth_error, requireAuth_ok, getEntry_error, getEntry_ok,
    rejectIf_error, rejectIf_ok, ne_eq, not_not] at failed
  rcases failed with missing | ⟨_, _, ⟨_, rfl⟩, absent | ⟨entry, _, ⟨found, rfl⟩, wrong |
    ⟨_, _, ⟨right, rfl⟩, stranger | ⟨_, _, ⟨allowed, rfl⟩, failed⟩⟩⟩⟩
  · exact .inl missing
  · exact .inr (.inl absent)
  · exact .inr (.inr ⟨entry, found, .inl wrong⟩)
  · exact .inr (.inr ⟨entry, found, .inr (.inl ⟨right, stranger⟩)⟩)
  · exact .inr (.inr ⟨entry, found, .inr (.inr ⟨right, allowed, failed⟩)⟩)

theorem fails_of_guards {call : Call Address Symbol} {status : EscrowStatus}
    {stranger : EscrowEntry Address → Prop} [DecidablePred stranger]
    {rest : EscrowEntry Address → Contract Address Symbol τ Unit} (failed : (do
      requireAuth call.caller
      let entry ← getEntry call.contractId
      rejectIf (entry.status ≠ status) .invalidState
      rejectIf (stranger entry) .unauthorized
      rest entry) env = .error stop env')
    (known : call.isFund = false) (needs : call.needs = status)
    (strangers : ∀ entry, stranger entry → call.Stranger entry)
    (after : ∀ entry, env.state.entries.lookup call.contractId = some entry →
      entry.status = status → ¬ stranger entry → rest entry env = .error stop env' →
      Fails host call env stop env') : Fails host call env stop env' := by
  rcases guards_error failed with ⟨missing, rfl, rfl⟩ | ⟨absent, rfl, rfl⟩ | ⟨entry, found,
    ⟨wrong, rfl, rfl⟩ | ⟨right, turned, rfl, rfl⟩ | ⟨right, allowed, failed⟩⟩
  · exact .unauthorised missing
  · refine .refused ?_
    rw [absent]
    exact .notFound known
  · refine .refused ?_
    rw [found]
    exact .wrongStatus known (needs ▸ wrong)
  · refine .refused ?_
    rw [found]
    exact .stranger (needs ▸ right) (strangers entry turned)
  · exact after entry found right allowed failed

theorem fund_error {client freelancer admin : Address}
    (failed : fund host id client freelancer admin amount token env = .error stop env') :
    Fails host (.fund id client freelancer admin amount token) env stop env' := by
  rcases bind_error.mp failed with trapped | ⟨_, _, authorised, failed⟩
  · obtain ⟨missing, rfl, rfl⟩ := requireAuth_error.mp trapped
    exact .unauthorised missing
  obtain ⟨_, rfl⟩ := requireAuth_ok.mp authorised
  rcases bind_error.mp failed with rejected | ⟨_, _, passed, failed⟩
  · obtain ⟨least, rfl, rfl⟩ := rejectIf_error.mp rejected
    exact .refused (.notPositive least)
  obtain ⟨positive, rfl⟩ := rejectIf_ok.mp passed
  rw [not_le] at positive
  rcases bind_error.mp failed with impossible | ⟨_, _, looked, failed⟩
  · exact absurd impossible hasEntry_error
  obtain ⟨rfl, rfl⟩ := hasEntry_ok.mp looked
  rcases bind_error.mp failed with rejected | ⟨_, _, passed, failed⟩
  · obtain ⟨present, rfl, rfl⟩ := rejectIf_error.mp rejected
    obtain ⟨entry, found⟩ := Option.isSome_iff_exists.mp present
    exact .refused (found ▸ .alreadyFunded positive)
  obtain ⟨absent, rfl⟩ := rejectIf_ok.mp passed
  rcases bind_error.mp failed with panicked | ⟨_, _, _, failed⟩
  · obtain rfl := transferFrom_error panicked
    exact .pullPanicked rfl (Option.not_isSome_iff_eq_none.mp absent)
  · exact absurd failed epilogue_error

theorem dispute_error (failed : dispute host id caller env = .error stop env') :
    Fails host (.dispute id caller) env stop env' := by
  refine fails_of_guards failed rfl rfl (fun _ stranger => stranger) ?_
  intro entry found funded allowed failed
  exact absurd failed epilogue_error

section Remaining
variable (formed : ∀ entry, env.state.entries.lookup id = some entry → entry.WellFormed)
include formed

theorem releaseMilestone_error
    (failed : releaseMilestone host id caller amount env = .error stop env') :
    Fails host (.releaseMilestone id caller amount) env stop env' := by
  refine fails_of_guards failed rfl rfl (fun _ stranger => stranger) ?_
  intro entry found funded allowed failed
  have formed := formed entry found
  obtain ⟨remaining, some', left⟩ := remaining_some formed
  rw [okOr_bind some'] at failed
  simp only [bind_error (x := rejectIf _ _), rejectIf_error, rejectIf_ok, not_le, not_lt] at failed
  rcases failed with ⟨least, rfl, rfl⟩ | ⟨_, _, ⟨positive, rfl⟩, ⟨beyond, rfl, rfl⟩ |
    ⟨_, _, ⟨covered, rfl⟩, failed⟩⟩
  · exact .refused (found ▸ .emptyMilestone funded (either_of_not.mp allowed) least)
  · exact .refused (found ▸
      .beyondRemaining funded (either_of_not.mp allowed) positive (left ▸ beyond))
  · obtain ⟨released, sum⟩ := CheckedInt.exists_checkedAdd (a := entry.releasedAmount)
      (b := amount) (c := entry.totalAmount) (le_of_lt positive) (by omega)
    have moves : Moves (.releaseMilestone id caller amount) entry _ _ _ :=
      .releaseMilestone funded (either_of_not.mp allowed) remaining left positive covered released sum
    rcases bind_error.mp failed with panicked | ⟨_, _, _, failed⟩
    · obtain ⟨short, rfl, rfl⟩ := transfer_error.mp panicked
      exact .payoutPanicked found moves short
    · rw [okOr_bind (CheckedInt.checkedAdd_eq_some.mpr sum)] at failed
      exact absurd failed epilogue_error

theorem release_error (failed : release host id caller env = .error stop env') :
    Fails host (.release id caller) env stop env' := by
  refine fails_of_guards failed rfl rfl (fun _ stranger => stranger) ?_
  intro entry found funded allowed failed
  exact payout_error (formed entry found) found failed fun remaining left =>
    .release funded (either_of_not.mp allowed) remaining left

theorem refund_error (failed : refund host id caller env = .error stop env') :
    Fails host (.refund id caller) env stop env' := by
  refine fails_of_guards failed rfl rfl (fun _ stranger => stranger) ?_
  intro entry found funded allowed failed
  exact payout_error (formed entry found) found failed fun remaining left =>
    .refund funded (either_of_not.mp allowed) remaining left

theorem resolveDispute_error {decision : DisputeDecision} {bps : UInt32}
    (failed : resolveDispute host id caller decision bps env = .error stop env') :
    Fails host (.resolveDispute id caller decision bps) env stop env' := by
  refine fails_of_guards failed rfl rfl (fun _ stranger => stranger) ?_
  intro entry found disputed allowed failed
  obtain ⟨remaining, some', left⟩ := remaining_some (formed entry found)
  rw [okOr_bind some'] at failed
  have nonneg : 0 ≤ remaining.val := by
    have := (formed entry found).bounded
    omega
  rcases bind_error.mp failed with stopped | ⟨_, _, _, failed⟩
  · rcases matchDecision_error nonneg stopped with ⟨rfl, rfl, ⟨beyond, rfl⟩ |
      ⟨within, beyond, rfl⟩⟩ | ⟨rfl, payouts, status, arm, short⟩
    · exact .refused (found ▸ .splitBps disputed (not_not.mp allowed) beyond)
    · exact .refused (found ▸ .overflow disputed (not_not.mp allowed) within (left ▸ beyond))
    · exact .payoutPanicked found (.resolve disputed (not_not.mp allowed) remaining left arm) short
  · exact absurd failed epilogue_error

end Remaining

theorem body_error {call : Call Address Symbol} {env env' : Env Address Symbol τ}
    (formed : ∀ entry, env.state.entries.lookup call.contractId = some entry → entry.WellFormed)
    (failed : call.body host env = .error stop env') : Fails host call env stop env' := by
  cases call with
  | fund => exact fund_error failed
  | releaseMilestone => exact releaseMilestone_error formed failed
  | release => exact release_error formed failed
  | refund => exact refund_error formed failed
  | dispute => exact dispute_error failed
  | resolveDispute => exact resolveDispute_error formed failed

/-! ### Status and authorisation -/

/-- The status and authorisation checks of a call on a stored entry. -/
structure Call.Entitled (auths : Finset Address) (entry : EscrowEntry Address)
    (call : Call Address Symbol) : Prop where
  signed : call.caller ∈ auths
  status : entry.status = call.needs
  known : ¬ call.Stranger entry

/-- Stopped for want of an entry, for its status or for the caller. -/
def Outcome.Rejected : Outcome → Prop
  | .stopped (.err .notFound) | .stopped (.err .invalidState) | .stopped (.err .unauthorized) => True
  | _ => False

/-- An entitled call that asks for no more than what is left is not rejected. -/
theorem Call.Entitled.not_rejected {ledger : Ledger Address Symbol τ} {auths : Finset Address}
    {call : Call Address Symbol} (entitled : call.Entitled auths entry)
    (reached : Reachable host ledger) (stored : ledger.entry call.contractId = some entry)
    (covered : ∀ id caller amount, call = .releaseMilestone id caller amount →
      amount.val ≤ entry.totalAmount.val - entry.releasedAmount.val) :
    ¬ (invoke host auths call ledger.state).1.outcome.Rejected := by
  unfold invoke
  cases returned : call.body host (enter auths ledger.state) with
  | ok => exact id
  | error stop env =>
    have formed : ∀ entry, ledger.state.entries.lookup call.contractId = some entry →
        entry.WellFormed := fun entry => reachable_wellFormed reached _ entry
    cases body_error formed returned with
    | unauthorised | pullPanicked | payoutPanicked => exact id
    | refused why =>
      have why : Refused call (ledger.entry call.contractId) _ := why
      rw [stored] at why
      cases why with
      | wrongStatus known status => exact absurd entitled.status status
      | stranger status stranger => exact absurd stranger entitled.known
      | beyondRemaining funded allowed positive beyond =>
        have := covered _ _ _ rfl
        omega
      | notPositive | alreadyFunded | emptyMilestone | splitBps | overflow => exact id

end Stellance.Escrow
