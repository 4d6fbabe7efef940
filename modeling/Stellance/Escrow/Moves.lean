import Stellance.Escrow.Calls

/-! What each entry point does to the entry it finds, as a table. A call on a
stored id succeeds exactly when the table has a move for it and the token carries
out the payouts of that move, so every law of the contract is read off the table
and no entry point is unfolded again. -/
namespace Stellance.Escrow
open Fallible
variable {Address Symbol τ : Type}

abbrev Payout (Address : Type) := Address × I128

/-- Zero transfers are skipped. -/
def positivePay (party : Address) (amount : I128) : List (Payout Address) :=
  if 0 < amount.val then [(party, amount)] else []

/-- The arms of a resolution: what they pay and the status they end in. -/
inductive Arm (entry : EscrowEntry Address) (remaining : I128) (freelancerBps : UInt32) :
    DisputeDecision → List (Payout Address) → EscrowStatus → Prop where
  | releaseToFreelancer : Arm entry remaining freelancerBps .releaseToFreelancer
      (positivePay entry.freelancer remaining) .released
  | refundToClient : Arm entry remaining freelancerBps .refundToClient
      (positivePay entry.client remaining) .refunded
  | split (percentage : freelancerBps.toNat ≤ 10000) (product freelancerAmount clientAmount : I128)
      (multiplied : product.val = remaining.val * freelancerBps.toNat)
      (divided : freelancerAmount.val = product.val.tdiv 10000)
      (rest : clientAmount.val = remaining.val - freelancerAmount.val) :
      Arm entry remaining freelancerBps .split
        (positivePay entry.freelancer freelancerAmount ++ positivePay entry.client clientAmount)
        .resolved

inductive Moves : Call Address Symbol → EscrowEntry Address → List (Payout Address) →
    EscrowEntry Address → Event Address Symbol → Prop where
  | releaseMilestone {id caller amount entry} (funded : entry.status = .funded)
      (allowed : caller = entry.client ∨ caller = entry.admin) (remaining : I128)
      (left : remaining.val = entry.totalAmount.val - entry.releasedAmount.val)
      (positive : 0 < amount.val) (covered : amount.val ≤ remaining.val) (released : I128)
      (sum : released.val = entry.releasedAmount.val + amount.val) :
      Moves (.releaseMilestone id caller amount) entry [(entry.freelancer, amount)]
        { entry with
          releasedAmount := released
          status := if entry.totalAmount.val ≤ released.val then .released else entry.status }
        (.releaseMs id entry.freelancer amount released)
  | release {id caller entry} (funded : entry.status = .funded)
      (allowed : caller = entry.client ∨ caller = entry.admin) (remaining : I128)
      (left : remaining.val = entry.totalAmount.val - entry.releasedAmount.val) :
      Moves (.release id caller) entry (positivePay entry.freelancer remaining)
        { entry with releasedAmount := entry.totalAmount, status := .released }
        (.release id entry.freelancer remaining)
  | refund {id caller entry} (funded : entry.status = .funded)
      (allowed : caller = entry.freelancer ∨ caller = entry.admin) (remaining : I128)
      (left : remaining.val = entry.totalAmount.val - entry.releasedAmount.val) :
      Moves (.refund id caller) entry (positivePay entry.client remaining)
        { entry with status := .refunded } (.refund id entry.client remaining)
  | dispute {id caller entry} (funded : entry.status = .funded)
      (allowed : caller = entry.client ∨ caller = entry.freelancer) :
      Moves (.dispute id caller) entry [] { entry with status := .disputed } (.dispute id caller)
  | resolve {id caller decision bps entry payouts status} (disputed : entry.status = .disputed)
      (allowed : caller = entry.admin) (remaining : I128)
      (left : remaining.val = entry.totalAmount.val - entry.releasedAmount.val)
      (arm : Arm entry remaining bps decision payouts status) :
      Moves (.resolveDispute id caller decision bps) entry payouts { entry with status }
        (.resolve id decision bps)

/-- The freelancer's share of a split is a part of what remains, and is nothing
exactly when the product stays below one basis unit. -/
theorem share_bounds {remaining product share : Int} {bps : Nat} (nonneg : 0 ≤ remaining)
    (percentage : bps ≤ 10000) (multiplied : product = remaining * bps)
    (divided : share = product.tdiv 10000) :
    0 ≤ share ∧ share ≤ remaining ∧ (0 < share ↔ 10000 ≤ product) := by
  have low : 0 ≤ product := by
    rw [multiplied]
    exact Int.mul_nonneg nonneg (Int.natCast_nonneg bps)
  have high : product ≤ remaining * 10000 := by
    rw [multiplied]
    exact Int.mul_le_mul_of_nonneg_left (by omega) nonneg
  rw [Int.tdiv_eq_ediv_of_nonneg low] at divided
  omega

/-! ### Statements -/

/-- The transfers of a list of payouts, in order, from the contract's balance. -/
def payAll (host : Host Address τ) (token : Address) : List (Payout Address) → τ → Option τ
  | [], tokens => some tokens
  | (party, amount) :: rest, tokens =>
      (host.transfer tokens token host.currentContractAddress party amount).bind
        (payAll host token rest)

theorem payAll_append (host : Host Address τ) (token : Address)
    (first second : List (Payout Address)) (tokens : τ) :
    payAll host token (first ++ second) tokens =
      (payAll host token first tokens).bind (payAll host token second) := by
  induction first generalizing tokens with
  | nil => rfl
  | cons payout rest ih =>
    simp only [List.cons_append, payAll, Option.bind_assoc]
    exact congrArg _ (funext ih)

def Env.paid (env : Env Address Symbol τ) (token : Address) (payouts : List (Payout Address))
    (tokens : τ) : Env Address Symbol τ :=
  { env with
    state := { env.state with tokens }
    tokenCalls := env.tokenCalls ++ payouts.map fun payout => .transfer token payout.1 payout.2 }

theorem Env.paid_paid (env : Env Address Symbol τ) (token : Address)
    (first second : List (Payout Address)) (tokens later : τ) :
    (env.paid token first tokens).paid token second later = env.paid token (first ++ second) later := by
  simp only [Env.paid, List.append_assoc, List.map_append]

variable {host : Host Address τ} {env env' : Env Address Symbol τ} {id : Symbol}
  {token party caller address : Address} {amount remaining : I128} {entry : EscrowEntry Address} {u : Unit}

theorem requireAuth_ok [DecidableEq Address] : requireAuth address env = .ok u env' ↔ address ∈ env.auths ∧ env = env' := by
  unfold requireAuth
  split <;> simp_all

theorem rejectIf_ok {condition : Prop} [Decidable condition] {error : EscrowError} :
    rejectIf condition error env = .ok u env' ↔ ¬ condition ∧ env = env' := by
  unfold rejectIf
  split <;> simp_all

theorem okOr_ok {α : Type} {value : Option α} {error : EscrowError} {a : α} :
    okOr value error env = .ok a env' ↔ value = some a ∧ env = env' := by
  unfold okOr
  cases value <;> simp

theorem orPanic_ok {α : Type} {value : Option α} {a : α} :
    orPanic value env = .ok a env' ↔ value = some a ∧ env = env' := by
  unfold orPanic
  cases value <;> simp

theorem publish_ok {event : Event Address Symbol} :
    publish event env = .ok u env' ↔ { env with events := env.events ++ [event] } = env' := by
  simp [publish]

theorem transfer_ok : transfer host token party amount env = .ok u env' ↔
    ∃ tokens, payAll host token [(party, amount)] env.state.tokens = some tokens ∧
      env.paid token [(party, amount)] tokens = env' := by
  simp only [transfer, payAll, Env.paid]
  cases host.transfer env.state.tokens token host.currentContractAddress party amount <;> simp

theorem transferIfPositive_ok : transferIfPositive host token party amount env = .ok u env' ↔
    ∃ tokens, payAll host token (positivePay party amount) env.state.tokens = some tokens ∧
      env.paid token (positivePay party amount) tokens = env' := by
  unfold transferIfPositive positivePay
  split
  · exact transfer_ok
  · simp [pure_ok, payAll, Env.paid]

theorem transferFrom_ok {client : Address} :
    transferFrom host token client amount env = .ok u env' ↔
      ∃ tokens, host.transferFrom env.state.tokens token host.currentContractAddress client
        host.currentContractAddress amount = some tokens ∧
      { env with
        state := { env.state with tokens }
        tokenCalls := env.tokenCalls ++ [.transferFrom token client amount] } = env' := by
  unfold transferFrom
  split <;> simp_all

theorem matchDecision_ok {bps : UInt32} {decision : DisputeDecision} {status : EscrowStatus} :
    matchDecision host entry remaining bps decision env = .ok status env' ↔
      ∃ payouts tokens, Arm entry remaining bps decision payouts status ∧
        payAll host entry.token payouts env.state.tokens = some tokens ∧
        env.paid entry.token payouts tokens = env' := by
  cases decision with
  | releaseToFreelancer =>
    simp only [matchDecision, bind_ok, transferIfPositive_ok, pure_ok]
    constructor
    · rintro ⟨_, _, ⟨tokens, paid, rfl⟩, rfl, rfl⟩
      exact ⟨_, tokens, .releaseToFreelancer, paid, rfl⟩
    · rintro ⟨_, tokens, arm, paid, rfl⟩
      cases arm with
      | releaseToFreelancer => exact ⟨(), _, ⟨tokens, paid, rfl⟩, rfl, rfl⟩
  | refundToClient =>
    simp only [matchDecision, bind_ok, transferIfPositive_ok, pure_ok]
    constructor
    · rintro ⟨_, _, ⟨tokens, paid, rfl⟩, rfl, rfl⟩
      exact ⟨_, tokens, .refundToClient, paid, rfl⟩
    · rintro ⟨_, tokens, arm, paid, rfl⟩
      cases arm with
      | refundToClient => exact ⟨(), _, ⟨tokens, paid, rfl⟩, rfl, rfl⟩
  | split =>
    simp only [matchDecision, bind_ok, rejectIf_ok, okOr_ok, orPanic_ok, transferIfPositive_ok,
      pure_ok, CheckedInt.checkedMul_eq_some, CheckedInt.checkedDiv_eq_some,
      CheckedInt.checkedSub_eq_some, I128.val_fromU32, not_lt, and_assoc, exists_and_left,
      exists_const, exists_eq_left']
    constructor
    · rintro ⟨percentage, product, multiplied, _, freelancerAmount, divided, clientAmount, rest, _,
        ⟨between, first, rfl⟩, _, ⟨tokens, second, rfl⟩, rfl, rfl⟩
      refine ⟨_, .split percentage product freelancerAmount clientAmount multiplied divided rest,
        tokens, ?_, ?_⟩
      · rw [payAll_append, first]
        exact second
      · rw [Env.paid_paid]
    · rintro ⟨_, arm, tokens, paid, rfl⟩
      cases arm with
      | split percentage product freelancerAmount clientAmount multiplied divided rest =>
        rw [payAll_append] at paid
        obtain ⟨between, first, second⟩ := Option.bind_eq_some_iff.mp paid
        refine ⟨percentage, product, multiplied, by decide, freelancerAmount, divided, clientAmount,
          rest, _, ⟨between, first, rfl⟩, _, ⟨tokens, second, rfl⟩, rfl, ?_⟩
        rw [Env.paid_paid]

variable [DecidableEq Symbol]

theorem hasEntry_ok {found : Bool} :
    hasEntry id env = .ok found env' ↔ (env.state.entries.lookup id).isSome = found ∧ env = env' := by
  simp [hasEntry]

theorem getEntry_ok :
    getEntry id env = .ok entry env' ↔ env.state.entries.lookup id = some entry ∧ env = env' := by
  unfold getEntry
  cases env.state.entries.lookup id <;> simp

theorem setEntry_ok : setEntry host id entry env = .ok u env' ↔
    { env with state := env.state.put host id entry } = env' := by
  simp [setEntry]

theorem extendTtl_ok : extendTtl id env = .ok u env' ↔
    { env with state := env.state.extend id ttlExtendIfBelow ttlExtendTo } = env' := by
  simp [extendTtl]

/-! ### Entry points -/

/-- The entry a deposit is booked as. -/
def EscrowEntry.opened (client freelancer admin : Address) (amount : I128) (token : Address) :
    EscrowEntry Address :=
  { client, freelancer, totalAmount := amount, releasedAmount := I128.zero, token,
    status := .funded, admin }

/-- The state after the tokens moved and an entry was stored and kept alive. -/
def State.stored (state : State Address Symbol τ) (host : Host Address τ) (tokens : τ) (id : Symbol)
    (entry : EscrowEntry Address) : State Address Symbol τ :=
  ({ state with tokens }.put host id entry).extend id ttlExtendIfBelow ttlExtendTo

@[simp] theorem State.stored_entries (state : State Address Symbol τ) (tokens : τ) :
    (state.stored host tokens id entry).entries = state.entries.insert id entry := rfl

@[simp] theorem State.stored_tokens (state : State Address Symbol τ) (tokens : τ) :
    (state.stored host tokens id entry).tokens = tokens := rfl

/-- The environment a move leaves: the payouts made, the entry stored, the event
published. -/
def Env.settle (env : Env Address Symbol τ) (host : Host Address τ) (id : Symbol) (token : Address)
    (payouts : List (Payout Address)) (tokens : τ) (after : EscrowEntry Address)
    (event : Event Address Symbol) : Env Address Symbol τ :=
  { env with
    state := env.state.stored host tokens id after
    tokenCalls := env.tokenCalls ++ payouts.map fun payout => .transfer token payout.1 payout.2
    events := env.events ++ [event] }

theorem Env.settle_nothing {after : EscrowEntry Address} {event : Event Address Symbol} :
    env.settle host id token [] env.state.tokens after event =
      { env with
        state := (env.state.put host id after).extend id ttlExtendIfBelow ttlExtendTo
        events := env.events ++ [event] } := by
  simp [Env.settle, State.stored]

/-- A move for the entry found, carried out. -/
inductive Settles (host : Host Address τ) (call : Call Address Symbol) (env : Env Address Symbol τ) :
    Env Address Symbol τ → Prop where
  | intro {before payouts after event tokens} (authorised : call.caller ∈ env.auths)
      (found : env.state.entries.lookup call.contractId = some before)
      (moves : Moves call before payouts after event)
      (paid : payAll host before.token payouts env.state.tokens = some tokens) :
      Settles host call env
        (env.settle host call.contractId before.token payouts tokens after event)

theorem either_of_not {P Q : Prop} : ¬ (¬ P ∧ ¬ Q) ↔ P ∨ Q := by
  rw [not_and_or, not_not, not_not]

variable [DecidableEq Address]

theorem releaseMilestone_ok : releaseMilestone host id caller amount env = .ok u env' ↔
    Settles host (.releaseMilestone id caller amount) env env' := by
  simp only [releaseMilestone, bind_ok, requireAuth_ok, getEntry_ok, rejectIf_ok, okOr_ok,
    CheckedInt.checkedSub_eq_some, CheckedInt.checkedAdd_eq_some, transfer_ok, setEntry_ok,
    extendTtl_ok, publish_ok, ne_eq, not_not, either_of_not, not_le, not_lt, and_assoc,
    exists_and_left, exists_const, exists_eq_left']
  constructor
  · rintro ⟨authorised, before, found, funded, allowed, remaining, left, positive, covered, _,
      ⟨tokens, paid, rfl⟩, released, sum, rfl⟩
    exact .intro authorised found
      (.releaseMilestone funded allowed remaining left positive covered released sum) paid
  · rintro ⟨authorised, found, moves, paid⟩
    cases moves with
    | releaseMilestone funded allowed remaining left positive covered released sum =>
      exact ⟨authorised, _, found, funded, allowed, remaining, left, positive, covered, _,
        ⟨_, paid, rfl⟩, released, sum, rfl⟩

theorem release_ok : release host id caller env = .ok u env' ↔
    Settles host (.release id caller) env env' := by
  simp only [release, bind_ok, requireAuth_ok, getEntry_ok, rejectIf_ok, okOr_ok,
    CheckedInt.checkedSub_eq_some, transferIfPositive_ok, setEntry_ok, extendTtl_ok, publish_ok,
    ne_eq, not_not, either_of_not, and_assoc, exists_and_left, exists_const, exists_eq_left']
  constructor
  · rintro ⟨authorised, before, found, funded, allowed, remaining, left, _, ⟨tokens, paid, rfl⟩, rfl⟩
    exact .intro authorised found (.release funded allowed remaining left) paid
  · rintro ⟨authorised, found, moves, paid⟩
    cases moves with
    | release funded allowed remaining left =>
      exact ⟨authorised, _, found, funded, allowed, remaining, left, _, ⟨_, paid, rfl⟩, rfl⟩

theorem refund_ok : refund host id caller env = .ok u env' ↔
    Settles host (.refund id caller) env env' := by
  simp only [refund, bind_ok, requireAuth_ok, getEntry_ok, rejectIf_ok, okOr_ok,
    CheckedInt.checkedSub_eq_some, transferIfPositive_ok, setEntry_ok, extendTtl_ok, publish_ok,
    ne_eq, not_not, either_of_not, and_assoc, exists_and_left, exists_const, exists_eq_left']
  constructor
  · rintro ⟨authorised, before, found, funded, allowed, remaining, left, _, ⟨tokens, paid, rfl⟩, rfl⟩
    exact .intro authorised found (.refund funded allowed remaining left) paid
  · rintro ⟨authorised, found, moves, paid⟩
    cases moves with
    | refund funded allowed remaining left =>
      exact ⟨authorised, _, found, funded, allowed, remaining, left, _, ⟨_, paid, rfl⟩, rfl⟩

theorem dispute_ok : dispute host id caller env = .ok u env' ↔
    Settles host (.dispute id caller) env env' := by
  simp only [dispute, bind_ok, requireAuth_ok, getEntry_ok, rejectIf_ok, setEntry_ok, extendTtl_ok,
    publish_ok, ne_eq, not_not, either_of_not, and_assoc, exists_and_left, exists_const,
    exists_eq_left']
  constructor
  · rintro ⟨authorised, before, found, funded, allowed, rfl⟩
    have settled : Settles host (.dispute id caller) env _ :=
      .intro authorised found (.dispute funded allowed) rfl
    rwa [Env.settle_nothing] at settled
  · rintro ⟨authorised, found, moves, paid⟩
    cases moves with
    | dispute funded allowed =>
      cases paid
      rw [Env.settle_nothing]
      exact ⟨authorised, _, found, funded, allowed, rfl⟩

theorem resolveDispute_ok {decision : DisputeDecision} {bps : UInt32} :
    resolveDispute host id caller decision bps env = .ok u env' ↔
      Settles host (.resolveDispute id caller decision bps) env env' := by
  simp only [resolveDispute, bind_ok, requireAuth_ok, getEntry_ok, rejectIf_ok, okOr_ok,
    CheckedInt.checkedSub_eq_some, matchDecision_ok, setEntry_ok, extendTtl_ok, publish_ok,
    ne_eq, not_not, and_assoc, exists_and_left, exists_const, exists_eq_left']
  constructor
  · rintro ⟨authorised, before, found, disputed, allowed, remaining, left, status, _,
      ⟨payouts, arm, tokens, paid, rfl⟩, rfl⟩
    exact .intro authorised found (.resolve disputed allowed remaining left arm) paid
  · rintro ⟨authorised, found, moves, paid⟩
    cases moves with
    | resolve disputed allowed remaining left arm =>
      exact ⟨authorised, _, found, disputed, allowed, remaining, left, _, _,
        ⟨_, arm, _, paid, rfl⟩, rfl⟩

/-- The first entry of an id, with the deposit pulled in. -/
inductive Opens (host : Host Address τ) :
    Call Address Symbol → Env Address Symbol τ → Env Address Symbol τ → Prop where
  | intro {id client freelancer admin amount token env tokens} (authorised : client ∈ env.auths)
      (positive : 0 < amount.val) (absent : env.state.entries.lookup id = none)
      (pulled : host.transferFrom env.state.tokens token host.currentContractAddress client
        host.currentContractAddress amount = some tokens) :
      Opens host (.fund id client freelancer admin amount token) env
        { env with
          state := env.state.stored host tokens id (.opened client freelancer admin amount token)
          tokenCalls := env.tokenCalls ++ [.transferFrom token client amount]
          events := env.events ++ [.fund id client freelancer amount token] }

theorem fund_ok {client freelancer admin : Address} :
    fund host id client freelancer admin amount token env = .ok u env' ↔
      Opens host (.fund id client freelancer admin amount token) env env' := by
  simp only [fund, bind_ok, requireAuth_ok, rejectIf_ok, hasEntry_ok, transferFrom_ok, setEntry_ok,
    extendTtl_ok, publish_ok, not_le, Bool.not_eq_true, Option.isSome_eq_false_iff,
    Option.isNone_iff_eq_none, and_assoc, exists_and_left, exists_const, exists_eq_left']
  constructor
  · rintro ⟨authorised, positive, absent, _, ⟨tokens, pulled, rfl⟩, rfl⟩
    exact .intro authorised positive absent pulled
  · rintro ⟨authorised, positive, absent, pulled⟩
    exact ⟨authorised, positive, absent, _, ⟨_, pulled, rfl⟩, rfl⟩

/-- What a successful call did: it opened an entry, or carried out a move of one. -/
theorem body_ok {call : Call Address Symbol} :
    call.body host env = .ok u env' ↔ Opens host call env env' ∨ Settles host call env env' := by
  constructor
  · intro returned
    cases call with
    | fund => exact .inl (fund_ok.mp returned)
    | releaseMilestone => exact .inr (releaseMilestone_ok.mp returned)
    | release => exact .inr (release_ok.mp returned)
    | refund => exact .inr (refund_ok.mp returned)
    | dispute => exact .inr (dispute_ok.mp returned)
    | resolveDispute => exact .inr (resolveDispute_ok.mp returned)
  · rintro (opens | settles)
    · cases call with
      | fund => exact fund_ok.mpr opens
      | _ => cases opens
    · cases call with
      | fund =>
        obtain ⟨_, _, moves, _⟩ := settles
        cases moves
      | releaseMilestone => exact releaseMilestone_ok.mpr settles
      | release => exact release_ok.mpr settles
      | refund => exact refund_ok.mpr settles
      | dispute => exact dispute_ok.mpr settles
      | resolveDispute => exact resolveDispute_ok.mpr settles

end Stellance.Escrow
