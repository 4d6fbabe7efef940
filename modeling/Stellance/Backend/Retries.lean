import Stellance.Library.Interruption
import Stellance.Backend.Approval
import Stellance.Backend.Vouched

/-! Retrying a request that broke off. The requests that settle escrow submit one call
and write the database after it. A retry starts from the beginning, so it is safe as long
as the first attempt had not got past its call, and no longer. -/
namespace Stellance.Escrow
variable {Address Symbol : Type}

/-- No move leaves its entry as it was. -/
theorem Moves.changes {call : Call Address Symbol} {entry next : EscrowEntry Address}
    {payouts : List (Payout Address)} {event : Event Address Symbol}
    (moves : Moves call entry payouts next event) : next ≠ entry := by
  intro same
  have status := congrArg EscrowEntry.status same
  cases moves with
  | releaseMilestone funded allowed remaining left positive covered released sum =>
    have booked := congrArg (fun entry => entry.releasedAmount.val) same
    dsimp only at booked
    omega
  | release funded | refund funded | dispute funded =>
    rw [funded] at status
    contradiction
  | resolve disputed allowed remaining left arm =>
    rw [disputed] at status
    cases arm <;> contradiction

end Stellance.Escrow

namespace Stellance.Backend
open ContractsService Process

section Requests
variable {τ : Type} {host : Escrow.Host Address τ} {config : Config} {w w' last : World τ}

/-- Operations without failures: each is answered, with a value. -/
inductive Smooth (host : Escrow.Host Address τ) (w : World τ) :
    (op : Op) → Except Failure op.Answer → World τ → Prop where
  | intro {op : Op} {value : op.Answer} {after : World τ}
      (served : Serves host False 0 w op (.ok value) after) : Smooth host w op (.ok value) after

theorem Smooth.serves {op : Op} {answer : Except Failure op.Answer}
    (smooth : Smooth host w op answer w') : Serves host False 0 w op answer w' := by
  cases smooth with
  | intro served => exact served

theorem smooth_read {asked : Query} {answer : Except Failure (Op.query asked).Answer}
    (smooth : Smooth host w (.query asked) answer w') : answer = .ok (w.db.answer asked) ∧ w' = w := by
  cases smooth with
  | intro served =>
    cases served
    exact ⟨rfl, rfl⟩

/-! ### One call, then none -/

/-- What is left of a request that has read its contract: it is refused, or submits one
call on it and none after. -/
inductive Sends {α : Type} (key : Symbol) : Request α → Prop where
  | refused (e : Failure) : Sends key (.fail e)
  | sends {signer : Address} {call : ChainCall} {next : Except Failure TxHash → Request α}
      (own : call.contractId = key) (known : call.isFund = false)
      (after : ∀ answer, (next answer).Never Submits) : Sends key (.await (.submit signer call) next)

section Sends
variable {key : Symbol} {α β : Type} {id : Uuid}

theorem Sends.map {p : Request α} (f : α → β) (sends : Sends key p) : Sends key (f <$> p) := by
  cases sends with
  | refused e => exact .refused e
  | sends own known after => exact .sends own known fun answer => never_map (after answer)

theorem sends_throwIf {condition : Prop} [Decidable condition] {e : Failure}
    {rest : Unit → Request α} (passed : ¬ condition → Sends key (rest ())) :
    Sends key (throwIf condition e >>= rest) :=
  throwIf_ind (fun _ => .refused e) passed

theorem sends_orThrow {value : Option β} {e : Failure} {rest : β → Request α}
    (passed : ∀ b, Sends key (rest b)) : Sends key (orThrow value e >>= rest) :=
  orThrow_ind (fun _ => .refused e) fun b _ => passed b

/-- The admin key is asked for twice, then the call is submitted. -/
theorem sends_submitAdmin {call : Address → ChainCall} {rest : TxHash → Request α}
    (own : ∀ admin, (call admin).contractId = key) (known : ∀ admin, (call admin).isFund = false)
    (after : ∀ hash, (rest hash).Never Submits) : Sends key ((do
      let admin ← EscrowService.getAdminPublicKey config
      EscrowService.submitAdminInvocation config (call admin)) >>= rest) := by
  unfold EscrowService.submitAdminInvocation
  simp only [Process.bind_assoc]
  apply sends_orThrow
  intro admin
  apply sends_orThrow
  intro signer
  refine .sends (own admin) (known admin) fun answer => ?_
  cases answer with
  | ok hash => exact after hash
  | error e => trivial

end Sends

/-- The requests that settle escrow. -/
def ContractsService.Endpoint.Settles (id : Uuid) : Endpoint → Prop
  | .approveMilestone contractId .. | .resolveDispute contractId .. | .cancel contractId .. =>
      contractId = id
  | _ => False

/-- A request that is refused at once, or reads its contract and goes on from there. -/
inductive Settling {α : Type} (id : Uuid) : Request α → Prop where
  | refused (e : Failure) : Settling id (.fail e)
  | reads {next : Except Failure (Option ContractView) → Request α} (absent : ∃ e, next (.ok none) = .fail e)
      (funded : ∀ view : ContractView, view.escrowTxHash.isSome = true →
        Sends id.symbol (next (.ok (some view)))) :
      Settling id (.await (.query (.contract id)) next)

section Settling
variable {id milestoneId callerId : Uuid} {role : UserRole} {dto : ResolveDisputeDto} {α β : Type}

theorem Settling.map {p : Request α} (f : α → β) (settling : Settling id p) : Settling id (f <$> p) := by
  cases settling with
  | refused e => exact .refused e
  | reads absent funded =>
    obtain ⟨e, fails⟩ := absent
    exact .reads ⟨e, congrArg (f <$> ·) fails⟩ fun view hash => (funded view hash).map f

theorem settling_getContract {rest : ContractView → Request α}
    (funded : ∀ view : ContractView, view.escrowTxHash.isSome = true → Sends id.symbol (rest view)) :
    Settling id (getContractOrThrow id >>= rest) :=
  .reads ⟨_, rfl⟩ funded

theorem never_remaining : (remainingAmount config id).Never Submits := by
  refine never_bind (never_await not_false) fun _ => ?_
  exact never_bind (never_await not_false) fun _ => trivial

theorem never_refundedAmount {hash : Option TxHash} {remaining : config.numbers.Num} :
    (refundedAmount config hash remaining).Never Submits := by
  cases hash with
  | none => trivial
  | some _ => exact never_orThrow

theorem approveMilestone_settling : Settling id (approveMilestone config id milestoneId callerId) := by
  refine settling_getContract fun view _ => ?_
  apply sends_throwIf
  intro _
  apply sends_throwIf
  intro _
  apply sends_orThrow
  intro milestone
  apply sends_throwIf
  intro _
  apply sends_orThrow
  intro stroops
  unfold EscrowService.submitReleaseMilestone EscrowService.submitAdminInvocation
  simp only [Process.bind_assoc]
  apply sends_orThrow
  intro admin
  apply sends_orThrow
  intro amount
  apply sends_orThrow
  intro signer
  refine .sends rfl rfl fun answer => ?_
  cases answer with
  | ok hash => exact never_recordApproval
  | error e => trivial

theorem resolveDispute_settling : Settling id (resolveDispute config id role dto) := by
  unfold resolveDispute
  refine throwIf_ind (fun _ => .refused _) fun _ => ?_
  refine settling_getContract fun view _ => ?_
  apply sends_throwIf
  intro _
  apply sends_orThrow
  intro decision
  unfold EscrowService.submitResolveDispute EscrowService.submitAdminInvocation
  simp only [Process.bind_assoc]
  apply sends_orThrow
  intro admin
  apply sends_orThrow
  intro variant
  apply sends_orThrow
  intro signer
  refine .sends rfl rfl fun answer => ?_
  cases answer with
  | error e => trivial
  | ok hash =>
    change (remainingAmount config id >>= _).Never Submits
    refine never_bind never_remaining fun _ => ?_
    refine never_bind never_orThrow fun _ => ?_
    refine never_bind (never_await not_false) fun _ => ?_
    refine never_bind never_notify fun _ => ?_
    exact never_bind never_notify fun _ => trivial

theorem cancel_settling : Settling id (cancel config id callerId role) := by
  refine settling_getContract fun view hash => ?_
  apply sends_throwIf
  intro _
  apply sends_throwIf
  intro _
  apply sends_throwIf
  intro _
  rw [if_pos hash]
  change Sends id.symbol ((EscrowService.submitRefund config id >>= fun hash => pure (some hash)) >>= _)
  rw [Process.bind_assoc]
  refine sends_submitAdmin (fun _ => rfl) (fun _ => rfl) fun hash => ?_
  refine never_bind trivial fun _ => ?_
  refine never_bind never_remaining fun _ => ?_
  refine never_bind never_refundedAmount fun _ => ?_
  refine never_bind (never_await not_false) fun _ => ?_
  refine never_bind never_notify fun _ => ?_
  refine never_bind never_notify fun _ => ?_
  trivial

theorem handle_settling {endpoint : Endpoint} (settles : endpoint.Settles id) :
    Settling id (handle config endpoint) := by
  cases endpoint with
  | approveMilestone contractId =>
    obtain rfl : contractId = id := settles
    exact approveMilestone_settling.map _
  | resolveDispute contractId =>
    obtain rfl : contractId = id := settles
    exact resolveDispute_settling.map _
  | cancel contractId =>
    obtain rfl : contractId = id := settles
    exact cancel_settling.map _
  | _ => exact settles.elim

end Settling

/-! ### Retries -/

section Retries
variable {id : Uuid} {α : Type} {p : Request α} {n : Nat} {e : Failure} {view : ContractView}

theorem smooth_chain {op : Op} {answer : Except Failure op.Answer} (smooth : Smooth host w op answer w')
    (silent : ¬ Submits op) : w'.chain = w.chain :=
  serves_chain smooth.serves fun _ _ same => silent (same ▸ trivial)

theorem Db.Funded.seen {db : Db} (funded : db.Funded id) (found : db.contractView id = some view) :
    ∃ hash, view.escrowTxHash = some hash := by
  obtain ⟨row, hash, stored, carries⟩ := funded
  obtain rfl := Option.some.inj (stored.symm.trans (Db.contractView_some found).1)
  exact ⟨hash, carries⟩

/-- The answer to a submission, without failures. -/
theorem smooth_submit {signer : Address} {call : ChainCall}
    {answer : Except Failure (Op.submit signer call).Answer}
    (smooth : Smooth host w (.submit signer call) answer w') :
    w.chain.Succeeds host {signer} call ∧
      w'.chain.ledger = w.chain.ledger.act host (.call {signer} call) := by
  cases smooth with
  | intro served =>
    cases served with
    | applied fresh succeeds => exact ⟨succeeds, rfl⟩

/-- The one call a settling request submits in a world, if it gets that far. -/
inductive CallOf (id : Uuid) (w : World τ) (p : Request α) : Address → ChainCall → Prop where
  | intro {view : ContractView} {next : Except Failure (Option ContractView) → Request α}
      {signer : Address} {call : ChainCall} {later : Except Failure TxHash → Request α}
      (found : w.db.contractView id = some view) (starts : p = .await (.query (.contract id)) next)
      (goes : next (.ok (some view)) = .await (.submit signer call) later)
      (own : call.contractId = id.symbol) (known : call.isFund = false) : CallOf id w p signer call

theorem CallOf.unique {signer signer' : Address} {call call' : ChainCall}
    (first : CallOf id w p signer call) (second : CallOf id w p signer' call') :
    signer = signer' ∧ call = call' := by
  obtain ⟨found, starts, goes, _, _⟩ := first
  obtain ⟨found', starts', goes', _, _⟩ := second
  obtain rfl := Option.some.inj (found.symm.trans found')
  cases starts.symm.trans starts'
  cases goes.symm.trans goes'
  exact ⟨rfl, rfl⟩

/-- A success has submitted the call of the request, and nothing else. -/
theorem success_call {a : α} (settling : Settling id p) (funded : w.db.Funded id)
    (ran : Process.Completes (Smooth host) w p (.ok a) last) :
    ∃ signer call, CallOf id w p signer call ∧ w.chain.Succeeds host {signer} call ∧
      last.chain.ledger = w.chain.ledger.act host (.call {signer} call) := by
  cases settling with
  | refused e => exact absurd (completes_fail.mp ran).1 (by simp)
  | @reads next absent sends =>
    obtain ⟨answer, between, read, ran⟩ := completes_await.mp ran
    obtain ⟨rfl, rfl⟩ := smooth_read read
    change Process.Completes (Smooth host) between (next (.ok (between.db.contractView id))) _ last at ran
    cases found : between.db.contractView id with
    | none =>
      obtain ⟨e, fails⟩ := absent
      rw [found, fails] at ran
      exact absurd (completes_fail.mp ran).1 (by simp)
    | some view =>
      rw [found] at ran
      obtain ⟨hash, carries⟩ := Db.Funded.seen funded found
      have sends := sends view (by rw [carries]; rfl)
      generalize goes : next (.ok (some view)) = rest at sends ran
      cases sends with
      | refused e => exact absurd (completes_fail.mp ran).1 (by simp)
      | @sends signer call later own known after =>
        obtain ⟨answer, next', submitted, ran⟩ := completes_await.mp ran
        obtain ⟨succeeds, moved⟩ := smooth_submit submitted
        have silent : last.chain = next'.chain :=
          ran.unchanged (B := Submits) (f := World.chain) smooth_chain (after answer)
        exact ⟨signer, call, ⟨found, rfl, goes, own, known⟩, succeeds, by rw [silent, moved]⟩

/-- A request that broke off at its read or at its call has changed nothing. -/
theorem early_unchanged (settling : Settling id p) (early : n ≤ 1)
    (broke : Interrupted (Smooth host) n w p e w') : w' = w := by
  cases settling with
  | refused => exact absurd broke not_interrupted_fail
  | reads =>
    rcases interrupted_await broke with ⟨_, same⟩ | ⟨m, answer, between, rfl, served, rest⟩
    · exact same
    · obtain rfl : m = 0 := by omega
      obtain ⟨_, rfl⟩ := smooth_read served
      exact interrupted_zero rest

/-- A request that broke off later has submitted its call, and nothing else. -/
theorem late_call (settling : Settling id p) (funded : w.db.Funded id) (late : 1 < n)
    (broke : Interrupted (Smooth host) n w p e w') :
    ∃ signer call, CallOf id w p signer call ∧ w.chain.Succeeds host {signer} call ∧
      w'.chain.ledger = w.chain.ledger.act host (.call {signer} call) := by
  cases settling with
  | refused => exact absurd broke not_interrupted_fail
  | @reads next absent sends =>
    rcases interrupted_await broke with ⟨_, _⟩ | ⟨m, answer, between, rfl, read, rest⟩
    · omega
    · obtain ⟨rfl, rfl⟩ := smooth_read read
      change Interrupted (Smooth host) m between (next (.ok (between.db.contractView id))) e w' at rest
      cases found : between.db.contractView id with
      | none =>
        obtain ⟨e, fails⟩ := absent
        rw [found, fails] at rest
        exact absurd rest not_interrupted_fail
      | some view =>
        rw [found] at rest
        obtain ⟨hash, carries⟩ := Db.Funded.seen funded found
        have sends := sends view (by rw [carries]; rfl)
        generalize goes : next (.ok (some view)) = after' at sends rest
        cases sends with
        | refused => exact absurd rest not_interrupted_fail
        | @sends signer call later own known after =>
          rcases interrupted_await rest with ⟨_, _⟩ | ⟨m, answer, next', rfl, submitted, rest⟩
          · omega
          · obtain ⟨succeeds, moved⟩ := smooth_submit submitted
            have silent : w'.chain = next'.chain :=
              rest.unchanged (B := Submits) (f := World.chain) smooth_chain (after answer)
            exact ⟨signer, call, ⟨found, rfl, goes, own, known⟩, succeeds, by rw [silent, moved]⟩

/-- The database and the contract and tokens on chain are the same. -/
structure SameState (first second : World τ) : Prop where
  db : second.db = first.db
  chain : second.chain.ledger.state = first.chain.ledger.state

/-- Issued in the second world the request succeeds, and ends where it would have ended
from the first. -/
def Recovers (host : Escrow.Host Address τ) (w w' : World τ) (p : Request α) : Prop :=
  ∀ a last, Process.Completes (Smooth host) w p (.ok a) last →
    ∃ a' last', Process.Completes (Smooth host) w' p (.ok a') last' ∧ SameState last last'

/-- After its call went through, a retry cannot end where one request would have: it
would move the entry once more. -/
theorem late_not_recovers {a : α} (settling : Settling id p) (funded : w.db.Funded id)
    (late : 1 < n) (broke : Interrupted (Smooth host) n w p e w')
    (undisturbed : Process.Completes (Smooth host) w p (.ok a) last) : ¬ Recovers host w w' p := by
  intro recovers
  obtain ⟨_, last', again, same⟩ := recovers a last undisturbed
  obtain ⟨signer, call, first, _, once⟩ := success_call settling funded undisturbed
  obtain ⟨_, _, second, _, moved⟩ := late_call settling funded late broke
  obtain ⟨rfl, rfl⟩ := first.unique second
  have funded' : w'.db.Funded id :=
    broke.invariant (I := fun w => w.db.Funded id) (fun smooth => serves_funded smooth.serves) funded
  obtain ⟨signer', call', ⟨_, _, _, own, known⟩, succeeds, twice⟩ := success_call settling funded' again
  obtain ⟨entry, payouts, next, event, found, moves, stored, _⟩ := Escrow.call_moved succeeds known
  have unmoved : last'.chain.ledger.entry call'.contractId = w'.chain.ledger.entry call'.contractId := by
    unfold Escrow.Ledger.entry
    rw [same.chain, once, moved]
  rw [twice, stored, found] at unmoved
  exact moves.changes (Option.some.inj unmoved)

/-- A request that settles escrow and broke off can be completed by issuing it again
exactly when it had not got past its call to the chain. -/
theorem retry_recovers_iff {endpoint : Endpoint} {response : Response} (settles : endpoint.Settles id)
    (funded : w.db.Funded id)
    (undisturbed : Process.Completes (Smooth host) w (handle config endpoint) (.ok response) last)
    (broke : Interrupted (Smooth host) n w (handle config endpoint) e w') :
    Recovers host w w' (handle config endpoint) ↔ n ≤ 1 := by
  constructor
  · intro recovers
    by_contra late
    exact late_not_recovers (handle_settling settles) funded (by omega) broke undisturbed recovers
  · intro early
    obtain rfl := early_unchanged (handle_settling settles) early broke
    exact fun a last ran => ⟨a, last, ran, rfl, rfl⟩

end Retries

/-! ### An approval whose commit is refused -/

/-- The answers of the world, as long as nothing fails. -/
def World.smoothAnswer (host : Escrow.Host Address τ) (supply : Supply) (w : World τ) (op : Op) :
    Option (Except Failure op.Answer × World τ) :=
  match w.answer host supply 0 op with
  | some (.ok value, after) => some (.ok value, after)
  | _ => none

theorem smoothAnswer_smooth {supply : Supply} {op : Op} {given : Except Failure op.Answer}
    (answered : w.smoothAnswer host supply op = some (given, w')) : Smooth host w op given w' := by
  unfold World.smoothAnswer at answered
  split at answered
  · rename_i value after found
    cases answered
    exact .intro (answer_serves found)
  · contradiction

end Requests

namespace Sample

def succeeded : Except Failure Response × World (Escrow.Bank Address) → Bool
  | (.ok _, _) => true
  | _ => false

/-- The approval of the reviewed milestone, undisturbed, and broken off at an await. -/
theorem approval_breaks (n : Nat) (inside : n = 1 ∨ n = 2) :
    ∃ (w w' last : World (Escrow.Bank Address)) (e : Failure) (response : Response),
      w.db.Funded contractId ∧ approval.Settles contractId ∧
      Process.Completes (Smooth host) w (handle config approval) (.ok response) last ∧
      Interrupted (Smooth host) n w (handle config approval) e w' := by
  have happens : ∃ joint, reviewed = some joint ∧
      (∃ row, joint.world.db.contracts.find contractId = some row ∧ row.escrowTxHash.isSome = true) ∧
      (∃ ran, exec (World.smoothAnswer host supply) joint.world (handle config approval) = some ran ∧
        succeeded ran = true) ∧
      ∀ n ∈ [1, 2], ∃ broken, breakAt (World.smoothAnswer host supply) (.internal "down") n joint.world
        (handle config approval) = some broken ∧ broken.1 = broken.1 := by
    decide
  obtain ⟨joint, _, ⟨row, found, carries⟩, ⟨⟨result, last⟩, ran, succeeds⟩, breaks⟩ := happens
  obtain ⟨hash, carries⟩ := Option.isSome_iff_exists.mp carries
  obtain ⟨⟨e, w'⟩, broke, _⟩ := breaks n (by simpa using inside)
  cases result with
  | error => contradiction
  | ok response =>
    exact ⟨joint.world, w', last, e, response, ⟨row, hash, found, carries⟩, rfl,
      exec_completes (Smooth host) smoothAnswer_smooth ran, breakAt_interrupted smoothAnswer_smooth broke⟩

end Sample

/-- Not every request that broke off can be completed by issuing it again. -/
theorem retry_fails : ¬ ∀ (w w' last : World (Escrow.Bank Address)) (id : Uuid) (endpoint : Endpoint)
    (n : Nat) (e : Failure) (response : Response), endpoint.Settles id → w.db.Funded id →
    Process.Completes (Smooth Sample.host) w (handle Sample.config endpoint) (.ok response) last →
    Interrupted (Smooth Sample.host) n w (handle Sample.config endpoint) e w' →
    Recovers Sample.host w w' (handle Sample.config endpoint) := by
  intro always
  obtain ⟨w, w', last, e, response, funded, settles, undisturbed, broke⟩ :=
    Sample.approval_breaks 2 (.inr rfl)
  exact late_not_recovers (handle_settling settles) funded (by decide) broke undisturbed
    (always w w' last _ _ 2 e response settles funded undisturbed broke)

theorem retry_recovers_iff_sample : ∃ w w' : World (Escrow.Bank Address),
    Recovers Sample.host w w' (handle Sample.config Sample.approval) := by
  obtain ⟨w, w', last, e, response, funded, settles, undisturbed, broke⟩ :=
    Sample.approval_breaks 1 (.inl rfl)
  exact ⟨w, w', (retry_recovers_iff settles funded undisturbed broke).mpr (by decide)⟩

end Stellance.Backend
