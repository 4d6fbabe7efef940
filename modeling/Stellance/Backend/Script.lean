import Stellance.Library.Transcript
import Stellance.Backend.Effects

/-! What the endpoints do, await by await. A request first reads its contract and checks
what it has read; every call it submits and every row it writes after that rests on this
one reading, however long ago it was. -/
namespace Stellance.Backend
open ContractsService Process

abbrev Exchange := Process.Exchange Failure Op Op.Answer

/-- The contract as a request has read it. -/
def seen (id : Uuid) (view : ContractView) : Exchange := ⟨.query (.contract id), .ok (some view)⟩

/-- Operations that change no contract and submit nothing. -/
def Op.Idle : Op → Prop
  | .query _ | .notify _ | .horizon _ | .simulate _ => True
  | _ => False

namespace ContractsService.Endpoint

/-- The contract an endpoint acts on, where it is there already. -/
def contractId : Endpoint → Option Uuid
  | .create .. => none
  | .confirmFund id _ _ | .submitMilestone id _ _ | .approveMilestone id _ _ | .dispute id _
  | .resolveDispute id _ _ | .cancel id _ _ => some id

/-- The checks of an endpoint on the contract it reads. -/
def Admits (view : ContractView) : Endpoint → Prop
  | .create .. => False
  | .confirmFund _ callerId _ => view.clientId = callerId ∧ view.escrowTxHash = none ∧
      (view.status = .pending ∨ view.status = .active)
  | .submitMilestone _ milestoneId callerId => view.freelancerId = callerId ∧ view.status = .active ∧
      ∃ milestone, view.milestones.find? (·.id = milestoneId) = some milestone ∧
        milestone.status = .pending
  | .approveMilestone _ milestoneId callerId => view.clientId = callerId ∧ view.status = .active ∧
      ∃ milestone, view.milestones.find? (·.id = milestoneId) = some milestone ∧
        milestone.status = .inReview
  | .dispute _ callerId => (view.clientId = callerId ∨ view.freelancerId = callerId) ∧
      view.status = .active
  | .resolveDispute _ role dto => role = .admin ∧ view.status = .disputed ∧
      (decisionMap dto.decision).isSome = true
  | .cancel _ callerId role => (view.clientId = callerId ∨ role = .admin) ∧
      (view.status ≠ .completed ∧ view.status ≠ .cancelled) ∧
      (view.escrowTxHash = none ∨ view.status = .pending ∨ role = .admin)

end ContractsService.Endpoint

/-- The calls of the endpoints, signed with the admin key and in its name. -/
inductive Submission (numbers : Numbers) (admin : Address) (view : ContractView) :
    Endpoint → ChainCall → Prop where
  | release {contractId milestoneId callerId : Uuid} {milestone : Milestone} {stroops : Nat}
      {amount : Escrow.I128} (listed : view.milestones.find? (·.id = milestoneId) = some milestone)
      (converted : numbers.release milestone.amount = some stroops) (same : amount.val = stroops) :
      Submission numbers admin view (.approveMilestone contractId milestoneId callerId)
        (.releaseMilestone contractId.symbol admin amount)
  | dispute {contractId callerId : Uuid} (confirmed : view.escrowTxHash.isSome = true) :
      Submission numbers admin view (.dispute contractId callerId) (.dispute contractId.symbol admin)
  | resolve {contractId : Uuid} {role : UserRole} {dto : ResolveDisputeDto}
      {decision : Escrow.DisputeDecision} (decided : decisionMap dto.decision = some (some decision)) :
      Submission numbers admin view (.resolveDispute contractId role dto)
        (.resolveDispute contractId.symbol admin decision (UInt32.ofNat (dto.freelancerBps.getD 0)))
  | refund {contractId callerId : Uuid} {role : UserRole}
      (confirmed : view.escrowTxHash.isSome = true) :
      Submission numbers admin view (.cancel contractId callerId role) (.refund contractId.symbol admin)

/-- The writes of the endpoints, after the contract was read as `view` and what is
listed was told since. -/
inductive Writes (view : ContractView) : Endpoint → List Exchange → Op → Prop where
  | confirm {id callerId : Uuid} {txHash : TxHash} :
      Writes view (.confirmFund id callerId txHash) [⟨.horizon txHash, .ok ()⟩]
        (.contractUpdate id .active (some txHash))
  | submit {contractId milestoneId callerId : Uuid} :
      Writes view (.submitMilestone contractId milestoneId callerId) []
        (.milestoneUpdate milestoneId .inReview)
  | pay {contractId milestoneId callerId : Uuid} {milestone : Milestone} {signer : Address}
      {call : ChainCall} {hash : TxHash}
      (listed : view.milestones.find? (·.id = milestoneId) = some milestone) :
      Writes view (.approveMilestone contractId milestoneId callerId) [⟨.submit signer call, .ok hash⟩]
        (.transaction (payMilestone contractId milestone hash))
  | complete {contractId milestoneId callerId : Uuid} {later : List Exchange} {after : ContractView}
      (read : seen contractId after ∈ later) (allPaid : ∀ m ∈ after.milestones, m.status = .paid) :
      Writes view (.approveMilestone contractId milestoneId callerId) later
        (.contractUpdate contractId .completed none)
  | dispute {contractId callerId : Uuid} {later : List Exchange} :
      Writes view (.dispute contractId callerId) later (.contractUpdate contractId .disputed none)
  | resolve {contractId : Uuid} {role : UserRole} {dto : ResolveDisputeDto} {later : List Exchange}
      {remaining : Nat} {hash : TxHash} :
      Writes view (.resolveDispute contractId role dto) later
        (.transaction [.paymentCreate ⟨contractId, none, remaining, hash⟩,
          .contractUpdate contractId (finalStatus dto.decision) none])
  | cancel {contractId callerId : Uuid} {role : UserRole} {later : List Exchange} {remaining : Nat}
      {hash : Option TxHash} (refunded : hash.isSome = true → view.escrowTxHash.isSome = true) :
      Writes view (.cancel contractId callerId role) later
        (.transaction (cancelStatements contractId view.job.id remaining hash))

inductive Script (config : Config) (endpoint : Endpoint) : List Exchange → Op → Prop where
  | idle {told : List Exchange} {op : Op} (idle : op.Idle) : Script config endpoint told op
  | create {clientId : Uuid} {dto : CreateContractDto} {told : List Exchange}
      (creates : endpoint = .create clientId dto) :
      Script config endpoint told (.create (dto.newContract clientId))
  | submit {id : Uuid} {view : ContractView} {admin : Address} {call : ChainCall}
      (contract : endpoint.contractId = some id) (admits : endpoint.Admits view)
      (key : config.adminPublicKey = some admin) (submission : Submission config.numbers admin view endpoint call) :
      Script config endpoint [seen id view] (.submit admin call)
  | write {id : Uuid} {view : ContractView} {later : List Exchange} {op : Op}
      (contract : endpoint.contractId = some id) (admits : endpoint.Admits view)
      (writes : Writes view endpoint later op) : Script config endpoint (seen id view :: later) op

/-! ### The endpoints -/

section Endpoints
variable {config : Config} {endpoint : Endpoint} {told : List Exchange} {α β : Type} {id : Uuid}

/-- The process keeps to the script, and how it ends does not matter. -/
abbrev Scripted (config : Config) (endpoint : Endpoint) (told : List Exchange) (p : Request α) : Prop :=
  p.Follows (Script config endpoint) (fun _ _ => True) told

theorem scripted_idle {op : Op} {rest : op.Answer → Request α} (idle : op.Idle)
    (goes : ∀ value, Scripted config endpoint (told ++ [⟨op, .ok value⟩]) (rest value)) :
    Scripted config endpoint told (await op >>= rest) :=
  follows_perform (.idle idle) (fun _ => trivial) goes

theorem scripted_query {asked : Query} {rest : asked.Answer → Request α}
    (goes : ∀ value, Scripted config endpoint (told ++ [⟨.query asked, .ok value⟩]) (rest value)) :
    Scripted config endpoint told (await (.query asked) >>= rest) :=
  scripted_idle trivial goes

theorem scripted_notify {notification : Notification} {rest : Unit → Request α}
    (goes : ∀ told, Scripted config endpoint told (rest ())) :
    Scripted config endpoint told (await (.notify notification) >>= rest) :=
  scripted_idle trivial fun _ => goes _

theorem scripted_last {op : Op} (idle : op.Idle) : Scripted config endpoint told (await op) := by
  refine ⟨.idle idle, fun answer => ?_⟩
  cases answer <;> trivial

theorem scripted_throwIf {condition : Prop} [Decidable condition] {e : Failure}
    {rest : Unit → Request α} (passed : ¬ condition → Scripted config endpoint told (rest ())) :
    Scripted config endpoint told (throwIf condition e >>= rest) :=
  follows_throwIf (fun _ => trivial) passed

theorem scripted_orThrow {value : Option β} {e : Failure} {rest : β → Request α}
    (passed : ∀ b, value = some b → Scripted config endpoint told (rest b)) :
    Scripted config endpoint told (orThrow value e >>= rest) :=
  follows_orThrow (fun _ => trivial) passed

/-- A part whose operations are idle wherever it stands. -/
theorem scripted_bind {x : Request β} {f : β → Request α}
    (first : ∀ told, Scripted config endpoint told x)
    (rest : ∀ told b, Scripted config endpoint told (f b)) :
    Scripted config endpoint told (x >>= f) :=
  follows_bind (first told) (fun _ _ _ => trivial) fun told b _ => rest told b

theorem scripted_map {x : Request β} {f : β → α} (first : Scripted config endpoint told x) :
    Scripted config endpoint told (f <$> x) :=
  follows_map first

theorem scripted_getContract {rest : ContractView → Request α}
    (goes : ∀ view, Scripted config endpoint (told ++ [seen id view]) (rest view)) :
    Scripted config endpoint told (getContractOrThrow id >>= rest) := by
  rw [getContractOrThrow, Process.bind_assoc]
  apply scripted_query
  intro found
  apply scripted_orThrow
  rintro view rfl
  exact goes view

theorem scripted_remaining {rest : config.numbers.Num → Request α}
    (goes : ∀ more remaining, Scripted config endpoint (told ++ more) (rest remaining)) :
    Scripted config endpoint told (remainingAmount config id >>= rest) := by
  unfold remainingAmount
  rw [Process.bind_assoc]
  apply scripted_query
  intro milestones
  rw [Process.bind_assoc]
  apply scripted_query
  intro payments
  rw [List.append_assoc]
  exact goes _ _

theorem scripted_refundedAmount {hash : Option TxHash} {remaining : config.numbers.Num} {rest : Nat → Request α}
    (goes : ∀ amount, Scripted config endpoint told (rest amount)) :
    Scripted config endpoint told (refundedAmount config hash remaining >>= rest) := by
  cases hash with
  | none => exact goes 0
  | some _ => exact scripted_orThrow fun amount _ => goes amount

/-- The admin key is asked for twice, as caller and as signer. -/
theorem scripted_submitAdmin {call : Address → ChainCall} {rest : TxHash → Request α}
    (goes : ∀ admin, config.adminPublicKey = some admin →
      Scripted config endpoint told (await (.submit admin (call admin)) >>= rest)) :
    Scripted config endpoint told ((do
      let admin ← EscrowService.getAdminPublicKey config
      EscrowService.submitAdminInvocation config (call admin)) >>= rest) := by
  unfold EscrowService.submitAdminInvocation
  simp only [Process.bind_assoc]
  apply scripted_orThrow
  intro admin caller
  apply scripted_orThrow
  intro signer key
  obtain rfl := Option.some.inj (caller.symm.trans key)
  exact goes admin key

theorem create_scripted {clientId : Uuid} {dto : CreateContractDto} :
    Scripted config (.create clientId dto) [] (handle config (.create clientId dto)) := by
  have xdr : ∀ (contract : Contract) (client freelancer : User) (total : config.numbers.Num)
      (told : List Exchange),
      Scripted config (.create clientId dto) told
        (fundXdr config contract client freelancer total) := by
    intro contract client freelancer total told
    unfold fundXdr
    split
    · refine follows_tryCatch (B := fun _ _ => True) ?_ (fun _ _ _ => trivial)
        fun _ _ _ => trivial
      apply scripted_orThrow
      intro admin _
      apply scripted_orThrow
      intro stroops _
      unfold EscrowService.buildFundXdr
      refine scripted_bind (fun told => ?_) fun _ _ => trivial
      apply scripted_orThrow
      intro amount _
      exact scripted_idle trivial fun _ => trivial
    · trivial
  apply scripted_map
  unfold create
  apply scripted_query
  intro found
  apply scripted_orThrow
  rintro ⟨job, existing⟩ _
  apply scripted_throwIf
  intro _
  apply scripted_throwIf
  intro _
  apply scripted_throwIf
  intro _
  apply scripted_query
  intro freelancer
  apply scripted_orThrow
  intro freelancer _
  apply scripted_query
  intro client
  apply scripted_orThrow
  intro client _
  apply scripted_throwIf
  intro _
  refine follows_perform (.create rfl) (fun _ => trivial) fun contract => ?_
  apply scripted_notify
  intro told
  refine scripted_bind (xdr _ _ _ _) fun told fundXdr => ?_
  refine scripted_bind (fun told => ?_) fun _ _ => trivial
  unfold findOne
  apply scripted_getContract
  intro view
  exact scripted_throwIf fun _ => trivial

theorem confirmFund_scripted {callerId : Uuid} {txHash : TxHash} :
    Scripted config (.confirmFund id callerId txHash) []
      (handle config (.confirmFund id callerId txHash)) := by
  apply scripted_map
  apply scripted_getContract
  intro view
  apply scripted_throwIf
  intro caller
  apply scripted_throwIf
  intro unconfirmed
  apply scripted_throwIf
  intro status
  have admits : (Endpoint.confirmFund id callerId txHash).Admits view :=
    ⟨not_not.mp caller, by simpa using unconfirmed, (not_and_or.mp status).imp not_not.mp not_not.mp⟩
  have verified : (EscrowService.verifyTransaction txHash).Follows
      (Script config (.confirmFund id callerId txHash))
      (fun told result => result = .ok () → told = [seen id view, ⟨.horizon txHash, .ok ()⟩])
      [seen id view] := by
    refine ⟨.idle trivial, fun answer => ?_⟩
    cases answer with
    | ok => exact fun _ => rfl
    | error e => exact nofun
  refine follows_bind verified (fun _ _ _ => trivial) fun told _ accepted => ?_
  obtain rfl := accepted rfl
  refine follows_perform (.write rfl admits .confirm) (fun _ => trivial) fun row => ?_
  apply scripted_notify
  intro told
  apply scripted_notify
  intro told
  trivial

theorem submitMilestone_scripted {milestoneId callerId : Uuid} :
    Scripted config (.submitMilestone id milestoneId callerId) []
      (handle config (.submitMilestone id milestoneId callerId)) := by
  apply scripted_map
  apply scripted_getContract
  intro view
  apply scripted_throwIf
  intro caller
  apply scripted_throwIf
  intro active
  apply scripted_orThrow
  intro milestone listed
  apply scripted_throwIf
  intro pending
  have admits : (Endpoint.submitMilestone id milestoneId callerId).Admits view :=
    ⟨not_not.mp caller, not_not.mp active, milestone, listed, not_not.mp pending⟩
  refine follows_perform (.write rfl admits .submit) (fun _ => trivial) fun row => ?_
  apply scripted_notify
  intro told
  trivial

theorem approveMilestone_scripted {milestoneId callerId : Uuid} :
    Scripted config (.approveMilestone id milestoneId callerId) []
      (handle config (.approveMilestone id milestoneId callerId)) := by
  apply scripted_map
  apply scripted_getContract
  intro view
  apply scripted_throwIf
  intro caller
  apply scripted_throwIf
  intro active
  apply scripted_orThrow
  intro milestone listed
  apply scripted_throwIf
  intro inReview
  have admits : (Endpoint.approveMilestone id milestoneId callerId).Admits view :=
    ⟨not_not.mp caller, not_not.mp active, milestone, listed, not_not.mp inReview⟩
  apply scripted_orThrow
  intro stroops converted
  unfold EscrowService.submitReleaseMilestone EscrowService.submitAdminInvocation
  simp only [Process.bind_assoc]
  apply scripted_orThrow
  intro admin caller
  apply scripted_orThrow
  intro amount fits
  apply scripted_orThrow
  intro signer key
  obtain rfl := Option.some.inj (caller.symm.trans key)
  have submission : Submission config.numbers admin view (.approveMilestone id milestoneId callerId)
      (.releaseMilestone id.symbol admin amount) :=
    .release listed converted (CheckedInt.ofInt?_eq_some.mp fits)
  refine follows_perform (.submit rfl admits key submission) (fun _ => trivial) fun hash => ?_
  unfold recordApproval
  refine follows_perform (.write rfl admits (.pay listed)) (fun _ => trivial) fun _ => ?_
  unfold maybeCompleteContract
  rw [Process.bind_assoc]
  apply scripted_getContract
  intro after
  have finish : ∀ (told : List Exchange) (title message title' message' : String),
      Scripted config (.approveMilestone id milestoneId callerId) told
        (notify view.freelancerId .milestonePaid title message id (some milestoneId) >>= fun _ =>
          notify view.clientId .milestoneApproved title' message' id (some milestoneId) >>= fun _ =>
          await (.query (.milestone milestoneId))) := by
    intro told title message title' message'
    apply scripted_notify
    intro told
    apply scripted_notify
    intro told
    exact scripted_last trivial
  split
  · rename_i allPaid
    rw [Process.bind_assoc]
    refine follows_perform (.write rfl admits (.complete (by simp) allPaid)) (fun _ => trivial)
      fun row => ?_
    rw [Process.bind_assoc]
    apply scripted_notify
    intro told
    apply scripted_notify
    exact fun told => finish told _ _ _ _
  · exact finish _ _ _ _ _

theorem dispute_scripted {callerId : Uuid} :
    Scripted config (.dispute id callerId) [] (handle config (.dispute id callerId)) := by
  apply scripted_map
  apply scripted_getContract
  intro view
  apply scripted_throwIf
  intro party
  apply scripted_throwIf
  intro active
  have admits : (Endpoint.dispute id callerId).Admits view :=
    ⟨(not_and_or.mp party).imp not_not.mp not_not.mp, not_not.mp active⟩
  have record : ∀ (first second : Notification) (later : List Exchange),
      Scripted config (.dispute id callerId) (seen id view :: later)
        (await (.contractUpdate id .disputed none) >>= fun row =>
          await (.notify first) >>= fun _ => await (.notify second) >>= fun _ => pure row) := by
    intro first second later
    refine follows_perform (.write rfl admits .dispute) (fun _ => trivial) fun row => ?_
    apply scripted_notify
    intro told
    apply scripted_notify
    intro told
    trivial
  by_cases confirmed : view.escrowTxHash.isSome = true
  · rw [if_pos confirmed]
    unfold EscrowService.submitDispute
    apply scripted_submitAdmin
    intro admin key
    have submission : Submission config.numbers admin view (.dispute id callerId) (.dispute id.symbol admin) :=
      .dispute confirmed
    refine follows_perform (.submit rfl admits key submission) (fun _ => trivial) fun hash => ?_
    exact record _ _ _
  · rw [if_neg confirmed]
    exact record _ _ _

theorem resolveDispute_scripted {role : UserRole} {dto : ResolveDisputeDto} :
    Scripted config (.resolveDispute id role dto) [] (handle config (.resolveDispute id role dto)) := by
  apply scripted_map
  apply scripted_throwIf
  intro admin'
  apply scripted_getContract
  intro view
  apply scripted_throwIf
  intro disputed
  apply scripted_orThrow
  intro decision decided
  have admits : (Endpoint.resolveDispute id role dto).Admits view :=
    ⟨not_not.mp admin', not_not.mp disputed, by rw [decided]; rfl⟩
  unfold EscrowService.submitResolveDispute EscrowService.submitAdminInvocation
  simp only [Process.bind_assoc]
  apply scripted_orThrow
  intro admin caller
  apply scripted_orThrow
  rintro variant rfl
  apply scripted_orThrow
  intro signer key
  obtain rfl := Option.some.inj (caller.symm.trans key)
  have submission : Submission config.numbers admin view (.resolveDispute id role dto) _ := .resolve decided
  refine follows_perform (.submit rfl admits key submission) (fun _ => trivial) fun hash => ?_
  apply scripted_remaining
  intro more remaining
  apply scripted_orThrow
  intro amount _
  refine follows_perform (.write rfl admits .resolve) (fun _ => trivial) fun _ => ?_
  apply scripted_notify
  intro told
  apply scripted_notify
  intro told
  trivial

theorem cancel_scripted {callerId : Uuid} {role : UserRole} :
    Scripted config (.cancel id callerId role) [] (handle config (.cancel id callerId role)) := by
  apply scripted_map
  apply scripted_getContract
  intro view
  apply scripted_throwIf
  intro allowed
  apply scripted_throwIf
  intro live
  apply scripted_throwIf
  intro unfunded
  have admits : (Endpoint.cancel id callerId role).Admits view := by
    refine ⟨(not_and_or.mp allowed).imp not_not.mp not_not.mp, not_or.mp live, ?_⟩
    simpa only [not_and_or, not_not, Option.not_isSome_iff_eq_none] using unfunded
  have record : ∀ (txHash : Option TxHash) (remaining : Nat) (first second : Notification)
      (later : List Exchange), (txHash.isSome = true → view.escrowTxHash.isSome = true) →
      Scripted config (.cancel id callerId role) (seen id view :: later)
        (await (.transaction (cancelStatements id view.job.id remaining txHash)) >>= fun _ =>
          await (.notify first) >>= fun _ => await (.notify second) >>= fun _ => pure txHash) := by
    intro txHash remaining first second later refunded
    refine follows_perform (.write rfl admits (.cancel refunded)) (fun _ => trivial) fun _ => ?_
    apply scripted_notify
    intro told
    apply scripted_notify
    intro told
    trivial
  by_cases confirmed : view.escrowTxHash.isSome = true
  · rw [if_pos confirmed, show some <$> EscrowService.submitRefund config id =
      EscrowService.submitRefund config id >>= fun hash => pure (some hash) from rfl]
    unfold EscrowService.submitRefund
    rw [Process.bind_assoc]
    apply scripted_submitAdmin
    intro admin key
    have submission : Submission config.numbers admin view (.cancel id callerId role) (.refund id.symbol admin) :=
      .refund confirmed
    refine follows_perform (.submit rfl admits key submission) (fun _ => trivial) fun hash => ?_
    apply scripted_remaining
    intro more remaining
    apply scripted_refundedAmount
    intro amount
    exact record _ _ _ _ _ fun _ => confirmed
  · rw [if_neg confirmed]
    apply scripted_remaining
    intro more remaining
    apply scripted_refundedAmount
    intro amount
    exact record _ _ _ _ _ nofun

/-- Every request keeps to the script. -/
theorem handle_scripted (config : Config) (endpoint : Endpoint) :
    Scripted config endpoint [] (handle config endpoint) := by
  cases endpoint with
  | create => exact create_scripted
  | confirmFund => exact confirmFund_scripted
  | submitMilestone => exact submitMilestone_scripted
  | approveMilestone => exact approveMilestone_scripted
  | dispute => exact dispute_scripted
  | resolveDispute => exact resolveDispute_scripted
  | cancel => exact cancel_scripted

end Endpoints

/-! ### Reading the script -/

section Inversion
variable {config : Config} {endpoint : Endpoint} {told : List Exchange} {id key : Uuid}
  {view : ContractView}

theorem seen_eq {found : Option ContractView} :
    (⟨.query (.contract key), .ok found⟩ : Exchange) = seen id view ↔ key = id ∧ found = some view := by
  constructor
  · intro same
    cases same
    exact ⟨rfl, rfl⟩
  · rintro ⟨rfl, rfl⟩
    rfl

theorem Script.submitted {signer : Address} {call : ChainCall}
    (script : Script config endpoint told (.submit signer call)) :
    ∃ id view, told = [seen id view] ∧ endpoint.contractId = some id ∧ endpoint.Admits view ∧
      config.adminPublicKey = some signer ∧ Submission config.numbers signer view endpoint call := by
  cases script with
  | idle idle => exact idle.elim
  | submit contract admits key submission => exact ⟨_, _, rfl, contract, admits, key, submission⟩
  | write contract admits writes => cases writes

/-- A write rests on the reading of the contract that the request began with. -/
theorem Script.wrote {op : Op} (script : Script config endpoint told op) (busy : ¬ op.Idle)
    (known : ∀ data, op ≠ .create data) (own : ∀ signer call, op ≠ .submit signer call) :
    ∃ id view later, told = seen id view :: later ∧ endpoint.contractId = some id ∧
      endpoint.Admits view ∧ Writes view endpoint later op := by
  cases script with
  | idle idle => exact absurd idle busy
  | create => exact absurd rfl (known _)
  | submit => exact absurd rfl (own _ _)
  | write contract admits writes => exact ⟨_, _, _, rfl, contract, admits, writes⟩

end Inversion

end Stellance.Backend
