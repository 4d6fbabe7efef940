import Stellance.Backend.Finality
import Stellance.Backend.Vouched

/-! What each write rests on. A request writes a status or a payment once the network has
accepted the call that the write records, or where its reading of the contract told it
that no call was needed. -/
namespace Stellance.Backend
open ContractsService Process

/-- The request was told that the network took its call. -/
def Took (told : List Exchange) (call : ChainCall) (hash : TxHash) : Prop :=
  ∃ signer, (⟨.submit signer call, .ok hash⟩ : Exchange) ∈ told

theorem took_last {told : List Exchange} {signer : Address} {call : ChainCall} {hash : TxHash} :
    Took (told ++ [⟨.submit signer call, .ok hash⟩]) call hash :=
  ⟨signer, List.mem_append_right _ List.mem_cons_self⟩

theorem Took.more {told : List Exchange} {call : ChainCall} {hash : TxHash} (answered : Took told call hash)
    (more : List Exchange) : Took (told ++ more) call hash := by
  obtain ⟨signer, member⟩ := answered
  exact ⟨signer, List.mem_append_left _ member⟩

/-- What the writes of the endpoints rest on. -/
inductive Grounds (numbers : Numbers) (told : List Exchange) : Op → Prop where
  | confirmed {id : Uuid} {txHash : TxHash} : Grounds numbers told (.contractUpdate id .active (some txHash))
  | submitted {milestoneId : Uuid} : Grounds numbers told (.milestoneUpdate milestoneId .inReview)
  | paid {id : Uuid} {view : ContractView} {milestone : Milestone} {admin : Address} {stroops : Nat}
      {amount : Escrow.I128} {hash : TxHash} (read : seen id view ∈ told) (listed : milestone ∈ view.milestones)
      (converted : numbers.release milestone.amount = some stroops) (same : amount.val = stroops)
      (answered : Took told (.releaseMilestone id.symbol admin amount) hash) :
      Grounds numbers told (.transaction (payMilestone id milestone hash))
  | completed {id : Uuid} {view : ContractView} (read : seen id view ∈ told)
      (allPaid : ∀ m ∈ view.milestones, m.status = .paid) : Grounds numbers told (.contractUpdate id .completed none)
  | disputed {id : Uuid} {admin : Address} {hash : TxHash}
      (answered : Took told (.dispute id.symbol admin) hash) : Grounds numbers told (.contractUpdate id .disputed none)
  | disputedBare {id : Uuid} {view : ContractView} (read : seen id view ∈ told) (active : view.status = .active)
      (bare : view.escrowTxHash = none) : Grounds numbers told (.contractUpdate id .disputed none)
  | resolved {id : Uuid} {admin : Address} {text : String} {decision : Escrow.DisputeDecision} {bps : UInt32}
      {remaining : Nat} {hash : TxHash} (decided : decisionMap text = some (some decision))
      (answered : Took told (.resolveDispute id.symbol admin decision bps) hash) :
      Grounds numbers told (.transaction [.paymentCreate ⟨id, none, remaining, hash⟩,
        .contractUpdate id (finalStatus text) none])
  | refunded {id jobId : Uuid} {admin : Address} {remaining : Nat} {hash : TxHash}
      (answered : Took told (.refund id.symbol admin) hash) :
      Grounds numbers told (.transaction (cancelStatements id jobId remaining (some hash)))
  | abandoned {id jobId : Uuid} {view : ContractView} {remaining : Nat} (read : seen id view ∈ told)
      (bare : view.escrowTxHash = none) : Grounds numbers told (.transaction (cancelStatements id jobId remaining none))

/-- The operation writes to a contract, a milestone or a payment that is there. -/
def Op.Writing : Op → Prop
  | .contractUpdate .. | .milestoneUpdate .. | .transaction _ => True
  | _ => False

/-- A request that writes has grounds to. -/
def Grounded (numbers : Numbers) (told : List Exchange) (op : Op) : Prop := op.Writing → Grounds numbers told op

/-! ### Parts that only read or submit -/

section Parts
variable {config : Config} {bad : Op → Prop} {id : Uuid}

theorem getContract_never (reads : ∀ asked, ¬ bad (.query asked)) : (getContractOrThrow id).Never bad :=
  never_bind (never_perform (reads _)) fun _ => never_orThrow

theorem findOne_never {callerId : Uuid} {role : UserRole} (reads : ∀ asked, ¬ bad (.query asked)) :
    (findOne id callerId role).Never bad := by
  refine never_bind (getContract_never reads) fun view => ?_
  unfold throwIf
  split <;> trivial

theorem remaining_never (reads : ∀ asked, ¬ bad (.query asked)) : (remainingAmount config id).Never bad := by
  unfold remainingAmount
  refine never_bind (never_perform (reads _)) fun _ => ?_
  exact never_bind (never_perform (reads _)) fun _ => trivial

theorem refundedAmount_never {hash : Option TxHash} {remaining : config.numbers.Num} :
    (refundedAmount config hash remaining).Never bad := by
  cases hash with
  | none => trivial
  | some _ => exact never_orThrow

theorem verify_never {txHash : TxHash} (asks : ¬ bad (.horizon txHash)) :
    (EscrowService.verifyTransaction txHash).Never bad := by
  refine ⟨asks, fun answer => ?_⟩
  cases answer <;> trivial

theorem submitAdmin_never {call : ChainCall} (submits : ∀ signer, ¬ bad (.submit signer call)) :
    (EscrowService.submitAdminInvocation config call).Never bad := by
  unfold EscrowService.submitAdminInvocation
  exact never_bind never_orThrow fun _ => never_perform (submits _)

theorem fundXdr_never {contract : Contract} {client freelancer : User} {total : config.numbers.Num}
    (simulates : ∀ call, ¬ bad (.simulate call)) :
    (fundXdr config contract client freelancer total).Never bad := by
  unfold fundXdr
  split
  · refine never_tryCatch (never_bind never_orThrow fun admin => ?_) fun _ => trivial
    refine never_bind never_orThrow fun stroops => ?_
    refine never_bind (never_bind never_orThrow fun amount => ?_) fun _ => trivial
    exact never_bind (never_perform (simulates _)) fun _ => trivial
  · trivial

end Parts

/-! ### The endpoints -/

section Endpoints
variable {config : Config} {told : List Exchange} {α β : Type} {id : Uuid}

abbrev Grounding (config : Config) (told : List Exchange) (p : Request α) : Prop :=
  p.Follows (Grounded config.numbers) (fun _ _ => True) told

theorem grounding_perform {op : Op} {rest : op.Answer → Request α} (grounded : Grounded config.numbers told op)
    (goes : ∀ value, Grounding config (told ++ [⟨op, .ok value⟩]) (rest value)) :
    Grounding config told (await op >>= rest) :=
  follows_perform grounded (fun _ => trivial) goes

/-- A part that writes nothing, and what comes after it. -/
theorem grounding_past {x : Request β} {f : β → Request α} (quiet : x.Never Op.Writing)
    (rest : ∀ more b, Grounding config (told ++ more) (f b)) : Grounding config told (x >>= f) :=
  follows_past quiet (fun _ _ unwritten writing => absurd writing unwritten) (fun _ _ => trivial) rest

theorem grounding_never {p : Request α} (quiet : p.Never Op.Writing) : Grounding config told p :=
  follows_never quiet (fun _ _ unwritten writing => absurd writing unwritten) fun _ _ => trivial

theorem grounding_throwIf {condition : Prop} [Decidable condition] {e : Failure} {rest : Unit → Request α}
    (passed : ¬ condition → Grounding config told (rest ())) : Grounding config told (throwIf condition e >>= rest) :=
  follows_throwIf (fun _ => trivial) passed

theorem grounding_orThrow {value : Option β} {e : Failure} {rest : β → Request α}
    (passed : ∀ b, value = some b → Grounding config told (rest b)) : Grounding config told (orThrow value e >>= rest) :=
  follows_orThrow (fun _ => trivial) passed

theorem grounding_getContract {rest : ContractView → Request α}
    (goes : ∀ view, Grounding config (told ++ [seen id view]) (rest view)) :
    Grounding config told (getContractOrThrow id >>= rest) := by
  rw [getContractOrThrow, Process.bind_assoc]
  refine grounding_perform False.elim fun found => ?_
  apply grounding_orThrow
  rintro view rfl
  exact goes view

/-- A call in the name of the admin key and signed with it. -/
theorem grounding_submitAdmin {call : Address → ChainCall} {rest : TxHash → Request α}
    (goes : ∀ admin hash, Grounding config (told ++ [⟨.submit admin (call admin), .ok hash⟩]) (rest hash)) :
    Grounding config told ((do
      let admin ← EscrowService.getAdminPublicKey config
      EscrowService.submitAdminInvocation config (call admin)) >>= rest) := by
  unfold EscrowService.submitAdminInvocation
  simp only [Process.bind_assoc]
  apply grounding_orThrow
  intro admin caller
  apply grounding_orThrow
  intro signer key
  obtain rfl := Option.some.inj (caller.symm.trans key)
  exact grounding_perform False.elim (goes admin)

theorem create_grounded {clientId : Uuid} {dto : CreateContractDto} :
    Grounding config [] (handle config (.create clientId dto)) := by
  apply follows_map
  unfold create
  refine grounding_perform False.elim fun found => ?_
  apply grounding_orThrow
  rintro ⟨job, existing⟩ _
  refine grounding_throwIf fun _ => grounding_throwIf fun _ => grounding_throwIf fun _ => ?_
  refine grounding_perform False.elim fun freelancer => ?_
  refine grounding_orThrow fun freelancer _ => ?_
  refine grounding_perform False.elim fun client => ?_
  refine grounding_orThrow fun client _ => grounding_throwIf fun _ => ?_
  refine grounding_perform False.elim fun contract => ?_
  refine grounding_past (never_perform not_false) fun _ _ => ?_
  refine grounding_past (fundXdr_never fun _ => not_false) fun _ _ => ?_
  exact grounding_past (findOne_never fun _ => not_false) fun _ _ => trivial

theorem confirmFund_grounded {callerId : Uuid} {txHash : TxHash} :
    Grounding config [] (handle config (.confirmFund id callerId txHash)) := by
  apply follows_map
  unfold confirmFund
  refine grounding_getContract fun view => ?_
  refine grounding_throwIf fun _ => grounding_throwIf fun _ => grounding_throwIf fun _ => ?_
  refine grounding_past (verify_never not_false) fun _ _ => ?_
  refine grounding_perform (fun _ => .confirmed) fun row => ?_
  refine grounding_past (never_perform not_false) fun _ _ => ?_
  exact grounding_past (never_perform not_false) fun _ _ => trivial

theorem submitMilestone_grounded {milestoneId callerId : Uuid} :
    Grounding config [] (handle config (.submitMilestone id milestoneId callerId)) := by
  apply follows_map
  unfold submitMilestone
  refine grounding_getContract fun view => ?_
  refine grounding_throwIf fun _ => grounding_throwIf fun _ => grounding_orThrow fun milestone _ => ?_
  refine grounding_throwIf fun _ => grounding_perform (fun _ => .submitted) fun row => ?_
  exact grounding_past (never_perform not_false) fun _ _ => trivial

theorem approveMilestone_grounded {milestoneId callerId : Uuid} :
    Grounding config [] (handle config (.approveMilestone id milestoneId callerId)) := by
  apply follows_map
  unfold approveMilestone
  refine grounding_getContract fun view => ?_
  refine grounding_throwIf fun _ => grounding_throwIf fun _ => grounding_orThrow fun milestone listed => ?_
  refine grounding_throwIf fun _ => grounding_orThrow fun stroops converted => ?_
  unfold EscrowService.submitReleaseMilestone EscrowService.submitAdminInvocation
  simp only [Process.bind_assoc]
  refine grounding_orThrow fun admin _ => grounding_orThrow fun amount fits => grounding_orThrow fun signer _ => ?_
  refine grounding_perform False.elim fun hash => ?_
  have same := CheckedInt.ofInt?_eq_some.mp fits
  unfold recordApproval
  refine grounding_perform (fun _ => .paid (by simp) (List.mem_of_find?_eq_some listed) converted same
    took_last) fun _ => ?_
  have finish : ∀ (told : List Exchange) (title message title' message' : String), Grounding config told
      (notify view.freelancerId .milestonePaid title message id (some milestoneId) >>= fun _ =>
        notify view.clientId .milestoneApproved title' message' id (some milestoneId) >>= fun _ =>
        await (.query (.milestone milestoneId))) := by
    intro told title message title' message'
    refine grounding_past (never_perform not_false) fun _ _ => ?_
    refine grounding_past (never_perform not_false) fun _ _ => ?_
    exact grounding_never (never_perform not_false)
  unfold maybeCompleteContract
  rw [Process.bind_assoc]
  refine grounding_getContract fun after => ?_
  split
  · rename_i allPaid
    rw [Process.bind_assoc]
    refine grounding_perform (fun _ => .completed (by simp) allPaid) fun row => ?_
    rw [Process.bind_assoc]
    refine grounding_past (never_perform not_false) fun _ _ => ?_
    exact grounding_past (never_perform not_false) fun _ _ => finish _ _ _ _ _
  · exact finish _ _ _ _ _

theorem dispute_grounded {callerId : Uuid} : Grounding config [] (handle config (.dispute id callerId)) := by
  apply follows_map
  unfold dispute
  refine grounding_getContract fun view => ?_
  refine grounding_throwIf fun _ => grounding_throwIf fun active => ?_
  have record : ∀ (told : List Exchange) (first second : Notification),
      Grounds config.numbers told (.contractUpdate id .disputed none) →
      Grounding config told (await (.contractUpdate id .disputed none) >>= fun row =>
        await (.notify first) >>= fun _ => await (.notify second) >>= fun _ => pure row) := by
    intro told first second grounds
    refine grounding_perform (fun _ => grounds) fun row => ?_
    refine grounding_past (never_perform not_false) fun _ _ => ?_
    exact grounding_past (never_perform not_false) fun _ _ => trivial
  by_cases confirmed : view.escrowTxHash.isSome = true
  · rw [if_pos confirmed]
    unfold EscrowService.submitDispute
    refine grounding_submitAdmin fun admin hash => ?_
    exact record _ _ _ (.disputed took_last)
  · rw [if_neg confirmed]
    exact record _ _ _ (.disputedBare (by simp) (not_not.mp active) (by simpa using confirmed))

theorem resolveDispute_grounded {role : UserRole} {dto : ResolveDisputeDto} :
    Grounding config [] (handle config (.resolveDispute id role dto)) := by
  apply follows_map
  unfold resolveDispute
  refine grounding_throwIf fun _ => grounding_getContract fun view => ?_
  refine grounding_throwIf fun _ => grounding_orThrow fun decision decided => ?_
  unfold EscrowService.submitResolveDispute EscrowService.submitAdminInvocation
  simp only [Process.bind_assoc]
  refine grounding_orThrow fun admin caller => grounding_orThrow fun variant sort => grounding_orThrow fun signer key => ?_
  obtain rfl := Option.some.inj (caller.symm.trans key)
  obtain rfl := sort
  refine grounding_perform False.elim fun hash => ?_
  refine grounding_past (remaining_never fun _ => not_false) fun more remaining => ?_
  refine grounding_orThrow fun amount _ => ?_
  refine grounding_perform (fun _ => .resolved decided (took_last.more more)) fun _ => ?_
  refine grounding_past (never_perform not_false) fun _ _ => ?_
  exact grounding_past (never_perform not_false) fun _ _ => trivial

theorem cancel_grounded {callerId : Uuid} {role : UserRole} :
    Grounding config [] (handle config (.cancel id callerId role)) := by
  apply follows_map
  unfold cancel
  refine grounding_getContract fun view => ?_
  refine grounding_throwIf fun _ => grounding_throwIf fun _ => grounding_throwIf fun _ => ?_
  have record : ∀ (told : List Exchange) (txHash : Option TxHash) (first second : Notification),
      (∀ more amount, Grounds config.numbers (told ++ more)
        (.transaction (cancelStatements id view.job.id amount txHash))) →
      Grounding config told (remainingAmount config id >>= fun remaining =>
        refundedAmount config txHash remaining >>= fun amount =>
        await (.transaction (cancelStatements id view.job.id amount txHash)) >>= fun _ =>
          await (.notify first) >>= fun _ => await (.notify second) >>= fun _ => pure txHash) := by
    intro told txHash first second grounds
    refine grounding_past (remaining_never fun _ => not_false) fun more remaining => ?_
    refine grounding_past refundedAmount_never fun more' amount => ?_
    refine grounding_perform (fun _ => List.append_assoc .. ▸ grounds (more ++ more') amount) fun _ => ?_
    refine grounding_past (never_perform not_false) fun _ _ => ?_
    exact grounding_past (never_perform not_false) fun _ _ => trivial
  by_cases confirmed : view.escrowTxHash.isSome = true
  · rw [if_pos confirmed, show some <$> EscrowService.submitRefund config id =
      EscrowService.submitRefund config id >>= fun hash => pure (some hash) from rfl]
    unfold EscrowService.submitRefund
    rw [Process.bind_assoc]
    refine grounding_submitAdmin fun admin hash => ?_
    exact record _ _ _ _ fun more _ => .refunded (took_last.more more)
  · rw [if_neg confirmed]
    have bare : view.escrowTxHash = none := by simpa using confirmed
    exact record _ _ _ _ fun _ _ => .abandoned (by simp) bare

/-- Every request that writes has grounds to. -/
theorem handle_grounded (config : Config) (endpoint : Endpoint) : Grounding config [] (handle config endpoint) := by
  cases endpoint with
  | create => exact create_grounded
  | confirmFund => exact confirmFund_grounded
  | submitMilestone => exact submitMilestone_grounded
  | approveMilestone => exact approveMilestone_grounded
  | dispute => exact dispute_grounded
  | resolveDispute => exact resolveDispute_grounded
  | cancel => exact cancel_grounded

end Endpoints

/-! ### Rows and their writes -/

section Rows
variable {db db' : Db} {statements : List Statement} {id : Uuid} {payment : Payment}

namespace Db

theorem executeAll_payment (executed : db.executeAll statements = some db') (member : payment ∈ db'.payments.rows) :
    payment ∈ db.payments.rows ∨ .paymentCreate payment ∈ statements := by
  induction statements generalizing db with
  | nil =>
    cases executed
    exact .inl member
  | cons statement rest ih =>
    obtain ⟨between, first, later⟩ := executeAll_cons executed
    rcases ih later with old | listed
    · rcases execute_payment first old with older | rfl
      · exact .inl older
      · exact .inr List.mem_cons_self
    · exact .inr (List.mem_cons_of_mem _ listed)

theorem execute_payment_kept {statement : Statement} (executed : db.execute statement = some db')
    (member : payment ∈ db.payments.rows) : payment ∈ db'.payments.rows := by
  cases statement with
  | contractUpdate =>
    obtain ⟨_, _, _, _, _, payments⟩ := contractUpdate_some executed
    exact payments ▸ member
  | milestoneUpdate => exact (milestoneUpdate_some executed).2.1 ▸ member
  | jobUpdate => exact (jobUpdate_some executed).2.2 ▸ member
  | paymentCreate =>
    rw [(paymentCreate_some executed).2.2.2.2.1]
    exact List.mem_append_left _ member

theorem executeAll_payment_kept (executed : db.executeAll statements = some db')
    (member : payment ∈ db.payments.rows) : payment ∈ db'.payments.rows := by
  induction statements generalizing db with
  | nil =>
    cases executed
    exact member
  | cons statement rest ih =>
    obtain ⟨between, first, later⟩ := executeAll_cons executed
    exact ih later (execute_payment_kept first member)

/-- No statement adds a contract. -/
theorem executeAll_contract {row : Contract} (executed : db.executeAll statements = some db')
    (found : db'.contracts.find id = some row) : ∃ old, db.contracts.find id = some old := by
  induction statements generalizing db with
  | nil =>
    cases executed
    exact ⟨row, found⟩
  | cons statement rest ih =>
    obtain ⟨between, first, later⟩ := executeAll_cons executed
    obtain ⟨middle, there⟩ := ih later
    rcases execute_row first there with old | ⟨old, _, _, _, old', _⟩
    · exact ⟨middle, old⟩
    · exact ⟨old, old'⟩

theorem executeAll_milestone {m : Milestone} (executed : db.executeAll statements = some db')
    (found : db'.milestones.find id = some m) : ∃ old, db.milestones.find id = some old := by
  induction statements generalizing db with
  | nil =>
    cases executed
    exact ⟨m, found⟩
  | cons statement rest ih =>
    obtain ⟨between, first, later⟩ := executeAll_cons executed
    obtain ⟨middle, there⟩ := ih later
    obtain ⟨old, there', _⟩ := execute_milestone first there
    exact ⟨old, there'⟩

end Db

end Rows

/-! ### In a run -/

section Run
variable {τ : Type} {host : Escrow.Host Address τ} {config : Config} {faults : Prop}
  {service service' start : Service τ} {occurrence : Occurrence} {id : Uuid} {index : Nat} {w w' : World τ}
  {trace : List (Service τ × Occurrence)} {view : ContractView} {call : ChainCall} {hash : TxHash}
  {payment : Payment}

/-- What a request writes in a run rests on what it was told before. -/
theorem run_grounds {op : Op} {answer : Except Failure op.Answer}
    (run : Runs.Run (Service.Step host config faults) start trace service) (idle : start.running = [])
    (step : Service.Step host config faults service (.served index op answer) service') (writing : op.Writing) :
    Grounds config.numbers (told index trace) op := by
  cases step with
  | served found answered => exact (run_follows run idle (handle_grounded config) found).1 writing

/-- What a request has read was so when it read it. -/
theorem told_reading (run : Runs.Run (Service.Step host config faults) start trace service)
    (read : seen id view ∈ told index trace) :
    ∃ earlier reading between, trace = earlier ++ reading :: between ∧
      Runs.Run (Service.Step host config faults) start earlier reading.1 ∧
      Runs.Run (Service.Step host config faults) reading.1 (reading :: between) service ∧
      reading.1.world.db.contractView id = some view := by
  obtain ⟨point, member, asks⟩ := mem_told.mp read
  obtain ⟨earlier, between, rfl⟩ := List.append_of_mem member
  obtain ⟨before, _, asked, rest⟩ := run.cut rfl
  exact ⟨earlier, point, between, rfl, before, .head asked rest, (read_answer asked asks).symm⟩

/-- An operation writes a column through one of its statements. -/
theorem Column.operation_statement {V : Type} {column : Column V} {op : Op} {v : V}
    (writes : column.operation op = some v) : ∃ statement ∈ op.statements, column.written statement = some v := by
  cases op with
  | contractUpdate id status hash => exact ⟨.contractUpdate id status hash, List.mem_singleton_self _, writes⟩
  | milestoneUpdate id status => exact ⟨.milestoneUpdate id status, List.mem_singleton_self _, writes⟩
  | transaction => exact column.writtenAll_mem writes
  | _ => contradiction

/-- Nothing leaves another value in a column that no statement writes. -/
theorem Column.run_unwritten {V : Type} {column : Column V} {v : V}
    (run : Runs.Run (Service.Step host config faults) start trace service)
    (unwritten : ∀ statement, column.written statement = none) (held : column.value start.world.db = some v) :
    column.value service.world.db = some v := by
  refine run.invariant (I := fun service => column.value service.world.db = some v) ?_ held
  intro service occurrence service' held step
  refine column.step_keeps step ?_ held
  unfold Column.left
  split
  · rename_i op _
    cases op with
    | transaction statements =>
      change (statements.filterMap column.written).getLast? = none
      simp [funext unwritten]
    | contractUpdate | milestoneUpdate => exact unwritten _
    | _ => rfl
  · rfl

/-! #### The network -/

/-- The network has accepted the call, as its ledger shows. -/
def World.Accepted (w : World τ) (call : ChainCall) : Prop :=
  call ∈ Escrow.accepted w.chain.ledger.receipts call.contractId

/-- The ledger only grows. -/
theorem step_receipts (step : Service.Step host config faults service occurrence service') :
    ∃ more, service'.world.chain.ledger.receipts = service.world.chain.ledger.receipts ++ more := by
  have same : ∃ more, service.world.chain.ledger.receipts = service.world.chain.ledger.receipts ++ more :=
    ⟨[], (List.append_nil _).symm⟩
  cases step with
  | start => exact same
  | served found answered =>
    cases answered with
    | applied | failed => exact ⟨[_], rfl⟩
    | _ => exact same
  | outside around =>
    cases around with
    | elsewhere => exact same
    | network moved =>
      cases moved with
      | called | settled => exact ⟨[_], rfl⟩
      | unrelated | expired => exact same

theorem run_accepted (run : Runs.Run (Service.Step host config faults) start trace service)
    (accepted : start.world.Accepted call) : service.world.Accepted call := by
  refine run.invariant (I := fun service => service.world.Accepted call) ?_ accepted
  intro service occurrence service' accepted step
  obtain ⟨more, grown⟩ := step_receipts step
  unfold World.Accepted Escrow.accepted at accepted ⊢
  rw [grown, List.filter_append, List.map_append]
  exact List.mem_append_left _ accepted

theorem execute_accepted {chain : Chain τ} {sent : Sent} (succeeds : chain.Succeeds host {sent.signer} sent.call) :
    sent.call ∈ Escrow.accepted (chain.execute host sent hash).ledger.receipts sent.call.contractId := by
  obtain ⟨receipt, grown, own, ok⟩ : ∃ receipt, (chain.execute host sent hash).ledger.receipts =
      chain.ledger.receipts ++ [receipt] ∧ receipt.call = sent.call ∧ receipt.outcome = .ok := by
    refine ⟨_, rfl, ?_, succeeds⟩
    split <;> rfl
  rw [grown, Escrow.accepted_own (congrArg _ own) ok, own]
  exact List.mem_append_right _ List.mem_cons_self

/-- What a request was told of its calls is true. -/
theorem run_took (run : Runs.Run (Service.Step host config faults) start trace service)
    (answered : Took (told index trace) call hash) : service.world.Accepted call := by
  obtain ⟨signer, member⟩ := answered
  obtain ⟨point, inside, served⟩ := mem_told.mp member
  obtain ⟨earlier, rest, rfl⟩ := List.append_of_mem inside
  obtain ⟨_, after, step, later⟩ := run.cut rfl
  refine run_accepted later ?_
  obtain ⟨before, occurrence⟩ := point
  dsimp only at served step
  subst served
  cases step with
  | served found answered =>
    cases answered with
    | applied fresh succeeds => exact execute_accepted succeeds

/-! #### The tables -/

theorem serves_payment {op : Op} {answer : Except Failure op.Answer} (served : Serves host faults index w op answer w')
    (member : payment ∈ w'.db.payments.rows) : payment ∈ w.db.payments.rows ∨
      (∃ value, answer = .ok value) ∧ .paymentCreate payment ∈ op.statements := by
  cases served with
  | created created =>
    rw [(Db.create_some created).2.2.2.2.1] at member
    exact .inl member
  | contractUpdated updated =>
    have executed := (executeAll_single _ _).trans updated
    exact (Db.executeAll_payment executed member).imp_right fun listed => ⟨⟨_, rfl⟩, listed⟩
  | milestoneUpdated updated =>
    have executed := (executeAll_single _ _).trans updated
    exact (Db.executeAll_payment executed member).imp_right fun listed => ⟨⟨_, rfl⟩, listed⟩
  | committed executed => exact (Db.executeAll_payment executed member).imp_right fun listed => ⟨⟨_, rfl⟩, listed⟩
  | _ => exact .inl member

theorem serves_payment_kept {op : Op} {answer : Except Failure op.Answer}
    (served : Serves host faults index w op answer w') (member : payment ∈ w.db.payments.rows) :
    payment ∈ w'.db.payments.rows := by
  cases served with
  | created created =>
    rw [(Db.create_some created).2.2.2.2.1]
    exact member
  | contractUpdated updated => exact Db.execute_payment_kept updated member
  | milestoneUpdated updated => exact Db.execute_payment_kept updated member
  | committed executed => exact Db.executeAll_payment_kept executed member
  | _ => exact member

theorem run_payment_kept (run : Runs.Run (Service.Step host config faults) start trace service)
    (member : payment ∈ start.world.db.payments.rows) : payment ∈ service.world.db.payments.rows := by
  refine run.invariant (I := fun service => payment ∈ service.world.db.payments.rows) ?_ member
  intro service occurrence service' member step
  cases step with
  | start => exact member
  | served found answered => exact serves_payment_kept answered member
  | outside around =>
    cases around with
    | network moved => cases moved <;> exact member
    | elsewhere => exact member

/-- Every payment was written by a request. -/
theorem run_payment (run : Runs.Run (Service.Step host config faults) start trace service)
    (fresh : start.world.db.payments.rows = []) (member : payment ∈ service.world.db.payments.rows) :
    ∃ earlier point rest index op value, trace = earlier ++ point :: rest ∧
      point.2 = .served index op (.ok value) ∧ .paymentCreate payment ∈ op.statements := by
  induction run with
  | refl =>
    rw [fresh] at member
    contradiction
  | @tail trace before occurrence after run step ih =>
    have old : payment ∈ before.world.db.payments.rows → ∃ earlier point rest index op value,
        trace ++ [(before, occurrence)] = earlier ++ point :: rest ∧ point.2 = .served index op (.ok value) ∧
          .paymentCreate payment ∈ op.statements := by
      intro member
      obtain ⟨earlier, point, rest, index, op, value, rfl, here⟩ := ih member
      exact ⟨earlier, point, rest ++ [(before, occurrence)], index, op, value, by simp, here⟩
    cases step with
    | start => exact old member
    | served found answered =>
      rcases serves_payment answered member with earlier | ⟨⟨value, rfl⟩, listed⟩
      · exact old earlier
      · exact ⟨trace, (_, .served _ _ _), [], _, _, value, rfl, rfl, listed⟩
    | outside around =>
      cases around with
      | network moved => cases moved <;> exact old member
      | elsewhere => exact old member

/-- Rows of contracts and of milestones come with the creation of a contract; others were there before. -/
theorem step_creates (step : Service.Step host config faults service occurrence service') :
    (∃ (id : Uuid) (milestoneIds : List Uuid) (data : NewContract),
      service.world.db.create id milestoneIds data = some service'.world.db) ∨
    (∀ {id : Uuid} {row : Contract}, service'.world.db.contracts.find id = some row →
      ∃ old, service.world.db.contracts.find id = some old) ∧
    ∀ {id : Uuid} {m : Milestone}, service'.world.db.milestones.find id = some m →
      ∃ old, service.world.db.milestones.find id = some old := by
  have written : ∀ {db db' : Db} {statements : List Statement}, db.executeAll statements = some db' →
      (∀ {id : Uuid} {row : Contract}, db'.contracts.find id = some row → ∃ old, db.contracts.find id = some old) ∧
      ∀ {id : Uuid} {m : Milestone}, db'.milestones.find id = some m → ∃ old, db.milestones.find id = some old :=
    fun executed => ⟨Db.executeAll_contract executed, Db.executeAll_milestone executed⟩
  cases step with
  | start => exact .inr ⟨fun found => ⟨_, found⟩, fun found => ⟨_, found⟩⟩
  | served there answered =>
    cases answered with
    | created created => exact .inl ⟨_, _, _, created⟩
    | contractUpdated updated | milestoneUpdated updated =>
      exact .inr (written ((executeAll_single _ _).trans updated))
    | committed executed => exact .inr (written executed)
    | _ => exact .inr ⟨fun found => ⟨_, found⟩, fun found => ⟨_, found⟩⟩
  | outside around =>
    cases around with
    | network moved => cases moved <;> exact .inr ⟨fun found => ⟨_, found⟩, fun found => ⟨_, found⟩⟩
    | elsewhere => exact .inr ⟨fun found => ⟨_, found⟩, fun found => ⟨_, found⟩⟩

/-- A contract appears pending. -/
theorem step_contract {row : Contract} (step : Service.Step host config faults service occurrence service')
    (absent : service.world.db.contracts.find id = none) (found : service'.world.db.contracts.find id = some row) :
    row.status = .pending := by
  rcases step_creates step with ⟨_, _, _, created⟩ | ⟨earlier, _⟩
  · rcases Db.create_row created found with old | new
    · exact nomatch absent.symm.trans old
    · exact new.1
  · obtain ⟨_, old⟩ := earlier found
    exact nomatch absent.symm.trans old

theorem step_milestone {m : Milestone} (step : Service.Step host config faults service occurrence service')
    (absent : service.world.db.milestones.find id = none) (found : service'.world.db.milestones.find id = some m) :
    m.status = .pending := by
  rcases step_creates step with ⟨_, _, _, created⟩ | ⟨_, earlier⟩
  · rcases Db.create_milestone_origin created found with old | new
    · exact nomatch absent.symm.trans old
    · exact new
  · obtain ⟨_, old⟩ := earlier found
    exact nomatch absent.symm.trans old

/-- A status other than the first one was written. -/
theorem run_status {row : Contract} (run : Runs.Run (Service.Step host config faults) start trace service)
    (fresh : start.world.db.contracts.rows = []) (found : service.world.db.contracts.find id = some row)
    (moved : row.status ≠ .pending) :
    ∃ earlier point rest, trace = earlier ++ point :: rest ∧ (statusColumn id).left point.2 = some row.status := by
  refine ((statusColumn id).cell host config faults).wrote run ?_ ?_ (congrArg (Option.map Contract.status) found)
  · intro held
    obtain ⟨row', found', _⟩ := Option.map_eq_some_iff.mp held
    exact List.not_mem_nil (fresh ▸ Table.mem_of_find found')
  · intro service occurrence service' step absent _ held
    obtain ⟨row', found', same⟩ := Option.map_eq_some_iff.mp held
    exact moved (same ▸ step_contract step (Option.map_eq_none_iff.mp absent) found')

theorem run_milestone {m : Milestone} (run : Runs.Run (Service.Step host config faults) start trace service)
    (fresh : start.world.db.milestones.rows = []) (found : service.world.db.milestones.find id = some m)
    (moved : m.status ≠ .pending) :
    ∃ earlier point rest, trace = earlier ++ point :: rest ∧ (milestoneColumn id).left point.2 = some m.status := by
  refine ((milestoneColumn id).cell host config faults).wrote run ?_ ?_ (congrArg (Option.map Milestone.status) found)
  · intro held
    obtain ⟨m', found', _⟩ := Option.map_eq_some_iff.mp held
    exact List.not_mem_nil (fresh ▸ Table.mem_of_find found')
  · intro service occurrence service' step absent _ held
    obtain ⟨m', found', same⟩ := Option.map_eq_some_iff.mp held
    exact moved (same ▸ step_milestone step (Option.map_eq_none_iff.mp absent) found')

end Run

end Stellance.Backend
