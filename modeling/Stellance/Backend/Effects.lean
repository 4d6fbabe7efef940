import Stellance.Backend.Requests

/-! What each endpoint does to the world, as a table. A request that ran to its end
without faults has done one of these, up to notifications; nothing after this module
looks into a request again. -/
namespace Stellance.Backend
open ContractsService
open Process (completes_bind completes_throwIf completes_orThrow completes_pure completes_perform
  completes_tryCatch completes_fail completes_map)
variable {τ : Type} {host : Escrow.Host Address τ} {config : Config}

/-- A transaction commits, or is refused and leaves the database as it was. -/
inductive Commits (statements : List Statement) (w : World τ) : World τ → Prop where
  | committed {db : Db} (executed : w.db.executeAll statements = some db) :
      Commits statements w (w.wrote db)
  | refused (impossible : w.db.executeAll statements = none) : Commits statements w w

/-- A call submitted only where the contract carries a funding hash. -/
inductive SubmittedIf (host : Escrow.Host Address τ) (config : Config) (w : World τ)
    (view : ContractView) (call : Address → ChainCall) : Option TxHash → World τ → Prop where
  | unconfirmed (unconfirmed : view.escrowTxHash = none) : SubmittedIf host config w view call none w
  | applied {hash : TxHash} {w' : World τ} (confirmed : view.escrowTxHash.isSome = true)
      (submitted : Submitted host config w call (.ok hash) w') :
      SubmittedIf host config w view call (some hash) w'

/-- What follows a release: the commit, and the completion of the contract when all
its milestones are paid. -/
inductive Recorded (contractId : Uuid) (milestone : Milestone) (hash : TxHash) (w : World τ) :
    World τ → Prop where
  | refused (impossible : w.db.executeAll (payMilestone contractId milestone hash) = none) :
      Recorded contractId milestone hash w w
  | missing {db : Db} (paid : w.db.executeAll (payMilestone contractId milestone hash) = some db)
      (missing : db.contractView contractId = none) :
      Recorded contractId milestone hash w (w.wrote db)
  | unpaid {db : Db} {view : ContractView}
      (paid : w.db.executeAll (payMilestone contractId milestone hash) = some db)
      (found : db.contractView contractId = some view)
      (unpaid : ¬ ∀ m ∈ view.milestones, m.status = .paid) :
      Recorded contractId milestone hash w (w.wrote db)
  | completed {db : Db} {view : ContractView} {w' : World τ}
      (paid : w.db.executeAll (payMilestone contractId milestone hash) = some db)
      (found : db.contractView contractId = some view)
      (allPaid : ∀ m ∈ view.milestones, m.status = .paid)
      (commits : Commits [.contractUpdate contractId .completed none] (w.wrote db) w') :
      Recorded contractId milestone hash w w'

namespace Db

/-- What is left to pay by the rows of a contract, as a column keeps it. -/
def remaining (db : Db) (numbers : Numbers) (id : Uuid) : Option Nat :=
  numbers.column (numbers.remaining ((db.milestonesOf id).map Milestone.amount)
    ((db.paymentsOf id).map Payment.amount))

end Db

/-- The commit of a settlement, with the amount that is left to pay; nothing is written where
the column does not hold it. -/
inductive Settles (remaining : Option Nat) (statements : Nat → List Statement) (w : World τ) : World τ → Prop where
  | overflow (tooLarge : remaining = none) : Settles remaining statements w w
  | held {amount : Nat} {w' : World τ} (fits : remaining = some amount)
      (commits : Commits (statements amount) w w') : Settles remaining statements w w'

def CreateContractDto.amounts (dto : CreateContractDto) : List Nat := dto.milestones.map MilestoneInputDto.amount

def CreateContractDto.totalAmount (dto : CreateContractDto) : Nat := dto.amounts.sum

def CreateContractDto.newContract (dto : CreateContractDto) (clientId : Uuid) : NewContract where
  jobId := dto.jobId
  clientId := clientId
  freelancerId := dto.freelancerId
  milestones := dto.milestones.map fun m => (m.title, m.amount)

/-- The funding call that belongs to a contract over the amounts of its milestones. -/
inductive FundCall (config : Config) (id : Uuid) (amounts : List Nat) : ChainCall → Prop where
  | intro {client freelancer admin token : Address} {stroops : Nat} {amount : Escrow.I128}
      (key : config.adminPublicKey = some admin) (deposit : config.numbers.deposit amounts = some stroops)
      (same : amount.val = stroops) :
      FundCall config id amounts (.fund id.symbol client freelancer admin amount token)

inductive Effect (host : Escrow.Host Address τ) (config : Config) (w : World τ) :
    Endpoint → Except Failure Response → World τ → Prop where
  | nothing (endpoint : Endpoint) (error : Failure) : Effect host config w endpoint (.error error) w
  | failed {signer : Address} {call : ChainCall} {hash : TxHash} (endpoint : Endpoint)
      (error : Failure) (fresh : hash ∉ w.chain.included) (fails : ¬ w.chain.Succeeds host {signer} call) :
      Effect host config w endpoint (.error error) (w.sent host signer call hash)
  | created {clientId id : Uuid} {dto : CreateContractDto} {milestoneIds : List Uuid} {db : Db}
      {result : Except Failure Response} (held : ∀ m ∈ dto.milestones, config.numbers.holds m.amount = true)
      (created : w.db.create id milestoneIds (dto.newContract clientId) = some db)
      (issued : ∀ view call, result = .ok (.created view (some call)) →
        view.id = id ∧ FundCall config id dto.amounts call) :
      Effect host config w (.create clientId dto) result (w.wrote db)
  | confirmed {id callerId : Uuid} {txHash : TxHash} {view : ContractView} {db : Db}
      {row : Contract} (found : w.db.contractView id = some view)
      (caller : view.clientId = callerId) (unconfirmed : view.escrowTxHash = none)
      (status : view.status = .pending ∨ view.status = .active) (included : txHash ∈ w.chain.included)
      (updated : w.db.execute (.contractUpdate id .active (some txHash)) = some db) :
      Effect host config w (.confirmFund id callerId txHash) (.ok (.contract row)) (w.wrote db)
  | submitted {id milestoneId callerId : Uuid} {view : ContractView} {milestone : Milestone} {db : Db}
      {result : Except Failure Response} (found : w.db.contractView id = some view)
      (caller : view.freelancerId = callerId) (active : view.status = .active)
      (listed : view.milestones.find? (·.id = milestoneId) = some milestone)
      (pending : milestone.status = .pending)
      (updated : w.db.execute (.milestoneUpdate milestoneId .inReview) = some db) :
      Effect host config w (.submitMilestone id milestoneId callerId) result (w.wrote db)
  | approved {id milestoneId callerId : Uuid} {view : ContractView} {milestone : Milestone}
      {stroops : Nat} {amount : Escrow.I128} {hash : TxHash} {w₁ w₂ : World τ}
      {result : Except Failure Response}
      (found : w.db.contractView id = some view) (caller : view.clientId = callerId)
      (active : view.status = .active)
      (listed : view.milestones.find? (·.id = milestoneId) = some milestone)
      (inReview : milestone.status = .inReview) (converted : config.numbers.release milestone.amount = some stroops)
      (same : amount.val = stroops)
      (released : Submitted host config w (fun admin => .releaseMilestone id.symbol admin amount)
        (.ok hash) w₁)
      (recorded : Recorded id milestone hash w₁ w₂) :
      Effect host config w (.approveMilestone id milestoneId callerId) result w₂
  | disputed {id callerId : Uuid} {view : ContractView} {hash : Option TxHash} {w₁ w₂ : World τ}
      {result : Except Failure Response} (found : w.db.contractView id = some view)
      (active : view.status = .active)
      (frozen : SubmittedIf host config w view (.dispute id.symbol) hash w₁)
      (commits : Commits [.contractUpdate id .disputed none] w₁ w₂) :
      Effect host config w (.dispute id callerId) result w₂
  | resolved {id : Uuid} {role : UserRole} {dto : ResolveDisputeDto} {view : ContractView}
      {decision : Escrow.DisputeDecision} {hash : TxHash} {w₁ w₂ : World τ}
      {result : Except Failure Response} (found : w.db.contractView id = some view)
      (disputed : view.status = .disputed) (decided : decisionMap dto.decision = some (some decision))
      (submitted : Submitted host config w (fun admin => .resolveDispute id.symbol admin decision
        (UInt32.ofNat (dto.freelancerBps.getD 0))) (.ok hash) w₁)
      (settles : Settles (w.db.remaining config.numbers id) (fun amount =>
        [.paymentCreate ⟨id, none, amount, hash⟩,
          .contractUpdate id (finalStatus dto.decision) none]) w₁ w₂) :
      Effect host config w (.resolveDispute id role dto) result w₂
  | cancelled {id callerId : Uuid} {role : UserRole} {view : ContractView} {hash : Option TxHash}
      {w₁ w₂ : World τ} {result : Except Failure Response}
      (found : w.db.contractView id = some view) (allowed : view.clientId = callerId ∨ role = .admin)
      (live : view.status ≠ .completed ∧ view.status ≠ .cancelled)
      (refunded : SubmittedIf host config w view (.refund id.symbol) hash w₁)
      (settles : Settles (if hash.isSome then w.db.remaining config.numbers id else some 0)
        (fun amount => cancelStatements id view.job.id amount hash) w₁ w₂) :
      Effect host config w (.cancel id callerId role) result w₂

/-- An effect up to notifications. -/
def Leaves (host : Escrow.Host Address τ) (config : Config) (w : World τ) (endpoint : Endpoint)
    (result : Except Failure Response) (w' : World τ) : Prop :=
  ∃ w₁ notes, Effect host config w endpoint result w₁ ∧ w' = w₁.noted notes

section Endpoints
variable {w w' : World τ} {id milestoneId callerId : Uuid} {role : UserRole} {endpoint : Endpoint}
  {result : Except Failure Response} {error : Failure}

theorem Effect.leaves (effect : Effect host config w endpoint result w') :
    Leaves host config w endpoint result w' :=
  ⟨w', w'.db.notifications, effect, rfl⟩

theorem leaves_nothing : Leaves host config w endpoint (.error error) w :=
  (Effect.nothing endpoint error).leaves

/-- A submission that did not go through. -/
theorem leaves_unsubmitted {call : Address → ChainCall}
    (submitted : Submitted host config w call (.error error) w') (failure : Failure) :
    Leaves host config w endpoint (.error failure) w' := by
  cases submitted with
  | refused => exact leaves_nothing
  | failed _ key fresh fails => exact (Effect.failed endpoint failure fresh fails).leaves

theorem Submitted.db {call : Address → ChainCall} {result : Except Failure TxHash}
    (submitted : Submitted host config w call result w') : w'.db = w.db := by
  cases submitted <;> rfl

theorem SubmittedIf.db {view : ContractView} {call : Address → ChainCall} {hash : Option TxHash}
    (submitted : SubmittedIf host config w view call hash w') : w'.db = w.db := by
  cases submitted with
  | unconfirmed => rfl
  | applied confirmed submitted => exact submitted.db

theorem executeAll_single (db : Db) (statement : Statement) :
    db.executeAll [statement] = db.execute statement := by
  simp [Db.executeAll]

theorem await_remaining {α : Type} {rest : config.numbers.Num → Request α} {result : Except Failure α} :
    Completes host w (remainingAmount config id >>= rest) result w' ↔
      Completes host w (rest (config.numbers.remaining ((w.db.milestonesOf id).map Milestone.amount)
        ((w.db.paymentsOf id).map Payment.amount))) result w' := by
  apply (iff_of_eq (congrArg (Completes host w · result w') (Process.bind_assoc ..))).trans
  apply await_query.trans
  apply (iff_of_eq (congrArg (Completes host w · result w') (Process.bind_assoc ..))).trans
  exact await_query

theorem confirmFund_leaves {txHash : TxHash}
    (ran : Completes host w (handle config (.confirmFund id callerId txHash)) result w') :
    Leaves host config w (.confirmFund id callerId txHash) result w' := by
  obtain ⟨first, rfl, completed⟩ := completes_map.mp ran
  rcases getContract.mp completed with ⟨_, rfl, rfl⟩ | ⟨view, found, completed⟩
  · exact leaves_nothing
  rcases completes_throwIf.mp completed with ⟨_, rfl, rfl⟩ | ⟨caller, completed⟩
  · exact leaves_nothing
  rcases completes_throwIf.mp completed with ⟨_, rfl, rfl⟩ | ⟨unconfirmed, completed⟩
  · exact leaves_nothing
  rcases completes_throwIf.mp completed with ⟨_, rfl, rfl⟩ | ⟨status, completed⟩
  · exact leaves_nothing
  rcases completes_bind.mp completed with ⟨_, rfl, rejected⟩ | ⟨_, between, verified, completed⟩
  · rcases completes_tryCatch.mp rejected with ⟨_, absurd', _⟩ | ⟨_, _, asked, thrown⟩
    · contradiction
    · obtain ⟨_, rfl⟩ := completes_fail.mp thrown
      cases completes_perform.mp asked with
      | notOnHorizon => exact leaves_nothing
      | unreachable _ fault => exact fault.elim
  rcases completes_tryCatch.mp verified with ⟨_, _, asked⟩ | ⟨_, _, _, thrown⟩
  · cases completes_perform.mp asked with
    | onHorizon included =>
      rcases await_contractUpdate.mp completed with ⟨_, _, rfl, rfl⟩ | ⟨db, row, updated, _, completed⟩
      · exact leaves_nothing
      · have completed := await_notify.mp (await_notify.mp completed)
        obtain ⟨rfl, rfl⟩ := completes_pure.mp completed
        exact ⟨_, _, .confirmed found (not_not.mp caller) (by simpa using unconfirmed)
          ((not_and_or.mp status).imp not_not.mp not_not.mp) included updated, rfl⟩
  · obtain ⟨contra, _⟩ := completes_fail.mp thrown
    contradiction

/-- A request about a milestone is turned away at a guard, or goes on with the contract and
the milestone that it found. -/
theorem milestone_guards {α : Type} {party : ContractView → Uuid} {status : MilestoneStatus}
    {stranger inactive unknown unready : Failure} {rest : ContractView → Milestone → Request α}
    {result : Except Failure α}
    (completed : Completes host w (getContractOrThrow id >>= fun view =>
      Process.throwIf (party view ≠ callerId) stranger >>= fun _ =>
      Process.throwIf (view.status ≠ .active) inactive >>= fun _ =>
      Process.orThrow (view.milestones.find? (·.id = milestoneId)) unknown >>= fun milestone =>
      Process.throwIf (milestone.status ≠ status) unready >>= fun _ => rest view milestone) result w') :
    (∃ e, result = .error e ∧ w' = w) ∨
    ∃ view milestone, w.db.contractView id = some view ∧ party view = callerId ∧ view.status = .active ∧
      view.milestones.find? (·.id = milestoneId) = some milestone ∧ milestone.status = status ∧
      Completes host w (rest view milestone) result w' := by
  rcases getContract.mp completed with ⟨_, rfl, rfl⟩ | ⟨view, found, completed⟩
  · exact .inl ⟨_, rfl, rfl⟩
  rcases completes_throwIf.mp completed with ⟨_, rfl, rfl⟩ | ⟨caller, completed⟩
  · exact .inl ⟨_, rfl, rfl⟩
  rcases completes_throwIf.mp completed with ⟨_, rfl, rfl⟩ | ⟨active, completed⟩
  · exact .inl ⟨_, rfl, rfl⟩
  rcases completes_orThrow.mp completed with ⟨_, rfl, rfl⟩ | ⟨milestone, listed, completed⟩
  · exact .inl ⟨_, rfl, rfl⟩
  rcases completes_throwIf.mp completed with ⟨_, rfl, rfl⟩ | ⟨ready, completed⟩
  · exact .inl ⟨_, rfl, rfl⟩
  exact .inr ⟨view, milestone, found, not_not.mp caller, not_not.mp active, listed, not_not.mp ready,
    completed⟩

theorem submitMilestone_leaves
    (ran : Completes host w (handle config (.submitMilestone id milestoneId callerId)) result w') :
    Leaves host config w (.submitMilestone id milestoneId callerId) result w' := by
  obtain ⟨first, rfl, completed⟩ := completes_map.mp ran
  rcases milestone_guards completed with
    ⟨_, rfl, rfl⟩ | ⟨view, milestone, found, caller, active, listed, pending, completed⟩
  · exact leaves_nothing
  rcases await_milestoneUpdate.mp completed with ⟨_, _, rfl, rfl⟩ | ⟨db, row, updated, _, completed⟩
  · exact leaves_nothing
  · have completed := await_notify.mp completed
    obtain ⟨rfl, rfl⟩ := completes_pure.mp completed
    exact ⟨_, _, .submitted found caller active listed pending updated, rfl⟩

/-- After the commit only the completion check writes. -/
theorem recordApproval_recorded {view : ContractView} {milestone : Milestone} {hash : TxHash}
    {result : Except Failure (Option (Milestone × Option Payment))}
    (ran : Completes host w (recordApproval config id milestoneId view milestone hash) result w') :
    ∃ w₁ notes, Recorded id milestone hash w w₁ ∧ w' = w₁.noted notes := by
  rcases await_transaction.mp ran with ⟨refused, _, rfl, rfl⟩ | ⟨db, paid, completed⟩
  · exact ⟨_, _, .refused refused, noted_self _⟩
  rcases completes_bind.mp completed with ⟨_, rfl, checked⟩ | ⟨_, between, checked, completed⟩
  · rcases getContract.mp checked with ⟨missing, _, rfl⟩ | ⟨after, found, checked⟩
    · exact ⟨_, _, .missing paid missing, noted_self _⟩
    split at checked
    · rename_i allPaid
      rcases await_contractUpdate.mp checked with ⟨refused, _, _, rfl⟩ | ⟨_, _, _, _, checked⟩
      · have commits := Commits.refused ((executeAll_single ..).trans refused)
        exact ⟨_, _, .completed paid found allPaid commits, noted_self _⟩
      · obtain ⟨contra, _⟩ := completes_notify.mp (await_notify.mp checked)
        contradiction
    · obtain ⟨contra, _⟩ := completes_pure.mp checked
      contradiction
  have noted : ∃ w₁ notes, Recorded id milestone hash w w₁ ∧ between = w₁.noted notes := by
    rcases getContract.mp checked with ⟨_, contra, _⟩ | ⟨after, found, checked⟩
    · contradiction
    split at checked
    · rename_i allPaid
      rcases await_contractUpdate.mp checked with ⟨_, _, contra, _⟩ | ⟨_, _, updated, _, checked⟩
      · contradiction
      · obtain ⟨_, rfl⟩ := completes_notify.mp (await_notify.mp checked)
        have commits := Commits.committed ((executeAll_single ..).trans updated)
        exact ⟨_, _, .completed paid found allPaid commits, rfl⟩
    · rename_i unpaid
      obtain ⟨_, rfl⟩ := completes_pure.mp checked
      exact ⟨_, _, .unpaid paid found unpaid, noted_self _⟩
  obtain ⟨w₁, notes, recorded, rfl⟩ := noted
  have completed := await_notify.mp completed
  have completed := await_notify.mp completed
  cases completes_perform.mp completed with
  | read => exact ⟨w₁, _, recorded, rfl⟩
  | unanswered _ fault => exact fault.elim

theorem approveMilestone_leaves
    (ran : Completes host w (handle config (.approveMilestone id milestoneId callerId)) result w') :
    Leaves host config w (.approveMilestone id milestoneId callerId) result w' := by
  obtain ⟨first, rfl, completed⟩ := completes_map.mp ran
  rcases milestone_guards completed with
    ⟨_, rfl, rfl⟩ | ⟨view, milestone, found, caller, active, listed, inReview, completed⟩
  · exact leaves_nothing
  rcases completes_orThrow.mp completed with ⟨_, rfl, rfl⟩ | ⟨stroops, converted, completed⟩
  · exact leaves_nothing
  rcases completes_bind.mp completed with ⟨_, rfl, rejected⟩ | ⟨hash, between, sent, completed⟩
  · rcases submitReleaseMilestone_submitted rejected with ⟨_, _, rfl⟩ | ⟨_, _, submitted⟩
    · exact leaves_nothing
    · exact leaves_unsubmitted submitted _
  rcases submitReleaseMilestone_submitted sent with ⟨_, contra, _⟩ | ⟨amount, same, submitted⟩
  · contradiction
  obtain ⟨w₁, notes, recorded, rfl⟩ := recordApproval_recorded completed
  exact ⟨w₁, notes, .approved found caller active listed inReview converted same submitted recorded, rfl⟩

/-- Both parties are notified, and nothing else happens. -/
theorem notified_twice {α : Type} {first second : Notification} {value : α} {result : Except Failure α}
    (ran : Completes host w (await (.notify first) >>= fun _ => await (.notify second) >>= fun _ => pure value)
      result w') : ∃ notes, w' = w.noted notes := by
  have rested := await_notify.mp ran
  have rested := await_notify.mp rested
  obtain ⟨_, rfl⟩ := completes_pure.mp rested
  exact ⟨_, rfl⟩

/-- The row of a disputed contract is written after the call, and the rest notifies. -/
theorem disputed_leaves {view : ContractView} {hash : Option TxHash} {w₁ : World τ}
    {rest : Contract → Request Contract} {result : Except Failure Contract}
    (found : w.db.contractView id = some view) (active : view.status = .active)
    (frozen : SubmittedIf host config w view (.dispute id.symbol) hash w₁)
    (completed : Completes host w₁ (await (.contractUpdate id .disputed none) >>= rest) result w')
    (notifies : ∀ row w₂, Completes host w₂ (rest row) result w' → ∃ notes, w' = w₂.noted notes) :
    Leaves host config w (.dispute id callerId) (result.map .contract) w' := by
  rcases await_contractUpdate.mp completed with ⟨refused, _, rfl, rfl⟩ | ⟨db, row, updated, _, rested⟩
  · have commits := Commits.refused ((executeAll_single ..).trans refused)
    exact (Effect.disputed found active frozen commits).leaves
  · obtain ⟨notes, rfl⟩ := notifies row _ rested
    have commits := Commits.committed ((executeAll_single ..).trans updated)
    exact ⟨_, notes, .disputed found active frozen commits, rfl⟩

theorem dispute_leaves (ran : Completes host w (handle config (.dispute id callerId)) result w') :
    Leaves host config w (.dispute id callerId) result w' := by
  obtain ⟨first, rfl, completed⟩ := completes_map.mp ran
  rcases getContract.mp completed with ⟨_, rfl, rfl⟩ | ⟨view, found, completed⟩
  · exact leaves_nothing
  rcases completes_throwIf.mp completed with ⟨_, rfl, rfl⟩ | ⟨_, completed⟩
  · exact leaves_nothing
  rcases completes_throwIf.mp completed with ⟨_, rfl, rfl⟩ | ⟨active, completed⟩
  · exact leaves_nothing
  by_cases confirmed : view.escrowTxHash.isSome = true
  · rw [if_pos confirmed] at completed
    rcases completes_bind.mp completed with ⟨_, rfl, rejected⟩ | ⟨hash, between, sent, completed⟩
    · exact leaves_unsubmitted (submitDispute_submitted rejected) _
    · exact disputed_leaves found (not_not.mp active)
        (.applied confirmed (submitDispute_submitted sent)) completed fun _ _ => notified_twice
  · rw [if_neg confirmed] at completed
    exact disputed_leaves found (not_not.mp active) (.unconfirmed (by simpa using confirmed))
      completed fun _ _ => notified_twice

theorem resolveDispute_leaves {dto : ResolveDisputeDto}
    (ran : Completes host w (handle config (.resolveDispute id role dto)) result w') :
    Leaves host config w (.resolveDispute id role dto) result w' := by
  obtain ⟨first, rfl, completed⟩ := completes_map.mp ran
  rcases completes_throwIf.mp completed with ⟨_, rfl, rfl⟩ | ⟨_, completed⟩
  · exact leaves_nothing
  rcases getContract.mp completed with ⟨_, rfl, rfl⟩ | ⟨view, found, completed⟩
  · exact leaves_nothing
  rcases completes_throwIf.mp completed with ⟨_, rfl, rfl⟩ | ⟨disputed, completed⟩
  · exact leaves_nothing
  rcases completes_orThrow.mp completed with ⟨_, rfl, rfl⟩ | ⟨decision, decided, completed⟩
  · exact leaves_nothing
  rcases completes_bind.mp completed with ⟨_, rfl, rejected⟩ | ⟨hash, w₁, sent, rested⟩
  · rcases submitResolveDispute_submitted rejected with ⟨_, _, rfl⟩ | ⟨_, _, submitted⟩
    · exact leaves_nothing
    · exact leaves_unsubmitted submitted _
  rcases submitResolveDispute_submitted sent with ⟨_, contra, _⟩ | ⟨variant, rfl, submitted⟩
  · contradiction
  have rested := await_remaining.mp rested
  rw [submitted.db] at rested
  rcases completes_orThrow.mp rested with ⟨tooLarge, rfl, rfl⟩ | ⟨amount, fits, rested⟩
  · exact (Effect.resolved found (not_not.mp disputed) decided submitted (.overflow tooLarge)).leaves
  rcases await_transaction.mp rested with ⟨refused, _, rfl, rfl⟩ | ⟨db, executed, rested⟩
  · exact (Effect.resolved found (not_not.mp disputed) decided submitted (.held fits (.refused refused))).leaves
  · have rested := await_notify.mp (await_notify.mp rested)
    obtain ⟨_, rfl⟩ := completes_pure.mp rested
    exact ⟨_, _, .resolved found (not_not.mp disputed) decided submitted (.held fits (.committed executed)), rfl⟩

/-- What is left to pay is recorded where a refund went out, and only there. -/
theorem completes_refundedAmount {hash : Option TxHash} {remaining : config.numbers.Num}
    {rest : Nat → Request α} {result : Except Failure α}
    (completed : Completes host w (refundedAmount config hash remaining >>= rest) result w') :
    (if hash.isSome then config.numbers.column remaining else some 0) = none ∧
        result = .error .numericOverflow ∧ w' = w ∨
      ∃ amount, (if hash.isSome then config.numbers.column remaining else some 0) = some amount ∧
        Completes host w (rest amount) result w' := by
  cases hash with
  | none => exact .inr ⟨0, rfl, completed⟩
  | some _ => exact completes_orThrow.mp completed

/-- The statements of a cancellation follow the refund, and the rest notifies. -/
theorem cancelled_leaves {view : ContractView} {hash : Option TxHash} {w₁ : World τ}
    {rest : Unit → Request (Option TxHash)} {result : Except Failure (Option TxHash)}
    (found : w.db.contractView id = some view) (allowed : view.clientId = callerId ∨ role = .admin)
    (live : view.status ≠ .completed ∧ view.status ≠ .cancelled)
    (refunded : SubmittedIf host config w view (.refund id.symbol) hash w₁)
    (completed : Completes host w₁ (remainingAmount config id >>= fun remaining =>
      refundedAmount config hash remaining >>= fun amount =>
      await (.transaction (cancelStatements id view.job.id amount hash)) >>= rest) result w')
    (notifies : ∀ w₂, Completes host w₂ (rest ()) result w' → ∃ notes, w' = w₂.noted notes) :
    Leaves host config w (.cancel id callerId role) (result.map .cancelled) w' := by
  have completed := await_remaining.mp completed
  rw [refunded.db] at completed
  rcases completes_refundedAmount completed with ⟨tooLarge, rfl, rfl⟩ | ⟨amount, fits, completed⟩
  · exact (Effect.cancelled found allowed live refunded (.overflow tooLarge)).leaves
  rcases await_transaction.mp completed with ⟨refused, _, rfl, rfl⟩ | ⟨db, executed, rested⟩
  · exact (Effect.cancelled found allowed live refunded (.held fits (.refused refused))).leaves
  · obtain ⟨notes, rfl⟩ := notifies _ rested
    exact ⟨_, notes, .cancelled found allowed live refunded (.held fits (.committed executed)), rfl⟩

theorem cancel_leaves (ran : Completes host w (handle config (.cancel id callerId role)) result w') :
    Leaves host config w (.cancel id callerId role) result w' := by
  obtain ⟨first, rfl, completed⟩ := completes_map.mp ran
  rcases getContract.mp completed with ⟨_, rfl, rfl⟩ | ⟨view, found, completed⟩
  · exact leaves_nothing
  rcases completes_throwIf.mp completed with ⟨_, rfl, rfl⟩ | ⟨allowed, completed⟩
  · exact leaves_nothing
  have allowed := (not_and_or.mp allowed).imp not_not.mp not_not.mp
  rcases completes_throwIf.mp completed with ⟨_, rfl, rfl⟩ | ⟨live, completed⟩
  · exact leaves_nothing
  rcases completes_throwIf.mp completed with ⟨_, rfl, rfl⟩ | ⟨_, completed⟩
  · exact leaves_nothing
  by_cases confirmed : view.escrowTxHash.isSome = true
  · rw [if_pos confirmed] at completed
    rcases completes_bind.mp completed with ⟨e, rfl, rejected⟩ | ⟨hash, w₁, sent, completed⟩
    · obtain ⟨submission, same, rejected⟩ := completes_map.mp rejected
      cases submission with
      | ok => contradiction
      | error => exact leaves_unsubmitted (submitRefund_submitted rejected) _
    · obtain ⟨submission, same, refunded⟩ := completes_map.mp sent
      cases submission with
      | error => contradiction
      | ok txHash =>
        obtain rfl := Except.ok.inj same
        exact cancelled_leaves found allowed (not_or.mp live) (.applied confirmed (submitRefund_submitted refunded))
          completed fun _ => notified_twice
  · rw [if_neg confirmed] at completed
    exact cancelled_leaves found allowed (not_or.mp live) (.unconfirmed (by simpa using confirmed)) completed
      fun _ => notified_twice

theorem buildFundXdr_effect {clientKey freelancerKey admin token : Address} {total : Nat}
    {result : Except Failure ChainCall}
    (completed : Completes host w
      (EscrowService.buildFundXdr id clientKey freelancerKey admin total token) result w') :
    w' = w ∧ ∀ call, result = .ok call → ∃ amount : Escrow.I128, amount.val = total ∧
      call = .fund id.symbol clientKey freelancerKey admin amount token := by
  rcases completes_orThrow.mp completed with ⟨_, rfl, rfl⟩ | ⟨amount, fits, completed⟩
  · exact ⟨rfl, fun _ contra => nomatch contra⟩
  rcases completes_bind.mp completed with ⟨_, rfl, rejected⟩ | ⟨_, between, simulated, returned⟩
  · cases completes_perform.mp rejected with
    | notSimulated => exact ⟨rfl, fun _ contra => nomatch contra⟩
  · obtain ⟨rfl, rfl⟩ := completes_pure.mp returned
    cases completes_perform.mp simulated with
    | simulated =>
      refine ⟨rfl, ?_⟩
      intro call answered
      obtain rfl := Except.ok.inj answered
      exact ⟨amount, CheckedInt.ofInt?_eq_some.mp fits, rfl⟩

/-- Where a funding transaction is built, it is the one of the contract. -/
theorem fundXdr_effect {contract : Contract} {client freelancer : User} {amounts : List Nat}
    {result : Except Failure (Option ChainCall)}
    (completed : Completes host w (fundXdr config contract client freelancer
      (config.numbers.sum (amounts.map config.numbers.amount))) result w') :
    w' = w ∧ ∀ call, result = .ok (some call) → FundCall config contract.id amounts call := by
  unfold fundXdr at completed
  split at completed
  · rename_i clientKey freelancerKey _ _
    have attempt : ∀ (result : Except Failure (Option ChainCall)) (w' : World τ), Completes host w (do
        let adminKey ← EscrowService.getAdminPublicKey config
        let amountStroops ← Process.orThrow
          (config.numbers.amountStroops (config.numbers.sum (amounts.map config.numbers.amount))) .notAnInteger
        let xdr ← EscrowService.buildFundXdr contract.id clientKey freelancerKey adminKey amountStroops
          (config.tokenContractId.getD defaultTokenContractId)
        pure (some xdr)) result w' →
        w' = w ∧ ∀ call, result = .ok (some call) → FundCall config contract.id amounts call := by
      intro result w' completed
      rcases completes_orThrow.mp completed with ⟨_, rfl, rfl⟩ | ⟨admin, key, completed⟩
      · exact ⟨rfl, fun _ contra => nomatch contra⟩
      rcases completes_orThrow.mp completed with ⟨_, rfl, rfl⟩ | ⟨stroops, deposit, completed⟩
      · exact ⟨rfl, fun _ contra => nomatch contra⟩
      rcases completes_bind.mp completed with ⟨_, rfl, rejected⟩ | ⟨call, between, built, returned⟩
      · exact ⟨(buildFundXdr_effect rejected).1, fun _ contra => nomatch contra⟩
      · obtain ⟨rfl, rfl⟩ := completes_pure.mp returned
        obtain ⟨unchanged, terms⟩ := buildFundXdr_effect built
        refine ⟨unchanged, ?_⟩
        intro call' answered
        cases answered
        obtain ⟨amount, same, rfl⟩ := terms call rfl
        exact .intro key deposit same
    rcases completes_tryCatch.mp completed with ⟨xdr, rfl, built⟩ | ⟨_, between, failed, caught⟩
    · exact attempt _ _ built
    · obtain ⟨rfl, rfl⟩ := completes_pure.mp caught
      exact ⟨(attempt _ _ failed).1, fun _ contra => nomatch contra⟩
  · obtain ⟨rfl, rfl⟩ := completes_pure.mp completed
    exact ⟨rfl, fun _ contra => nomatch contra⟩

theorem view_id {view : ContractView} {db : Db} (found : db.contractView id = some view) :
    view.id = id := by
  simp only [Db.contractView, Option.bind_eq_bind, Option.bind_eq_some_iff] at found
  obtain ⟨contract, stored, job, _, client, _, freelancer, _, same⟩ := found
  obtain rfl := Option.some.inj same
  exact Table.key_of_find stored

theorem findOne_effect {result : Except Failure ContractView}
    (completed : Completes host w (findOne id callerId role) result w') :
    w' = w ∧ ∀ view, result = .ok view → view.id = id := by
  rcases getContract.mp completed with ⟨_, rfl, rfl⟩ | ⟨view, found, completed⟩
  · exact ⟨rfl, fun _ contra => nomatch contra⟩
  rcases completes_throwIf.mp completed with ⟨_, rfl, rfl⟩ | ⟨_, completed⟩
  · exact ⟨rfl, fun _ contra => nomatch contra⟩
  obtain ⟨rfl, rfl⟩ := completes_pure.mp completed
  refine ⟨rfl, ?_⟩
  intro view' answered
  obtain rfl := Except.ok.inj answered
  exact view_id found

theorem CreateContractDto.map_amount (dto : CreateContractDto) :
    (dto.milestones.map fun m => config.numbers.amount m.amount) = dto.amounts.map config.numbers.amount := by
  rw [amounts, List.map_map]
  rfl

theorem create_leaves {clientId : Uuid} {dto : CreateContractDto}
    (ran : Completes host w (handle config (.create clientId dto)) result w') :
    Leaves host config w (.create clientId dto) result w' := by
  obtain ⟨first, rfl, completed⟩ := completes_map.mp ran
  have completed := await_query.mp completed
  rcases completes_orThrow.mp completed with ⟨_, rfl, rfl⟩ | ⟨⟨job, existing⟩, _, completed⟩
  · exact leaves_nothing
  rcases completes_throwIf.mp completed with ⟨_, rfl, rfl⟩ | ⟨_, completed⟩
  · exact leaves_nothing
  rcases completes_throwIf.mp completed with ⟨_, rfl, rfl⟩ | ⟨_, completed⟩
  · exact leaves_nothing
  rcases completes_throwIf.mp completed with ⟨_, rfl, rfl⟩ | ⟨_, completed⟩
  · exact leaves_nothing
  have completed := await_query.mp completed
  rcases completes_orThrow.mp completed with ⟨_, rfl, rfl⟩ | ⟨freelancer, _, completed⟩
  · exact leaves_nothing
  have completed := await_query.mp completed
  rcases completes_orThrow.mp completed with ⟨_, rfl, rfl⟩ | ⟨client, _, completed⟩
  · exact leaves_nothing
  rcases completes_throwIf.mp completed with ⟨_, rfl, rfl⟩ | ⟨held, completed⟩
  · exact leaves_nothing
  have held := not_not.mp held
  rcases await_create.mp completed with ⟨_, _, rfl, rfl⟩ | ⟨id, ids, db, row, created, stored, completed⟩
  · exact leaves_nothing
  have completed := await_notify.mp completed
  obtain rfl := Table.key_of_find stored
  rw [CreateContractDto.map_amount] at completed
  rcases completes_bind.mp completed with ⟨_, rfl, rejected⟩ | ⟨xdr, between, built, completed⟩
  · obtain ⟨rfl, _⟩ := fundXdr_effect rejected
    refine ⟨_, _, .created held created ?_, rfl⟩
    intro view call contra
    contradiction
  obtain ⟨rfl, issued⟩ := fundXdr_effect built
  rcases completes_bind.mp completed with ⟨_, rfl, rejected⟩ | ⟨full, between, read, completed⟩
  · obtain ⟨rfl, _⟩ := findOne_effect rejected
    refine ⟨_, _, .created held created ?_, rfl⟩
    intro view call contra
    contradiction
  obtain ⟨rfl, same⟩ := findOne_effect read
  obtain ⟨rfl, rfl⟩ := completes_pure.mp completed
  refine ⟨_, _, .created held created ?_, rfl⟩
  intro view call answered
  cases answered
  exact ⟨same full rfl, issued call rfl⟩

/-- A completed request has left one of the effects. -/
theorem completes_leaves (ran : Completes host w (handle config endpoint) result w') :
    Leaves host config w endpoint result w' := by
  cases endpoint with
  | create => exact create_leaves ran
  | confirmFund => exact confirmFund_leaves ran
  | submitMilestone => exact submitMilestone_leaves ran
  | approveMilestone => exact approveMilestone_leaves ran
  | dispute => exact dispute_leaves ran
  | resolveDispute => exact resolveDispute_leaves ran
  | cancel => exact cancel_leaves ran

end Endpoints

end Stellance.Backend
