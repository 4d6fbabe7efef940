import Stellance.Backend.Server

/-! Requests run to their end, one at a time and without faults: what each awaited
operation may answer there, and what a submission does to the network. -/
namespace Stellance.Backend
open Process (completes_bind completes_throwIf completes_orThrow completes_pure completes_perform
  completes_tryCatch completes_fail)
variable {τ : Type} {host : Escrow.Host Address τ} {config : Config}

/-- A request run to its end, alone and without faults. -/
abbrev Completes {α : Type} (host : Escrow.Host Address τ) (w : World τ) (request : Request α)
    (result : Except Failure α) (w' : World τ) : Prop :=
  Process.Completes (Serves host False 0) w request result w'

/-- The world after some notifications. -/
def World.noted (w : World τ) (notifications : List Notification) : World τ :=
  { w with db := { w.db with notifications } }

theorem noted_self (w : World τ) : w = w.noted w.db.notifications := rfl

/-- The world after the database committed. -/
def World.wrote (w : World τ) (db : Db) : World τ := { w with db }

/-- The world after the network executed a call of the backend. -/
def World.sent (w : World τ) (host : Escrow.Host Address τ) (signer : Address) (call : ChainCall)
    (hash : TxHash) : World τ :=
  { w with chain := w.chain.execute host ⟨0, signer, call⟩ hash }

section Awaits
variable {w w' : World τ} {α : Type} {result : Except Failure α}

/-- An awaited operation fails, or is answered and the request goes on. -/
theorem await_served {op : Op} {rest : op.Answer → Request α} :
    Completes host w (await op >>= rest) result w' ↔
      (∃ e, result = .error e ∧ Serves host False 0 w op (.error e) w') ∨
      ∃ answer between, Serves host False 0 w op (.ok answer) between ∧
        Completes host between (rest answer) result w' := by
  apply completes_bind.trans
  simp only [await, completes_perform]

theorem await_query {q : Query} {rest : q.Answer → Request α} :
    Completes host w (await (.query q) >>= rest) result w' ↔
      Completes host w (rest (w.db.answer q)) result w' := by
  apply await_served.trans
  constructor
  · rintro (⟨e, rfl, asked⟩ | ⟨answer, between, asked, completed⟩)
    · cases asked with
      | unanswered _ fault => exact fault.elim
    · cases asked with
      | read => exact completed
  · intro completed
    exact .inr ⟨_, w, .read q, completed⟩

theorem await_notify {notification : Notification} {rest : Unit → Request α} :
    Completes host w (await (.notify notification) >>= rest) result w' ↔
      Completes host (w.noted (w.db.notifications ++ [notification])) (rest ()) result w' := by
  apply await_served.trans
  constructor
  · rintro (⟨e, rfl, asked⟩ | ⟨answer, between, asked, completed⟩)
    · cases asked with
      | unnotified _ fault => exact fault.elim
    · cases asked with
      | notified => exact completed
  · intro completed
    exact .inr ⟨(), _, .notified notification, completed⟩

theorem completes_notify {notification : Notification} {result : Except Failure Unit} :
    Completes host w (await (.notify notification)) result w' ↔
      result = .ok () ∧ w' = w.noted (w.db.notifications ++ [notification]) := by
  apply completes_perform.trans
  constructor
  · intro asked
    cases asked with
    | notified => exact ⟨rfl, rfl⟩
    | unnotified _ fault => exact fault.elim
  · rintro ⟨rfl, rfl⟩
    exact .notified notification

theorem await_contractUpdate {id : Uuid} {status : ContractStatus} {hash : Option TxHash}
    {rest : Contract → Request α} :
    Completes host w (await (.contractUpdate id status hash) >>= rest) result w' ↔
      (w.db.execute (.contractUpdate id status hash) = none ∧ ∃ e, result = .error e ∧ w' = w) ∨
      ∃ db row, w.db.execute (.contractUpdate id status hash) = some db ∧
        db.contracts.find id = some row ∧ Completes host (w.wrote db) (rest row) result w' := by
  apply await_served.trans
  constructor
  · rintro (⟨e, rfl, asked⟩ | ⟨answer, between, asked, completed⟩)
    · cases asked with
      | rejectedContractUpdate _ impossible =>
        exact .inl ⟨impossible.resolve_left not_false, e, rfl, rfl⟩
    · cases asked with
      | contractUpdated updated stored => exact .inr ⟨_, _, updated, stored, completed⟩
  · rintro (⟨impossible, e, rfl, rfl⟩ | ⟨db, row, updated, stored, completed⟩)
    · exact .inl ⟨e, rfl, .rejectedContractUpdate e (.inr impossible)⟩
    · exact .inr ⟨row, _, .contractUpdated updated stored, completed⟩

theorem await_transaction {statements : List Statement} {rest : Unit → Request α} :
    Completes host w (await (.transaction statements) >>= rest) result w' ↔
      (w.db.executeAll statements = none ∧ ∃ e, result = .error e ∧ w' = w) ∨
      ∃ db, w.db.executeAll statements = some db ∧
        Completes host (w.wrote db) (rest ()) result w' := by
  apply await_served.trans
  constructor
  · rintro (⟨e, rfl, asked⟩ | ⟨answer, between, asked, completed⟩)
    · cases asked with
      | rejectedTransaction _ impossible =>
        exact .inl ⟨impossible.resolve_left not_false, e, rfl, rfl⟩
    · cases asked with
      | committed executed => exact .inr ⟨_, executed, completed⟩
  · rintro (⟨impossible, e, rfl, rfl⟩ | ⟨db, executed, completed⟩)
    · exact .inl ⟨e, rfl, .rejectedTransaction e (.inr impossible)⟩
    · exact .inr ⟨(), _, .committed executed, completed⟩

/-- A submission of an admin-signed call: refused without a trace, on the ledger as a
failed transaction, or applied. -/
inductive Submitted (host : Escrow.Host Address τ) (config : Config) (w : World τ)
    (call : Address → ChainCall) : Except Failure TxHash → World τ → Prop where
  | refused (error : Failure) : Submitted host config w call (.error error) w
  | failed {signer : Address} {hash : TxHash} (error : Failure)
      (key : config.adminPublicKey = some signer) (fresh : hash ∉ w.chain.included)
      (fails : ¬ w.chain.Succeeds host {signer} (call signer)) :
      Submitted host config w call (.error error) (w.sent host signer (call signer) hash)
  | applied {signer : Address} {hash : TxHash} (key : config.adminPublicKey = some signer)
      (fresh : hash ∉ w.chain.included) (succeeds : w.chain.Succeeds host {signer} (call signer)) :
      Submitted host config w call (.ok hash) (w.sent host signer (call signer) hash)

theorem submitAdmin (call : Address → ChainCall) {signer : Address} {result : Except Failure TxHash}
    (key : config.adminPublicKey = some signer)
    (completed : Completes host w (EscrowService.submitAdminInvocation config (call signer)) result w') :
    Submitted host config w call result w' := by
  rcases completes_orThrow.mp completed with ⟨unset, _⟩ | ⟨signer', key', completed⟩
  · rw [key] at unset
    contradiction
  · obtain rfl := Option.some.inj (key.symm.trans key')
    cases completes_perform.mp completed with
    | applied fresh succeeds => exact .applied key fresh succeeds
    | refused => exact .refused _
    | failed _ fresh fails => exact .failed _ key fresh fails
    | lost _ fault => exact fault.elim

theorem submitRefund_submitted {id : Uuid} {result : Except Failure TxHash}
    (completed : Completes host w (EscrowService.submitRefund config id) result w') :
    Submitted host config w (.refund id.symbol) result w' := by
  rcases completes_orThrow.mp completed with ⟨_, rfl, rfl⟩ | ⟨signer, key, completed⟩
  · exact .refused _
  · exact submitAdmin (.refund id.symbol) key completed

theorem submitDispute_submitted {id : Uuid} {result : Except Failure TxHash}
    (completed : Completes host w (EscrowService.submitDispute config id) result w') :
    Submitted host config w (.dispute id.symbol) result w' := by
  rcases completes_orThrow.mp completed with ⟨_, rfl, rfl⟩ | ⟨signer, key, completed⟩
  · exact .refused _
  · exact submitAdmin (.dispute id.symbol) key completed

theorem submitResolveDispute_submitted {id : Uuid} {decision : Option Escrow.DisputeDecision} {bps : Nat}
    {result : Except Failure TxHash}
    (completed : Completes host w (EscrowService.submitResolveDispute config id decision bps) result w') :
    (∃ e, result = .error e ∧ w' = w) ∨ ∃ variant, decision = some variant ∧ Submitted host config w
      (fun admin => .resolveDispute id.symbol admin variant (UInt32.ofNat bps)) result w' := by
  rcases completes_orThrow.mp completed with ⟨_, rfl, rfl⟩ | ⟨signer, key, completed⟩
  · exact .inl ⟨_, rfl, rfl⟩
  rcases completes_orThrow.mp completed with ⟨_, rfl, rfl⟩ | ⟨variant, decided, completed⟩
  · exact .inl ⟨_, rfl, rfl⟩
  · exact .inr ⟨variant, decided, submitAdmin (fun admin =>
      .resolveDispute id.symbol admin variant (UInt32.ofNat bps)) key completed⟩

theorem submitReleaseMilestone_submitted {id : Uuid} {stroops : Nat}
    {result : Except Failure TxHash}
    (completed : Completes host w (EscrowService.submitReleaseMilestone config id stroops) result w') :
    (∃ e, result = .error e ∧ w' = w) ∨ ∃ amount : Escrow.I128, amount.val = stroops ∧
      Submitted host config w (fun admin => .releaseMilestone id.symbol admin amount) result w' := by
  rcases completes_orThrow.mp completed with ⟨_, rfl, rfl⟩ | ⟨signer, key, completed⟩
  · exact .inl ⟨_, rfl, rfl⟩
  rcases completes_orThrow.mp completed with ⟨_, rfl, rfl⟩ | ⟨amount, fits, completed⟩
  · exact .inl ⟨_, rfl, rfl⟩
  · exact .inr ⟨amount, CheckedInt.ofInt?_eq_some.mp fits,
      submitAdmin (fun admin => .releaseMilestone id.symbol admin amount) key completed⟩

theorem await_milestoneUpdate {id : Uuid} {status : MilestoneStatus} {rest : Milestone → Request α} :
    Completes host w (await (.milestoneUpdate id status) >>= rest) result w' ↔
      (w.db.execute (.milestoneUpdate id status) = none ∧ ∃ e, result = .error e ∧ w' = w) ∨
      ∃ db row, w.db.execute (.milestoneUpdate id status) = some db ∧
        db.milestones.find id = some row ∧ Completes host (w.wrote db) (rest row) result w' := by
  apply await_served.trans
  constructor
  · rintro (⟨e, rfl, asked⟩ | ⟨answer, between, asked, completed⟩)
    · cases asked with
      | rejectedMilestoneUpdate _ impossible =>
        exact .inl ⟨impossible.resolve_left not_false, e, rfl, rfl⟩
    · cases asked with
      | milestoneUpdated updated stored => exact .inr ⟨_, _, updated, stored, completed⟩
  · rintro (⟨impossible, e, rfl, rfl⟩ | ⟨db, row, updated, stored, completed⟩)
    · exact .inl ⟨e, rfl, .rejectedMilestoneUpdate e (.inr impossible)⟩
    · exact .inr ⟨row, _, .milestoneUpdated updated stored, completed⟩

theorem await_create {data : NewContract} {rest : Contract → Request α} :
    Completes host w (await (.create data) >>= rest) result w' ↔
      ((∀ id ids, w.db.create id ids data = none) ∧ ∃ e, result = .error e ∧ w' = w) ∨
      ∃ id ids db row, w.db.create id ids data = some db ∧ db.contracts.find id = some row ∧
        Completes host (w.wrote db) (rest row) result w' := by
  apply await_served.trans
  constructor
  · rintro (⟨e, rfl, asked⟩ | ⟨answer, between, asked, completed⟩)
    · cases asked with
      | rejectedCreate _ impossible => exact .inl ⟨impossible.resolve_left not_false, e, rfl, rfl⟩
    · cases asked with
      | created created stored => exact .inr ⟨_, _, _, _, created, stored, completed⟩
  · rintro (⟨impossible, e, rfl, rfl⟩ | ⟨id, ids, db, row, created, stored, completed⟩)
    · exact .inl ⟨e, rfl, .rejectedCreate e (.inr impossible)⟩
    · exact .inr ⟨row, _, .created created stored, completed⟩

theorem getContract {id : Uuid} {rest : ContractView → Request α} :
    Completes host w (ContractsService.getContractOrThrow id >>= rest) result w' ↔
      (w.db.contractView id = none ∧
        result = .error (.notFound ("Contract " ++ String.ofList id.text ++ " not found")) ∧ w' = w) ∨
      ∃ view, w.db.contractView id = some view ∧ Completes host w (rest view) result w' := by
  unfold ContractsService.getContractOrThrow
  rw [Process.bind_assoc]
  exact await_query.trans completes_orThrow

end Awaits

end Stellance.Backend
