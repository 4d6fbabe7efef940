import Stellance.Backend.Marketplace
import Stellance.Backend.Script
import Stellance.Library.Interruption

/-! Open jobs. An open job is there to be filled or withdrawn; both requests also ask that
it has no contract row. A cancelled contract opens its job again and keeps its row. -/
namespace Stellance.Backend
open ContractsService
open Process (completes_bind completes_throwIf completes_orThrow completes_pure completes_map
  completes_perform completes_tryCatch)
variable {τ : Type} {host : Escrow.Host Address τ} {config : Config} {w w' : World τ} {id : Uuid}
  {db db' : Db}

namespace JobsService

/-- The answers of the database where nothing fails: a row is refused for its references
or its key, an update for its missing row. -/
inductive Answers (db : Db) : (op : Op) → Except Failure op.Answer → Db → Prop where
  | found (id : Uuid) : Answers db (.job id) (.ok (db.jobWithContract id)) db
  | created {data : NewJob} {id : Uuid} {jobs : Table Job.id}
      (known : (db.users.find data.clientId).isSome = true)
      (inserted : db.jobs.insert (data.row id) = some jobs) :
      Answers db (.create data) (.ok (data.row id)) { db with jobs }
  | refused {data : NewJob} (error : Failure)
      (impossible : db.users.find data.clientId = none ∨ ∀ id, db.jobs.insert (data.row id) = none) :
      Answers db (.create data) (.error error) db
  | updated {id : Uuid} {data : JobData} {row : Job} (stored : db.jobs.find id = some row) :
      Answers db (.update id data) (.ok (data.written row))
        { db with jobs := db.jobs.modify id data.written data.written_id }
  | missing {id : Uuid} {data : JobData} (error : Failure) (absent : db.jobs.find id = none) :
      Answers db (.update id data) (.error error) db

variable {op : Op} {answer : Except Failure op.Answer}

theorem Answers.serves (answered : Answers db op answer db') : Serves db op answer db' := by
  cases answered with
  | found id => exact .found id
  | created _ inserted => exact .created inserted
  | refused error => exact .rejected _ error
  | updated stored => exact .updated stored
  | missing error => exact .rejected _ error

theorem exists_answers (db : Db) (op : Op) : ∃ answer db', Answers db op answer db' := by
  cases op with
  | job id => exact ⟨_, _, .found id⟩
  | create data =>
    by_cases known : (db.users.find data.clientId).isSome = true
    · by_cases free : ∀ id, db.jobs.insert (data.row id) = none
      · exact ⟨_, _, .refused (.internal "refused") (.inr free)⟩
      · obtain ⟨id, possible⟩ := not_forall.mp free
        obtain ⟨jobs, inserted⟩ := Option.ne_none_iff_exists'.mp possible
        exact ⟨_, _, .created known inserted⟩
    · exact ⟨_, _, .refused (.internal "refused") (.inl (by simpa using known))⟩
  | update id data =>
    cases stored : db.jobs.find id with
    | none => exact ⟨_, _, .missing (.internal "refused") stored⟩
    | some row => exact ⟨_, _, .updated stored⟩

end JobsService

/-! ### References -/

namespace Db

/-- The references of the jobs and the contracts: a job has its client, a contract its job,
and a job one contract at most. -/
structure Integral (db : Db) : Prop extends db.JobsBound where
  owned : ∀ id job, db.jobs.find id = some job → (db.users.find job.clientId).isSome = true

/-- Contracts keep their jobs and jobs their clients, and no row is gone or new. -/
structure SamePairs (db db' : Db) : Prop where
  contracts : ∀ key, (db'.contracts.find key).map Contract.jobId =
    (db.contracts.find key).map Contract.jobId
  jobs : ∀ key, (db'.jobs.find key).map Job.clientId = (db.jobs.find key).map Job.clientId
  users : db'.users = db.users

variable {statement : Statement} {row : Contract} {job : Job} {key : Uuid}

theorem SamePairs.trans {db'' : Db} (first : SamePairs db db') (second : SamePairs db' db'') :
    SamePairs db db'' :=
  ⟨fun key => (second.contracts key).trans (first.contracts key),
    fun key => (second.jobs key).trans (first.jobs key), second.users.trans first.users⟩

/-- A row after such a change has been there before, with the same reference. -/
theorem found_before {ρ κ : Type} {find find' : Uuid → Option ρ} {reference : ρ → κ} {row : ρ}
    (same : ∀ key, (find' key).map reference = (find key).map reference) (found : find' key = some row) :
    ∃ old, find key = some old ∧ reference old = reference row := by
  have mapped := same key
  rw [found, Option.map_some] at mapped
  exact Option.map_eq_some_iff.mp mapped.symm

theorem SamePairs.job_kept (same : SamePairs db db') :
    (db'.jobs.find key).isSome = (db.jobs.find key).isSome := by
  rw [← Option.isSome_map (f := Job.clientId), same.jobs, Option.isSome_map]

theorem Integral.kept (integral : db.Integral) (same : SamePairs db db') : db'.Integral where
  unique := by
    intro first second row row' found found' equal
    obtain ⟨old, before, job⟩ := found_before same.contracts found
    obtain ⟨old', before', job'⟩ := found_before same.contracts found'
    exact integral.unique first second old old' before before' (job.trans (equal.trans job'.symm))
  placed := by
    intro key row found
    obtain ⟨old, before, job⟩ := found_before same.contracts found
    rw [same.job_kept, ← job]
    exact integral.placed key old before
  owned := by
    intro key job found
    obtain ⟨old, before, client⟩ := found_before same.jobs found
    rw [same.users, ← client]
    exact integral.owned key old before

theorem contractUpdate_pairs {status : ContractStatus} {hash : Option TxHash}
    (updated : db.execute (.contractUpdate id status hash) = some db') : SamePairs db db' := by
  obtain ⟨row, found, stored, others, _⟩ := contractUpdate_some updated
  refine ⟨fun key => ?_, fun key => by rw [contractUpdate_jobs updated], ?_⟩
  · by_cases here : key = id
    · rw [here, found, stored]
      rfl
    · rw [others key here]
  · rw [execute] at updated
    split at updated
    · obtain rfl := Option.some.inj updated
      rfl
    · contradiction

theorem jobUpdate_pairs {status : JobStatus} (updated : db.execute (.jobUpdate id status) = some db') :
    SamePairs db db' := by
  obtain ⟨_, found⟩ := jobUpdate_find updated
  refine ⟨fun key => by rw [(jobUpdate_some updated).1], fun key => ?_, ?_⟩
  · rw [found]
    split
    · rename_i here
      rw [here, Option.map_map]
      rfl
    · rfl
  · rw [execute] at updated
    split at updated
    · obtain rfl := Option.some.inj updated
      rfl
    · contradiction

theorem execute_pairs (executed : db.execute statement = some db') : SamePairs db db' := by
  cases statement with
  | contractUpdate => exact contractUpdate_pairs executed
  | jobUpdate => exact jobUpdate_pairs executed
  | milestoneUpdate =>
    obtain ⟨contracts, _, users, jobs, _⟩ := milestoneUpdate_some executed
    exact ⟨fun key => by rw [contracts], fun key => by rw [jobs], users⟩
  | paymentCreate =>
    obtain ⟨contracts, _, users, jobs, _⟩ := paymentCreate_some executed
    exact ⟨fun key => by rw [contracts], fun key => by rw [jobs], users⟩

theorem executeAll_pairs {statements : List Statement} (executed : db.executeAll statements = some db') :
    SamePairs db db' := by
  induction statements generalizing db with
  | nil =>
    obtain rfl := Option.some.inj executed
    exact ⟨fun _ => rfl, fun _ => rfl, rfl⟩
  | cons statement rest ih =>
    obtain ⟨between, first, later⟩ := executeAll_cons executed
    exact (execute_pairs first).trans (ih later)

/-- What a creation needs and leaves of users and jobs. -/
theorem create_users {ids : List Uuid} {data : NewContract} (created : db.create id ids data = some db') :
    db'.users = db.users ∧
      ∀ key, (db'.jobs.find key).map Job.clientId = (db.jobs.find key).map Job.clientId := by
  simp only [create, Option.bind_eq_bind, Option.bind_eq_some_iff] at created
  obtain ⟨_, _, contracts, _, milestones, _, opened⟩ := created
  have same := jobUpdate_pairs opened
  exact ⟨same.users, same.jobs⟩

theorem create_integral {ids : List Uuid} {data : NewContract} (integral : db.Integral)
    (created : db.create id ids data = some db') : db'.Integral := by
  obtain ⟨users, jobs⟩ := create_users created
  refine ⟨create_bound integral.toJobsBound created, fun key job found => ?_⟩
  obtain ⟨old, before, client⟩ := found_before jobs found
  rw [users, ← client]
  exact integral.owned key old before

/-- With unused ids at hand, a creation goes through where its references are good. -/
theorem create_possible {ids : List Uuid} {data : NewContract} (unbound : db.contractOfJob data.jobId = none)
    (placed : (db.jobs.find data.jobId).isSome = true) (client : (db.users.find data.clientId).isSome = true)
    (freelancer : (db.users.find data.freelancerId).isSome = true)
    (sameLength : ids.length = data.milestones.length) (differ : ids.Nodup)
    (fresh : db.contracts.find id = none) (unused : ∀ key ∈ ids, db.milestones.find key = none) :
    ∃ db', db.create id ids data = some db' := by
  obtain ⟨contracts, inserted⟩ : ∃ contracts, db.contracts.insert
      ⟨id, data.jobId, data.freelancerId, data.clientId, .pending, none⟩ = some contracts :=
    Table.exists_insert fresh
  have keys : ((ids.zip data.milestones).map fun planned =>
      (⟨planned.1, id, planned.2.1, planned.2.2, .pending⟩ : Milestone)).map Milestone.id = ids := by
    rw [List.map_map]
    exact List.map_fst_zip (Nat.le_of_eq sameLength)
  obtain ⟨milestones, planned⟩ := Table.exists_insertAll (t := db.milestones) (fun row member =>
    unused row.id (keys ▸ List.mem_map_of_mem member)) (keys.symm ▸ differ)
  obtain ⟨job, found⟩ := Option.isSome_iff_exists.mp placed
  have there : { db with contracts, milestones }.jobs.find data.jobId = some job := found
  obtain ⟨db', opened⟩ := jobUpdate_possible .inProgress there
  refine ⟨db', ?_⟩
  rw [create, unbound]
  simp only [sameLength, client, freelancer, Option.isNone_none, and_self, guard, if_true,
    Option.bind_eq_bind, Option.pure_def, Option.bind_some, Option.bind_eq_some_iff]
  exact ⟨contracts, inserted, milestones, planned, opened⟩

/-! ### Vacancy -/

/-- No open job has a contract, not even a cancelled one. -/
def Vacant (db : Db) : Prop :=
  ∀ id job, db.jobs.find id = some job → job.status = .open → db.contractOfJob id = none

theorem unbound_kept (same : ∀ key, (db'.contracts.find key).map Contract.jobId =
    (db.contracts.find key).map Contract.jobId) (unbound : db.contractOfJob id = none) :
    db'.contractOfJob id = none := by
  refine contractOfJob_none.mpr fun key row found => ?_
  obtain ⟨old, before, job⟩ := found_before same found
  exact job ▸ contractOfJob_none.mp unbound key old before

/-- Only a statement that opens a job can leave one open with a contract. -/
theorem execute_vacant (executed : db.execute statement = some db')
    (closed : ∀ key, statement ≠ .jobUpdate key .open) (vacant : db.Vacant) : db'.Vacant := by
  intro key job found status
  refine unbound_kept (execute_pairs executed).contracts ?_
  cases statement with
  | contractUpdate => exact vacant key job (contractUpdate_jobs executed ▸ found) status
  | milestoneUpdate => exact vacant key job ((milestoneUpdate_some executed).2.2.2.1 ▸ found) status
  | paymentCreate => exact vacant key job ((paymentCreate_some executed).2.2.2.1 ▸ found) status
  | jobUpdate id written =>
    rw [(jobUpdate_find executed).2] at found
    split at found
    · obtain ⟨old, _, rfl⟩ := Option.map_eq_some_iff.mp found
      exact absurd (congrArg (Statement.jobUpdate id) status) (closed id)
    · exact vacant key job found status

theorem executeAll_vacant {statements : List Statement} (executed : db.executeAll statements = some db')
    (closed : ∀ key, .jobUpdate key .open ∉ statements) (vacant : db.Vacant) : db'.Vacant := by
  induction statements generalizing db with
  | nil => exact Option.some.inj executed ▸ vacant
  | cons statement rest ih =>
    obtain ⟨between, first, later⟩ := executeAll_cons executed
    refine ih later (fun key member => closed key (List.mem_cons_of_mem _ member)) ?_
    exact execute_vacant first (fun key same => closed key (same ▸ List.mem_cons_self)) vacant

theorem create_vacant {ids : List Uuid} {data : NewContract} (vacant : db.Vacant)
    (created : db.create id ids data = some db') : db'.Vacant := by
  obtain ⟨_, _, found⟩ := create_job created
  intro key job stored status
  rw [found] at stored
  split at stored
  · obtain ⟨old, _, rfl⟩ := Option.map_eq_some_iff.mp stored
    contradiction
  · rename_i other
    have unbound := contractOfJob_none.mp (vacant key job stored status)
    refine contractOfJob_none.mpr fun key' row after => ?_
    rcases create_origin created after with before | ⟨_, mine, _⟩
    · exact unbound key' row before
    · exact fun same => other (same.symm.trans mine)

end Db

/-! ### One answer -/

section Answers

theorem serves_integral {faults : Prop} {request : Nat} {op : Op} {answer : Except Failure op.Answer}
    (served : Serves host faults request w op answer w') (integral : w.db.Integral) : w'.db.Integral := by
  cases served with
  | created created => exact Db.create_integral integral created
  | contractUpdated updated => exact integral.kept (Db.execute_pairs updated)
  | milestoneUpdated updated => exact integral.kept (Db.execute_pairs updated)
  | committed executed => exact integral.kept (Db.executeAll_pairs executed)
  | notified => exact ⟨⟨integral.unique, integral.placed⟩, integral.owned⟩
  | _ => exact integral

/-- A transaction that sets a job open. -/
def Op.Reopens : Op → Prop
  | .transaction statements => ∃ key, .jobUpdate key .open ∈ statements
  | _ => False

theorem serves_vacant {faults : Prop} {request : Nat} {op : Op} {answer : Except Failure op.Answer}
    (served : Serves host faults request w op answer w') (closed : ¬ op.Reopens) (vacant : w.db.Vacant) :
    w'.db.Vacant := by
  cases served with
  | created created => exact Db.create_vacant vacant created
  | contractUpdated updated => exact Db.execute_vacant updated nofun vacant
  | milestoneUpdated updated => exact Db.execute_vacant updated nofun vacant
  | committed executed => exact Db.executeAll_vacant executed (fun key member => closed ⟨key, member⟩) vacant
  | _ => exact vacant

theorem answers_integral {op : JobsService.Op} {answer : Except Failure op.Answer}
    (answered : JobsService.Answers db op answer db') (integral : db.Integral) : db'.Integral := by
  cases answered with
  | found | refused | missing => exact integral
  | created known inserted =>
    have found := fun key => Table.find_insert (k := key) inserted
    refine ⟨⟨integral.unique, fun key row stored => ?_⟩, fun key job stored => ?_⟩
    · rw [found]
      split
      · rfl
      · exact integral.placed key row stored
    · rw [found] at stored
      split at stored
      · obtain rfl := Option.some.inj stored
        exact known
      · exact integral.owned key job stored
  | @updated id data =>
    refine integral.kept ⟨fun _ => rfl, fun key => ?_, rfl⟩
    rw [Table.find_modify data.written_id]
    split
    · rename_i here
      rw [here, Option.map_map]
      rfl
    · rfl

theorem leaves_vacant (bound : db.JobsBound) (left : JobsService.Leaves db db') (vacant : db.Vacant) :
    db'.Vacant := by
  have written : ∀ {key : Uuid} {data : JobsService.JobData}, data.status ≠ some .open →
      { db with jobs := db.jobs.modify key data.written data.written_id }.Vacant := by
    intro key data closed key' job found status
    have found := (Table.find_modify data.written_id).symm.trans found
    split at found
    · rename_i here
      obtain ⟨old, before, rfl⟩ := Option.map_eq_some_iff.mp found
      refine vacant key' old (here ▸ before) ?_
      unfold JobsService.JobData.written at status
      cases stays : data.status with
      | none => simpa [stays] using status
      | some other =>
        rw [stays] at status closed
        exact absurd (congrArg some status) closed
    · exact vacant key' job found status
  cases left with
  | nothing => exact vacant
  | updated same => exact written (by simp [same])
  | cancelled cancelled => exact written (by simp [cancelled])
  | @created row jobs _ inserted =>
    intro key job found status
    rw [Table.find_insert inserted] at found
    split at found
    · rename_i here
      -- nothing refers to an id that was free
      refine Db.contractOfJob_none.mpr fun key' contract stored same => ?_
      have placed := bound.placed key' contract stored
      rw [same, ← here, (Table.insert_some inserted).1] at placed
      contradiction
    · exact vacant key job found status

end Answers

/-! ### One request -/

section Requests
variable {endpoint : Endpoint} {result : Except Failure Response} {callerId : Uuid} {role : UserRole}

/-- Only a cancellation opens a job again. -/
theorem handle_closed (other : ∀ id callerId role, endpoint ≠ .cancel id callerId role) :
    (handle config endpoint).Never Op.Reopens := by
  refine (handle_scripted config endpoint).never fun told op reopens script => ?_
  obtain ⟨key, member⟩ : ∃ key statements, op = .transaction statements ∧
      .jobUpdate key .open ∈ statements := by
    cases op with
    | transaction statements =>
      obtain ⟨key, member⟩ := reopens
      exact ⟨key, statements, rfl, member⟩
    | _ => exact reopens.elim
  obtain ⟨statements, rfl, member⟩ := member
  obtain ⟨id, view, later, _, _, _, writes⟩ := script.wrote not_false (by simp) (by simp)
  cases writes with
  | pay | resolve => simp [payMilestone] at member
  | cancel => exact other _ _ _ rfl

/-- What follows the refund, or the lack of one. -/
theorem cancelled_outcome {view : ContractView} {hash : Option TxHash} {w₁ : World τ}
    {rest : Unit → Request (Option TxHash)} {result : Except Failure (Option TxHash)}
    (sameDb : w₁.db = w.db)
    (completed : Completes host w₁ (remainingAmount config id >>= fun remaining =>
      refundedAmount config hash remaining >>= fun amount =>
      await (.transaction (cancelStatements id view.job.id amount hash)) >>= rest) result w')
    (notifies : ∀ w₂, Completes host w₂ (rest ()) result w' → result = .ok hash ∧ SameTables w₂.db w'.db) :
    (∃ e, result = .error e ∧ SameTables w.db w'.db) ∨
    ∃ amount db, result = .ok hash ∧
      w.db.executeAll (cancelStatements id view.job.id amount hash) = some db ∧ SameTables db w'.db := by
  have completed := await_remaining.mp completed
  rcases completes_refundedAmount completed with ⟨_, rfl, rfl⟩ | ⟨amount, _, completed⟩
  · exact .inl ⟨_, rfl, .of_eq sameDb⟩
  rcases await_transaction.mp completed with ⟨_, _, rfl, rfl⟩ | ⟨db, executed, rested⟩
  · exact .inl ⟨_, rfl, .of_eq sameDb⟩
  · obtain ⟨rfl, same⟩ := notifies _ rested
    rw [sameDb] at executed
    exact .inr ⟨_, db, rfl, executed, same⟩

theorem cancel_outcome (ran : Completes host w (handle config (.cancel id callerId role)) result w') :
    (∃ e, result = .error e ∧ SameTables w.db w'.db) ∨
    ∃ r view amount hash db, result = .ok r ∧ w.db.contractView id = some view ∧
      w.db.executeAll (cancelStatements id view.job.id amount hash) = some db ∧ SameTables db w'.db := by
  obtain ⟨first, rfl, completed⟩ := completes_map.mp ran
  rcases getContract.mp completed with ⟨_, rfl, rfl⟩ | ⟨view, found, completed⟩
  · exact .inl ⟨_, rfl, .of_eq rfl⟩
  rcases completes_throwIf.mp completed with ⟨_, rfl, rfl⟩ | ⟨_, completed⟩
  · exact .inl ⟨_, rfl, .of_eq rfl⟩
  rcases completes_throwIf.mp completed with ⟨_, rfl, rfl⟩ | ⟨_, completed⟩
  · exact .inl ⟨_, rfl, .of_eq rfl⟩
  rcases completes_throwIf.mp completed with ⟨_, rfl, rfl⟩ | ⟨_, completed⟩
  · exact .inl ⟨_, rfl, .of_eq rfl⟩
  have notifies : ∀ (hash : Option TxHash) (first second : Notification) (w₂ : World τ) result,
      Completes host w₂ (await (.notify first) >>= fun _ => await (.notify second) >>= fun _ => pure hash)
        result w' → result = .ok hash ∧ SameTables w₂.db w'.db := by
    intro hash first second w₂ result rested
    have rested := await_notify.mp rested
    have rested := await_notify.mp rested
    obtain ⟨rfl, rfl⟩ := completes_pure.mp rested
    exact ⟨rfl, rfl, rfl⟩
  by_cases confirmed : view.escrowTxHash.isSome = true
  · rw [if_pos confirmed] at completed
    rcases completes_bind.mp completed with ⟨_, rfl, rejected⟩ | ⟨hash, w₁, sent, completed⟩
    · obtain ⟨_, _, rejected⟩ := completes_map.mp rejected
      exact .inl ⟨_, rfl, .of_eq (submitRefund_submitted rejected).db⟩
    · obtain ⟨_, _, sent⟩ := completes_map.mp sent
      rcases cancelled_outcome (submitRefund_submitted sent).db completed fun w₂ => notifies _ _ _ w₂ _
        with ⟨_, rfl, same⟩ | ⟨_, db, rfl, executed, same⟩
      · exact .inl ⟨_, rfl, same⟩
      · exact .inr ⟨_, view, _, hash, db, rfl, found, executed, same⟩
  · rw [if_neg confirmed] at completed
    rcases cancelled_outcome rfl completed fun w₂ => notifies _ _ _ w₂ _
      with ⟨_, rfl, same⟩ | ⟨_, db, rfl, executed, same⟩
    · exact .inl ⟨_, rfl, same⟩
    · exact .inr ⟨_, view, _, none, db, rfl, found, executed, same⟩

theorem Db.Vacant.same (vacant : db.Vacant) (same : SameTables db db') : db'.Vacant := by
  intro key job found status
  rw [same.2] at found
  have unbound := vacant key job found status
  unfold Db.contractOfJob at unbound ⊢
  rw [same.1]
  exact unbound

/-- A cancellation leaves an open job with a contract. -/
theorem cancelStatements_not_vacant {view : ContractView} {amount : Nat} {hash : Option TxHash}
    (found : db.contractView id = some view)
    (executed : db.executeAll (cancelStatements id view.job.id amount hash) = some db') : ¬ db'.Vacant := by
  intro vacant
  obtain ⟨stored, _, hasJob, _⟩ := Db.contractView_some found
  obtain ⟨between, first, opened⟩ : ∃ between,
      db.executeAll (cancelStatements id view.job.id amount hash).dropLast = some between ∧
        between.execute (.jobUpdate view.job.id .open) = some db' := by
    cases hash with
    | none =>
      obtain ⟨between, updated, executed⟩ := Db.executeAll_cons executed
      rw [executeAll_single] at executed
      exact ⟨between, (executeAll_single ..).trans updated, executed⟩
    | some hash =>
      obtain ⟨paid, created, executed⟩ := Db.executeAll_cons executed
      obtain ⟨between, updated, executed⟩ := Db.executeAll_cons executed
      rw [executeAll_single] at executed
      exact ⟨between, Option.bind_eq_some_iff.mpr ⟨paid, created, (executeAll_single ..).trans updated⟩,
        executed⟩
  obtain ⟨there, after⟩ := Db.jobUpdate_find opened
  obtain ⟨job, before⟩ := Option.isSome_iff_exists.mp there
  have unbound := vacant view.job.id (job.updated .open) (by rw [after, if_pos rfl, before]; rfl) rfl
  have pairs := (Db.executeAll_pairs first).trans (Db.execute_pairs opened)
  obtain ⟨row, now, mine⟩ := Db.found_before (fun key => (pairs.contracts key).symm) stored
  exact Db.contractOfJob_none.mp unbound id row now (mine.trans (Table.key_of_find hasJob).symm)

end Requests

/-! ### Usable jobs -/

/-- Ids that are not in use, for a contract and its milestones. -/
def Db.Room (db : Db) (count : Nat) : Prop :=
  ∃ (id : Uuid) (ids : List Uuid), ids.length = count ∧ ids.Nodup ∧ db.contracts.find id = none ∧
    ∀ key ∈ ids, db.milestones.find key = none

/-- A request for a contract comes to an end, and succeeds with a new contract as asked
for. -/
structure Hires (host : Escrow.Host Address τ) (config : Config) (w : World τ) (clientId : Uuid)
    (dto : CreateContractDto) : Prop where
  ends : ∃ result w', Completes host w (handle config (.create clientId dto)) result w'
  hires : ∀ result w', Completes host w (handle config (.create clientId dto)) result w' →
    (∃ response, result = .ok response) ∧ ∃ id, w.db.contracts.find id = none ∧
      w'.db.contracts.find id = some ⟨id, dto.jobId, dto.freelancerId, clientId, .pending, none⟩

/-- A request to cancel a job comes to an end, and succeeds. -/
structure Withdraws (db : Db) (id callerId : Uuid) (role : UserRole) : Prop where
  ends : ∃ result db', Process.Completes JobsService.Answers db
    (JobsService.handle (.cancel id callerId role)) result db'
  withdraws : ∀ result db', Process.Completes JobsService.Answers db
    (JobsService.handle (.cancel id callerId role)) result db' →
    ∃ row, result = .ok row ∧ db'.jobs.find id = some row ∧ row.status = .cancelled

/-- The owner of an open job can hire any user for it, with any list of milestones that is asked
for, and can cancel it. -/
def World.OpenUsable (host : Escrow.Host Address τ) (config : Config) (asked : CreateContractDto → Prop)
    (w : World τ) : Prop :=
  ∀ id job, w.db.jobs.find id = some job → job.status = .open →
    (∀ dto, asked dto → dto.jobId = id → (w.db.users.find dto.freelancerId).isSome = true →
      w.db.Room dto.milestones.length → Hires host config w job.clientId dto) ∧
    ∀ role, Withdraws w.db id job.clientId role

/-- The columns hold the amounts of every request that is asked for. -/
def World.Fitting (config : Config) (asked : CreateContractDto → Prop) (w : World τ) : Prop :=
  ∀ dto job, asked dto → w.db.jobs.find dto.jobId = some job → job.status = .open →
    (w.db.users.find dto.freelancerId).isSome = true → w.db.Room dto.milestones.length →
    ∀ m ∈ dto.milestones, config.numbers.holds m.amount = true

section Usable

theorem exists_serves (w : World τ) (op : Op) :
    ∃ (answer : Except Failure op.Answer) (w' : World τ), Serves host False 0 w op answer w' := by
  cases op with
  | query asked => exact ⟨_, _, .read asked⟩
  | notify notification => exact ⟨_, _, .notified notification⟩
  | simulate call => exact ⟨_, _, .simulated call⟩
  | submit signer call => exact ⟨_, _, .refused signer call (.internal "refused")⟩
  | horizon txHash =>
    by_cases included : txHash ∈ w.chain.included
    · exact ⟨_, _, .onHorizon included⟩
    · exact ⟨_, _, .notOnHorizon (.internal "refused") included⟩
  | create data =>
    by_cases impossible : ∀ id ids, w.db.create id ids data = none
    · exact ⟨_, _, .rejectedCreate (.internal "refused") (.inr impossible)⟩
    · simp only [not_forall] at impossible
      obtain ⟨id, ids, possible⟩ := impossible
      obtain ⟨db, created⟩ := Option.ne_none_iff_exists'.mp possible
      exact ⟨_, _, .created created (Db.create_some created).2.2.1⟩
  | contractUpdate id status hash =>
    cases updated : w.db.execute (.contractUpdate id status hash) with
    | none => exact ⟨_, _, .rejectedContractUpdate (.internal "refused") (.inr updated)⟩
    | some db =>
      obtain ⟨row, _, stored, _⟩ := Db.contractUpdate_some updated
      exact ⟨_, _, .contractUpdated updated stored⟩
  | milestoneUpdate id status =>
    cases updated : w.db.execute (.milestoneUpdate id status) with
    | none => exact ⟨_, _, .rejectedMilestoneUpdate (.internal "refused") (.inr updated)⟩
    | some db =>
      obtain ⟨there, found⟩ := Db.milestoneUpdate_find updated id
      obtain ⟨row, before⟩ := Option.isSome_iff_exists.mp there
      rw [if_pos rfl, before] at found
      exact ⟨_, _, .milestoneUpdated updated found⟩
  | transaction statements =>
    cases executed : w.db.executeAll statements with
    | none => exact ⟨_, _, .rejectedTransaction (.internal "refused") (.inr executed)⟩
    | some db => exact ⟨_, _, .committed executed⟩

/-- What is left of a creation after its commit does not fail. -/
theorem fundXdr_succeeds {contract : Contract} {client freelancer : User} {total : config.numbers.Num}
    {result : Except Failure (Option ChainCall)}
    (completed : Completes host w (fundXdr config contract client freelancer total) result w') :
    ∃ xdr, result = .ok xdr := by
  unfold fundXdr at completed
  split at completed
  · rcases completes_tryCatch.mp completed with ⟨xdr, rfl, _⟩ | ⟨_, _, _, caught⟩
    · exact ⟨xdr, rfl⟩
    · exact ⟨none, (completes_pure.mp caught).1⟩
  · exact ⟨none, (completes_pure.mp completed).1⟩

variable {clientId callerId : Uuid} {role : UserRole} {job : Job} {dto : CreateContractDto}

theorem findOne_succeeds {contract : Contract} {result : Except Failure ContractView}
    (stored : w.db.contracts.find id = some contract) (placed : (w.db.jobs.find contract.jobId).isSome = true)
    (client : (w.db.users.find contract.clientId).isSome = true)
    (freelancer : (w.db.users.find contract.freelancerId).isSome = true)
    (party : contract.clientId = callerId)
    (completed : Completes host w (findOne id callerId role) result w') : ∃ view, result = .ok view := by
  obtain ⟨job, hasJob⟩ := Option.isSome_iff_exists.mp placed
  obtain ⟨payer, hasClient⟩ := Option.isSome_iff_exists.mp client
  obtain ⟨payee, hasFreelancer⟩ := Option.isSome_iff_exists.mp freelancer
  have shown : ∃ view, w.db.contractView id = some view := by
    simp [Db.contractView, stored, hasJob, hasClient, hasFreelancer]
  obtain ⟨view, found⟩ := shown
  rcases getContract.mp completed with ⟨missing, _⟩ | ⟨_, _, completed⟩
  · rw [found] at missing
    contradiction
  · rename_i view' found'
    obtain rfl := Option.some.inj (stored.symm.trans (Db.contractView_some found').1)
    rcases completes_throwIf.mp completed with ⟨denied, _⟩ | ⟨_, completed⟩
    · exact absurd party denied.2.1
    · exact ⟨view', (completes_pure.mp completed).1⟩

/-- With no contract on its open job the owner's request passes every guard and commits, where
the columns hold its amounts. -/
theorem hires_of_vacant (integral : w.db.Integral) (vacant : w.db.Vacant)
    (stored : w.db.jobs.find dto.jobId = some job) (status : job.status = .open)
    (freelancer : (w.db.users.find dto.freelancerId).isSome = true)
    (room : w.db.Room dto.milestones.length) (held : ∀ m ∈ dto.milestones, config.numbers.holds m.amount = true) :
    Hires host config w job.clientId dto := by
  have unbound := vacant dto.jobId job stored status
  have client := integral.owned dto.jobId job stored
  refine ⟨Process.exists_completes exists_serves _ _, fun result w' ran => ?_⟩
  obtain ⟨first, rfl, completed⟩ := completes_map.mp ran
  have completed := await_query.mp completed
  rw [show w.db.answer (.job dto.jobId) = some (job, none) by
    simp [Db.answer, Db.jobWithContract, stored, unbound]] at completed
  rcases completes_throwIf.mp completed with ⟨stranger, _⟩ | ⟨_, completed⟩
  · exact absurd rfl stranger
  rcases completes_throwIf.mp completed with ⟨closed, _⟩ | ⟨_, completed⟩
  · exact absurd status closed
  rcases completes_throwIf.mp completed with ⟨taken, _⟩ | ⟨_, completed⟩
  · contradiction
  have completed := await_query.mp completed
  rcases completes_orThrow.mp completed with ⟨absent, _⟩ | ⟨_, _, completed⟩
  · rw [show w.db.users.find dto.freelancerId = none from absent] at freelancer
    contradiction
  have completed := await_query.mp completed
  rcases completes_orThrow.mp completed with ⟨absent, _⟩ | ⟨_, _, completed⟩
  · rw [show w.db.users.find job.clientId = none from absent] at client
    contradiction
  rcases completes_throwIf.mp completed with ⟨overflow, _⟩ | ⟨_, completed⟩
  · exact absurd held overflow
  rcases await_create.mp completed with ⟨impossible, _⟩ | ⟨id, ids, db, row, created, stored', completed⟩
  · obtain ⟨id, ids, sameLength, differ, fresh, unused⟩ := room
    have placed : (w.db.jobs.find dto.jobId).isSome = true := by rw [stored]; rfl
    obtain ⟨db', created⟩ : ∃ db', w.db.create id ids (dto.newContract job.clientId) = some db' :=
      Db.create_possible unbound placed client freelancer (sameLength.trans (List.length_map _).symm)
        differ fresh unused
    have contra : some db' = none := created.symm.trans (impossible id ids)
    contradiction
  obtain ⟨_, absent, mine, _⟩ := Db.create_some created
  have placed := (Db.create_integral integral created).placed id _ mine
  obtain ⟨users, _⟩ := Db.create_users created
  obtain rfl := Option.some.inj (mine.symm.trans stored')
  have completed := await_notify.mp completed
  rw [CreateContractDto.map_amount] at completed
  rcases completes_bind.mp completed with ⟨_, rfl, rejected⟩ | ⟨xdr, between, built, completed⟩
  · obtain ⟨_, contra⟩ := fundXdr_succeeds rejected
    contradiction
  obtain ⟨rfl, _⟩ := fundXdr_effect built
  have reads : ∀ {notes : List Notification} {result : Except Failure ContractView} {w₂ : World τ},
      Completes host ((w.wrote db).noted notes) (findOne id job.clientId .client) result w₂ →
        ∃ view, result = .ok view :=
    findOne_succeeds mine placed (users ▸ client) (users ▸ freelancer) rfl
  rcases completes_bind.mp completed with ⟨_, rfl, rejected⟩ | ⟨full, between, read, completed⟩
  · obtain ⟨_, contra⟩ := reads rejected
    contradiction
  obtain ⟨rfl, _⟩ := findOne_effect read
  obtain ⟨rfl, rfl⟩ := completes_pure.mp completed
  exact ⟨⟨_, rfl⟩, id, absent, mine⟩

/-- A request that hires has amounts that the columns hold. -/
theorem Hires.held (hires : Hires host config w clientId dto) :
    ∀ m ∈ dto.milestones, config.numbers.holds m.amount = true := by
  obtain ⟨result, w', ran⟩ := hires.ends
  obtain ⟨_, id, absent, stored⟩ := hires.hires result w' ran
  obtain ⟨w₁, notes, effect, rfl⟩ := create_leaves ran
  cases effect with
  | created held => exact held
  | nothing | failed =>
    have missing : w.db.contracts.find id = _ := stored
    rw [absent] at missing
    contradiction

theorem findOne_answers {α : Type} {rest : Job × Option Contract → JobsService.Request α}
    {result : Except Failure α} (stored : db.jobs.find id = some job)
    (ran : Process.Completes JobsService.Answers db (JobsService.findOne id >>= rest) result db') :
    Process.Completes JobsService.Answers db (rest (job, db.contractOfJob id)) result db' := by
  unfold JobsService.findOne at ran
  rw [Process.bind_assoc] at ran
  rcases completes_bind.mp ran with ⟨_, _, asked⟩ | ⟨found, between, asked, ran⟩
  · cases completes_perform.mp asked
  cases completes_perform.mp asked with
  | found =>
    rw [show db.jobWithContract id = some (job, db.contractOfJob id) by
      rw [Db.jobWithContract, stored, Option.map_some]] at ran
    exact ran

theorem withdraws_of_unbound (stored : db.jobs.find id = some job) (status : job.status = .open)
    (unbound : db.contractOfJob id = none) : Withdraws db id job.clientId role := by
  refine ⟨Process.exists_completes JobsService.exists_answers _ _, fun result db' ran => ?_⟩
  have ran := findOne_answers stored ran
  rcases completes_throwIf.mp ran with ⟨stranger, _⟩ | ⟨_, ran⟩
  · exact absurd rfl stranger.1
  rcases completes_throwIf.mp ran with ⟨closed, _⟩ | ⟨_, ran⟩
  · simp [status] at closed
  rcases completes_throwIf.mp ran with ⟨taken, _⟩ | ⟨_, ran⟩
  · rw [unbound] at taken
    contradiction
  cases completes_perform.mp ran with
  | updated there =>
    obtain rfl := Option.some.inj (stored.symm.trans there)
    exact ⟨_, rfl, Table.find_modify_self (JobsService.JobData.written_id _) stored, rfl⟩
  | missing _ absent =>
    rw [stored] at absent
    contradiction

/-- A job that its owner can cancel has no contract. -/
theorem unbound_of_withdraws (stored : db.jobs.find id = some job)
    (withdraws : Withdraws db id job.clientId role) : db.contractOfJob id = none := by
  obtain ⟨_, db', ran⟩ := withdraws.ends
  obtain ⟨_, rfl, _⟩ := withdraws.withdraws _ _ ran
  have ran := findOne_answers stored ran
  rcases completes_throwIf.mp ran with ⟨_, contra, _⟩ | ⟨_, ran⟩
  · contradiction
  rcases completes_throwIf.mp ran with ⟨_, contra, _⟩ | ⟨_, ran⟩
  · contradiction
  rcases completes_throwIf.mp ran with ⟨_, contra, _⟩ | ⟨unbound, _⟩
  · contradiction
  · simpa using unbound

/-- The open jobs are usable exactly where none of them has a contract, and the columns hold
what is asked for. -/
theorem openUsable_iff {asked : CreateContractDto → Prop} (integral : w.db.Integral) :
    w.OpenUsable host config asked ↔ w.db.Vacant ∧ w.Fitting config asked := by
  constructor
  · intro usable
    constructor
    · intro id job stored status
      exact unbound_of_withdraws stored ((usable id job stored status).2 .client)
    · intro dto job mine stored status freelancer room
      exact ((usable _ job stored status).1 dto mine rfl freelancer room).held
  · rintro ⟨vacant, fitting⟩ id job stored status
    refine ⟨?_, fun role => withdraws_of_unbound stored status (vacant id job stored status)⟩
    rintro dto mine rfl freelancer room
    exact hires_of_vacant integral vacant stored status freelancer room
      (fitting dto job mine stored status freelancer room)

end Usable

/-! ### Every run -/

namespace Market

/-- The steps of the marketplace with references kept: a job needs its client, and no user
is ever deleted. -/
inductive Sound (host : Escrow.Host Address τ) (config : Config) : World τ → Label → World τ → Prop where
  | contracts {w w' : World τ} {endpoint : ContractsService.Endpoint} {result : Except Failure Response}
      (ran : Completes host w (ContractsService.handle config endpoint) result w') :
      Sound host config w (.contracts endpoint result) w'
  | jobs {w : World τ} {endpoint : JobsService.Endpoint} {result : Except Failure Job} {db : Db}
      (ran : Process.Completes JobsService.Answers w.db (JobsService.handle endpoint) result db) :
      Sound host config w (.jobs endpoint) (w.wrote db)
  | network {w w' : World τ} (moved : Outside host w w') : Sound host config w .network w'
  | accounts {w : World τ} {users : Table User.id} {notifications : List Notification}
      (kept : ∀ id, (w.db.users.find id).isSome = true → (users.find id).isSome = true) :
      Sound host config w .accounts (w.wrote { w.db with users, notifications })

/-- A request goes through that cancels a contract. -/
def Cancels : Label → Prop
  | .contracts (.cancel ..) (.ok _) => True
  | _ => False

theorem sound_integral {label : Label} (integral : w.db.Integral) (step : Sound host config w label w') :
    w'.db.Integral := by
  cases step with
  | contracts ran => exact ran.invariant (I := fun w => w.db.Integral) serves_integral integral
  | jobs ran => exact ran.invariant (I := Db.Integral) answers_integral integral
  | network moved =>
    have same : w'.db = w.db := by cases moved <;> rfl
    exact same ▸ integral
  | accounts kept =>
    exact ⟨⟨integral.unique, integral.placed⟩, fun id job stored => kept _ (integral.owned id job stored)⟩

theorem sound_vacant {label : Label} (integral : w.db.Integral) (vacant : w.db.Vacant)
    (step : Sound host config w label w') : w'.db.Vacant ↔ ¬ Cancels label := by
  cases step with
  | network moved =>
    have same : w'.db = w.db := by cases moved <;> rfl
    exact iff_of_true (same ▸ vacant) not_false
  | accounts => exact iff_of_true vacant not_false
  | jobs ran =>
    refine iff_of_true ?_ not_false
    exact leaves_vacant integral.toJobsBound
      (JobsService.completes_leaves (ran.mono JobsService.Answers.serves)) vacant
  | @contracts _ endpoint result ran =>
    by_cases other : ∀ id callerId role, endpoint ≠ .cancel id callerId role
    · have kept : w'.db.Vacant := ran.invariant_never (B := Op.Reopens) (I := fun w => w.db.Vacant)
        serves_vacant (handle_closed other) vacant
      refine iff_of_true kept ?_
      cases endpoint with
      | cancel => exact absurd rfl (other _ _ _)
      | _ => exact not_false
    · simp only [not_forall, not_not] at other
      obtain ⟨id, callerId, role, rfl⟩ := other
      rcases cancel_outcome ran with ⟨_, rfl, same⟩ | ⟨_, view, _, _, db, rfl, found, executed, same⟩
      · exact iff_of_true (vacant.same same) not_false
      · refine iff_of_false (fun vacant' => ?_) (fun clean => clean trivial)
        exact cancelStatements_not_vacant found executed (vacant'.same ⟨same.1.symm, same.2.symm⟩)

end Market

theorem integral_of_empty (jobs : db.jobs.rows = []) (contracts : db.contracts.rows = []) : db.Integral where
  unique := fun _ _ _ _ found => absurd (contracts ▸ Table.mem_of_find found) List.not_mem_nil
  placed := fun _ _ found => absurd (contracts ▸ Table.mem_of_find found) List.not_mem_nil
  owned := fun _ _ found => absurd (jobs ▸ Table.mem_of_find found) List.not_mem_nil

/-- In a run of complete requests from a database without jobs and contracts, the open jobs
are usable throughout exactly where no contract is cancelled and none is asked for with an
amount that its column does not hold. -/
theorem open_usable_iff {start last : World τ} {trace : List (World τ × Market.Label)}
    (asked : CreateContractDto → Prop) (run : Runs.Run (Market.Sound host config) start trace last)
    (jobs : start.db.jobs.rows = []) (contracts : start.db.contracts.rows = []) :
    (∀ earlier rest w, trace = earlier ++ rest → Runs.Run (Market.Sound host config) start earlier w →
      Runs.Run (Market.Sound host config) w rest last → w.OpenUsable host config asked) ↔
      (∀ point ∈ trace, ¬ Market.Cancels point.2) ∧
      ∀ earlier rest w, trace = earlier ++ rest → Runs.Run (Market.Sound host config) start earlier w →
        Runs.Run (Market.Sound host config) w rest last → w.Fitting config asked := by
  have integral := integral_of_empty jobs contracts
  have vacant : start.db.Vacant :=
    fun _ _ found => absurd (jobs ▸ Table.mem_of_find found) List.not_mem_nil
  have vacancy := run.throughout_iff (I := fun w => w.db.Vacant) (J := fun w => w.db.Integral) integral
    vacant fun integral vacant step =>
      ⟨Market.sound_integral integral step, Market.sound_vacant integral vacant step⟩
  have usable : ∀ {earlier : List (World τ × Market.Label)} {w : World τ},
      Runs.Run (Market.Sound host config) start earlier w →
      (w.OpenUsable host config asked ↔ w.db.Vacant ∧ w.Fitting config asked) :=
    fun first => openUsable_iff (first.invariant (I := fun w => w.db.Integral) Market.sound_integral integral)
  rw [← vacancy]
  constructor
  · intro always
    constructor
    · exact fun earlier rest w cut first later => ((usable first).mp (always earlier rest w cut first later)).1
    · exact fun earlier rest w cut first later => ((usable first).mp (always earlier rest w cut first later)).2
  · rintro ⟨vacant, fitting⟩ earlier rest w cut first later
    exact (usable first).mpr ⟨vacant earlier rest w cut first later, fitting earlier rest w cut first later⟩

/-! ### A job that was offered once -/

namespace Sample

theorem listed : Market.Sound Sample.host Sample.config bare (.jobs (.create clientId jobDto)) start.world := by
  have inserted : bare.db.jobs.insert (JobsService.NewJob.row
      ⟨"A site", "A site of our own", 300, "Web", .open, clientId⟩ jobId) =
        some start.world.db.jobs := by
    rfl
  exact .jobs (.await (.created rfl inserted) .done)

end Sample

/-- A contract is offered and cancelled, and the job is open and cannot be offered again. -/
theorem open_usable_fails : ¬ ∀ (start last : World (Escrow.Bank Address))
    (trace : List (World (Escrow.Bank Address) × Market.Label)),
    Runs.Run (Market.Sound Sample.host Sample.config) start trace last → start.db.jobs.rows = [] →
    start.db.contracts.rows = [] → last.OpenUsable Sample.host Sample.config fun _ => True := by
  intro always
  have happens : ∃ cancelled, Market.requests Sample.host Sample.config Sample.supply Sample.start.world
        [.create Sample.clientId Sample.dto, .cancel Sample.contractId Sample.clientId .client] =
          some cancelled ∧
      (cancelled.2.db.jobs.find Sample.jobId).map Job.status = some .open ∧
      (cancelled.2.db.contractOfJob Sample.jobId).isSome = true := by
    decide
  obtain ⟨cancelled, ran, opened, kept⟩ := happens
  obtain ⟨job, stored, status⟩ := Option.map_eq_some_iff.mp opened
  have run := (Runs.Run.single Sample.listed).trans (Market.requests_run .contracts ran)
  have integral : cancelled.2.db.Integral :=
    run.invariant (I := fun w => w.db.Integral) Market.sound_integral (integral_of_empty rfl rfl)
  have vacant := ((openUsable_iff integral).mp (always _ _ _ run rfl rfl)).1
  rw [vacant _ job stored status] at kept
  contradiction

/-- The job is listed, and can be filled with two milestones and withdrawn. -/
theorem open_usable_iff_sample : ∃ (last : World (Escrow.Bank Address))
    (trace : List (World (Escrow.Bank Address) × Market.Label)),
    Runs.Run (Market.Sound Sample.host Sample.config) Sample.bare trace last ∧
      (last.db.jobs.find Sample.jobId).map Job.status = some .open ∧
      last.OpenUsable Sample.host Sample.config (· = Sample.dto) := by
  have run := Runs.Run.single Sample.listed
  refine ⟨_, _, run, rfl, ?_⟩
  refine (open_usable_iff (· = Sample.dto) run rfl rfl).mpr ⟨?_, ?_⟩ _ [] _ (List.append_nil _).symm run .refl
  · intro point member
    obtain rfl := List.mem_singleton.mp member
    exact not_false
  · rintro _ _ w _ _ _ _ _ rfl _ _ _ _
    decide

end Stellance.Backend
