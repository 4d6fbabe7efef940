import Stellance.Backend.JobsService
import Stellance.Backend.Funding

/-! The two services that write jobs and contracts, one complete request at a time. The
status of a job is kept in step with its contract by hand, and the requests that finish
a contract do not keep it. -/
namespace Stellance.Backend
open ContractsService
open Process (completes_bind completes_throwIf completes_orThrow completes_pure completes_map)
variable {τ : Type} {host : Escrow.Host Address τ} {config : Config} {w w' : World τ} {id : Uuid}
  {db db' : Db}

namespace Market

inductive Label where
  | contracts (endpoint : ContractsService.Endpoint) (result : Except Failure Response)
  | jobs (endpoint : JobsService.Endpoint)
  | network
  | accounts

/-- A request of either service, run to its end, or a move of the network or of the
modules that write users and notifications. -/
inductive Step (host : Escrow.Host Address τ) (config : Config) : World τ → Label → World τ → Prop where
  | contracts {w w' : World τ} {endpoint : ContractsService.Endpoint} {result : Except Failure Response}
      (ran : Completes host w (ContractsService.handle config endpoint) result w') :
      Step host config w (.contracts endpoint result) w'
  | jobs {w : World τ} {endpoint : JobsService.Endpoint} {result : Except Failure Job} {db : Db}
      (ran : Process.Completes JobsService.Serves w.db (JobsService.handle endpoint) result db) :
      Step host config w (.jobs endpoint) (w.wrote db)
  | network {w w' : World τ} (moved : Outside host w w') : Step host config w .network w'
  | accounts {w : World τ} {users : Table User.id} {notifications : List Notification} :
      Step host config w .accounts (w.wrote { w.db with users, notifications })

end Market

/-! ### Jobs in step -/

/-- The status a job should have under its contract; where a contract is cancelled, the
one `cancel` leaves. -/
def ContractStatus.jobStatus : ContractStatus → JobStatus
  | .pending | .active | .disputed => .inProgress
  | .completed => .completed
  | .cancelled => .open

namespace Db

structure JobsFollow (db : Db) : Prop where
  free : ∀ id job, db.jobs.find id = some job →
    (∀ key row, db.contracts.find key = some row → row.jobId ≠ id) →
    job.status = .open ∨ job.status = .cancelled
  bound : ∀ key row job, db.contracts.find key = some row → db.jobs.find row.jobId = some job →
    job.status = row.status.jobStatus

/-- A job has at most one contract, and a contract has its job. -/
structure JobsBound (db : Db) : Prop where
  unique : ∀ first second row row', db.contracts.find first = some row →
    db.contracts.find second = some row' → row.jobId = row'.jobId → first = second
  placed : ∀ key row, db.contracts.find key = some row → (db.jobs.find row.jobId).isSome = true

/-- The row of one contract is rewritten and keeps its job; nothing else about jobs and
contracts changes. -/
structure Rewritten (db db' : Db) (id : Uuid) (row row' : Contract) : Prop where
  before : db.contracts.find id = some row
  after : db'.contracts.find id = some row'
  others : ∀ key ≠ id, db'.contracts.find key = db.contracts.find key
  jobs : db'.jobs = db.jobs
  job : row'.jobId = row.jobId

variable {row row' : Contract} {job : Job} {jobs : Table Job.id}

theorem JobsFollow.congr (follow : db.JobsFollow) (contracts : db'.contracts = db.contracts)
    (jobs : db'.jobs = db.jobs) : db'.JobsFollow := by
  constructor
  · rw [contracts, jobs]
    exact follow.free
  · rw [contracts, jobs]
    exact follow.bound

theorem JobsBound.congr (bound : db.JobsBound) (contracts : db'.contracts = db.contracts)
    (jobs : db'.jobs = db.jobs) : db'.JobsBound := by
  constructor
  · rw [contracts]
    exact bound.unique
  · rw [contracts, jobs]
    exact bound.placed

namespace Rewritten

theorem origin (rewritten : Rewritten db db' id row row') {key : Uuid} {other : Contract}
    (found : db'.contracts.find key = some other) :
    ∃ old, db.contracts.find key = some old ∧ old.jobId = other.jobId ∧
      (old = other ∨ key = id ∧ old = row ∧ other = row') := by
  by_cases here : key = id
  · subst here
    obtain rfl := Option.some.inj (rewritten.after.symm.trans found)
    exact ⟨row, rewritten.before, rewritten.job.symm, .inr ⟨rfl, rfl, rfl⟩⟩
  · exact ⟨other, (rewritten.others key here).symm.trans found, rfl, .inl rfl⟩

theorem still (rewritten : Rewritten db db' id row row') {key : Uuid} {old : Contract}
    (found : db.contracts.find key = some old) :
    ∃ other, db'.contracts.find key = some other ∧ other.jobId = old.jobId := by
  by_cases here : key = id
  · subst here
    obtain rfl := Option.some.inj (rewritten.before.symm.trans found)
    exact ⟨row', rewritten.after, rewritten.job⟩
  · exact ⟨old, (rewritten.others key here).trans found, rfl⟩

theorem bound (rewritten : Rewritten db db' id row row') (bound : db.JobsBound) : db'.JobsBound := by
  constructor
  · intro first second row₁ row₂ found found' same
    obtain ⟨old₁, found₁, job₁, _⟩ := rewritten.origin found
    obtain ⟨old₂, found₂, job₂, _⟩ := rewritten.origin found'
    exact bound.unique first second old₁ old₂ found₁ found₂ (job₁.trans (same.trans job₂.symm))
  · intro key other found
    obtain ⟨old, found', job, _⟩ := rewritten.origin found
    rw [rewritten.jobs, ← job]
    exact bound.placed key old found'

/-- The job stays in step exactly when the new status asks for the same one. -/
theorem follow_iff (rewritten : Rewritten db db' id row row') (follow : db.JobsFollow)
    (bound : db.JobsBound) :
    db'.JobsFollow ↔ row'.status.jobStatus = row.status.jobStatus := by
  constructor
  · intro follow'
    obtain ⟨job, stored⟩ := Option.isSome_iff_exists.mp (bound.placed id row rewritten.before)
    have now := follow'.bound id row' job rewritten.after (by rw [rewritten.jobs, rewritten.job, stored])
    exact now.symm.trans (follow.bound id row job rewritten.before stored)
  · intro same
    constructor
    · intro key job stored free
      rw [rewritten.jobs] at stored
      refine follow.free key job stored fun key' old found => ?_
      obtain ⟨other, found', job'⟩ := rewritten.still found
      exact job' ▸ free key' other found'
    · intro key other job found stored
      rw [rewritten.jobs] at stored
      obtain ⟨old, found', job', rfl | ⟨rfl, rfl, rfl⟩⟩ := rewritten.origin found
      · exact follow.bound key old job found' stored
      · exact (follow.bound key old job found' (job' ▸ stored)).trans same.symm

end Rewritten

theorem contractUpdate_rewritten {status : ContractStatus} {hash : Option TxHash}
    (updated : db.execute (.contractUpdate id status hash) = some db') :
    ∃ row, Rewritten db db' id row (row.updated status hash) := by
  obtain ⟨row, found, stored, others, _⟩ := contractUpdate_some updated
  exact ⟨row, found, stored, others, contractUpdate_jobs updated, rfl⟩

/-- A payment leaves contracts and jobs alone. -/
theorem Rewritten.after_payment {payment : Payment} {between : Db}
    (created : db.execute (.paymentCreate payment) = some between)
    (rewritten : Rewritten between db' id row row') : Rewritten db db' id row row' := by
  obtain ⟨contracts, _, _, jobs, _⟩ := paymentCreate_some created
  exact ⟨contracts ▸ rewritten.before, rewritten.after, contracts ▸ rewritten.others,
    rewritten.jobs.trans jobs, rewritten.job⟩

/-- A contract is cancelled and its job is open again. -/
theorem cancel_follow {between : Db} (follow : db.JobsFollow) (bound : db.JobsBound)
    (rewritten : Rewritten db between id row row') (cancelled : row'.status = .cancelled)
    (opened : between.execute (.jobUpdate row.jobId .open) = some db') :
    db'.JobsFollow ∧ db'.JobsBound := by
  obtain ⟨there, found⟩ := jobUpdate_find opened
  have contracts := (jobUpdate_some opened).1
  rw [rewritten.jobs] at there found
  refine ⟨⟨?_, ?_⟩, ⟨?_, ?_⟩⟩
  · intro key job stored free
    rw [found] at stored
    rw [contracts] at free
    split at stored
    · rename_i here
      exact absurd (rewritten.job.trans here.symm) (free id row' rewritten.after)
    · refine follow.free key job stored fun key' old before => ?_
      obtain ⟨other, after, job'⟩ := rewritten.still before
      exact job' ▸ free key' other after
  · intro key other job stored stored'
    rw [contracts] at stored
    rw [found] at stored'
    obtain ⟨old, before, job', kept⟩ := rewritten.origin stored
    split at stored'
    · rename_i here
      obtain ⟨old', _, rfl⟩ := Option.map_eq_some_iff.mp stored'
      -- it is the cancelled contract, since no other has this job
      obtain rfl := bound.unique key id old row before rewritten.before (job'.trans here)
      obtain rfl := Option.some.inj (rewritten.after.symm.trans stored)
      rw [cancelled]
      rfl
    · rename_i other'
      rcases kept with rfl | ⟨_, rfl, rfl⟩
      · exact follow.bound key old job before stored'
      · exact absurd rewritten.job other'
  · rw [contracts]
    exact (rewritten.bound bound).unique
  · intro key other stored
    rw [contracts] at stored
    rw [found]
    split
    · rw [Option.isSome_map]
      exact there
    · exact rewritten.jobs ▸ (rewritten.bound bound).placed key other stored

/-- After a creation there are the contracts from before and the new one. -/
theorem create_origin {ids : List Uuid} {data : NewContract} (created : db.create id ids data = some db')
    {key : Uuid} {other : Contract} (after : db'.contracts.find key = some other) :
    db.contracts.find key = some other ∨
      key = id ∧ other.jobId = data.jobId ∧ other.status = .pending := by
  obtain ⟨_, _, stored, others, _⟩ := create_some created
  by_cases here : key = id
  · subst here
    obtain rfl := Option.some.inj (stored.symm.trans after)
    exact .inr ⟨rfl, rfl, rfl⟩
  · exact .inl ((others key here).symm.trans after)

/-- No job gets a second contract. -/
theorem create_unique {ids : List Uuid} {data : NewContract}
    (unique : ∀ first second row row', db.contracts.find first = some row →
      db.contracts.find second = some row' → row.jobId = row'.jobId → first = second)
    (created : db.create id ids data = some db') {first second : Uuid} {row row' : Contract}
    (after : db'.contracts.find first = some row) (after' : db'.contracts.find second = some row')
    (same : row.jobId = row'.jobId) : first = second := by
  have alone := contractOfJob_none.mp (create_job created).1
  rcases create_origin created after with before | ⟨rfl, mine, _⟩
  · rcases create_origin created after' with before' | ⟨_, mine', _⟩
    · exact unique first second row row' before before' same
    · exact absurd (same.trans mine') (alone first row before)
  · rcases create_origin created after' with before' | ⟨rfl, _, _⟩
    · exact absurd (same.symm.trans mine) (alone second row' before')
    · rfl

/-- No job gets a second contract, and every contract has its job. -/
theorem create_bound {ids : List Uuid} {data : NewContract} (bound : db.JobsBound)
    (created : db.create id ids data = some db') : db'.JobsBound := by
  obtain ⟨_, there, found⟩ := create_job created
  refine ⟨fun _ _ _ _ => create_unique bound.unique created, fun key other after => ?_⟩
  rw [found]
  split
  · rw [Option.isSome_map]
    exact there
  · rename_i elsewhere
    rcases create_origin created after with before | ⟨_, mine, _⟩
    · exact bound.placed key other before
    · exact absurd mine elsewhere

/-- A new contract takes its job along. -/
theorem create_follow {ids : List Uuid} {data : NewContract} (follow : db.JobsFollow)
    (created : db.create id ids data = some db') : db'.JobsFollow := by
  obtain ⟨unbound, _, found⟩ := create_job created
  obtain ⟨_, absent, stored, others, _⟩ := create_some created
  have alone := contractOfJob_none.mp unbound
  have still : ∀ {key : Uuid} {old : Contract}, db.contracts.find key = some old →
      db'.contracts.find key = some old := by
    intro key old before
    refine (others key ?_).trans before
    rintro rfl
    rw [absent] at before
    contradiction
  constructor
  · intro key job stored' free
    rw [found] at stored'
    split at stored'
    · rename_i here
      exact absurd here.symm (free id _ stored)
    · exact follow.free key job stored' fun key' old before => free key' old (still before)
  · intro key other job after stored'
    rw [found] at stored'
    rcases create_origin created after with before | ⟨_, mine, pending⟩
    · rw [if_neg (alone key other before)] at stored'
      exact follow.bound key other job before stored'
    · rw [if_pos mine] at stored'
      obtain ⟨old, _, rfl⟩ := Option.map_eq_some_iff.mp stored'
      rw [pending]
      rfl

/-- Rewriting a job keeps it in step as long as its new status is one for it. -/
theorem jobs_written {key : Uuid} {data : JobsService.JobData} (follow : db.JobsFollow) (bound : db.JobsBound)
    (kept : ∀ job, db.jobs.find key = some job → (data.written job).status = job.status ∨
      (data.written job).status = .cancelled ∧
        ∀ key' row, db.contracts.find key' = some row → row.jobId ≠ key) :
    { db with jobs := db.jobs.modify key data.written data.written_id }.JobsFollow ∧
      { db with jobs := db.jobs.modify key data.written data.written_id }.JobsBound := by
  have found : ∀ key', (db.jobs.modify key data.written data.written_id).find key' =
      if key' = key then (db.jobs.find key).map data.written else db.jobs.find key' :=
    fun _ => Table.find_modify data.written_id
  refine ⟨⟨?_, ?_⟩, ⟨bound.unique, ?_⟩⟩
  · intro key' job stored free
    rw [found] at stored
    split at stored
    · rename_i here
      subst here
      obtain ⟨old, stored', rfl⟩ := Option.map_eq_some_iff.mp stored
      rcases kept old stored' with same | ⟨cancelled, _⟩
      · rw [same]
        exact follow.free key' old stored' free
      · exact .inr cancelled
    · exact follow.free key' job stored free
  · intro key' row job stored stored'
    rw [found] at stored'
    split at stored'
    · rename_i here
      subst here
      obtain ⟨old, before, rfl⟩ := Option.map_eq_some_iff.mp stored'
      rcases kept old before with same | ⟨_, alone⟩
      · rw [same]
        exact follow.bound key' row old stored before
      · exact absurd rfl (alone key' row stored)
    · exact follow.bound key' row job stored stored'
  · intro key' row stored
    rw [found]
    split
    · rename_i here
      rw [Option.isSome_map, ← here]
      exact bound.placed key' row stored
    · exact bound.placed key' row stored

theorem jobs_posted {job : Job} {jobs : Table Job.id} (follow : db.JobsFollow) (bound : db.JobsBound)
    (opened : job.status = .open) (inserted : db.jobs.insert job = some jobs) :
    { db with jobs }.JobsFollow ∧ { db with jobs }.JobsBound := by
  have fresh := (Table.insert_some inserted).1
  have found := fun key => Table.find_insert (k := key) inserted
  have older : ∀ {key : Uuid} {row : Contract}, db.contracts.find key = some row →
      jobs.find row.jobId = db.jobs.find row.jobId := by
    intro key row stored
    rw [found, if_neg]
    intro same
    have placed := bound.placed key row stored
    rw [← same, fresh] at placed
    contradiction
  refine ⟨⟨?_, ?_⟩, ⟨bound.unique, ?_⟩⟩
  · intro key job' stored free
    rw [found] at stored
    split at stored
    · obtain rfl := Option.some.inj stored
      exact .inl opened
    · exact follow.free key job' stored free
  · intro key row job' stored stored'
    rw [older stored] at stored'
    exact follow.bound key row job' stored stored'
  · intro key row stored
    rw [older stored]
    exact bound.placed key row stored

/-- The requests of the jobs service keep the jobs in step. -/
theorem jobs_follow (follow : db.JobsFollow) (bound : db.JobsBound)
    (left : JobsService.Leaves db db') : db'.JobsFollow ∧ db'.JobsBound := by
  cases left with
  | nothing => exact ⟨follow, bound⟩
  | created opened inserted => exact jobs_posted follow bound opened inserted
  | updated same =>
    refine jobs_written follow bound fun job _ => .inl ?_
    rw [JobsService.JobData.written, same]
    rfl
  | cancelled cancelled unbound =>
    refine jobs_written follow bound fun job _ => .inr ⟨?_, contractOfJob_none.mp unbound⟩
    rw [JobsService.JobData.written, cancelled]
    rfl

end Db

/-! ### The requests that finish a contract -/

section Outcomes
variable {result : Except Failure Response} {milestoneId callerId : Uuid} {role : UserRole}

/-- Jobs and contracts are as they were. -/
def SameTables (db db' : Db) : Prop := db'.contracts = db.contracts ∧ db'.jobs = db.jobs

theorem SameTables.of_eq (same : db' = db) : SameTables db db' :=
  ⟨congrArg Db.contracts same, congrArg Db.jobs same⟩

theorem resolveDispute_outcome {dto : ResolveDisputeDto}
    (ran : Completes host w (handle config (.resolveDispute id role dto)) result w') :
    (∃ e, result = .error e ∧ SameTables w.db w'.db) ∨
    ∃ r view payment db, result = .ok r ∧ w.db.contractView id = some view ∧ view.status = .disputed ∧
      w.db.executeAll [.paymentCreate payment, .contractUpdate id (finalStatus dto.decision) none] =
        some db ∧ SameTables db w'.db := by
  obtain ⟨first, rfl, completed⟩ := completes_map.mp ran
  rcases completes_throwIf.mp completed with ⟨_, rfl, rfl⟩ | ⟨_, completed⟩
  · exact .inl ⟨_, rfl, .of_eq rfl⟩
  rcases getContract.mp completed with ⟨_, rfl, rfl⟩ | ⟨view, found, completed⟩
  · exact .inl ⟨_, rfl, .of_eq rfl⟩
  rcases completes_throwIf.mp completed with ⟨_, rfl, rfl⟩ | ⟨disputed, completed⟩
  · exact .inl ⟨_, rfl, .of_eq rfl⟩
  rcases completes_orThrow.mp completed with ⟨_, rfl, rfl⟩ | ⟨decision, decided, completed⟩
  · exact .inl ⟨_, rfl, .of_eq rfl⟩
  rcases completes_bind.mp completed with ⟨_, rfl, rejected⟩ | ⟨hash, w₁, sent, completed⟩
  · rcases submitResolveDispute_submitted rejected with ⟨_, _, rfl⟩ | ⟨_, _, submitted⟩
    · exact .inl ⟨_, rfl, .of_eq rfl⟩
    · exact .inl ⟨_, rfl, .of_eq submitted.db⟩
  rcases submitResolveDispute_submitted sent with ⟨_, contra, _⟩ | ⟨_, _, submitted⟩
  · contradiction
  have sameDb := submitted.db
  have completed := await_remaining.mp completed
  rcases completes_orThrow.mp completed with ⟨_, rfl, rfl⟩ | ⟨amount, _, completed⟩
  · exact .inl ⟨_, rfl, .of_eq sameDb⟩
  rcases await_transaction.mp completed with ⟨_, _, rfl, rfl⟩ | ⟨db, executed, completed⟩
  · exact .inl ⟨_, rfl, .of_eq sameDb⟩
  · have completed := await_notify.mp completed
    have completed := await_notify.mp completed
    obtain ⟨rfl, rfl⟩ := completes_pure.mp completed
    rw [sameDb] at executed
    exact .inr ⟨_, view, _, db, rfl, found, not_not.mp disputed, executed, rfl, rfl⟩

/-- The completion check of an approval. -/
theorem maybeComplete_outcome {result : Except Failure Unit}
    (ran : Completes host w (maybeCompleteContract id) result w') :
    (∃ e, result = .error e ∧ SameTables w.db w'.db) ∨
    result = .ok () ∧ ∃ view, w.db.contractView id = some view ∧
      ((∀ m ∈ view.milestones, m.status = .paid) ∧
        (∃ db, w.db.execute (.contractUpdate id .completed none) = some db ∧ SameTables db w'.db) ∨
      (¬ ∀ m ∈ view.milestones, m.status = .paid) ∧ SameTables w.db w'.db) := by
  rcases getContract.mp ran with ⟨_, rfl, rfl⟩ | ⟨view, found, ran⟩
  · exact .inl ⟨_, rfl, .of_eq rfl⟩
  split at ran
  · rename_i allPaid
    rcases await_contractUpdate.mp ran with ⟨_, _, rfl, rfl⟩ | ⟨db, _, updated, _, ran⟩
    · exact .inl ⟨_, rfl, .of_eq rfl⟩
    · obtain ⟨rfl, rfl⟩ := completes_notify.mp (await_notify.mp ran)
      exact .inr ⟨rfl, view, found, .inl ⟨allPaid, db, updated, rfl, rfl⟩⟩
  · rename_i unpaid
    obtain ⟨rfl, rfl⟩ := completes_pure.mp ran
    exact .inr ⟨rfl, view, found, .inr ⟨unpaid, rfl, rfl⟩⟩

theorem SameTables.trans {db'' : Db} (first : SameTables db db') (second : SameTables db' db'') :
    SameTables db db'' :=
  ⟨second.1.trans first.1, second.2.trans first.2⟩

theorem approveMilestone_outcome
    (ran : Completes host w (handle config (.approveMilestone id milestoneId callerId)) result w') :
    (∃ e, result = .error e ∧ SameTables w.db w'.db) ∨
    ∃ r view milestone hash paid after, result = .ok r ∧ w.db.contractView id = some view ∧
      view.status = .active ∧ view.milestones.find? (·.id = milestoneId) = some milestone ∧
      w.db.executeAll (payMilestone id milestone hash) = some paid ∧
      paid.contractView id = some after ∧
      ((∀ m ∈ after.milestones, m.status = .paid) ∧
        (∃ db, paid.execute (.contractUpdate id .completed none) = some db ∧ SameTables db w'.db) ∨
      (¬ ∀ m ∈ after.milestones, m.status = .paid) ∧ SameTables paid w'.db) := by
  obtain ⟨first, rfl, completed⟩ := completes_map.mp ran
  rcases milestone_guards completed with
    ⟨_, rfl, rfl⟩ | ⟨view, milestone, found, _, active, listed, _, completed⟩
  · exact .inl ⟨_, rfl, .of_eq rfl⟩
  rcases completes_orThrow.mp completed with ⟨_, rfl, rfl⟩ | ⟨stroops, _, completed⟩
  · exact .inl ⟨_, rfl, .of_eq rfl⟩
  rcases completes_bind.mp completed with ⟨_, rfl, rejected⟩ | ⟨hash, w₁, sent, completed⟩
  · rcases submitReleaseMilestone_submitted rejected with ⟨_, _, rfl⟩ | ⟨_, _, submitted⟩
    · exact .inl ⟨_, rfl, .of_eq rfl⟩
    · exact .inl ⟨_, rfl, .of_eq submitted.db⟩
  rcases submitReleaseMilestone_submitted sent with ⟨_, contra, _⟩ | ⟨amount, same, submitted⟩
  · contradiction
  have sameDb := submitted.db
  rcases await_transaction.mp completed with ⟨_, _, rfl, rfl⟩ | ⟨paid, executed, completed⟩
  · exact .inl ⟨_, rfl, .of_eq sameDb⟩
  rw [sameDb] at executed
  have unchanged : SameTables w.db paid :=
    ⟨(Db.payMilestone_some executed).1, (Db.payMilestone_some executed).2.2.1⟩
  rcases completes_bind.mp completed with ⟨e, rfl, checked⟩ | ⟨_, w₂, checked, completed⟩
  · rcases maybeComplete_outcome checked with ⟨_, _, same⟩ | ⟨contra, _⟩
    · exact .inl ⟨e, rfl, unchanged.trans same⟩
    · contradiction
  have completed := await_notify.mp completed
  have completed := await_notify.mp completed
  cases Process.completes_perform.mp completed with
  | unanswered _ fault => exact fault.elim
  | read =>
    rcases maybeComplete_outcome checked with ⟨_, contra, _⟩ | ⟨_, after, read, outcome⟩
    · contradiction
    · refine .inr ⟨_, view, milestone, hash, paid, after, rfl, found, active, listed,
        executed, read, ?_⟩
      exact outcome

end Outcomes

/-! ### Every request -/

namespace Market

/-- A request goes through that finishes a contract other than by cancelling it: a
resolution, or the approval of the last unpaid milestone. -/
def Finishes (w : World τ) : Label → Prop
  | .contracts (.resolveDispute ..) (.ok _) => True
  | .contracts (.approveMilestone contractId milestoneId _) (.ok _) =>
      ∀ m ∈ w.db.milestonesOf contractId, m.id = milestoneId ∨ m.status = .paid
  | _ => False

end Market

section Steps
variable {endpoint : Endpoint} {result : Except Failure Response} {milestoneId : Uuid}
  {label : Market.Label} {view : ContractView}

/-- Jobs in step with their contracts, each with one at most. -/
def Db.InStep (db : Db) : Prop := db.JobsFollow ∧ db.JobsBound

theorem Db.InStep.same (inStep : db.InStep) (same : SameTables db db') : db'.InStep :=
  ⟨inStep.1.congr same.1 same.2, inStep.2.congr same.1 same.2⟩

theorem Db.InStep.restatus {status : ContractStatus} {hash : Option TxHash} (inStep : db.InStep)
    (found : db.contractView id = some view)
    (updated : db.execute (.contractUpdate id status hash) = some db') :
    db'.JobsBound ∧ (db'.JobsFollow ↔ status.jobStatus = view.status.jobStatus) := by
  obtain ⟨row, rewritten⟩ := Db.contractUpdate_rewritten updated
  obtain rfl := Option.some.inj ((Db.contractView_some found).1.symm.trans rewritten.before)
  exact ⟨rewritten.bound inStep.2, rewritten.follow_iff inStep.1 inStep.2⟩

theorem Db.InStep.cancel {amount : Nat} {hash : Option TxHash} (inStep : db.InStep)
    (found : db.contractView id = some view)
    (executed : db.executeAll (cancelStatements id view.job.id amount hash) = some db') :
    db'.InStep := by
  obtain ⟨stored, _, hasJob, _⟩ := Db.contractView_some found
  have job := Table.key_of_find hasJob
  -- the refund, where there is one, comes first
  have updates : ∃ row between, Db.Rewritten db between id row (row.updated .cancelled none) ∧
      between.execute (.jobUpdate view.job.id .open) = some db' := by
    cases hash with
    | none =>
      obtain ⟨between, updated, executed⟩ := Db.executeAll_cons executed
      obtain ⟨row, rewritten⟩ := Db.contractUpdate_rewritten updated
      exact ⟨row, between, rewritten, (executeAll_single ..).symm.trans executed⟩
    | some hash =>
      obtain ⟨first, created, executed⟩ := Db.executeAll_cons executed
      obtain ⟨between, updated, executed⟩ := Db.executeAll_cons executed
      obtain ⟨row, rewritten⟩ := Db.contractUpdate_rewritten updated
      exact ⟨row, between, rewritten.after_payment created, (executeAll_single ..).symm.trans executed⟩
  obtain ⟨row, between, rewritten, opened⟩ := updates
  obtain rfl := Option.some.inj (stored.symm.trans rewritten.before)
  rw [job] at opened
  exact Db.cancel_follow inStep.1 inStep.2 rewritten rfl opened

/-- The requests that finish no contract, or cancel it. -/
theorem effect_inStep (inStep : w.db.InStep) (effect : Effect host config w endpoint result w')
    (approves : ∀ id milestoneId callerId, endpoint ≠ .approveMilestone id milestoneId callerId)
    (resolves : ∀ id role dto, endpoint ≠ .resolveDispute id role dto) : w'.db.InStep := by
  cases effect with
  | nothing | failed => exact inStep
  | created _ created => exact ⟨Db.create_follow inStep.1 created, Db.create_bound inStep.2 created⟩
  | confirmed found _ _ status _ updated =>
    obtain ⟨bound, follow⟩ := inStep.restatus found updated
    refine ⟨follow.mpr ?_, bound⟩
    rcases status with pending | active
    · rw [pending]
      rfl
    · rw [active]
  | submitted found _ _ _ _ updated =>
    obtain ⟨contracts, _, _, jobs, _⟩ := Db.milestoneUpdate_some updated
    exact inStep.same ⟨contracts, jobs⟩
  | approved => exact absurd rfl (approves _ _ _)
  | disputed found active frozen commits =>
    have sameDb := frozen.db
    cases commits with
    | committed executed =>
      rw [executeAll_single, sameDb] at executed
      obtain ⟨bound, follow⟩ := inStep.restatus found executed
      refine ⟨follow.mpr ?_, bound⟩
      rw [active]
      rfl
    | refused => exact inStep.same (.of_eq sameDb)
  | resolved => exact absurd rfl (resolves _ _ _)
  | cancelled found _ _ refunded settles =>
    have sameDb := refunded.db
    cases settles with
    | overflow => exact inStep.same (.of_eq sameDb)
    | held _ commits =>
      cases commits with
      | committed executed =>
        rw [sameDb] at executed
        exact inStep.cancel found executed
      | refused => exact inStep.same (.of_eq sameDb)

/-- Once a milestone is paid, all are, if the others were. -/
theorem allPaid_iff {milestone : Milestone} {after : ContractView} {hash : TxHash}
    (found : db.contractView id = some view)
    (listed : view.milestones.find? (·.id = milestoneId) = some milestone)
    (executed : db.executeAll (payMilestone id milestone hash) = some db')
    (read : db'.contractView id = some after) :
    (∀ m ∈ after.milestones, m.status = .paid) ↔
      ∀ m ∈ db.milestonesOf id, m.id = milestoneId ∨ m.status = .paid := by
  obtain ⟨_, rfl⟩ := Db.listed found listed
  obtain ⟨_, _, _, _, _, marked, _⟩ := Db.payMilestone_some executed
  rw [(Db.contractView_some read).2.1, marked]
  constructor
  · intro allPaid m member
    by_cases here : m.id = milestone.id
    · exact .inl here
    · exact .inr (allPaid m (Milestone.mem_mark.mpr ⟨m, member, (if_neg here).symm⟩))
  · intro others m member
    obtain ⟨old, inside, rfl⟩ := Milestone.mem_mark.mp member
    split
    · rfl
    · rename_i other
      exact (others old inside).resolve_left other

/-- A dispute that is resolved finishes its contract and leaves the job behind. -/
theorem resolveDispute_inStep {role : UserRole} {dto : ResolveDisputeDto} (inStep : w.db.InStep)
    (ran : Completes host w (handle config (.resolveDispute id role dto)) result w') :
    w'.db.JobsBound ∧
      (w'.db.JobsFollow ↔ ¬ Market.Finishes w (.contracts (.resolveDispute id role dto) result)) := by
  rcases resolveDispute_outcome ran with ⟨_, rfl, unchanged⟩ |
    ⟨_, view, payment, db, rfl, found, disputed, executed, unchanged⟩
  · have kept := inStep.same unchanged
    exact ⟨kept.2, iff_of_true kept.1 not_false⟩
  · obtain ⟨paid, created, executed⟩ := Db.executeAll_cons executed
    rw [executeAll_single] at executed
    obtain ⟨row, rewritten⟩ := Db.contractUpdate_rewritten executed
    have rewritten := rewritten.after_payment created
    obtain rfl := Option.some.inj ((Db.contractView_some found).1.symm.trans rewritten.before)
    have stale := rewritten.follow_iff inStep.1 inStep.2
    have bound' := (rewritten.bound inStep.2).congr unchanged.1 unchanged.2
    refine ⟨bound', iff_of_false (fun follow' => ?_) (fun clean => clean trivial)⟩
    have finished := stale.mp (follow'.congr unchanged.1.symm unchanged.2.symm)
    rw [disputed, Contract.updated, finalStatus] at finished
    split at finished <;> contradiction

/-- So does the approval of the last milestone, and no other approval. -/
theorem approveMilestone_inStep {callerId : Uuid} (inStep : w.db.InStep)
    (ran : Completes host w (handle config (.approveMilestone id milestoneId callerId)) result w') :
    w'.db.JobsBound ∧ (w'.db.JobsFollow ↔
      ¬ Market.Finishes w (.contracts (.approveMilestone id milestoneId callerId) result)) := by
  rcases approveMilestone_outcome ran with ⟨_, rfl, unchanged⟩ |
    ⟨_, view, milestone, hash, paid, after, rfl, found, active, listed, executed, read, outcome⟩
  · have kept := inStep.same unchanged
    exact ⟨kept.2, iff_of_true kept.1 not_false⟩
  have allPaid := allPaid_iff found listed executed read
  obtain ⟨contracts, _, jobs, _⟩ := Db.payMilestone_some executed
  have inStep : paid.InStep := inStep.same ⟨contracts, jobs⟩
  rcases outcome with ⟨done, db, updated, unchanged⟩ | ⟨open', unchanged⟩
  · obtain ⟨bound', stale⟩ := inStep.restatus read updated
    have still : after.status = .active := by
      have stored := (Db.contractView_some read).1
      rw [contracts, (Db.contractView_some found).1] at stored
      exact (congrArg Contract.status (Option.some.inj stored)).symm.trans active
    refine ⟨bound'.congr unchanged.1 unchanged.2, iff_of_false (fun follow' => ?_)
      (fun clean => clean (allPaid.mp done))⟩
    have finished := stale.mp (follow'.congr unchanged.1.symm unchanged.2.symm)
    rw [still] at finished
    contradiction
  · have kept := inStep.same unchanged
    exact ⟨kept.2, iff_of_true kept.1 fun all => open' (allPaid.mpr all)⟩

theorem step_inStep (bound : w.db.JobsBound) (follow : w.db.JobsFollow)
    (step : Market.Step host config w label w') :
    w'.db.JobsBound ∧ (w'.db.JobsFollow ↔ ¬ Market.Finishes w label) := by
  have keeps : w'.db.InStep → ¬ Market.Finishes w label →
      w'.db.JobsBound ∧ (w'.db.JobsFollow ↔ ¬ Market.Finishes w label) :=
    fun kept clean => ⟨kept.2, iff_of_true kept.1 clean⟩
  have same : SameTables w.db w'.db → w'.db.InStep := Db.InStep.same ⟨follow, bound⟩
  cases step with
  | network moved =>
    refine keeps (same ?_) nofun
    cases moved <;> exact .of_eq rfl
  | accounts => exact keeps (same ⟨rfl, rfl⟩) nofun
  | jobs ran => exact keeps (Db.jobs_follow follow bound (JobsService.completes_leaves ran)) nofun
  | @contracts _ endpoint result ran =>
    obtain ⟨w₁, notes, effect, noted⟩ := completes_leaves ran
    have plain : (∀ id milestoneId callerId, endpoint ≠ .approveMilestone id milestoneId callerId) →
        (∀ id role dto, endpoint ≠ .resolveDispute id role dto) → w'.db.InStep := by
      intro approves resolves
      have kept : w₁.db.InStep := effect_inStep ⟨follow, bound⟩ effect approves resolves
      exact noted ▸ kept.same ⟨rfl, rfl⟩
    cases endpoint with
    | create | confirmFund | submitMilestone | dispute | cancel => exact keeps (plain nofun nofun) nofun
    | resolveDispute => exact resolveDispute_inStep ⟨follow, bound⟩ ran
    | approveMilestone => exact approveMilestone_inStep ⟨follow, bound⟩ ran

end Steps

/-- In a run that starts without jobs and contracts, jobs stay in step with their
contracts throughout exactly where no request finishes a contract other than by
cancelling it. -/
theorem jobs_follow_iff {start last : World τ} {trace : List (World τ × Market.Label)}
    (run : Runs.Run (Market.Step host config) start trace last) (jobs : start.db.jobs.rows = [])
    (contracts : start.db.contracts.rows = []) :
    (∀ earlier rest w, trace = earlier ++ rest → Runs.Run (Market.Step host config) start earlier w →
      Runs.Run (Market.Step host config) w rest last → w.db.JobsFollow) ↔
      ∀ point ∈ trace, ¬ Market.Finishes point.1 point.2 := by
  have noJob : ∀ id job, start.db.jobs.find id ≠ some job :=
    fun id job found => List.not_mem_nil (jobs ▸ Table.mem_of_find found)
  have noContract : ∀ id row, start.db.contracts.find id ≠ some row :=
    fun id row found => List.not_mem_nil (contracts ▸ Table.mem_of_find found)
  refine run.throughout_iff (I := fun w => w.db.JobsFollow) (J := fun w => w.db.JobsBound) ?_ ?_ ?_
  · exact ⟨fun _ _ _ _ found => absurd found (noContract _ _), fun _ _ found => absurd found (noContract _ _)⟩
  · exact ⟨fun _ _ found => absurd found (noJob _ _), fun _ _ _ found => absurd found (noContract _ _)⟩
  · exact fun bound follow step => step_inStep bound follow step

/-! ### A job and its contract -/

namespace Market

/-- Requests of the contracts service one after the other, on computed answers. -/
def requests (host : Escrow.Host Address τ) (config : Config) (supply : Supply) (w : World τ) :
    List Endpoint → Option (List (World τ × Label) × World τ)
  | [] => some ([], w)
  | endpoint :: rest => do
    let (result, w') ← Process.exec (World.answer host supply 0) w (handle config endpoint)
    let (trace, last) ← requests host config supply w' rest
    some ((w, .contracts endpoint result) :: trace, last)

theorem requests_run {step : World τ → Label → World τ → Prop} {supply : Supply} {endpoints : List Endpoint}
    {trace : List (World τ × Label)}
    (takes : ∀ {w w' : World τ} {endpoint : Endpoint} {result : Except Failure Response},
      Completes host w (handle config endpoint) result w' → step w (.contracts endpoint result) w')
    (ran : requests host config supply w endpoints = some (trace, w')) : Runs.Run step w trace w' := by
  induction endpoints generalizing w trace with
  | nil =>
    cases ran
    exact .refl
  | cons endpoint rest ih =>
    simp only [requests, Option.bind_eq_bind, Option.bind_eq_some_iff] at ran
    obtain ⟨⟨result, between⟩, executed, ⟨later, last⟩, ran, same⟩ := ran
    cases same
    have completes := Process.exec_completes (Serves host False 0) answer_serves executed
    exact .head (takes completes) (ih ran)

theorem requests_labels {supply : Supply} {endpoints : List Endpoint}
    {trace : List (World τ × Label)} (ran : requests host config supply w endpoints = some (trace, w'))
    {point : World τ × Label} (member : point ∈ trace) :
    ∃ endpoint ∈ endpoints, ∃ result, point.2 = .contracts endpoint result := by
  induction endpoints generalizing w trace with
  | nil =>
    cases ran
    contradiction
  | cons endpoint rest ih =>
    simp only [requests, Option.bind_eq_bind, Option.bind_eq_some_iff] at ran
    obtain ⟨⟨result, between⟩, _, ⟨later, last⟩, ran, same⟩ := ran
    cases same
    rcases List.mem_cons.mp member with rfl | member
    · exact ⟨endpoint, List.mem_cons_self, result, rfl⟩
    · obtain ⟨other, inside, label⟩ := ih ran member
      exact ⟨other, List.mem_cons_of_mem _ inside, label⟩

end Market

namespace Sample

/-- The marketplace before the job is posted. -/
def bare : World (Escrow.Bank Address) :=
  start.world.wrote { start.world.db with jobs := .empty }

def jobDto : JobsService.CreateJobDto where
  title := "A site"
  description := "A site of our own"
  budget := 300
  category := "Web"
  titled := by decide
  described := by decide
  positive := by decide
  categorised := by decide

theorem posted : Market.Step Sample.host Sample.config bare (.jobs (.create clientId jobDto)) start.world := by
  have inserted : bare.db.jobs.insert (JobsService.NewJob.row
      ⟨"A site", "A site of our own", 300, "Web", .open, clientId⟩ jobId) =
        some start.world.db.jobs := by
    rfl
  exact .jobs (.await (.created inserted) .done)

/-- The world after the funding that `create` asked for. -/
def backed (w : World (Escrow.Bank Address)) : World (Escrow.Bank Address) :=
  w.entered Sample.host {"client"} (.fund contractId.symbol "client" "freelancer" "admin"
    (.fromU32 300) defaultTokenContractId) hash

/-- The work on both milestones, from the confirmation on. -/
def work : List Endpoint :=
  [.confirmFund contractId clientId hash, .submitMilestone contractId milestoneId freelancerId,
    .approveMilestone contractId milestoneId clientId,
    .submitMilestone contractId nextMilestoneId freelancerId,
    .approveMilestone contractId nextMilestoneId clientId]

end Sample

/-- All milestones are paid, the contract is completed and its job still in progress. -/
theorem jobs_follow_fails : ¬ ∀ (start last : World (Escrow.Bank Address))
    (trace : List (World (Escrow.Bank Address) × Market.Label)),
    Runs.Run (Market.Step Sample.host Sample.config) start trace last → start.db.jobs.rows = [] →
    start.db.contracts.rows = [] → last.db.JobsFollow := by
  intro always
  have happens : ∃ offered, Market.requests Sample.host Sample.config Sample.supply Sample.start.world
        [.create Sample.clientId Sample.dto] = some offered ∧
      Sample.hash ∉ offered.2.chain.included ∧
      ∃ done, Market.requests Sample.host Sample.config Sample.supply (Sample.backed offered.2)
        Sample.work = some done ∧
      (done.2.db.contracts.find Sample.contractId).map (fun row => (row.jobId, row.status)) =
        some (Sample.jobId, .completed) ∧
      (done.2.db.jobs.find Sample.jobId).map Job.status = some .inProgress := by
    decide
  obtain ⟨offered, first, fresh, done, second, finished, working⟩ := happens
  have funded : Market.Step Sample.host Sample.config offered.2 .network (Sample.backed offered.2) :=
    .network (.called _ _ fresh)
  have run := ((Runs.Run.single Sample.posted).trans (Market.requests_run .contracts first)).tail funded
  have follow := always _ _ _ (run.trans (Market.requests_run .contracts second)) rfl rfl
  obtain ⟨row, stored, same⟩ := Option.map_eq_some_iff.mp finished
  obtain ⟨mine, completed⟩ := Prod.mk.inj same
  obtain ⟨job, stored', inProgress⟩ := Option.map_eq_some_iff.mp working
  have bound := follow.bound _ row job stored (mine ▸ stored')
  rw [inProgress, completed] at bound
  contradiction

/-- A contract is offered and cancelled, and its job is open again. -/
theorem jobs_follow_iff_sample : ∃ (last : World (Escrow.Bank Address))
    (trace : List (World (Escrow.Bank Address) × Market.Label)),
    Runs.Run (Market.Step Sample.host Sample.config) Sample.bare trace last ∧
      (last.db.contracts.find Sample.contractId).map Contract.status = some .cancelled ∧
      (last.db.jobs.find Sample.jobId).map Job.status = some .open ∧ last.db.JobsFollow := by
  have happens : ∃ cancelled, Market.requests Sample.host Sample.config Sample.supply Sample.start.world
        [.create Sample.clientId Sample.dto, .cancel Sample.contractId Sample.clientId .client] =
          some cancelled ∧
      (cancelled.2.db.contracts.find Sample.contractId).map Contract.status = some .cancelled ∧
      (cancelled.2.db.jobs.find Sample.jobId).map Job.status = some .open := by
    decide
  obtain ⟨cancelled, ran, status, open'⟩ := happens
  have run := (Runs.Run.single Sample.posted).trans (Market.requests_run .contracts ran)
  refine ⟨cancelled.2, _, run, status, open', ?_⟩
  refine (jobs_follow_iff run rfl rfl).mpr ?_ _ [] _ (List.append_nil _).symm run .refl
  intro point member
  rcases List.mem_append.mp member with first | rest
  · obtain rfl := List.mem_singleton.mp first
    exact nofun
  · obtain ⟨endpoint, inside, result, label⟩ := Market.requests_labels ran rest
    rw [label]
    simp only [List.mem_cons, List.not_mem_nil, or_false] at inside
    rcases inside with rfl | rfl <;> exact nofun

end Stellance.Backend
