import Stellance.Backend.Server

/-! The requests of the jobs service that write: creation, update and cancellation. It
shares the tables with the contracts service and reads a job with its contract. -/
namespace Stellance.Backend

def JobStatus.text : JobStatus → String
  | .open => "OPEN"
  | .inProgress => "IN_PROGRESS"
  | .completed => "COMPLETED"
  | .cancelled => "CANCELLED"

namespace JobsService
open Process hiding await

/-- A job as asked for; the lengths are those the validation allows. -/
structure CreateJobDto where
  title : String
  description : String
  budget : Nat
  category : String
  titled : title ≠ "" ∧ title.length ≤ 200
  described : description ≠ ""
  positive : 0 < budget
  categorised : category ≠ "" ∧ category.length ≤ 100

structure UpdateJobDto where
  title : Option String
  description : Option String
  budget : Option Nat
  category : Option String
  titled : ∀ text ∈ title, text ≠ "" ∧ text.length ≤ 200
  described : ∀ text ∈ description, text ≠ ""
  positive : ∀ amount ∈ budget, 0 < amount
  categorised : ∀ text ∈ category, text ≠ "" ∧ text.length ≤ 100

/-- What `job.create` inserts, before an id is given out. -/
structure NewJob where
  title : String
  description : String
  budget : Nat
  category : String
  status : JobStatus
  clientId : Uuid

def NewJob.row (data : NewJob) (id : Uuid) : Job :=
  { id, title := data.title, description := data.description, budget := data.budget,
    category := data.category, status := data.status, clientId := data.clientId }

/-- What `job.update` writes; absent columns stay. -/
structure JobData where
  title : Option String
  description : Option String
  budget : Option Nat
  category : Option String
  status : Option JobStatus

def JobData.written (data : JobData) (row : Job) : Job :=
  { row with
    title := data.title.getD row.title
    description := data.description.getD row.description
    budget := data.budget.getD row.budget
    category := data.category.getD row.category
    status := data.status.getD row.status }

@[simp] theorem JobData.written_id (data : JobData) (row : Job) : (data.written row).id = row.id := rfl

inductive Op where
  | job (id : Uuid)
  | create (data : NewJob)
  | update (id : Uuid) (data : JobData)

abbrev Op.Answer : Op → Type
  | .job _ => Option (Job × Option Contract)
  | .create _ => Job
  | .update .. => Job

abbrev Request (α : Type) := Process Failure Op Op.Answer α

def await (op : Op) : Request op.Answer := Process.perform op

def create (clientId : Uuid) (dto : CreateJobDto) : Request Job :=
  await <| .create
    { title := dto.title, description := dto.description, budget := dto.budget,
      category := dto.category, status := .open, clientId }

def findOne (id : Uuid) : Request (Job × Option Contract) := do
  let job ← await (.job id)
  orThrow job (.notFound ("Job " ++ String.ofList id.text ++ " not found"))

def update (id callerId : Uuid) (callerRole : UserRole) (dto : UpdateJobDto) : Request Job := do
  let (job, _) ← findOne id
  throwIf (job.clientId ≠ callerId ∧ callerRole ≠ .admin)
    (.forbidden "Only the job owner can update this job")
  throwIf (job.status ≠ .open) (.badRequest "Only OPEN jobs can be updated")
  await <| .update id
    { title := dto.title, description := dto.description, budget := dto.budget,
      category := dto.category, status := none }

def cancel (id callerId : Uuid) (callerRole : UserRole) : Request Job := do
  let (job, contract) ← findOne id
  throwIf (job.clientId ≠ callerId ∧ callerRole ≠ .admin)
    (.forbidden "Only the job owner can cancel this job")
  throwIf (job.status = .completed ∨ job.status = .cancelled)
    (.badRequest ("Job is already " ++ job.status.text))
  throwIf (contract.isSome = true) (.badRequest "Cannot cancel a job that has an active contract")
  await <| .update id
    { title := none, description := none, budget := none, category := none, status := some .cancelled }

inductive Endpoint where
  | create (clientId : Uuid) (dto : CreateJobDto)
  | update (id callerId : Uuid) (callerRole : UserRole) (dto : UpdateJobDto)
  | cancel (id callerId : Uuid) (callerRole : UserRole)

def handle : Endpoint → Request Job
  | .create clientId dto => create clientId dto
  | .update id callerId callerRole dto => update id callerId callerRole dto
  | .cancel id callerId callerRole => cancel id callerId callerRole

/-! ### The database -/

/-- The answers of the database; a statement may be refused for any reason. -/
inductive Serves (db : Db) : (op : Op) → Except Failure op.Answer → Db → Prop where
  | found (id : Uuid) : Serves db (.job id) (.ok (db.jobWithContract id)) db
  | created {data : NewJob} {id : Uuid} {jobs : Table Job.id}
      (inserted : db.jobs.insert (data.row id) = some jobs) :
      Serves db (.create data) (.ok (data.row id)) { db with jobs }
  | updated {id : Uuid} {data : JobData} {row : Job} (stored : db.jobs.find id = some row) :
      Serves db (.update id data) (.ok (data.written row))
        { db with jobs := db.jobs.modify id data.written data.written_id }
  | rejected (op : Op) (error : Failure) : Serves db op (.error error) db

/-- What a request of the jobs service leaves. -/
inductive Leaves (db : Db) : Db → Prop where
  | nothing : Leaves db db
  | created {row : Job} {jobs : Table Job.id} (open' : row.status = .open)
      (inserted : db.jobs.insert row = some jobs) : Leaves db { db with jobs }
  | updated {id : Uuid} {data : JobData} (same : data.status = none) :
      Leaves db { db with jobs := db.jobs.modify id data.written data.written_id }
  | cancelled {id : Uuid} {data : JobData} (cancelled : data.status = some .cancelled)
      (unbound : db.contractOfJob id = none) :
      Leaves db { db with jobs := db.jobs.modify id data.written data.written_id }

section Effects
open Process (completes_bind completes_throwIf completes_orThrow completes_perform)
variable {db db' : Db} {endpoint : Endpoint} {result : Except Failure Job} {id : Uuid}

theorem findOne_completes {α : Type} {rest : Job × Option Contract → Request α}
    {result : Except Failure α} (ran : Process.Completes Serves db (findOne id >>= rest) result db') :
    db' = db ∨ ∃ job, db.jobs.find id = some job ∧
      Process.Completes Serves db (rest (job, db.contractOfJob id)) result db' := by
  unfold findOne at ran
  rw [Process.bind_assoc] at ran
  rcases completes_bind.mp ran with ⟨_, rfl, asked⟩ | ⟨found, between, asked, ran⟩
  · cases completes_perform.mp asked
    exact .inl rfl
  cases completes_perform.mp asked with
  | found =>
    rcases completes_orThrow.mp ran with ⟨_, rfl, rfl⟩ | ⟨pair, found, ran⟩
    · exact .inl rfl
    obtain ⟨job, stored, rfl⟩ := Option.map_eq_some_iff.mp found
    exact .inr ⟨job, stored, ran⟩

theorem completes_leaves (ran : Process.Completes Serves db (handle endpoint) result db') :
    Leaves db db' := by
  cases endpoint with
  | create clientId dto =>
    cases completes_perform.mp ran with
    | created inserted => exact .created rfl inserted
    | rejected => exact .nothing
  | update id callerId callerRole dto =>
    rcases findOne_completes ran with rfl | ⟨job, stored, ran⟩
    · exact .nothing
    rcases completes_throwIf.mp ran with ⟨_, rfl, rfl⟩ | ⟨_, ran⟩
    · exact .nothing
    rcases completes_throwIf.mp ran with ⟨_, rfl, rfl⟩ | ⟨_, ran⟩
    · exact .nothing
    cases completes_perform.mp ran with
    | updated => exact .updated rfl
    | rejected => exact .nothing
  | cancel id callerId callerRole =>
    rcases findOne_completes ran with rfl | ⟨job, stored, ran⟩
    · exact .nothing
    rcases completes_throwIf.mp ran with ⟨_, rfl, rfl⟩ | ⟨_, ran⟩
    · exact .nothing
    rcases completes_throwIf.mp ran with ⟨_, rfl, rfl⟩ | ⟨_, ran⟩
    · exact .nothing
    rcases completes_throwIf.mp ran with ⟨_, rfl, rfl⟩ | ⟨unbound, ran⟩
    · exact .nothing
    cases completes_perform.mp ran with
    | updated => exact .cancelled rfl (by simpa using unbound)
    | rejected => exact .nothing

end Effects

end JobsService
end Stellance.Backend
