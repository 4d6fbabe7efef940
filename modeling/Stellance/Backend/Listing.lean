import Mathlib.Data.Rat.Defs
import Mathlib.Algebra.Order.Ring.Unbundled.Rat
import Stellance.Library.Paging
import Stellance.Backend.Interpreter
import Stellance.Backend.JobsService

/-! The list of jobs, page by page. Each page is a query of its own, sorted by the time of
creation alone: jobs created at one time may come in another order each time. -/
namespace Stellance.Backend

structure JobClient where
  id : Uuid
  name : String
  stellarPublicKey : Option String
  deriving DecidableEq

structure JobContract where
  id : Uuid
  status : ContractStatus
  deriving DecidableEq

/-- A job with the rows that are joined to it in a list. -/
structure ListedJob extends Job where
  createdAt : Nat
  updatedAt : Nat
  client : JobClient
  contract : Option JobContract
  deriving DecidableEq

abbrev JobsTable := Table fun job : ListedJob => job.id

namespace JobsService
open Process (completes_bind completes_perform completes_pure)

def maxPageSize : Nat := 100

def defaultPageSize : Nat := 20

structure JobFilters where
  status : Option JobStatus
  clientId : Option Uuid
  search : Option String
  minBudget : Option ℚ
  maxBudget : Option ℚ

structure PaginationParams where
  page : Option Int
  limit : Option Int

structure PaginatedJobs where
  data : List ListedJob
  total : Nat
  page : Nat
  limit : Nat
  totalPages : Nat

/-- The condition of both queries; what is left out does not matter. -/
structure JobWhere where
  status : Option JobStatus
  clientId : Option Uuid
  search : Option String
  minBudget : Option ℚ
  maxBudget : Option ℚ

def JobFilters.where (filters : JobFilters) : JobWhere where
  status := filters.status
  clientId := filters.clientId
  search := filters.search.filter (· ≠ "")
  minBudget := filters.minBudget
  maxBudget := filters.maxBudget

/-- Whether a text contains another is up to the database, which ignores case. -/
def JobWhere.matches (contains : String → String → Bool) (condition : JobWhere) (job : ListedJob) : Bool :=
  condition.status.all (job.status = ·) &&
  condition.clientId.all (job.clientId = ·) &&
  condition.search.all (fun text => contains job.title text || contains job.category text) &&
  condition.minBudget.all (fun amount => amount ≤ (job.budget : ℚ) / 10 ^ 7) &&
  condition.maxBudget.all (fun amount => (job.budget : ℚ) / 10 ^ 7 ≤ amount)

inductive ListQuery where
  | findMany (condition : JobWhere) (skip take : Nat)
  | count (condition : JobWhere)

abbrev ListQuery.Answer : ListQuery → Type
  | .findMany .. => List ListedJob
  | .count _ => Nat

def findAll (filters : JobFilters) (pagination : PaginationParams) :
    Process Failure ListQuery ListQuery.Answer PaginatedJobs := do
  let page := (max 1 (pagination.page.getD 1)).toNat
  let limit := min maxPageSize (max 1 (pagination.limit.getD defaultPageSize)).toNat
  let skip := (page - 1) * limit
  let data ← Process.perform (.findMany filters.where skip limit)
  let total ← Process.perform (.count filters.where)
  pure { data, total, page, limit, totalPages := (total + limit - 1) / limit }

/-- The answers of the database, `orderBy: { createdAt: 'desc' }`. -/
inductive Lists (contains : String → String → Bool) (jobs : JobsTable) :
    (query : ListQuery) → Except Failure query.Answer → JobsTable → Prop where
  | found {condition : JobWhere} {order : List ListedJob} (skip take : Nat)
      (arranged : Paging.Arranges ListedJob.createdAt (jobs.select (condition.matches contains)) order) :
      Lists contains jobs (.findMany condition skip take) (.ok ((order.drop skip).take take)) jobs
  | counted (condition : JobWhere) :
      Lists contains jobs (.count condition) (.ok (jobs.select (condition.matches contains)).length) jobs

section Pages
variable {contains : String → String → Bool} {jobs jobs' : JobsTable} {filters : JobFilters}
  {pagination : PaginationParams} {answer : PaginatedJobs} {limit : Nat}

/-- The jobs that a filter is for. -/
def matching (contains : String → String → Bool) (jobs : JobsTable) (filters : JobFilters) : List ListedJob :=
  jobs.select (filters.where.matches contains)

theorem matching_nodup : (matching contains jobs filters).Nodup :=
  (List.Nodup.of_map _ jobs.nodup).filter _

/-- One request for a page. -/
theorem findAll_completes : Process.Completes (Lists contains) jobs (findAll filters pagination) (.ok answer) jobs' ↔
    ∃ order, Paging.Arranges ListedJob.createdAt (matching contains jobs filters) order ∧
      let page := (max 1 (pagination.page.getD 1)).toNat
      let limit := min maxPageSize (max 1 (pagination.limit.getD defaultPageSize)).toNat
      let total := (matching contains jobs filters).length
      answer = ⟨Paging.cut limit (page - 1) order, total, page, limit, Paging.pageCount total limit⟩ ∧
        jobs' = jobs := by
  constructor
  · intro ran
    rcases completes_bind.mp ran with ⟨_, contra, _⟩ | ⟨data, _, asked, ran⟩
    · contradiction
    cases completes_perform.mp asked with
    | found skip take arranged =>
      rcases completes_bind.mp ran with ⟨_, contra, _⟩ | ⟨total, _, asked, ran⟩
      · contradiction
      cases completes_perform.mp asked with
      | counted =>
        obtain ⟨same, rfl⟩ := completes_pure.mp ran
        exact ⟨_, arranged, Except.ok.inj same, rfl⟩
  · rintro ⟨order, arranged, rfl, rfl⟩
    refine completes_bind.mpr (.inr ⟨_, _, completes_perform.mpr (.found _ _ arranged), ?_⟩)
    exact completes_bind.mpr (.inr ⟨_, _, completes_perform.mpr (.counted _), completes_pure.mpr ⟨rfl, rfl⟩⟩)

/-- What may be answered to the request for one page. -/
def AnswersPage (contains : String → String → Bool) (jobs : JobsTable) (filters : JobFilters) (limit page : Nat)
    (answer : PaginatedJobs) : Prop :=
  Process.Completes (Lists contains) jobs (findAll filters ⟨some page, some limit⟩) (.ok answer) jobs

/-- All pages together give every job that matches once, and the pages after them none. -/
structure Partitions (matching : List ListedJob) (answers : Nat → PaginatedJobs) : Prop where
  once : ((List.range (answers 1).totalPages).flatMap fun index => (answers (index + 1)).data).Perm matching
  beyond : ∀ page, (answers 1).totalPages < page → (answers page).data = []

theorem answers_iff {page : Nat} (first : 1 ≤ page) (positive : 1 ≤ limit) (atMost : limit ≤ 100) :
    AnswersPage contains jobs filters limit page answer ↔
      ∃ order, Paging.Arranges ListedJob.createdAt (matching contains jobs filters) order ∧
        let total := (matching contains jobs filters).length
        answer = ⟨Paging.cut limit (page - 1) order, total, page, limit, Paging.pageCount total limit⟩ := by
  have asked : (max 1 (page : Int)).toNat = page := by omega
  have within : min maxPageSize (max 1 (limit : Int)).toNat = limit := by
    unfold maxPageSize
    omega
  unfold AnswersPage
  rw [findAll_completes]
  simp only [Option.getD_some, asked, within, and_true]

/-- The pages are cut from lists that may be arranged otherwise each time. -/
theorem partitions_iff_joined (positive : 1 ≤ limit) (atMost : limit ≤ 100) :
    (∀ answers : Nat → PaginatedJobs,
      (∀ page, 1 ≤ page → AnswersPage contains jobs filters limit page (answers page)) →
      Partitions (matching contains jobs filters) answers) ↔
      ∀ orders : Nat → List ListedJob,
        (∀ index, Paging.Arranges ListedJob.createdAt (matching contains jobs filters) (orders index)) →
        (Paging.joined limit (Paging.pageCount (matching contains jobs filters).length limit) orders).Perm
          (matching contains jobs filters) := by
  constructor
  · intro always orders arranged
    let total := (matching contains jobs filters).length
    let answers : Nat → PaginatedJobs := fun page =>
      ⟨Paging.cut limit (page - 1) (orders (page - 1)), total, page, limit, Paging.pageCount total limit⟩
    refine (always answers fun page first => ?_).once
    exact (answers_iff first positive atMost).mpr ⟨orders (page - 1), arranged _, rfl⟩
  · intro always answers answered
    have each (index : Nat) := (answers_iff (Nat.le_add_left 1 index) positive atMost).mp
      (answered (index + 1) (Nat.le_add_left 1 index))
    choose orders arranged same using each
    have data (index : Nat) : (answers (index + 1)).data = Paging.cut limit index (orders index) := by
      rw [same]
      rfl
    have totalPages : (answers 1).totalPages = Paging.pageCount (matching contains jobs filters).length limit := by
      rw [same 0]
    constructor
    · simp only [totalPages, data]
      exact always orders arranged
    · intro page later
      obtain ⟨index, rfl⟩ : ∃ index, page = index + 1 := ⟨page - 1, by omega⟩
      rw [data]
      refine Paging.cut_beyond positive ?_
      rw [(arranged index).perm.length_eq, ← totalPages]
      omega

/-- The pages of a list of jobs make it up exactly where no jobs that were created at one time
lie on both sides of a boundary between pages. -/
theorem pages_partition_iff (positive : 1 ≤ limit) (atMost : limit ≤ 100) :
    (∀ answers : Nat → PaginatedJobs,
      (∀ page, 1 ≤ page → AnswersPage contains jobs filters limit page (answers page)) →
      Partitions (matching contains jobs filters) answers) ↔
      ∀ index, ¬ Paging.Torn ListedJob.createdAt (matching contains jobs filters) (index * limit) :=
  (partitions_iff_joined positive atMost).trans (Paging.joined_iff matching_nodup positive)

end Pages
end JobsService

/-! ### Two jobs on two pages -/

namespace Sample

def listedJob (id : Uuid) (createdAt : Nat) : ListedJob where
  id := id
  title := "A site"
  description := "A site of our own"
  budget := 3000000000
  category := "Web"
  status := .open
  clientId := clientId
  createdAt := createdAt
  updatedAt := createdAt
  client := ⟨clientId, "Ada", some "client"⟩
  contract := none

/-- Two jobs, the second of them created so much later. -/
def twoJobs (later : Nat) : JobsTable where
  rows := [listedJob jobId 1000, listedJob contractId (1000 + later)]
  nodup := show [jobId, contractId].Nodup by decide

def unfiltered : JobsService.JobFilters := ⟨none, none, none, none, none⟩

end Sample

namespace JobsService

/-- Two jobs created at one time, on pages of one. -/
theorem pages_partition_fails : ¬ ∀ (contains : String → String → Bool) (jobs : JobsTable)
    (filters : JobFilters) (limit : Nat), 1 ≤ limit → limit ≤ 100 → ∀ answers : Nat → PaginatedJobs,
      (∀ page, 1 ≤ page → AnswersPage contains jobs filters limit page (answers page)) →
      Partitions (matching contains jobs filters) answers := by
  intro always
  have joined := (partitions_iff_joined (by decide) (by decide)).mp
    (always (fun _ _ => false) (Sample.twoJobs 0) Sample.unfiltered 1 (by decide) (by decide))
  refine (Paging.joined_iff matching_nodup (by decide)).mp joined 1 ?_
  exact ⟨Sample.listedJob Sample.jobId 1000, by decide, by decide, by decide⟩

/-- Two jobs created one after the other, on pages of one. -/
theorem pages_partition_iff_sample : ∃ answers : Nat → PaginatedJobs,
    (∀ page, 1 ≤ page →
      AnswersPage (fun _ _ => false) (Sample.twoJobs 5) Sample.unfiltered 1 page (answers page)) ∧
    Partitions (Sample.twoJobs 5).rows answers := by
  obtain ⟨order, arranged⟩ := Paging.exists_arranges ListedJob.createdAt
    (matching (fun _ _ => false) (Sample.twoJobs 5) Sample.unfiltered)
  let answers : Nat → PaginatedJobs := fun page => ⟨Paging.cut 1 (page - 1) order, 2, page, 1, 2⟩
  have answered (page : Nat) (first : 1 ≤ page) :
      AnswersPage (fun _ _ => false) (Sample.twoJobs 5) Sample.unfiltered 1 page (answers page) :=
    (answers_iff first (by decide) (by decide)).mpr ⟨order, arranged, rfl⟩
  refine ⟨answers, answered, (pages_partition_iff (by decide) (by decide)).mpr ?_ answers answered⟩
  rintro index ⟨row, member, fewer, more⟩
  obtain rfl | rfl : row = Sample.listedJob Sample.jobId 1000 ∨ row = Sample.listedJob Sample.contractId 1005 := by
    simpa [matching, Sample.twoJobs] using List.mem_of_mem_filter member
  · change 1 < index * 1 at fewer
    change index * 1 < 2 at more
    omega
  · change 0 < index * 1 at fewer
    change index * 1 < 1 at more
    omega

end JobsService
end Stellance.Backend
