import Mathlib.Data.List.Infix
import Stellance.Library.Double
import Stellance.Backend.Listing

/-! The marketplace. The page fetches the open jobs once, as one page of the list that the
backend has, filters what it got and shows that in pages of its own. -/
namespace Stellance.Frontend
open Backend Backend.JobsService
open Process (completes_bind completes_pure)

/-! ### Texts -/

/-- The characters that `trim` removes: white space and line terminators. -/
def blank (c : Char) : Bool :=
  c.val ∈ [0x9, 0xA, 0xB, 0xC, 0xD, 0x20, 0xA0, 0x1680, 0x2028, 0x2029, 0x202F, 0x205F, 0x3000, 0xFEFF] ||
    (0x2000 ≤ c.val && c.val ≤ 0x200A)

def trim (text : String) : String :=
  String.ofList (((text.toList.dropWhile blank).reverse.dropWhile blank).reverse)

def includes (text part : String) : Bool := part.toList <:+: text.toList

/-! ### The request -/

/-- The parameters of `GET /jobs`, read as what they stand for. -/
structure JobsQuery where
  status : Option JobStatus
  mine : Bool
  search : Option String
  minBudget : Option ℚ
  maxBudget : Option ℚ
  page : Option Int
  limit : Option Int

/-- `JobsController.findAll` -/
def jobsController (userId : Uuid) (query : JobsQuery) : Process Failure ListQuery ListQuery.Answer PaginatedJobs :=
  findAll
    { status := query.status
      clientId := if query.mine then some userId else none
      search := (query.search.map trim).filter (· ≠ "")
      minBudget := query.minBudget
      maxBudget := query.maxBudget }
    { page := query.page, limit := query.limit }

structure JobsQueryParams where
  status : Option JobStatus
  mine : Bool

/-- The envelope of the backend is taken off, and with it the number of jobs there are. -/
def fetchJobs (userId : Uuid) (params : JobsQueryParams) :
    Process Failure ListQuery ListQuery.Answer (List ListedJob) := do
  let res ← jobsController userId
    { status := params.status, mine := params.mine, search := none, minBudget := none, maxBudget := none,
      page := none, limit := some 100 }
  pure res.data

/-! ### The filter -/

structure BudgetRange where
  label : String
  min : Nat
  max : Option Nat

def BUDGET_RANGES : List BudgetRange :=
  [⟨"Under $500", 0, some 500⟩, ⟨"$500 – $1,000", 500, some 1000⟩, ⟨"$1,000 – $5,000", 1000, some 5000⟩,
    ⟨"$5,000 – $10,000", 5000, some 10000⟩, ⟨"$10,000+", 10000, none⟩]

structure FilterOptions where
  keyword : String
  category : String
  budgetRange : Option BudgetRange

/-- Whether a budget, seven decimals of it, lies in a range. -/
def BudgetRange.admits (range : BudgetRange) (stroops : Nat) : Bool :=
  let budget := Double.nearest stroops (10 ^ 7)
  !budget.below range.min && range.max.all fun max => !budget.above max

/-- The predicate of `filterJobs`; what is lower case is up to Unicode. -/
def FilterOptions.satisfied (toLowerCase : String → String) (opts : FilterOptions) (job : ListedJob) : Bool :=
  let kw := trim (toLowerCase opts.keyword)
  (kw = "" || includes (toLowerCase (job.title ++ " " ++ job.description ++ " " ++ job.category)) kw) &&
  (opts.category = "" || job.category = opts.category) &&
  opts.budgetRange.all fun range => range.admits job.budget

def filterJobs (toLowerCase : String → String) (jobs : List ListedJob) (opts : FilterOptions) : List ListedJob :=
  jobs.filter (opts.satisfied toLowerCase)

/-! ### The page -/

def pageSize : Nat := 12

/-- The state of the page, once the jobs have been fetched. -/
structure JobsPage where
  allJobs : List ListedJob
  debouncedKeyword : String
  category : String
  budgetRangeIndex : Option Nat
  currentPage : Nat

namespace JobsPage

def selectedBudget (page : JobsPage) : Option BudgetRange :=
  page.budgetRangeIndex.bind fun index => BUDGET_RANGES[index]?

def opts (page : JobsPage) : FilterOptions :=
  ⟨page.debouncedKeyword, page.category, page.selectedBudget⟩

variable (toLowerCase : String → String) (page : JobsPage)

def filteredJobs : List ListedJob := filterJobs toLowerCase page.allJobs page.opts

def totalPages : Nat := max 1 (((page.filteredJobs toLowerCase).length + pageSize - 1) / pageSize)

def safePage : Nat := min page.currentPage (page.totalPages toLowerCase)

def pagedJobs : List ListedJob :=
  ((page.filteredJobs toLowerCase).take (page.safePage toLowerCase * pageSize)).drop
    ((page.safePage toLowerCase - 1) * pageSize)

/-- What is shown while `currentPage` goes from 1 to `totalPages`. -/
def shown : List ListedJob :=
  (List.range (page.totalPages toLowerCase)).flatMap fun index =>
    { page with currentPage := index + 1 }.pagedJobs toLowerCase

/-- All that was fetched and passes the filter is shown, in its order. -/
theorem shown_eq : page.shown toLowerCase = page.filteredJobs toLowerCase := by
  have sliced (index : Nat) (within : index < page.totalPages toLowerCase) :
      { page with currentPage := index + 1 }.pagedJobs toLowerCase =
        Paging.cut pageSize index (page.filteredJobs toLowerCase) := by
    have safe : { page with currentPage := index + 1 }.safePage toLowerCase = index + 1 :=
      Nat.min_eq_left within
    rw [pagedJobs, safe, Paging.cut, List.drop_take, Nat.add_sub_cancel, Nat.succ_mul, Nat.add_sub_cancel_left]
    rfl
  have fits : (page.filteredJobs toLowerCase).length ≤ page.totalPages toLowerCase * pageSize :=
    (Paging.le_pageCount _ (by decide)).trans (Nat.mul_le_mul_right _ (Nat.le_max_right _ _))
  calc page.shown toLowerCase
      = Paging.joined pageSize (page.totalPages toLowerCase) fun _ => page.filteredJobs toLowerCase := by
        refine List.flatMap_congr fun index member => ?_
        exact sliced index (List.mem_range.mp member)
    _ = page.filteredJobs toLowerCase := Paging.joined_all fits

end JobsPage

/-! ### The whole way -/

section Marketplace
variable {contains : String → String → Bool} {jobs : JobsTable} {userId : Uuid} {fetched : List ListedJob}

def openJobs (jobs : JobsTable) : List ListedJob := jobs.select (·.status = .open)

/-- What the page may get from the backend. -/
def Fetched (contains : String → String → Bool) (jobs : JobsTable) (userId : Uuid) (fetched : List ListedJob) :
    Prop :=
  Process.Completes (Lists contains) jobs (fetchJobs userId ⟨some .open, false⟩) (.ok fetched) jobs

theorem matching_open :
    matching contains jobs ⟨some .open, none, none, none, none⟩ = openJobs jobs := by
  refine congrArg jobs.select (funext fun job => ?_)
  simp [JobFilters.where, JobWhere.matches]

theorem fetched_iff : Fetched contains jobs userId fetched ↔
    ∃ order, Paging.Arranges ListedJob.createdAt (openJobs jobs) order ∧ fetched = order.take 100 := by
  rw [← @matching_open contains]
  unfold Fetched
  constructor
  · intro ran
    rcases completes_bind.mp ran with ⟨_, contra, _⟩ | ⟨res, _, listed, ran⟩
    · contradiction
    obtain ⟨order, arranged, rfl, rfl⟩ := findAll_completes.mp listed
    obtain ⟨same, _⟩ := completes_pure.mp ran
    exact ⟨order, arranged, Except.ok.inj same⟩
  · rintro ⟨order, arranged, rfl⟩
    exact completes_bind.mpr (.inr ⟨_, _, findAll_completes.mpr ⟨order, arranged, rfl, rfl⟩,
      completes_pure.mpr ⟨rfl, rfl⟩⟩)

/-- The page gets the jobs that fewer than a hundred are newer than. -/
theorem fetched_perm (distinct : ((openJobs jobs).map ListedJob.createdAt).Nodup)
    (got : Fetched contains jobs userId fetched) :
    fetched.Perm (Paging.before ListedJob.createdAt (openJobs jobs) 100) := by
  obtain ⟨order, arranged, rfl⟩ := fetched_iff.mp got
  exact arranged.take_perm (Paging.not_torn distinct)

/-- All jobs that pass a filter are among those that were selected. -/
theorem selected_perm_iff {rows : List ListedJob} {selected wanted : ListedJob → Bool} :
    ((rows.filter selected).filter wanted).Perm (rows.filter wanted) ↔
      ∀ job ∈ rows, wanted job = true → selected job = true := by
  rw [List.filter_filter]
  constructor
  · intro same job member wants
    have kept := same.mem_iff.mpr (List.mem_filter.mpr ⟨member, wants⟩)
    exact (Bool.and_eq_true_iff.mp (List.mem_filter.mp kept).2).2
  · intro all
    refine .of_eq (List.filter_congr fun job member => ?_)
    cases wants : wanted job with
    | false => rfl
    | true => rw [all job member wants]; rfl

/-- The marketplace shows the open jobs that pass the filter exactly where each of them is among
the hundred newest open jobs. -/
theorem marketplace_complete_iff (toLowerCase : String → String)
    (distinct : ((openJobs jobs).map ListedJob.createdAt).Nodup) :
    (∃ fetched, Fetched contains jobs userId fetched) ∧
    ∀ page : JobsPage, Fetched contains jobs userId page.allJobs →
      ((page.shown toLowerCase).Perm ((openJobs jobs).filter (page.opts.satisfied toLowerCase)) ↔
        ∀ job ∈ openJobs jobs, page.opts.satisfied toLowerCase job = true →
          (openJobs jobs).countP (job.createdAt < ·.createdAt) < 100) := by
  constructor
  · obtain ⟨order, arranged⟩ := Paging.exists_arranges ListedJob.createdAt (openJobs jobs)
    exact ⟨_, fetched_iff.mpr ⟨order, arranged, rfl⟩⟩
  · intro page got
    have same := (fetched_perm distinct got).filter (page.opts.satisfied toLowerCase)
    rw [page.shown_eq, JobsPage.filteredJobs, filterJobs]
    constructor
    · intro complete
      have all := selected_perm_iff.mp (same.symm.trans complete)
      simpa only [decide_eq_true_eq] using all
    · intro all
      refine same.trans (selected_perm_iff.mpr ?_)
      simpa only [decide_eq_true_eq] using all

end Marketplace

/-! ### A hundred jobs and one more -/

namespace Sample
open Backend.Sample

def hexDigit (n : Nat) : Fin 16 := ⟨n % 16, Nat.mod_lt _ (Nat.succ_pos 15)⟩

/-- Ids of two digits, the others being 0. -/
def numbered (n : Nat) : Uuid where
  digits := List.replicate 30 (hexDigit 0) ++ [hexDigit (n / 16), hexDigit n]
  count := rfl

theorem numbered_inj {first second : Nat} (below : first < 256) (below' : second < 256)
    (same : numbered first = numbered second) : first = second := by
  have digits := List.append_cancel_left (congrArg Uuid.digits same)
  simp only [List.cons.injEq, hexDigit, Fin.mk.injEq, and_true] at digits
  omega

/-- One job created after another. -/
def manyJobs (count : Nat) (below : count ≤ 256) : JobsTable where
  rows := (List.range count).map fun n => listedJob (numbered n) n
  nodup := by
    rw [List.map_map]
    refine List.nodup_range.map_on fun first within second within' same => ?_
    rw [List.mem_range] at within within'
    exact numbered_inj (by omega) (by omega) same

variable {count : Nat} {below : count ≤ 256}

theorem manyJobs_open : openJobs (manyJobs count below) = (manyJobs count below).rows := by
  refine List.filter_eq_self.mpr fun job member => ?_
  obtain ⟨n, _, rfl⟩ := List.mem_map.mp member
  rfl

theorem manyJobs_distinct : ((openJobs (manyJobs count below)).map ListedJob.createdAt).Nodup := by
  rw [manyJobs_open, manyJobs, List.map_map]
  exact List.nodup_range.map_on fun _ _ _ _ same => same

/-- No keyword, category or budget. -/
def unfilteredPage (allJobs : List ListedJob) : JobsPage := ⟨allJobs, "", "", none, 1⟩

theorem unfiltered_satisfied (allJobs : List ListedJob) (job : ListedJob) :
    (unfilteredPage allJobs).opts.satisfied id job = true := by
  have nothing : trim "" = "" := by decide
  simp [unfilteredPage, JobsPage.opts, JobsPage.selectedBudget, FilterOptions.satisfied, nothing]

end Sample

/-- Of 101 open jobs only a hundred are ever shown. -/
theorem marketplace_complete_fails : ¬ ∀ (toLowerCase : String → String) (contains : String → String → Bool)
    (jobs : JobsTable) (userId : Uuid) (page : JobsPage),
    ((openJobs jobs).map ListedJob.createdAt).Nodup → Fetched contains jobs userId page.allJobs →
      (page.shown toLowerCase).Perm ((openJobs jobs).filter (page.opts.satisfied toLowerCase)) := by
  intro always
  let jobs := Sample.manyJobs 101 (by decide)
  obtain ⟨order, arranged⟩ := Paging.exists_arranges ListedJob.createdAt (openJobs jobs)
  have complete := always id (fun _ _ => false) jobs Backend.Sample.clientId
    (Sample.unfilteredPage (order.take 100)) Sample.manyJobs_distinct (fetched_iff.mpr ⟨order, arranged, rfl⟩)
  have shown : ((Sample.unfilteredPage (order.take 100)).shown id).length ≤ 100 := by
    rw [JobsPage.shown_eq]
    exact (List.length_filter_le _ _).trans (List.length_take_le _ _)
  have wanted : (openJobs jobs).length = 101 := by
    rw [Sample.manyJobs_open]
    exact List.length_map _
  rw [complete.length_eq, List.filter_eq_self.mpr fun job _ => Sample.unfiltered_satisfied _ job, wanted] at shown
  omega

/-- Two open jobs are both shown. -/
theorem marketplace_complete_iff_sample : ∃ page : JobsPage,
    Fetched (fun _ _ => false) (Sample.manyJobs 2 (by decide)) Backend.Sample.clientId page.allJobs ∧
    (page.shown id).Perm (Sample.manyJobs 2 (by decide)).rows := by
  have distinct : ((openJobs (Sample.manyJobs 2 (by decide))).map ListedJob.createdAt).Nodup :=
    Sample.manyJobs_distinct
  obtain ⟨⟨fetched, got⟩, complete⟩ := @marketplace_complete_iff (fun _ _ => false) _
    Backend.Sample.clientId id distinct
  refine ⟨Sample.unfilteredPage fetched, got, ?_⟩
  have shown := (complete (Sample.unfilteredPage fetched) got).mpr fun job _ _ =>
    List.countP_le_length.trans_lt (by rw [Sample.manyJobs_open]; decide)
  rwa [List.filter_eq_self.mpr fun job _ => Sample.unfiltered_satisfied _ job, Sample.manyJobs_open] at shown

end Stellance.Frontend
