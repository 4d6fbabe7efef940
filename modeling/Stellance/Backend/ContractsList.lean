import Stellance.Library.Paging
import Stellance.Backend.Interpreter
import Stellance.Backend.Vacancy

/-! The list of contracts against the page of a single one. What a caller may see is decided
twice: the list chooses the condition of its query by the role and the filter, and the single
contract is checked after it is loaded. -/
namespace Stellance.Backend

structure JobSummary where
  id : Uuid
  title : String
  deriving DecidableEq

structure UserSummary where
  id : Uuid
  name : String
  deriving DecidableEq

/-- A contract with the rows that are joined to it in a list. -/
structure ListedContract extends Contract where
  createdAt : Nat
  updatedAt : Nat
  milestones : List Milestone
  job : JobSummary
  client : UserSummary
  freelancer : UserSummary
  deriving DecidableEq

/-- The references of the contracts: the job and both parties are there. -/
structure Db.Refers (db : Db) : Prop where
  job : ∀ contract ∈ db.contracts.rows, (db.jobs.find contract.jobId).isSome = true
  client : ∀ contract ∈ db.contracts.rows, (db.users.find contract.clientId).isSome = true
  freelancer : ∀ contract ∈ db.contracts.rows, (db.users.find contract.freelancerId).isSome = true

/-- The database with the columns that only lists read. -/
structure Catalogue extends Db where
  createdAt : Uuid → Nat
  updatedAt : Uuid → Nat
  name : Uuid → String
  refers : toDb.Refers

namespace Db
variable {db db' : Db} {id : Uuid} {statement : Statement} {statements : List Statement}

/-- The contracts are the same up to what an update writes, and what they refer to stays. -/
theorem Refers.kept (refers : db.Refers) (same : SamePairs db db')
    (origin : ∀ contract ∈ db'.contracts.rows, ∃ old ∈ db.contracts.rows, old.jobId = contract.jobId ∧
      old.clientId = contract.clientId ∧ old.freelancerId = contract.freelancerId) : db'.Refers := by
  constructor
  · intro contract stored
    obtain ⟨old, before, job, _, _⟩ := origin contract stored
    rw [same.job_kept, ← job]
    exact refers.job old before
  · intro contract stored
    obtain ⟨old, before, _, client, _⟩ := origin contract stored
    rw [same.users, ← client]
    exact refers.client old before
  · intro contract stored
    obtain ⟨old, before, _, _, freelancer⟩ := origin contract stored
    rw [same.users, ← freelancer]
    exact refers.freelancer old before

theorem execute_refers (executed : db.execute statement = some db') (refers : db.Refers) : db'.Refers := by
  refine refers.kept (execute_pairs executed) fun contract stored => ?_
  rcases execute_row executed (Table.find_of_mem stored) with
    before | ⟨old, status, hash, _, before, rfl⟩
  · exact ⟨contract, Table.mem_of_find before, rfl, rfl, rfl⟩
  · exact ⟨old, Table.mem_of_find before, rfl, rfl, rfl⟩

theorem executeAll_refers (executed : db.executeAll statements = some db') (refers : db.Refers) :
    db'.Refers := by
  induction statements generalizing db with
  | nil =>
    obtain rfl := Option.some.inj executed
    exact refers
  | cons statement rest ih =>
    obtain ⟨between, first, later⟩ := executeAll_cons executed
    exact ih later (execute_refers first refers)

/-- A creation is refused where a party or the job is not there. -/
theorem create_refers {ids : List Uuid} {data : NewContract} (created : db.create id ids data = some db')
    (refers : db.Refers) : db'.Refers := by
  obtain ⟨users, clients⟩ := create_users created
  obtain ⟨_, placed, _⟩ := create_job created
  obtain ⟨_, _, stored, others, _⟩ := create_some created
  have parties : (db.users.find data.clientId).isSome = true ∧ (db.users.find data.freelancerId).isSome = true := by
    simp only [create, Option.bind_eq_bind, Option.bind_eq_some_iff] at created
    obtain ⟨_, guarded, _⟩ := created
    exact ((Option.guard_eq_some' _).mp guarded).2.2
  have jobs : ∀ key, (db'.jobs.find key).isSome = (db.jobs.find key).isSome := by
    intro key
    rw [← Option.isSome_map (f := Job.clientId), clients, Option.isSome_map]
  have origin : ∀ contract ∈ db'.contracts.rows, contract ∈ db.contracts.rows ∨
      contract = ⟨id, data.jobId, data.freelancerId, data.clientId, .pending, none⟩ := by
    intro contract member
    have after := Table.find_of_mem member
    by_cases here : contract.id = id
    · rw [here, stored] at after
      exact .inr (Option.some.inj after).symm
    · rw [others _ here] at after
      exact .inl (Table.mem_of_find after)
  constructor
  · intro contract member
    rw [jobs]
    rcases origin contract member with before | rfl
    · exact refers.job contract before
    · exact placed
  · intro contract member
    rw [users]
    rcases origin contract member with before | rfl
    · exact refers.client contract before
    · exact parties.1
  · intro contract member
    rw [users]
    rcases origin contract member with before | rfl
    · exact refers.freelancer contract before
    · exact parties.2

end Db

section Requests
variable {τ α : Type} {host : Escrow.Host Address τ} {faults : Prop} {index : Nat} {w w' : World τ}

/-- No operation of a request takes away what a contract refers to. -/
theorem serves_refers {op : Op} {answer : Except Failure op.Answer}
    (served : Serves host faults index w op answer w') (refers : w.db.Refers) : w'.db.Refers := by
  cases served with
  | created created => exact Db.create_refers created refers
  | contractUpdated updated => exact Db.execute_refers updated refers
  | milestoneUpdated updated => exact Db.execute_refers updated refers
  | committed executed => exact Db.executeAll_refers executed refers
  | notified => exact ⟨refers.job, refers.client, refers.freelancer⟩
  | _ => exact refers

theorem completes_refers {request : Request α} {result : Except Failure α}
    (ran : Completes host w request result w') (refers : w.db.Refers) : w'.db.Refers :=
  ran.invariant (I := fun w => w.db.Refers) serves_refers refers

end Requests

namespace ContractsService

/-- `as` of a request; without it `findAll` has no filter. -/
inductive RoleFilter where
  | client
  | freelancer
  deriving DecidableEq

/-- The condition of the query; what is left out does not matter. -/
structure ContractWhere where
  clientId : Option Uuid
  freelancerId : Option Uuid

def ContractWhere.matches (condition : ContractWhere) (contract : Contract) : Bool :=
  condition.clientId.all (contract.clientId = ·) && condition.freelancerId.all (contract.freelancerId = ·)

inductive ContractsQuery where
  | findMany (condition : ContractWhere)

abbrev ContractsQuery.Answer : ContractsQuery → Type
  | .findMany _ => List ListedContract

def findAllWhere (callerId : Uuid) (callerRole : UserRole) (filter : Option RoleFilter) : ContractWhere :=
  if callerRole = .admin then ⟨none, none⟩
  else if filter = some .freelancer then ⟨none, some callerId⟩
  else ⟨some callerId, none⟩

def findAll (callerId : Uuid) (callerRole : UserRole) (filter : Option RoleFilter) :
    Process Failure ContractsQuery ContractsQuery.Answer (List ListedContract) :=
  Process.perform (.findMany (findAllWhere callerId callerRole filter))

end ContractsService

namespace Catalogue
open ContractsService
open Process (completes_perform completes_pure completes_throwIf)

/-- `include` of the list. -/
def listed (db : Catalogue) (contract : Contract) : Option ListedContract := do
  let job ← db.jobs.find contract.jobId
  let client ← db.users.find contract.clientId
  let freelancer ← db.users.find contract.freelancerId
  some { contract with
    createdAt := db.createdAt contract.id
    updatedAt := db.updatedAt contract.id
    milestones := db.milestonesOf contract.id
    job := ⟨job.id, job.title⟩
    client := ⟨client.id, db.name client.id⟩
    freelancer := ⟨freelancer.id, db.name freelancer.id⟩ }

def contractsWhere (db : Catalogue) (condition : ContractWhere) : List ListedContract :=
  (db.contracts.select condition.matches).filterMap db.listed

/-- The answers of the database, `orderBy: { createdAt: 'desc' }`. -/
inductive Answers (db : Catalogue) :
    (query : ContractsQuery) → Except Failure query.Answer → Catalogue → Prop where
  | found {condition : ContractWhere} {order : List ListedContract}
      (arranged : Paging.Arranges ListedContract.createdAt (db.contractsWhere condition) order) :
      Answers db (.findMany condition) (.ok order) db

variable {τ : Type} {host : Escrow.Host Address τ} {chain : Chain τ} {db : Catalogue} {contract : Contract}
  {callerId id : Uuid} {callerRole : UserRole} {filter : Option RoleFilter} {answer : List ListedContract}

/-- A list that `findAll` may answer with. -/
def Lists (db : Catalogue) (callerId : Uuid) (callerRole : UserRole) (filter : Option RoleFilter)
    (answer : List ListedContract) : Prop :=
  Process.Completes Answers db (findAll callerId callerRole filter) (.ok answer) db

/-- The contracts in a list. -/
def shown (answer : List ListedContract) : Set Uuid := {id | ∃ row ∈ answer, row.id = id}

/-- The contracts for which `findOne` succeeds. -/
def viewable (host : Escrow.Host Address τ) (chain : Chain τ) (db : Catalogue) (callerId : Uuid)
    (callerRole : UserRole) : Set Uuid :=
  {id | ∃ view after, Completes host ⟨db.toDb, chain⟩ (findOne id callerId callerRole) (.ok view) after}

/-! ### The list -/

theorem listed_some (stored : contract ∈ db.contracts.rows) :
    ∃ row, db.listed contract = some row ∧ row.id = contract.id := by
  obtain ⟨job, ofJob⟩ := Option.isSome_iff_exists.mp (db.refers.job contract stored)
  obtain ⟨client, ofClient⟩ := Option.isSome_iff_exists.mp (db.refers.client contract stored)
  obtain ⟨freelancer, ofFreelancer⟩ := Option.isSome_iff_exists.mp (db.refers.freelancer contract stored)
  simp [listed, ofJob, ofClient, ofFreelancer]

/-- No contract is lost for the rows that are joined to it. -/
theorem contractsWhere_ids (db : Catalogue) (condition : ContractWhere) :
    (db.contractsWhere condition).map (·.id) = (db.contracts.select condition.matches).map Contract.id := by
  rw [contractsWhere, List.map_filterMap, ← List.filterMap_eq_map]
  apply List.filterMap_congr
  intro contract member
  obtain ⟨row, joined, same⟩ := listed_some (Table.mem_select.mp member).1
  rw [joined, Option.map_some, same]
  rfl

theorem lists_iff : db.Lists callerId callerRole filter answer ↔
    Paging.Arranges ListedContract.createdAt (db.contractsWhere (findAllWhere callerId callerRole filter))
      answer := by
  apply completes_perform.trans
  constructor
  · rintro ⟨arranged⟩
    exact arranged
  · exact .found

theorem exists_lists (db : Catalogue) (callerId : Uuid) (callerRole : UserRole) (filter : Option RoleFilter) :
    ∃ answer, db.Lists callerId callerRole filter answer := by
  obtain ⟨order, arranged⟩ := Paging.exists_arranges ListedContract.createdAt
    (db.contractsWhere (findAllWhere callerId callerRole filter))
  exact ⟨order, lists_iff.mpr arranged⟩

theorem Lists.ids (lists : db.Lists callerId callerRole filter answer) :
    (answer.map (·.id)).Perm
      ((db.contracts.select (findAllWhere callerId callerRole filter).matches).map Contract.id) :=
  db.contractsWhere_ids _ ▸ (lists_iff.mp lists).perm.map _

theorem Lists.nodup (lists : db.Lists callerId callerRole filter answer) : (answer.map (·.id)).Nodup := by
  rw [lists.ids.nodup_iff]
  exact (List.Sublist.map Contract.id List.filter_sublist).nodup db.contracts.nodup

theorem matches_iff : (findAllWhere callerId callerRole filter).matches contract = true ↔
    callerRole = .admin ∨
      if filter = some .freelancer then contract.freelancerId = callerId else contract.clientId = callerId := by
  by_cases admin : callerRole = .admin
  · simp [findAllWhere, ContractWhere.matches, admin]
  · by_cases freelancer : filter = some .freelancer
    · simp [findAllWhere, ContractWhere.matches, admin, freelancer]
    · simp [findAllWhere, ContractWhere.matches, admin, freelancer]

theorem Lists.mem_shown (lists : db.Lists callerId callerRole filter answer) :
    id ∈ shown answer ↔ ∃ contract, db.contracts.find id = some contract ∧ (callerRole = .admin ∨
      if filter = some .freelancer then contract.freelancerId = callerId else contract.clientId = callerId) := by
  have listed : id ∈ shown answer ↔ id ∈ answer.map (·.id) := List.mem_map.symm
  rw [listed, lists.ids.mem_iff, List.mem_map]
  constructor
  · rintro ⟨contract, selected, rfl⟩
    obtain ⟨stored, meets⟩ := Table.mem_select.mp selected
    exact ⟨contract, Table.find_of_mem stored, matches_iff.mp meets⟩
  · rintro ⟨contract, found, allowed⟩
    obtain ⟨stored, same⟩ := Table.find_eq_some.mp found
    exact ⟨contract, Table.mem_select.mpr ⟨stored, matches_iff.mpr allowed⟩, same⟩

/-! ### The single contract -/

theorem contractView_found : db.contractView id = none ↔ db.contracts.find id = none := by
  constructor
  · intro absent
    cases found : db.contracts.find id with
    | none => rfl
    | some contract =>
      have stored := Table.mem_of_find found
      obtain ⟨job, ofJob⟩ := Option.isSome_iff_exists.mp (db.refers.job contract stored)
      obtain ⟨client, ofClient⟩ := Option.isSome_iff_exists.mp (db.refers.client contract stored)
      obtain ⟨freelancer, ofFreelancer⟩ := Option.isSome_iff_exists.mp (db.refers.freelancer contract stored)
      simp [Db.contractView, found, ofJob, ofClient, ofFreelancer] at absent
  · intro absent
    simp [Db.contractView, absent]

theorem mem_viewable : id ∈ viewable host chain db callerId callerRole ↔
    ∃ contract, db.contracts.find id = some contract ∧
      (callerRole = .admin ∨ contract.clientId = callerId ∨ contract.freelancerId = callerId) := by
  constructor
  · rintro ⟨view, after, completed⟩
    rcases getContract.mp completed with ⟨_, failed, _⟩ | ⟨view', found, checked⟩
    · contradiction
    rcases completes_throwIf.mp checked with ⟨_, failed, _⟩ | ⟨allowed, _⟩
    · contradiction
    refine ⟨view'.toContract, (Db.contractView_some found).1, ?_⟩
    simpa only [not_and_or, not_not] using allowed
  · rintro ⟨contract, found, allowed⟩
    have there : db.contractView id ≠ none := fun absent => by simp [contractView_found.mp absent] at found
    obtain ⟨view, viewed⟩ := Option.ne_none_iff_exists'.mp there
    obtain rfl := Option.some.inj ((Db.contractView_some viewed).1.symm.trans found)
    refine ⟨view, ⟨db.toDb, chain⟩, getContract.mpr (.inr ⟨view, viewed, ?_⟩)⟩
    apply completes_throwIf.mpr
    refine .inr ⟨?_, completes_pure.mpr ⟨rfl, rfl⟩⟩
    simpa only [not_and_or, not_not] using allowed

/-- The list and the page of a contract have it from the same rows. -/
theorem listed_view {row : ListedContract} {view : ContractView} (listed : db.listed contract = some row)
    (found : db.contracts.find contract.id = some contract) (viewed : db.contractView contract.id = some view) :
    row.toContract = view.toContract ∧ row.milestones = view.milestones ∧
      row.job = ⟨view.job.id, view.job.title⟩ ∧ row.client.id = view.client.id ∧
      row.freelancer.id = view.freelancer.id := by
  simp only [Catalogue.listed, Option.bind_eq_bind, Option.bind_eq_some_iff] at listed
  obtain ⟨job, ofJob, client, ofClient, freelancer, ofFreelancer, same⟩ := listed
  obtain rfl := Option.some.inj same
  simp only [Db.contractView, found, ofJob, ofClient, ofFreelancer, Option.bind_eq_bind, Option.bind_some,
    Option.some.injEq] at viewed
  obtain rfl := viewed
  exact ⟨rfl, rfl, rfl, rfl, rfl⟩

/-! ### Both -/

theorem shown_eq_viewable (lists : db.Lists callerId callerRole none answer) :
    shown answer = viewable host chain db callerId callerRole ↔ callerRole = .admin ∨
      ∀ contract ∈ db.contracts.rows, contract.freelancerId = callerId → contract.clientId = callerId := by
  constructor
  · intro same
    rw [or_iff_not_imp_left]
    intro stranger contract stored works
    have found := Table.find_of_mem stored
    have opened : contract.id ∈ viewable host chain db callerId callerRole :=
      mem_viewable.mpr ⟨contract, found, .inr (.inr works)⟩
    rw [← same, lists.mem_shown] at opened
    obtain ⟨contract', found', allowed⟩ := opened
    obtain rfl := Option.some.inj (found.symm.trans found')
    simpa using allowed.resolve_left stranger
  · intro allowed
    ext id
    rw [lists.mem_shown, mem_viewable]
    apply exists_congr
    intro contract
    simp only [reduceCtorEq, if_false, and_congr_right_iff]
    intro found
    constructor
    · rintro (admin | client)
      · exact .inl admin
      · exact .inr (.inl client)
    · rintro (admin | client | works)
      · exact .inl admin
      · exact .inr client
      · exact allowed.imp_right fun only => only contract (Table.mem_of_find found) works

/-- The list without a filter is the one of the client. What a caller may open is in one of
the two lists, and all of it in that list only where the caller is an admin or works on no
contract of another client. -/
theorem findAll_views (host : Escrow.Host Address τ) (chain : Chain τ) (db : Catalogue) (callerId : Uuid)
    (callerRole : UserRole) :
    viewable host chain db callerId callerRole = {id | ∃ contract, db.contracts.find id = some contract ∧
        (callerRole = .admin ∨ contract.clientId = callerId ∨ contract.freelancerId = callerId)} ∧
      (∀ filter, ∃ answer, db.Lists callerId callerRole filter answer) ∧
      (∀ filter answer, db.Lists callerId callerRole filter answer → (answer.map (·.id)).Nodup ∧
        shown answer = {id | ∃ contract, db.contracts.find id = some contract ∧ (callerRole = .admin ∨
          if filter = some .freelancer then contract.freelancerId = callerId
          else contract.clientId = callerId)}) ∧
      (∀ asClient asFreelancer, db.Lists callerId callerRole none asClient →
        db.Lists callerId callerRole (some .freelancer) asFreelancer →
        viewable host chain db callerId callerRole = shown asClient ∪ shown asFreelancer) ∧
      ∀ answer, db.Lists callerId callerRole none answer →
        (shown answer = viewable host chain db callerId callerRole ↔ callerRole = .admin ∨
          ∀ contract ∈ db.contracts.rows, contract.freelancerId = callerId → contract.clientId = callerId) := by
  refine ⟨Set.ext fun id => mem_viewable, exists_lists db callerId callerRole,
    fun filter answer lists => ⟨lists.nodup, Set.ext fun id => lists.mem_shown⟩, ?_, ?_⟩
  · intro asClient asFreelancer lists lists'
    ext id
    rw [Set.mem_union, mem_viewable, lists.mem_shown, lists'.mem_shown, ← exists_or]
    apply exists_congr
    intro contract
    simp only [reduceCtorEq, if_false, if_true]
    tauto
  · intro answer lists
    exact shown_eq_viewable lists

end Catalogue

namespace Sample

/-- A contract of one client and one freelancer. -/
def hired : Catalogue where
  toDb := { start.world.db with
    jobs := ⟨[⟨jobId, "A site", "A site of our own", 300, "Web", .inProgress, clientId⟩], by decide⟩
    contracts := ⟨[⟨contractId, jobId, freelancerId, clientId, .pending, none⟩], by decide⟩
    milestones := ⟨[⟨milestoneId, contractId, "Draft", 100, .pending⟩], by decide⟩ }
  createdAt _ := 1000
  updatedAt _ := 1000
  name id := if id = clientId then "Client" else "Freelancer"
  refers := ⟨by decide, by decide, by decide⟩

end Sample

open Sample Catalogue in
/-- The freelancer has a contract to open and none in the list. -/
theorem findAll_unlisted : hired.Lists freelancerId .freelancer none [] ∧
    contractId ∈ viewable host start.world.chain hired freelancerId .freelancer ∧
    shown [] ≠ viewable host start.world.chain hired freelancerId .freelancer := by
  have opened : contractId ∈ viewable host start.world.chain hired freelancerId .freelancer :=
    mem_viewable.mpr ⟨⟨contractId, jobId, freelancerId, clientId, .pending, none⟩, by decide, by decide⟩
  refine ⟨lists_iff.mpr ⟨?_, .nil⟩, opened, fun same => ?_⟩
  · decide
  · rw [← same] at opened
    obtain ⟨_, member, _⟩ := opened
    contradiction

end Stellance.Backend
