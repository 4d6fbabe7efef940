import Stellance.Backend.Conversion
import Stellance.Backend.Interpreter
import Stellance.Backend.PaymentsService

/-! The earnings summary as a partition of the payments by contract: what the loop over
the payments keeps of those it has seen. It adds in doubles, so the amounts are those of
the payments as long as these are not too large. -/
namespace Stellance.Backend
open PaymentsService

/-- The payments of a contract. -/
def under (payments : List PaymentView) (id : Uuid) : List PaymentView :=
  payments.filter fun view => view.contractId = id

/-- What payments come to, in stroops. -/
def stroopsOf (payments : List PaymentView) : Nat := (payments.map (·.amount)).sum

/-- Views as one database joins them. -/
def Db.Joins (db : Db) (payments : List PaymentView) : Prop :=
  ∀ view ∈ payments, db.paymentView view.toPayment = some view

/-- A summary counts each payment in once, under its own contract. -/
structure EarningsSummary.Groups (summary : EarningsSummary) (payments : List PaymentView) : Prop where
  once : (summary.byContract.map ContractEarnings.contractId).Nodup
  occurs : ∀ id, id ∈ summary.byContract.map ContractEarnings.contractId ↔ id ∈ payments.map (·.contractId)
  count : ∀ earned ∈ summary.byContract, earned.paymentCount = (under payments earned.contractId).length
  all : summary.paymentCount = payments.length
  title : ∀ earned ∈ summary.byContract, ∃ view ∈ payments, view.contractId = earned.contractId ∧
    view.job.map Job.title = earned.jobTitle

/-- And with its amount. -/
structure EarningsSummary.Partitions (summary : EarningsSummary) (payments : List PaymentView) : Prop
    extends summary.Groups payments where
  amount : ∀ earned ∈ summary.byContract, earned.amount = some (stroopsOf (under payments earned.contractId))
  total : summary.totalEarned = some (summary.byContract.map fun earned => earned.amount.getD 0).sum

variable {db : Db} {view : PaymentView} {seen payments others : List PaymentView} {numbers : Numbers}
  {contractMap : List (Info numbers)} {info : Info numbers}

theorem paymentsUnder_joins (db : Db) (p : Contract → Bool) : db.Joins (db.paymentsUnder p) := by
  intro view member
  simp only [Db.paymentsUnder, List.mem_reverse, List.mem_filter, List.mem_filterMap] at member
  obtain ⟨⟨payment, _, found⟩, _⟩ := member
  have same : view.toPayment = payment := by
    obtain ⟨_, _, rfl⟩ := Option.map_eq_some_iff.mp found
    rfl
  rw [same]
  exact found

/-- Payments of one contract are joined with one job. -/
theorem Db.Joins.title (joins : db.Joins payments) {first second : PaymentView} (here : first ∈ payments)
    (there : second ∈ payments) (same : first.contractId = second.contractId) : first.job = second.job := by
  obtain ⟨contract, found, views⟩ := Option.map_eq_some_iff.mp (joins first here)
  obtain ⟨contract', found', views'⟩ := Option.map_eq_some_iff.mp (joins second there)
  have one : contract = contract' := by
    rw [same] at found
    exact Option.some.inj (found.symm.trans found')
  rw [← views, ← views', one]

/-! ### One payment -/

/-- A contract is added at the end when it is seen first. -/
theorem addPayment_ids (view : PaymentView) (contractMap : List (Info numbers)) :
    (addPayment numbers view contractMap).map Info.contractId =
      if view.contractId ∈ contractMap.map Info.contractId then contractMap.map Info.contractId
      else contractMap.map Info.contractId ++ [view.contractId] := by
  induction contractMap with
  | nil => rfl
  | cons existing rest ih =>
    rw [addPayment]
    by_cases here : existing.contractId = view.contractId
    · simp [here]
    · rw [if_neg here, List.map_cons, List.map_cons, ih]
      by_cases later : view.contractId ∈ rest.map Info.contractId
      · rw [if_pos later, if_pos (List.mem_cons_of_mem _ later)]
      · rw [if_neg later, if_neg (by simp [Ne.symm here, later])]
        rfl

/-- What is in the map after a payment: the entries of other contracts, and that of its own,
which counts it in. -/
theorem mem_addPayment (once : (contractMap.map Info.contractId).Nodup)
    (member : info ∈ addPayment numbers view contractMap) :
    info ∈ contractMap ∧ info.contractId ≠ view.contractId ∨
    (∃ existing ∈ contractMap, existing.contractId = view.contractId ∧ info =
      { existing with
        amountCents := numbers.add existing.amountCents (cents numbers view), count := existing.count + 1 }) ∨
    view.contractId ∉ contractMap.map Info.contractId ∧
      info = ⟨view.contractId, view.job.map Job.title, cents numbers view, 1⟩ := by
  induction contractMap with
  | nil => exact .inr (.inr ⟨List.not_mem_nil, List.mem_singleton.mp member⟩)
  | cons first rest ih =>
    obtain ⟨fresh, once'⟩ := List.nodup_cons.mp once
    rw [addPayment] at member
    by_cases here : first.contractId = view.contractId
    · rw [if_pos here] at member
      rcases List.mem_cons.mp member with rfl | later
      · exact .inr (.inl ⟨first, List.mem_cons_self, here, rfl⟩)
      · refine .inl ⟨List.mem_cons_of_mem _ later, fun same => fresh ?_⟩
        rw [here, ← same]
        exact List.mem_map_of_mem later
    · rw [if_neg here] at member
      rcases List.mem_cons.mp member with rfl | later
      · exact .inl ⟨List.mem_cons_self, here⟩
      · rcases ih once' later with ⟨old, other⟩ | ⟨before, old, same, counted⟩ | ⟨absent, first⟩
        · exact .inl ⟨List.mem_cons_of_mem _ old, other⟩
        · exact .inr (.inl ⟨before, List.mem_cons_of_mem _ old, same, counted⟩)
        · refine .inr (.inr ⟨?_, first⟩)
          simp [Ne.symm here, absent]

/-! ### The loop -/

/-- Added up in the order they were seen in, from the first. -/
def Adds (numbers : Numbers) (payments : List PaymentView) (total : numbers.Num) : Prop :=
  ∃ first rest, payments = first :: rest ∧ total = (rest.map (cents numbers)).foldl numbers.add (cents numbers first)

/-- The map holds each contract that was seen once, with its payments seen so far. -/
structure Aggregated (seen : List PaymentView) (contractMap : List (Info numbers)) : Prop where
  once : (contractMap.map Info.contractId).Nodup
  occurs : ∀ id, id ∈ contractMap.map Info.contractId ↔ id ∈ seen.map (·.contractId)
  amount : ∀ info ∈ contractMap, Adds numbers (under seen info.contractId) info.amountCents
  count : ∀ info ∈ contractMap, info.count = (under seen info.contractId).length
  title : ∀ info ∈ contractMap, ∃ view ∈ seen, view.contractId = info.contractId ∧
    view.job.map Job.title = info.jobTitle

theorem Adds.snoc {total : numbers.Num} (adds : Adds numbers seen total) (view : PaymentView) :
    Adds numbers (seen ++ [view]) (numbers.add total (cents numbers view)) := by
  obtain ⟨first, rest, rfl, rfl⟩ := adds
  refine ⟨first, rest ++ [view], rfl, ?_⟩
  rw [List.map_append, List.foldl_append]
  rfl

theorem under_snoc (id : Uuid) : under (seen ++ [view]) id =
    if view.contractId = id then under seen id ++ [view] else under seen id := by
  unfold under
  rw [List.filter_append]
  split
  · rename_i own
    rw [List.filter_cons_of_pos (by simpa using own), List.filter_nil]
  · rename_i other
    rw [List.filter_cons_of_neg (by simpa using other), List.filter_nil, List.append_nil]

theorem under_unseen {id : Uuid} (absent : id ∉ seen.map (·.contractId)) : under seen id = [] := by
  refine List.filter_eq_nil_iff.mpr fun view member => ?_
  have other : view.contractId ≠ id := fun same => absent (same ▸ List.mem_map_of_mem member)
  simpa using other

theorem Aggregated.addPayment (aggregated : Aggregated seen contractMap) (view : PaymentView) :
    Aggregated (seen ++ [view]) (addPayment numbers view contractMap) where
  once := by
    rw [addPayment_ids]
    split
    · exact aggregated.once
    · rename_i absent
      exact List.nodup_append.mpr ⟨aggregated.once, List.nodup_singleton _, by simpa using absent⟩
  occurs := by
    intro id
    rw [addPayment_ids, List.map_append]
    split
    · rename_i known
      simp only [List.map_cons, List.map_nil, List.mem_append, List.mem_singleton, ← aggregated.occurs id]
      constructor
      · exact .inl
      · rintro (old | rfl)
        · exact old
        · exact known
    · simp only [List.map_cons, List.map_nil, List.mem_append, List.mem_singleton, aggregated.occurs id]
  amount := by
    intro info member
    rw [under_snoc]
    rcases mem_addPayment aggregated.once member with ⟨old, other⟩ | ⟨existing, old, same, rfl⟩ | ⟨absent, rfl⟩
    · rw [if_neg (Ne.symm other)]
      exact aggregated.amount info old
    · dsimp only
      rw [if_pos same.symm]
      exact (aggregated.amount existing old).snoc view
    · rw [aggregated.occurs] at absent
      rw [if_pos rfl, under_unseen absent]
      exact ⟨view, [], rfl, rfl⟩
  count := by
    intro info member
    rw [under_snoc]
    rcases mem_addPayment aggregated.once member with ⟨old, other⟩ | ⟨existing, old, same, rfl⟩ | ⟨absent, rfl⟩
    · rw [if_neg (Ne.symm other)]
      exact aggregated.count info old
    · dsimp only
      rw [if_pos same.symm, List.length_append, ← aggregated.count existing old]
      rfl
    · rw [aggregated.occurs] at absent
      rw [if_pos rfl, under_unseen absent]
      rfl
  title := by
    intro info member
    rcases mem_addPayment aggregated.once member with ⟨old, other⟩ | ⟨existing, old, same, rfl⟩ | ⟨absent, rfl⟩
    · obtain ⟨view, seen', own, title⟩ := aggregated.title info old
      exact ⟨view, List.mem_append_left _ seen', own, title⟩
    · obtain ⟨view, seen', own, title⟩ := aggregated.title existing old
      exact ⟨view, List.mem_append_left _ seen', own, title⟩
    · exact ⟨view, List.mem_append_right _ List.mem_cons_self, rfl, rfl⟩

theorem Aggregated.aggregate {totalCents : numbers.Num} (aggregated : Aggregated seen contractMap)
    (payments : List PaymentView) :
    Aggregated (seen ++ payments) (aggregate numbers payments (totalCents, contractMap)).2 := by
  induction payments generalizing seen totalCents contractMap with
  | nil =>
    rw [List.append_nil]
    exact aggregated
  | cons view rest ih =>
    rw [PaymentsService.aggregate, ← List.singleton_append, ← List.append_assoc]
    exact ih (aggregated.addPayment view)

theorem aggregated (numbers : Numbers) (payments : List PaymentView) :
    Aggregated payments (aggregate numbers payments (numbers.ofNat 0, [])).2 := by
  have empty : @Aggregated numbers [] [] := by constructor <;> simp
  exact empty.aggregate payments

/-! ### The summary -/

section Counted
variable (counts : Numbers.Counts numbers) (each : ∀ view ∈ payments, counts.each view.amount)
  (safe : counts.total (stroopsOf payments)) (prints : ∀ n ≤ stroopsOf payments, counts.prints n)
include counts each safe

theorem Adds.counted {total : numbers.Num} (adds : Adds numbers payments total) :
    counts.Is total (stroopsOf payments) := by
  obtain ⟨first, rest, rfl, rfl⟩ := adds
  have start := counts.stroops (each first List.mem_cons_self)
  have split : stroopsOf (first :: rest) = first.amount + (rest.map (·.amount)).sum := List.sum_cons
  rw [split] at safe ⊢
  have folded := counts.fold (fun k member => ?_) start safe
  · rwa [List.map_map] at folded
  · obtain ⟨view, listed, rfl⟩ := List.mem_map.mp member
    exact each view (List.mem_cons_of_mem _ listed)

/-- What is printed in all. -/
theorem totalEarned_counted (prints : counts.prints (stroopsOf payments)) :
    (summarize numbers payments).totalEarned = some (stroopsOf payments) := by
  have small : ∀ k ∈ payments.map (·.amount), counts.each k := by
    intro k member
    obtain ⟨view, listed, rfl⟩ := List.mem_map.mp member
    exact each view listed
  exact summarize_totalEarned.trans (counts.printed (counts.cents small safe) prints)

end Counted

theorem under_stroops (payments : List PaymentView) (id : Uuid) :
    stroopsOf (under payments id) ≤ stroopsOf payments :=
  (List.filter_sublist.map _).sum_le_sum fun _ _ => Nat.zero_le _

/-- Whatever the numbers, the contracts and the counts are those of the payments. -/
theorem summarize_groups (numbers : Numbers) (payments : List PaymentView) :
    (summarize numbers payments).Groups payments := by
  have aggregated := aggregated numbers payments
  have ids : (summarize numbers payments).byContract.map ContractEarnings.contractId =
      (aggregate numbers payments (numbers.ofNat 0, [])).2.map Info.contractId := List.map_map
  constructor
  · rw [ids]
    exact aggregated.once
  · rw [ids]
    exact aggregated.occurs
  · intro earned member
    obtain ⟨info, listed, rfl⟩ := List.mem_map.mp member
    exact aggregated.count info listed
  · rfl
  · intro earned member
    obtain ⟨info, listed, rfl⟩ := List.mem_map.mp member
    exact aggregated.title info listed

/-- As long as the numbers are exact, the summary is that of whole stroops. -/
theorem summarize_partitions (counts : Numbers.Counts numbers) (each : ∀ view ∈ payments, counts.each view.amount)
    (safe : counts.total (stroopsOf payments)) (prints : ∀ n ≤ stroopsOf payments, counts.prints n) :
    (summarize numbers payments).Partitions payments := by
  have aggregated := aggregated numbers payments
  have amount : ∀ info ∈ (aggregate numbers payments (numbers.ofNat 0, [])).2,
      inXlm numbers info.amountCents = some (stroopsOf (under payments info.contractId)) := by
    intro info member
    have part := under_stroops payments info.contractId
    refine counts.printed ((aggregated.amount info member).counted counts (fun view listed => ?_)
      (counts.less safe part)) (prints _ part)
    exact each view (List.mem_of_mem_filter listed)
  have amounts : (summarize numbers payments).byContract.map (fun earned => earned.amount.getD 0) =
      ((aggregate numbers payments (numbers.ofNat 0, [])).2.map Info.contractId).map fun id =>
        stroopsOf (under payments id) := by
    rw [summarize, List.map_map, List.map_map]
    refine List.map_congr_left fun info member => ?_
    simp [amount info member]
  have covered : ∀ view ∈ payments, view.contractId ∈
      (aggregate numbers payments (numbers.ofNat 0, [])).2.map Info.contractId :=
    fun view member => (aggregated.occurs _).mpr (List.mem_map_of_mem member)
  have total := Table.sum_by_key aggregated.once (fun view : PaymentView => view.contractId) (·.amount) covered
  refine ⟨summarize_groups numbers payments, ?_, ?_⟩
  · intro earned member
    obtain ⟨info, listed, rfl⟩ := List.mem_map.mp member
    exact amount info listed
  · rw [totalEarned_counted counts each safe (prints _ le_rfl), amounts]
    exact congrArg some total.symm

section Permuted
variable {summary summary' : EarningsSummary} {earned earned' : ContractEarnings}
  (partitions : summary.Partitions payments) (partitions' : summary'.Partitions others)
  (joins : db.Joins payments) (same : others.Perm payments)
include partitions partitions' joins same

/-- Payments found in another order are aggregated to the same entry of each contract. -/
theorem EarningsSummary.Partitions.entry (member : earned ∈ summary.byContract)
    (member' : earned' ∈ summary'.byContract) (key : earned'.contractId = earned.contractId) : earned' = earned := by
  have rows : (under others earned.contractId).Perm (under payments earned.contractId) := same.filter _
  have amount := partitions'.amount earned' member'
  have count := partitions'.count earned' member'
  rw [key, stroopsOf, (rows.map _).sum_eq] at amount
  rw [key, rows.length_eq, ← partitions.count earned member] at count
  obtain ⟨view, seen, own, title⟩ := partitions.title earned member
  obtain ⟨view', seen', own', title'⟩ := partitions'.title earned' member'
  have job := joins.title (same.subset seen') seen (own'.trans (key.trans own.symm))
  rw [job, title] at title'
  replace amount := amount.trans (partitions.amount earned member).symm
  cases earned
  cases earned'
  cases key
  cases amount
  cases count
  cases title'
  rfl

theorem EarningsSummary.Partitions.perm : summary'.byContract.Perm summary.byContract := by
  have ids : ∀ id, id ∈ summary'.byContract.map ContractEarnings.contractId ↔
      id ∈ summary.byContract.map ContractEarnings.contractId := by
    intro id
    rw [partitions.occurs, partitions'.occurs]
    exact (same.map _).mem_iff
  refine (List.perm_ext_iff_of_nodup (.of_map _ partitions'.once) (.of_map _ partitions.once)).mpr ?_
  intro earned
  constructor
  · intro member
    obtain ⟨other, there, key⟩ := List.mem_map.mp ((ids _).mp (List.mem_map_of_mem member))
    rw [partitions.entry partitions' joins same there member key.symm]
    exact there
  · intro member
    obtain ⟨other, there, key⟩ := List.mem_map.mp ((ids _).mpr (List.mem_map_of_mem member))
    rw [← partitions.entry partitions' joins same member there key]
    exact there

end Permuted

/-- In a summary each contract with a payment occurs once, and no other does, with the number of
its payments; and where these are of less than 2⁵¹ stroops each, and of less than 2²⁹ XLM in all,
with their sum, these sums add up to the summary's own, and the order in which the payments are
found decides the order of the contracts alone. -/
theorem earnings_partition (joins : db.Joins payments) :
    (summarize .doubles payments).Groups payments ∧
    ((∀ view ∈ payments, view.amount < 2 ^ 51) → stroopsOf payments < 2 ^ 29 * 10 ^ 7 →
      (summarize .doubles payments).Partitions payments ∧
      ∀ others, others.Perm payments →
        (summarize .doubles others).byContract.Perm (summarize .doubles payments).byContract ∧
        summarize .doubles others =
          { summarize .doubles payments with byContract := (summarize .doubles others).byContract }) ∧
    ∀ freelancerId, getEarnings .doubles db freelancerId =
        summarize .doubles (db.paymentsUnder fun contract => contract.freelancerId = freelancerId) ∧
      db.Joins (db.paymentsUnder fun contract => contract.freelancerId = freelancerId) := by
  refine ⟨summarize_groups .doubles payments, fun each safe => ?_,
    fun freelancerId => ⟨rfl, paymentsUnder_joins db _⟩⟩
  have partitions : ∀ others, others.Perm payments → (summarize .doubles others).Partitions others ∧
      (summarize .doubles others).totalEarned = some (stroopsOf payments) := by
    intro others same
    have come : stroopsOf others = stroopsOf payments := (same.map _).sum_eq
    have each' : ∀ view ∈ others, view.amount < 2 ^ 51 := fun view member => each view (same.subset member)
    have small : stroopsOf others < 2 ^ 53 := by omega
    constructor
    · exact summarize_partitions Numbers.doublesCount each' small fun n less => by
        show n < 2 ^ 29 * 10 ^ 7
        omega
    · rw [← come] at safe ⊢
      exact totalEarned_counted Numbers.doublesCount each' small safe
  obtain ⟨own, total⟩ := partitions payments (.refl _)
  refine ⟨own, fun others same => ?_⟩
  obtain ⟨own', total'⟩ := partitions others same
  refine ⟨own.perm own' joins same, ?_⟩
  calc summarize .doubles others = ⟨(summarize .doubles others).totalEarned, .xlm,
        (summarize .doubles others).paymentCount, (summarize .doubles others).byContract⟩ := rfl
    _ = { summarize .doubles payments with byContract := (summarize .doubles others).byContract } := by
      rw [total', own'.all, same.length_eq, ← total, ← own.all]
      rfl

namespace Sample

def secondId : Uuid := .repeated (Fin.last 15)

/-- Two payments under one contract and one under another. -/
def paid : Db :=
  { start.world.db with
    contracts := ⟨[⟨contractId, jobId, freelancerId, clientId, .active, none⟩,
      ⟨secondId, jobId, freelancerId, clientId, .active, none⟩], by decide⟩
    payments := ⟨[⟨contractId, none, 100, supply.hash []⟩, ⟨secondId, none, 50, ⟨"u", by decide⟩⟩,
      ⟨contractId, none, 200, ⟨"v", by decide⟩⟩], by decide⟩ }

/-- Under one contract 1234567890.1234567 XLM, and 0.0000003 XLM before that. -/
def wealth : Db :=
  { paid with
    payments := ⟨[⟨contractId, none, 3, supply.hash []⟩, ⟨contractId, none, 12345678901234567, ⟨"u", by decide⟩⟩],
      by decide⟩ }

end Sample

/-- Doubles of that size are not a stroop apart: 1234567890.1234572 XLM are shown. -/
theorem earnings_partition_fails : ¬ ∀ (db : Db) (payments : List PaymentView), db.Joins payments →
    (summarize .doubles payments).Partitions payments := by
  intro always
  have joins := paymentsUnder_joins Sample.wealth fun contract => contract.freelancerId = Sample.freelancerId
  have shown : ∃ earned ∈ (getEarnings .doubles Sample.wealth Sample.freelancerId).byContract,
      earned.amount = some 12345678901234572 ∧
      stroopsOf (under (Sample.wealth.paymentsUnder fun contract => contract.freelancerId = Sample.freelancerId)
        earned.contractId) = 12345678901234570 := by
    decide
  obtain ⟨earned, member, printed, come⟩ := shown
  have same := (always _ _ joins).amount earned member
  rw [printed, come] at same
  contradiction

theorem earnings_partition_sample : ∃ payments, Sample.paid.Joins payments ∧
    (summarize .doubles payments).Partitions payments ∧ summarize .doubles payments =
      ⟨some 350, .xlm, 3, [⟨Sample.contractId, some "A site", some 300, 2⟩,
        ⟨Sample.secondId, some "A site", some 50, 1⟩]⟩ := by
  have joins := paymentsUnder_joins Sample.paid fun contract => contract.freelancerId = Sample.freelancerId
  exact ⟨_, joins, ((earnings_partition joins).2.1 (by decide) (by decide)).1, by decide⟩

end Stellance.Backend
