import Stellance.Escrow.Installments
import Stellance.Backend.Conversion
import Stellance.Backend.Interpreter
import Stellance.Backend.Effects

/-! The deposit of a contract and the releases of its milestones, over any rounding of a
relative error of 2⁻⁵³. As long as the amounts are not too many or too large the conversions
are exact, so the releases add up to the deposit and close the escrow. -/
namespace Stellance.Backend

theorem milestone_le_total {dto : CreateContractDto} {m : MilestoneInputDto} (member : m ∈ dto.milestones) :
    m.amount ≤ dto.totalAmount :=
  List.single_le_sum (fun _ _ => Nat.zero_le _) _ (List.mem_map_of_mem member)

theorem milestones_safe {dto : CreateContractDto} (safe : (dto.milestones.length + 2) * dto.totalAmount ≤ 2 ^ 52)
    {m : MilestoneInputDto} (member : m ∈ dto.milestones) : m.amount < 2 ^ 51 := by
  have some' : 1 ≤ dto.milestones.length := List.length_pos_iff.mpr dto.someMilestone
  have bound : 3 * m.amount ≤ 2 ^ 52 := by
    calc 3 * m.amount ≤ (dto.milestones.length + 2) * dto.totalAmount :=
          Nat.mul_le_mul (by omega) (milestone_le_total member)
      _ ≤ 2 ^ 52 := safe
  omega

section Closing
open Escrow
variable {Address Symbol τ : Type} [DecidableEq Address] [DecidableEq Symbol]

/-- Amounts that are not too many or too large are converted exactly, the total of a contract
as well as each of its milestones. So the releases of the milestones, in any order, all go
through, and the last of them closes the escrow. -/
theorem stroops_exact (f : Binary64) (dto : CreateContractDto)
    (safe : (dto.milestones.length + 2) * dto.totalAmount ≤ 2 ^ 52) :
    (Numbers.rational f.rd).deposit dto.amounts = some dto.totalAmount ∧
    (∀ milestone ∈ dto.milestones, (Numbers.rational f.rd).release milestone.amount = some milestone.amount) ∧
    ∀ (host : Host Address τ) (trace : List (Escrow.Ledger Address Symbol τ × Action Address Symbol τ))
      (ledger : Escrow.Ledger Address Symbol τ) (id : Symbol) (client freelancer admin token : Address)
      (stroops : Nat) (amount : I128) (is : List (Instalment Address)), RunTo host trace ledger →
      ExactToken host token → (∀ point ∈ trace, Fair host token point.1 point.2) →
      ledger.entry id = some (.opened client freelancer admin amount token) →
      (Numbers.rational f.rd).deposit dto.amounts = some stroops → amount.val = stroops →
      (∀ i ∈ is, i.Allowed (.opened client freelancer admin amount token)) →
      (is.map fun i => some i.amount.val).Perm
        (dto.milestones.map fun m => ((Numbers.rational f.rd).release m.amount).map Nat.cast) →
      (∀ before i after, is = before ++ i :: after →
        i.outcome host id (ledger.pay host id before) = .ok ∧ ∃ released : I128,
          released.val = amounts before ∧ (ledger.pay host id before).entry id =
            some { EscrowEntry.opened client freelancer admin amount token with
              releasedAmount := released }) ∧
      (ledger.pay host id is).entry id = some { EscrowEntry.opened client freelancer admin amount token with
        releasedAmount := amount, status := .released } := by
  have total : (Numbers.rational f.rd).deposit dto.amounts = some dto.totalAmount := by
    refine Numbers.rational_deposit f (by simpa [CreateContractDto.amounts] using dto.someMilestone) ?_ ?_
    · intro k member
      obtain ⟨m, _, rfl⟩ := List.mem_map.mp member
      exact m.positive
    · rwa [CreateContractDto.amounts, List.length_map]
  have each : ∀ milestone ∈ dto.milestones,
      (Numbers.rational f.rd).release milestone.amount = some milestone.amount :=
    fun m member => Numbers.rational_release f (milestones_safe safe member)
  refine ⟨total, each, ?_⟩
  intro host trace ledger id client freelancer admin token stroops amount is run exact' fair found deposit
    same allowed releases
  obtain rfl : dto.totalAmount = stroops := Option.some.inj (total.symm.trans deposit)
  have whole : amounts is = amount.val := by
    have converted : (dto.milestones.map fun m =>
        ((Numbers.rational f.rd).release m.amount).map (Nat.cast (R := Int))) =
          (dto.amounts.map (Nat.cast (R := Int))).map some := by
      rw [CreateContractDto.amounts, List.map_map, List.map_map]
      refine List.map_congr_left fun m member => ?_
      rw [each m member]
      rfl
    rw [converted] at releases
    have sum : (is.map fun i => i.amount.val).Perm (dto.amounts.map Nat.cast) := by
      refine (List.map_perm_map_iff (Option.some_injective _)).mp ?_
      rw [List.map_map]
      exact releases
    rw [amounts, sum.sum_eq, same, CreateContractDto.totalAmount, Nat.cast_list_sum]
  obtain ⟨along, last⟩ := instalments_close run exact' fair found rfl allowed
    (whole.trans (Int.sub_zero _).symm)
  refine ⟨fun before i after cut => ?_, last⟩
  obtain ⟨outcome, released, sum, stored⟩ := along before i after cut
  exact ⟨outcome, released, sum.trans (Int.zero_add _), stored⟩

end Closing

namespace Sample

/-- The deposit for the two milestones, and the two releases, the second one first. -/
def deposit : List (Escrow.Action Nat Nat (Escrow.Bank Nat)) :=
  [.call {1} (.fund 7 1 2 3 (.fromU32 300) 9)]

def releases : List (Escrow.Instalment Nat) := [⟨{3}, 3, .fromU32 200⟩, ⟨{3}, 3, .fromU32 100⟩]

end Sample

theorem stroops_exact_sample :
    (Numbers.rational Rounding.binary64.rd).deposit Sample.dto.amounts = some 300 ∧
      ((Escrow.Bank.ledger Sample.deposit).pay (Escrow.Bank.host 0) 7 Sample.releases).entry 7 =
        some ⟨1, 2, .fromU32 300, .fromU32 300, 9, .released, 3⟩ := by
  obtain ⟨trace, run, same⟩ := Escrow.Bank.ledger_run Sample.deposit
  have fair : ∀ point ∈ trace, Escrow.Fair (Escrow.Bank.host 0) 9 point.1 point.2 := by
    refine Escrow.bank_fair same ?_
    intro action member
    obtain rfl := List.mem_singleton.mp member
    exact ⟨_, _, rfl, by decide⟩
  have allowed : ∀ i ∈ Sample.releases, i.Allowed (.opened 1 2 3 (.fromU32 300) 9) := by
    intro i member
    simp only [Sample.releases, List.mem_cons, List.not_mem_nil, or_false] at member
    rcases member with rfl | rfl
    · exact ⟨by decide, by decide, by decide⟩
    · exact ⟨by decide, by decide, by decide⟩
  obtain ⟨total, each, closes⟩ :=
    @stroops_exact Nat Nat (Escrow.Bank Nat) _ _ Rounding.binary64 Sample.dto (by decide)
  refine ⟨total, (closes _ _ _ 7 1 2 3 9 300 (.fromU32 300) Sample.releases run Escrow.bank_exact fair
    (by decide) total rfl allowed ?_).2⟩
  have converted : (Sample.dto.milestones.map fun m =>
      ((Numbers.rational Rounding.binary64.rd).release m.amount).map (Nat.cast (R := Int))) =
        Sample.dto.milestones.map fun m => some (m.amount : Int) :=
    List.map_congr_left fun m member => by rw [each m member]; rfl
  rw [converted]
  decide

end Stellance.Backend
