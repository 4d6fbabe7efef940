import Stellance.Backend.Conversion
import Stellance.Backend.Interpreter

/-! The backend's lifecycle of a contract against the lifecycle of its entry. Where
funding and its confirmation come as one step and the amounts are in the range in which
doubles convert them exactly, every status of a row is the image of the status of its entry. -/
namespace Stellance.Backend
open ContractsService

inductive ContractStatus.Mirrors : ContractStatus → Option Escrow.EscrowStatus → Prop where
  | pending : Mirrors .pending none
  | active : Mirrors .active (some .funded)
  | disputed : Mirrors .disputed (some .disputed)
  | released : Mirrors .completed (some .released)
  | resolved : Mirrors .completed (some .resolved)
  | unfunded : Mirrors .cancelled none
  | refunded : Mirrors .cancelled (some .refunded)

namespace ContractStatus.Mirrors
variable {entry : Option Escrow.EscrowStatus}

theorem of_disputed (mirrors : Mirrors .disputed entry) : entry = some .disputed := by
  cases mirrors
  rfl

end ContractStatus.Mirrors

namespace Dossier
variable {numbers : Numbers} {d d' d'' : Dossier} {act : Act} {row : Contract}

/-- The amounts of a contract that was there before are those that it still has. -/
theorem Step.exact (step : d.Step numbers act d') (exact' : d'.Exact numbers) :
    d.row = none ∨ d.Exact numbers := by
  cases step with
  | created absent => exact .inl absent
  | submitted => exact .inr (exact_mark rfl exact')
  | approved => exact .inr (exact_mark rfl exact')
  | _ => exact .inr exact'

end Dossier

/-! ### Runs -/

section Runs
variable {τ : Type} {host : Escrow.Host Address τ} {config : Config} {ours : Uuid → Prop}
  {start joint joint' : Joint τ} {label : Label} {id : Uuid} {row : Contract}
  {trace : List (Joint τ × Label)}

namespace Dossier
variable {numbers : Numbers} {d : Dossier} {entry : Entry}

/-- An open entry leaves something to pay. -/
theorem Books.unpaid (books : d.Books numbers) (exact' : d.Exact numbers) (found : d.entry = some entry)
    (isOpen : entry.status.isOpen = true) : ∃ m ∈ d.milestones, m.status ≠ .paid := by
  by_contra every
  have allPaid : ∀ m ∈ d.milestones, m.status = .paid := by
    intro m member
    by_contra unpaid
    exact every ⟨m, member, unpaid⟩
  have closed := books.closed exact' found allPaid
  rw [isOpen] at closed
  contradiction

theorem Books.total_pos (books : d.Books numbers) (found : d.row = some row) : 0 < d.totalAmount := by
  obtain ⟨m, member⟩ := List.exists_mem_of_ne_nil _ (books.planned (known found))
  have positive := books.positive m member
  have bound := List.single_le_sum (fun _ _ => Nat.zero_le _) _
    (List.mem_map_of_mem (f := Milestone.amount) member)
  exact lt_of_lt_of_le positive bound

/-- Everything is paid out exactly when the entry is closed. -/
theorem Books.settled (books : d.Books numbers) (exact' : d.Exact numbers) (found : d.row = some row) :
    d.recorded = d.totalAmount ↔ ∃ entry, d.entry = some entry ∧ entry.status.isOpen = false := by
  have accounts := books.accounts exact'
  have recorded := accounts.recorded
  constructor
  · intro same
    have positive := books.total_pos found
    cases stored : d.entry with
    | none =>
      have nothing := (books.unfunded stored).1
      omega
    | some entry =>
      have agrees := accounts.funded entry stored
      have total := agrees.total
      have paid := agrees.paid
      refine ⟨entry, rfl, ?_⟩
      cases opened : entry.status.isOpen with
      | false => rfl
      | true =>
        rw [Escrow.outstanding_open opened] at paid
        have unspent := agrees.formed.unspent opened
        omega
  · rintro ⟨entry, stored, closed⟩
    have agrees := accounts.funded entry stored
    have total := agrees.total
    have paid := agrees.paid
    rw [Escrow.outstanding_closed closed] at paid
    omega

end Dossier

end Runs

namespace Sample

end Sample

end Stellance.Backend
