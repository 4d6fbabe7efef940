import Stellance.Library.Runs
import Mathlib.Tactic.Linarith

/-! A deposit that is paid out in parts. A pot carries its own accounts: it never
pays more than the deposit, and it is closed only when nothing is left in it. -/

structure Pot where
  deposit : Int
  paid : Int
  closed : Bool
  paid_nonneg : 0 ≤ paid
  paid_le : paid ≤ deposit
  empty : closed = true → paid = deposit

namespace Pot

/-- What the pot still owes. -/
def held (pot : Pot) : Int := if pot.closed then 0 else pot.deposit - pot.paid

theorem paid_add_held (pot : Pot) : pot.paid + pot.held = pot.deposit := by
  unfold held
  split
  · rename_i closed
    have := pot.empty closed
    omega
  · omega

theorem held_nonneg (pot : Pot) : 0 ≤ pot.held := by
  have := pot.paid_le
  unfold held
  split <;> omega

inductive Act where
  | opened
  | drawn (amount : Int)

/-- There is one deposit, and draws from it while it is open. -/
inductive Step : Option Pot → Act → Option Pot → Prop where
  | opened {pot : Pot} (untouched : pot.paid = 0) (open' : pot.closed = false) :
      Step none .opened (some pot)
  | drawn {before after : Pot} {amount : Int} (open' : before.closed = false)
      (nonneg : 0 ≤ amount) (same : after.deposit = before.deposit)
      (paid : after.paid = before.paid + amount) : Step (some before) (.drawn amount) (some after)

end Pot
