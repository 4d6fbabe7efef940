import Mathlib.Algebra.Order.Floor.Ring
import Mathlib.Data.Rat.Floor
import Stellance.Library.Double

/-! The numbers that the backend computes amounts with. Its own are doubles; the conversions
below are written once, over any numbers, so that what rounding does to them can be told
apart from what the requests do. -/
namespace Stellance.Backend

/-- Numbers without a sign, and the columns that they are stored in. -/
structure Numbers where
  Num : Type
  /-- What a decimal text of this value is read as. -/
  parse : (num den : Nat) → Num
  ofNat : Nat → Num
  add : Num → Num → Num
  /-- `Math.max(0, a - b)` -/
  monus : Num → Num → Num
  mul : Num → Num → Num
  div : Num → Num → Num
  /-- `Math.round` -/
  round : Num → Num
  /-- `BigInt`, of whole numbers. -/
  bigInt : Num → Option Nat
  notPositive : Num → Bool
  /-- Without the point; infinity has no digits. -/
  toFixed : (places : Nat) → Num → Option Nat
  /-- The text of a number in units of 10⁻⁷, as `Decimal(18,7)` rounds it. -/
  text : Num → Option Nat
  /-- A column holds an amount of so many of these units. -/
  holds : Nat → Bool

namespace Numbers

/-- The numbers of the program. -/
def doubles : Numbers where
  Num := Double
  parse := Double.nearest
  ofNat := Double.ofNat
  add := Double.add
  monus := Double.monus
  mul := Double.mul
  div := Double.div
  round := Double.round
  bigInt := Double.bigInt
  notPositive := Double.isZero
  toFixed := Double.toFixed
  text := Double.text 7
  holds stroops := stroops < 10 ^ 18

/-- Rational numbers of any size, with the results of operations rounded. -/
def rational (rd : ℚ → ℚ) : Numbers where
  Num := ℚ
  parse num den := rd (num / den)
  ofNat n := n
  add x y := rd (x + y)
  monus x y := max 0 (rd (x - y))
  mul x y := rd (x * y)
  div x y := rd (x / y)
  round x := ⌊x + 1 / 2⌋
  bigInt x := if (⌊x⌋ : ℚ) = x then some ⌊x⌋.toNat else none
  notPositive x := x ≤ 0
  toFixed places x := some ⌊x * 10 ^ places + 1 / 2⌋.toNat
  text x := some ⌊x * 10 ^ 7 + 1 / 2⌋.toNat
  holds _ := true

/-- Nothing is rounded but where it is printed. -/
def decimals : Numbers := rational id

variable (numbers : Numbers)

/-- `parseFloat(text)` -/
def parseFloat (n : Numeral) : numbers.Num := numbers.parse n.numerator n.denominator

/-! ### Conversions -/

/-- `parseFloat(amount.toString())`, of an amount of stroops as it is stored. -/
def amount (stroops : Nat) : numbers.Num := numbers.parse stroops 10000000

/-- `10_000_000` -/
def scale : numbers.Num := numbers.ofNat 10000000

/-- `Math.round(amount * 10_000_000)` -/
def toStroops (amount : numbers.Num) : numbers.Num := numbers.round (numbers.mul amount numbers.scale)

/-- `reduce((sum, x) => sum + x, 0)` -/
def sum (xs : List numbers.Num) : numbers.Num := xs.foldl numbers.add (numbers.ofNat 0)

/-- `BigInt(Math.round(amount * 10_000_000))` -/
def amountStroops (amount : numbers.Num) : Option Nat := numbers.bigInt (numbers.toStroops amount)

/-- What `create` funds, of the amounts of the milestones. -/
def deposit (amounts : List Nat) : Option Nat := numbers.amountStroops (numbers.sum (amounts.map numbers.amount))

/-- What `approveMilestone` releases, of the amount of the milestone. -/
def release (amount : Nat) : Option Nat := numbers.amountStroops (numbers.amount amount)

/-- `reduce((s, m) => s + Math.round(parseFloat(m.amount.toString()) * SCALE), 0)` -/
def cents (amounts : List Nat) : numbers.Num := numbers.sum (amounts.map fun k => numbers.toStroops (numbers.amount k))

/-- `Math.max(0, (totalCents - paidCents) / SCALE)` -/
def remaining (milestones payments : List Nat) : numbers.Num :=
  numbers.div (numbers.monus (numbers.cents milestones) (numbers.cents payments)) numbers.scale

/-- What a column keeps of a number, where it holds it. -/
def column (value : numbers.Num) : Option Nat := (numbers.text value).filter numbers.holds

/-- The amounts of a contract go through all conversions unchanged. -/
structure ExactFor (amounts : List Nat) : Prop where
  deposit : numbers.deposit amounts = some amounts.sum
  release : ∀ k ∈ amounts, numbers.release k = some k
  remaining : ∀ paid : List Nat, paid.sum ≤ amounts.sum →
    numbers.column (numbers.remaining amounts paid) = some (amounts.sum - paid.sum)

end Numbers
end Stellance.Backend
