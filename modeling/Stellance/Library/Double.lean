import Mathlib.Data.Nat.Log
import Mathlib.Tactic.Linarith
import Mathlib.Tactic.Ring

/-! Unsigned decimal numerals and the doubles they parse to, exactly. A double is an
integer times a power of two, or infinity. Printed with a fixed number of places it is
the nearest number with so many places, which for numerals that are not too large is the
number they were written for. -/

/-- The texts of `\d+(\.\d+)?`. -/
structure Numeral where
  whole : List (Fin 10)
  fraction : List (Fin 10)
  someDigit : whole ≠ []

namespace Numeral

/-- All digits as one number. -/
def numerator (n : Numeral) : Nat :=
  (n.whole ++ n.fraction).foldl (fun value digit => 10 * value + digit.val) 0

def denominator (n : Numeral) : Nat := 10 ^ n.fraction.length

end Numeral

inductive Double where
  | finite (mantissa : Nat) (exponent : Int)
  | infinity
  deriving DecidableEq

namespace Double

/-- The integer nearest to a quotient, of two the even one. -/
def roundEven (num den : Nat) : Nat :=
  let quotient := num / den
  let remainder := num % den
  if 2 * remainder < den then quotient
  else if den < 2 * remainder then quotient + 1
  else quotient + quotient % 2

/-- The exponent of the highest power of two that is not above a positive quotient. -/
def floorLog2 (num den : Nat) : Int :=
  let guess : Int := Nat.log2 num - Nat.log2 den
  if den * 2 ^ guess.toNat ≤ num * 2 ^ (-guess).toNat then guess else guess - 1

/-- 53 bits from the leading one on, and none below the 1074th after the point. -/
def exponent (num den : Nat) : Int := max (-1074) (floorLog2 num den - 52)

/-- The double nearest to a quotient. -/
def nearest (num den : Nat) : Double :=
  if num = 0 then .finite 0 0
  else
    let e := exponent num den
    let mantissa := roundEven (num * 2 ^ (-e).toNat) (den * 2 ^ e.toNat)
    -- 2 ^ 1024 is not a double any more
    if 1024 ≤ Nat.log2 mantissa + e then .infinity else .finite mantissa e

/-- A whole number. -/
def ofNat (n : Nat) : Double := nearest n 1

/-- `value <= 0`, of a number without a sign. -/
def isZero : Double → Bool
  | .finite mantissa _ => mantissa = 0
  | .infinity => false

/-- `value < bound` -/
def below (bound : Nat) : Double → Bool
  | .finite mantissa e => mantissa * 2 ^ e.toNat < bound * 2 ^ (-e).toNat
  | .infinity => false

/-- `value > bound` -/
def above (bound : Nat) : Double → Bool
  | .finite mantissa e => bound * 2 ^ (-e).toNat < mantissa * 2 ^ e.toNat
  | .infinity => true

/-- `value.toFixed(places)`, without its point: of two nearest numbers the larger one. -/
def toFixed (places : Nat) : Double → Option Nat
  | .finite mantissa e =>
      some ((2 * (mantissa * 2 ^ e.toNat * 10 ^ places) + 2 ^ (-e).toNat) / (2 * 2 ^ (-e).toNat))
  | .infinity => none

/-! ### Arithmetic

An operation rounds its exact result. The numbers have no sign, and what is not a number is
infinite: neither comes back from there. -/

/-- An operation on quotients. -/
def lift₂ (f : Nat × Nat → Nat × Nat → Nat × Nat) : Double → Double → Double
  | .finite m e, .finite m' e' =>
      let exact := f (m * 2 ^ e.toNat, 2 ^ (-e).toNat) (m' * 2 ^ e'.toNat, 2 ^ (-e').toNat)
      nearest exact.1 exact.2
  | _, _ => .infinity

def add : Double → Double → Double :=
  lift₂ fun a b => (a.1 * b.2 + b.1 * a.2, a.2 * b.2)

/-- `Math.max(0, a - b)` -/
def monus : Double → Double → Double
  | .finite _ _, .infinity => .finite 0 0
  | a, b => lift₂ (fun a b => (a.1 * b.2 - b.1 * a.2, a.2 * b.2)) a b

def mul : Double → Double → Double :=
  lift₂ fun a b => (a.1 * b.1, a.2 * b.2)

def div : Double → Double → Double
  | .finite _ _, .infinity => .finite 0 0
  | a, b => if b.isZero then .infinity else lift₂ (fun a b => (a.1 * b.2, a.2 * b.1)) a b

/-- `Math.round(value)`, which is exact. -/
def round : Double → Double
  | .finite mantissa e => .finite ((2 * (mantissa * 2 ^ e.toNat) + 2 ^ (-e).toNat) / (2 * 2 ^ (-e).toNat)) 0
  | .infinity => .infinity

/-- `BigInt(value)`, for whole numbers. -/
def bigInt : Double → Option Nat
  | .finite mantissa e =>
      if mantissa * 2 ^ e.toNat % 2 ^ (-e).toNat = 0 then some (mantissa * 2 ^ e.toNat / 2 ^ (-e).toNat) else none
  | .infinity => none

/-- The doubles are the same number. -/
def same : Double → Double → Bool
  | .finite m e, .finite m' e' =>
      m * 2 ^ e.toNat * 2 ^ (-e').toNat = m' * 2 ^ e'.toNat * 2 ^ (-e).toNat
  | .infinity, .infinity => true
  | _, _ => false

/-- The text of a number, rounded to `places` of its digits after the point: with as few as
are needed to read the number back, if these are enough. -/
def text (places : Nat) (value : Double) : Option Nat :=
  let reads (p : Nat) : Bool := (value.toFixed p).any fun digits => (nearest digits (10 ^ p)).same value
  match (List.range places).find? reads with
  | some p => (value.toFixed p).map (· * 10 ^ (places - p))
  | none => value.toFixed places

/-! ### Numerals that survive -/

variable {num den : Nat}

/-- The rounded quotient is off by half at most. -/
theorem roundEven_near (num : Nat) (positive : 0 < den) :
    2 * (roundEven num den * den) ≤ 2 * num + den ∧ 2 * num ≤ 2 * (roundEven num den * den) + den := by
  have divided := Nat.div_add_mod' num den
  have below := Nat.mod_lt num positive
  unfold roundEven
  dsimp only
  split
  · omega
  · split
    · rw [Nat.add_mul]
      omega
    · rw [Nat.add_mul]
      rcases Nat.mod_two_eq_zero_or_one (num / den) with even | odd
      · rw [even]
        omega
      · rw [odd]
        omega

theorem floorLog2_le {k : Nat} (positive : 0 < num) (small : num < 2 ^ (k + 1) * den) : floorLog2 num den ≤ k := by
  have high : Nat.log2 num ≤ Nat.log2 den + (k + 1) := by
    have below : 2 ^ Nat.log2 num ≤ num := Nat.log2_self_le (by omega)
    have above : den < 2 ^ (Nat.log2 den + 1) := Nat.lt_log2_self
    have bound : 2 ^ Nat.log2 num < 2 ^ (Nat.log2 den + 1 + (k + 1)) := by
      calc 2 ^ Nat.log2 num ≤ num := below
        _ < 2 ^ (k + 1) * den := small
        _ ≤ 2 ^ (k + 1) * 2 ^ (Nat.log2 den + 1) := Nat.mul_le_mul_left _ (Nat.le_of_lt above)
        _ = 2 ^ (Nat.log2 den + 1 + (k + 1)) := by rw [← pow_add, Nat.add_comm]
    have := (Nat.pow_lt_pow_iff_right (by omega)).mp bound
    omega
  unfold floorLog2
  dsimp only
  split
  · rename_i fits
    by_contra exceeds
    -- a power above `k` would already be more than the quotient
    obtain ⟨guess, same⟩ : ∃ guess : Nat, (Nat.log2 num : Int) - Nat.log2 den = guess :=
      ⟨((Nat.log2 num : Int) - Nat.log2 den).toNat, by omega⟩
    rw [same] at fits exceeds
    rw [Int.toNat_natCast, show (-(guess : Int)).toNat = 0 by omega, pow_zero, Nat.mul_one] at fits
    have powers : 2 ^ (k + 1) ≤ 2 ^ guess := Nat.pow_le_pow_right (by omega) (by omega)
    have := Nat.mul_le_mul_right den powers
    rw [Nat.mul_comm den] at fits
    omega
  · omega

/-- The mantissa of a number that is not too large has its place among the doubles. -/
theorem mantissa_finite {k p mantissa : Nat} (small : num < 2 ^ (k + 1) * den) (within : k < 52)
    (atMost : 2 * (mantissa * den) ≤ 2 * (num * 2 ^ p) + den) : ¬ 1024 ≤ (Nat.log2 mantissa : Int) + -p := by
  have bounded : mantissa ≤ 2 ^ (k + 1) * 2 ^ p := by
    by_contra exceeds
    have more := Nat.mul_le_mul_right den (Nat.succ_le_of_lt (Nat.lt_of_not_le exceeds))
    have := Nat.mul_lt_mul_of_pos_right small (Nat.two_pow_pos p)
    linarith [Nat.mul_right_comm (2 ^ (k + 1)) den (2 ^ p)]
  have log : Nat.log2 mantissa ≤ k + 1 + p := by
    rcases Nat.eq_zero_or_pos mantissa with rfl | positive
    · exact Nat.zero_le _
    · have leading : 2 ^ Nat.log2 mantissa ≤ 2 ^ (k + 1 + p) := by
        rw [pow_add]
        exact (Nat.log2_self_le (by omega)).trans bounded
      exact (Nat.pow_le_pow_iff_right (by omega)).mp leading
  omega

/-- A mantissa that is off by at most half a unit stays near the number, scaled as it is. -/
theorem scaled_near {scale n p mantissa : Nat} (den_positive : 0 < den) (exact : num * scale = n * den)
    (atMost : 2 * (mantissa * den) ≤ 2 * (num * 2 ^ p) + den)
    (atLeast : 2 * (num * 2 ^ p) ≤ 2 * (mantissa * den) + den) :
    2 * (mantissa * scale) ≤ 2 * (n * 2 ^ p) + scale ∧ 2 * (n * 2 ^ p) ≤ 2 * (mantissa * scale) + scale := by
  constructor
  · refine Nat.le_of_mul_le_mul_right ?_ den_positive
    calc 2 * (mantissa * scale) * den = 2 * (mantissa * den) * scale := by ring
      _ ≤ (2 * (num * 2 ^ p) + den) * scale := Nat.mul_le_mul_right _ atMost
      _ = 2 * (num * scale * 2 ^ p) + den * scale := by ring
      _ = (2 * (n * 2 ^ p) + scale) * den := by rw [exact]; ring
  · refine Nat.le_of_mul_le_mul_right ?_ den_positive
    calc 2 * (n * 2 ^ p) * den = 2 * (num * 2 ^ p) * scale := by
          rw [show 2 * (n * 2 ^ p) * den = 2 * (n * den * 2 ^ p) by ring, ← exact]; ring
      _ ≤ (2 * (mantissa * den) + den) * scale := Nat.mul_le_mul_right _ atLeast
      _ = (2 * (mantissa * scale) + scale) * den := by ring

/-- A number with so many places that is not too large is printed as it was written. -/
theorem toFixed_nearest {k places n : Nat} (den_positive : 0 < den) (small : num < 2 ^ (k + 1) * den)
    (fits : 10 ^ places < 2 ^ (52 - k)) (exact : num * 10 ^ places = n * den) :
    (nearest num den).toFixed places = some n := by
  unfold nearest
  split
  · rename_i zero
    have nothing : n = 0 := by
      rw [zero, Nat.zero_mul] at exact
      exact (Nat.mul_eq_zero.mp exact.symm).resolve_right (by omega)
    simp [toFixed, nothing]
  rename_i nonzero
  have within : k < 52 := by
    by_contra exceeds
    rw [show 52 - k = 0 by omega, pow_zero] at fits
    have := Nat.pow_pos (n := places) (show 0 < 10 by omega)
    omega
  have log := floorLog2_le (by omega) small
  obtain ⟨p, same, fine⟩ : ∃ p : Nat, exponent num den = -(p : Int) ∧ 52 - k ≤ p :=
    ⟨(-exponent num den).toNat, by unfold exponent; omega, by unfold exponent; omega⟩
  dsimp only
  rw [same, show (- -(p : Int)).toNat = p by omega, show (-(p : Int)).toNat = 0 by omega, pow_zero,
    Nat.mul_one]
  obtain ⟨atMost, atLeast⟩ := roundEven_near (num * 2 ^ p) den_positive
  generalize roundEven (num * 2 ^ p) den = mantissa at atMost atLeast ⊢
  rw [if_neg (mantissa_finite small within atMost), toFixed, show (- -(p : Int)).toNat = p by omega,
    show (-(p : Int)).toNat = 0 by omega, pow_zero, Nat.mul_one]
  -- the error of the mantissa is less than half a unit of the last place
  have tenth : 10 ^ places < 2 ^ p :=
    Nat.lt_of_lt_of_le fits (Nat.pow_le_pow_right (by omega) fine)
  obtain ⟨upper, lower⟩ := scaled_near den_positive exact atMost atLeast
  congr 1
  refine Nat.div_eq_of_lt_le ?_ ?_
  · linarith
  · linarith

end Double
