import Mathlib.Algebra.Order.Round
import Mathlib.Algebra.Order.Field.Basic
import Mathlib.Data.Int.Log
import Mathlib.Data.Rat.Floor
import Mathlib.Data.List.Induction
import Mathlib.Tactic.Linarith
import Mathlib.Tactic.NormNum
import Mathlib.Tactic.Ring
import Mathlib.Tactic.Positivity

/-! Arithmetic that rounds with a bounded relative error. A sum of numbers that are
themselves rounded, taken from the left and scaled at the end, is off by no more than the
compound error of as many roundings as its first term goes through. -/

/-- Rounding of exact results, each off by a part of its size at most. -/
structure Rounding (u : ℚ) where
  rd : ℚ → ℚ
  near : ∀ x, |rd x - x| ≤ u * |x|

namespace Rounding
variable {u : ℚ} (r : Rounding u)

/-- Summed from the left, from 0 on. -/
def sum (xs : List ℚ) : ℚ := xs.foldl (fun total x => r.rd (total + x)) 0

theorem sum_append (xs : List ℚ) (x : ℚ) : r.sum (xs ++ [x]) = r.rd (r.sum xs + x) := by
  simp only [sum, List.foldl_append, List.foldl_cons, List.foldl_nil]

variable {r} {x y e q : ℚ}

/-- One more rounding compounds an error. -/
theorem near_of_near (small : 0 ≤ u) (nonneg : 0 ≤ x) (close : |y - x| ≤ e) :
    |r.rd y - x| ≤ (1 + u) * e + u * x := by
  have size : |y| ≤ e + x := by
    calc |y| = |(y - x) + x| := by rw [sub_add_cancel]
      _ ≤ |y - x| + |x| := abs_add_le _ _
      _ ≤ e + x := by rw [abs_of_nonneg nonneg]; exact add_le_add close (le_refl x)
  calc |r.rd y - x| = |(r.rd y - y) + (y - x)| := by rw [sub_add_sub_cancel]
    _ ≤ |r.rd y - y| + |y - x| := abs_add_le _ _
    _ ≤ u * |y| + e := add_le_add (r.near y) close
    _ ≤ u * (e + x) + e := by gcongr
    _ = (1 + u) * e + u * x := by ring

/-- Every term but the first saves a rounding at least. -/
theorem sum_near (small : 0 ≤ u) (positive : 0 ≤ q) {xs : List ℚ} (nonempty : xs ≠ [])
    (least : ∀ x ∈ xs, q ≤ x) :
    |r.sum (xs.map r.rd) - xs.sum| ≤
      xs.sum * ((1 + u) ^ (xs.length + 1) - 1) - (xs.length - 1) * (u * q) := by
  induction xs using List.reverseRecOn with
  | nil => contradiction
  | append_singleton xs x ih =>
    have more : q ≤ x := least x (List.mem_append_right _ List.mem_cons_self)
    have parsed : |r.rd x - x| ≤ u * x := by
      have := r.near x
      rwa [abs_of_nonneg (positive.trans more)] at this
    rw [List.map_append, List.map_cons, List.map_nil, sum_append, List.sum_append, List.sum_singleton,
      List.length_append, List.length_singleton]
    rcases eq_or_ne xs [] with rfl | some'
    · have once : |r.rd (r.sum [] + r.rd x) - x| ≤ (1 + u) * (u * x) + u * x :=
        near_of_near small (positive.trans more) (by simpa [sum] using parsed)
      simp only [List.map_nil, List.sum_nil, zero_add, List.length_nil, sub_self, zero_mul,
        sub_zero, Nat.cast_one]
      refine once.trans (le_of_eq ?_)
      ring
    · have least' : ∀ x ∈ xs, q ≤ x := fun x member => least x (List.mem_append_left _ member)
      have total : 0 ≤ xs.sum := List.sum_nonneg fun x member => positive.trans (least' x member)
      have earlier := ih some' least'
      have close : |r.sum (xs.map r.rd) + r.rd x - (xs.sum + x)| ≤
          xs.sum * ((1 + u) ^ (xs.length + 1) - 1) - (xs.length - 1) * (u * q) + u * x := by
        calc |r.sum (xs.map r.rd) + r.rd x - (xs.sum + x)|
            = |(r.sum (xs.map r.rd) - xs.sum) + (r.rd x - x)| := by rw [add_sub_add_comm]
          _ ≤ |r.sum (xs.map r.rd) - xs.sum| + |r.rd x - x| := abs_add_le _ _
          _ ≤ _ := add_le_add earlier parsed
      refine (near_of_near small (add_nonneg total (positive.trans more)) close).trans ?_
      -- the new term goes through two roundings only, one less than the bound gives it
      have length : 1 ≤ xs.length := List.length_pos_iff.mpr some'
      have grown : (1 + u) ^ 3 ≤ (1 + u) ^ (xs.length + 1 + 1) :=
        pow_le_pow_right₀ (by linarith) (by omega)
      have cube : (1 + u) ^ 2 + u ≤ (1 + u) ^ 3 := by nlinarith [pow_nonneg small 2, pow_nonneg small 3]
      have saved : u * q ≤ x * ((1 + u) ^ (xs.length + 1 + 1) - (1 + u) ^ 2) := by
        rw [mul_comm u q]
        exact mul_le_mul more (by linarith) small (positive.trans more)
      have count : (1 : ℚ) ≤ xs.length := by exact_mod_cast length
      have before : 0 ≤ u * ((xs.length - 1) * (u * q)) := by
        have := mul_nonneg small positive
        exact mul_nonneg small (mul_nonneg (by linarith) this)
      push_cast
      rw [pow_succ (1 + u) (xs.length + 1)] at saved ⊢
      linarith

/-- A scaled result, one more rounding later. -/
theorem scaled_near {scale : ℚ} (small : 0 ≤ u) (nonneg : 0 ≤ x) (positive : 0 ≤ scale)
    (close : |y - x| ≤ e) : |r.rd (y * scale) - x * scale| ≤ (1 + u) * (e * scale) + u * (x * scale) := by
  refine near_of_near small (mul_nonneg nonneg positive) ?_
  rw [← sub_mul, abs_mul, abs_of_nonneg positive]
  exact mul_le_mul_of_nonneg_right close positive

/-- Few roundings compound to little more than their sum. -/
theorem compound_le (small : 0 ≤ u) {m : Nat} (few : m * u ≤ 1 / 4) :
    (1 + u) ^ m ≤ 1 + m * u + 5 / 8 * (m * (m - 1)) * u ^ 2 := by
  induction m with
  | zero => simp
  | succ m ih =>
    push_cast at few ⊢
    have fewer : m * u ≤ 1 / 4 := by linarith
    have square : 0 ≤ u ^ 2 := pow_nonneg small 2
    have count : (0 : ℚ) ≤ m := Nat.cast_nonneg m
    -- the new mixed terms stay below the growth of the quadratic one
    have mixed : (m - 1) * u * (m * u ^ 2) ≤ 1 / 4 * (m * u ^ 2) := by
      refine mul_le_mul_of_nonneg_right ?_ (mul_nonneg count square)
      linarith
    calc (1 + u) ^ (m + 1) = (1 + u) ^ m * (1 + u) := pow_succ _ _
      _ ≤ (1 + m * u + 5 / 8 * (m * (m - 1)) * u ^ 2) * (1 + u) :=
        mul_le_mul_of_nonneg_right (ih fewer) (by linarith)
      _ = 1 + (m + 1) * u + m * u ^ 2 + 5 / 8 * (m * (m - 1)) * u ^ 2 +
          5 / 8 * ((m - 1) * u * (m * u ^ 2)) := by ring
      _ ≤ 1 + (m + 1) * u + 5 / 8 * ((m + 1) * (m + 1 - 1)) * u ^ 2 := by
        have growth : 0 ≤ m * u ^ 2 := mul_nonneg count square
        linarith

/-! ### Binary floating point -/

/-- The nearest integer, of two the even one. -/
def roundEven (x : ℚ) : ℤ :=
  if Int.fract x = 1 / 2 then (if ⌊x⌋ % 2 = 0 then ⌊x⌋ else ⌊x⌋ + 1) else round x

theorem roundEven_near (x : ℚ) : |roundEven x - x| ≤ 1 / 2 := by
  unfold roundEven
  split
  · rename_i half
    have parts := Int.floor_add_fract x
    rw [half] at parts
    split
    · rw [abs_le]
      constructor <;> linarith
    · push_cast
      rw [abs_le]
      constructor <;> linarith
  · rw [abs_sub_comm]
    exact abs_sub_round x

/-- To nearest with ties to even, with 53 bits and no bound on the exponent. -/
def binary64 : Rounding (1 / 2 ^ 53) where
  rd x := roundEven (x / 2 ^ (Int.log 2 |x| - 52)) * 2 ^ (Int.log 2 |x| - 52)
  near x := by
    rcases eq_or_ne x 0 with rfl | nonzero
    · simp [roundEven]
    · have unit : (0 : ℚ) < 2 ^ (Int.log 2 |x| - 52) := zpow_pos (by norm_num) _
      have leading : (2 : ℚ) ^ Int.log 2 |x| ≤ |x| :=
        Int.zpow_log_le_self (by norm_num) (abs_pos.mpr nonzero)
      have split : (2 : ℚ) ^ (Int.log 2 |x| - 52) = 2 ^ Int.log 2 |x| / 2 ^ 52 := by
        rw [zpow_sub₀ (by norm_num)]
        norm_num
      generalize (2 : ℚ) ^ (Int.log 2 |x| - 52) = scale at unit split ⊢
      have near := roundEven_near (x / scale)
      have back : x = x / scale * scale := (div_mul_cancel₀ x (ne_of_gt unit)).symm
      calc |roundEven (x / scale) * scale - x|
          = |(roundEven (x / scale) - x / scale) * scale| := by rw [sub_mul, ← back]
        _ = |roundEven (x / scale) - x / scale| * scale := by rw [abs_mul, abs_of_pos unit]
        _ ≤ 1 / 2 * scale := mul_le_mul_of_nonneg_right near (le_of_lt unit)
        _ = 1 / 2 ^ 53 * 2 ^ Int.log 2 |x| := by rw [split]; ring
        _ ≤ 1 / 2 ^ 53 * |x| := mul_le_mul_of_nonneg_left leading (by norm_num)

end Rounding
