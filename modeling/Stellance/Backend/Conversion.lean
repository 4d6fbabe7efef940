import Mathlib.Algebra.BigOperators.Ring.Finset
import Stellance.Library.Binary64
import Stellance.Backend.Numbers

/-! The range in which the conversions of amounts are exact. A deposit is rounded once after
a sum, each release is rounded on its own, and what is left to pay is taken back from whole
stroops; as long as the amounts are not too many or too large none of it is off by half a
stroop. -/
namespace Stellance.Backend

abbrev Binary64 := Rounding (1 / 2 ^ 53)

/-! ### Errors below half a stroop -/

theorem floor_half {x : ℚ} {n : ℤ} (near : |x - n| < 1 / 2) : ⌊x + 1 / 2⌋ = n := by
  rw [abs_lt] at near
  rw [Int.floor_eq_iff]
  constructor <;> linarith

/-- The error of `n` amounts of `N` stroops in all. -/
theorem compound_small {n N : Nat} (some' : 1 ≤ n) (each : n ≤ N) (safe : (n + 2) * N ≤ 2 ^ 52) :
    (N : ℚ) * ((1 + 1 / 2 ^ 53) ^ (n + 2) - 1) - (n - 1) * (1 / 2 ^ 53) < 1 / 2 := by
  rcases Nat.eq_or_lt_of_le some' with rfl | several
  · -- three times the total is not the power of two itself
    have strict : 3 * N + 1 ≤ 2 ^ 52 := by omega
    have bound : (3 : ℚ) * N + 1 ≤ 2 ^ 52 := by exact_mod_cast strict
    norm_num at bound ⊢
    linarith
  · have fewer : (n + 2) * 2 ≤ 2 ^ 52 := (Nat.mul_le_mul_left _ (Nat.le_trans several each)).trans safe
    have few : ((n + 2 : Nat) : ℚ) * (1 / 2 ^ 53) ≤ 1 / 4 := by
      have : ((n + 2 : Nat) : ℚ) * 2 ≤ 2 ^ 52 := by exact_mod_cast fewer
      linarith
    have compound := Rounding.compound_le (by norm_num) few
    have first : ((n + 2 : Nat) : ℚ) * N * (1 / 2 ^ 53) ≤ 1 / 2 := by
      have : ((n + 2 : Nat) : ℚ) * N ≤ 2 ^ 52 := by exact_mod_cast safe
      linarith
    have count : (2 : ℚ) ≤ n := by exact_mod_cast several
    have second : ((n + 2 : Nat) : ℚ) * N * (1 / 2 ^ 53) * ((n + 1) * (1 / 2 ^ 53)) ≤
        1 / 2 * ((n + 1) * (1 / 2 ^ 53)) :=
      mul_le_mul_of_nonneg_right first (by positivity)
    have total := mul_le_mul_of_nonneg_left compound (Nat.cast_nonneg (α := ℚ) N)
    push_cast at total first second
    nlinarith

theorem sum_values (ks : List Nat) :
    (ks.map fun k : Nat => (k : ℚ) / 10000000).sum = (ks.sum : ℚ) / 10000000 := by
  induction ks with
  | nil => simp
  | cons k ks ih =>
    rw [List.map_cons, List.sum_cons, ih, List.sum_cons, Nat.cast_add, add_div]

section Roundings
variable (f : Binary64)

/-- The number that the text of an amount of stroops is parsed to. -/
def parsed (stroops : Nat) : ℚ := f.rd (stroops / 10000000)

/-- `Math.round(amount * 10_000_000)` -/
def converted (amount : ℚ) : ℤ := ⌊f.rd (amount * 10000000) + 1 / 2⌋

theorem rd_bounds {x : ℚ} (nonneg : 0 ≤ x) : x / 2 ≤ f.rd x ∧ f.rd x ≤ 2 * x := by
  have near := f.near x
  rw [abs_of_nonneg nonneg, abs_le] at near
  constructor <;> linarith

/-- The sum of amounts, and the sum in units of a stroop. -/
theorem sum_close {ks : List Nat} (nonempty : ks ≠ []) (positive : ∀ k ∈ ks, 0 < k) :
    |f.sum (ks.map (parsed f)) - ks.sum / 10000000| ≤
      ks.sum / 10000000 * ((1 + 1 / 2 ^ 53) ^ (ks.length + 1) - 1) -
        (ks.length - 1) * (1 / 2 ^ 53 * (1 / 10000000)) := by
  have least : ∀ x ∈ ks.map (fun k : Nat => (k : ℚ) / 10000000), 1 / 10000000 ≤ x := by
    intro x member
    obtain ⟨k, listed, rfl⟩ := List.mem_map.mp member
    have one : (1 : ℚ) ≤ k := by exact_mod_cast positive k listed
    linarith
  have near := f.sum_near (by norm_num) (by norm_num) (by simpa using nonempty) least
  rw [List.map_map, sum_values, List.length_map] at near
  exact near

/-- The sum of amounts, converted. -/
theorem converted_sum {ks : List Nat} (nonempty : ks ≠ []) (positive : ∀ k ∈ ks, 0 < k)
    (safe : (ks.length + 2) * ks.sum ≤ 2 ^ 52) : converted f (f.sum (ks.map (parsed f))) = ks.sum := by
  have near := sum_close f nonempty positive
  have scaled := f.scaled_near (by norm_num) (by positivity) (by norm_num : (0 : ℚ) ≤ 10000000) near
  rw [div_mul_cancel₀ _ (by norm_num)] at scaled
  have some' : 1 ≤ ks.length := List.length_pos_iff.mpr nonempty
  have each : ks.length ≤ ks.sum := List.length_le_sum_of_one_le ks positive
  have small := compound_small some' each safe
  refine floor_half (lt_of_le_of_lt scaled (lt_of_le_of_lt ?_ small))
  have count : (1 : ℚ) ≤ ks.length := by exact_mod_cast some'
  rw [pow_succ _ (ks.length + 1)]
  linarith

/-- One amount, converted on its own. -/
theorem converted_parsed {k : Nat} (safe : k < 2 ^ 51) : converted f (parsed f k) = k := by
  have value : (0 : ℚ) ≤ k / 10000000 := by positivity
  have near := f.near (k / 10000000)
  rw [abs_of_nonneg value] at near
  have scaled := f.scaled_near (by norm_num) value (by norm_num : (0 : ℚ) ≤ 10000000) near
  rw [div_mul_cancel₀ _ (by norm_num)] at scaled
  have bound : (k : ℚ) + 1 ≤ 2 ^ 51 := by exact_mod_cast safe
  refine floor_half (lt_of_le_of_lt scaled ?_)
  norm_num at bound ⊢
  linarith

end Roundings

namespace Numbers
variable {k : Nat} {ks : List Nat}

/-! ### Whole stroops -/

/-- Numbers that count stroops: each of an amount, and all together, are exact within bounds. -/
structure Counts (numbers : Numbers) where
  each : Nat → Prop
  total : Nat → Prop
  prints : Nat → Prop
  Is : numbers.Num → Nat → Prop
  zero : Is (numbers.ofNat 0) 0
  stroops {k : Nat} (safe : each k) : Is (numbers.toStroops (numbers.amount k)) k
  add {a b : numbers.Num} {m n : Nat} (first : Is a m) (second : Is b n) (safe : total (m + n)) :
    Is (numbers.add a b) (m + n)
  less {m n : Nat} (safe : total n) (ordered : m ≤ n) : total m
  printed {a : numbers.Num} {n : Nat} (is : Is a n) (safe : prints n) :
    numbers.toFixed 7 (numbers.div a numbers.scale) = some n

variable {numbers : Numbers}

/-- More and more amounts are counted. -/
theorem Counts.fold (counts : Counts numbers) (each : ∀ k ∈ ks, counts.each k) {a : numbers.Num} {n : Nat}
    (is : counts.Is a n) (safe : counts.total (n + ks.sum)) :
    counts.Is ((ks.map fun k => numbers.toStroops (numbers.amount k)).foldl numbers.add a) (n + ks.sum) := by
  induction ks generalizing a n with
  | nil => exact is
  | cons k ks ih =>
    rw [List.sum_cons, ← Nat.add_assoc] at safe ⊢
    have next := counts.add is (counts.stroops (each k List.mem_cons_self)) (counts.less safe (Nat.le_add_right _ _))
    exact ih (fun k member => each k (List.mem_cons_of_mem _ member)) next safe

theorem Counts.cents (counts : Counts numbers) (each : ∀ k ∈ ks, counts.each k) (safe : counts.total ks.sum) :
    counts.Is (numbers.cents ks) ks.sum := by
  have folded := counts.fold each counts.zero ((Nat.zero_add _).symm ▸ safe)
  rwa [Nat.zero_add] at folded

/-! ### Rational numbers -/

theorem rational_bigInt {rd : ℚ → ℚ} {n : Nat} {x : ℚ} (same : ⌊x + 1 / 2⌋ = n) :
    (rational rd).bigInt ((rational rd).round x) = some n := by
  have whole : (rational rd).round x = (n : ℚ) := congrArg (Int.cast (R := ℚ)) same
  rw [whole]
  simp [rational]

/-- Amounts that are not too many or too large are deposited as they are, with any rounding. -/
theorem rational_deposit (f : Binary64) (nonempty : ks ≠ []) (positive : ∀ k ∈ ks, 0 < k)
    (safe : (ks.length + 2) * ks.sum ≤ 2 ^ 52) : (rational f.rd).deposit ks = some ks.sum :=
  rational_bigInt (converted_sum f nonempty positive safe)

theorem rational_release (f : Binary64) (safe : k < 2 ^ 51) : (rational f.rd).release k = some k :=
  rational_bigInt (converted_parsed f safe)

/-! ### Exact decimals -/

theorem decimals_floor (n : Nat) : ⌊(n : ℚ) / 10000000 * 10000000 + 1 / 2⌋ = (n : ℤ) := by
  rw [div_mul_cancel₀ _ (by norm_num)]
  exact floor_half (by norm_num)

/-- Whole stroops are printed as they are. -/
theorem decimals_printed (n : Nat) : ⌊(n : ℚ) / (10000000 : ℕ) * 10 ^ 7 + 1 / 2⌋ = (n : ℤ) := by
  have floor := decimals_floor n
  norm_num at floor ⊢

theorem decimals_shown (k : Nat) : decimals.toFixed 7 (decimals.amount k) = some k :=
  congrArg (fun n : ℤ => some n.toNat) (decimals_printed k)

theorem decimals_toStroops (k : Nat) : decimals.toStroops (decimals.amount k) = (k : ℚ) := by
  have rounded := decimals_floor k
  exact congrArg (Int.cast (R := ℚ)) rounded

/-- Exact decimals count everything. -/
def decimalsCount : Counts decimals where
  each _ := True
  total _ := True
  prints _ := True
  Is a n := a = (n : ℚ)
  zero := rfl
  stroops _ := decimals_toStroops _
  add first second _ := (congrArg₂ (HAdd.hAdd : ℚ → ℚ → ℚ) first second).trans (Nat.cast_add _ _).symm
  less _ _ := trivial
  printed := by
    rintro _ n rfl _
    exact congrArg (fun n : ℤ => some n.toNat) (decimals_printed n)

theorem decimals_sum (xs : List ℚ) : decimals.sum xs = xs.sum := by
  have folded : ∀ total : ℚ, xs.foldl (fun total x => total + x) total = total + xs.sum := by
    induction xs with
    | nil => simp
    | cons x xs ih =>
      intro total
      rw [List.foldl_cons, ih, List.sum_cons, add_assoc]
  exact (folded (0 : ℕ)).trans (by simp)

theorem decimals_release (k : Nat) : decimals.release k = some k :=
  rational_bigInt (decimals_floor k)

theorem decimals_deposit (ks : List Nat) : decimals.deposit ks = some ks.sum := by
  have total : decimals.sum (ks.map decimals.amount) = (ks.sum : ℚ) / 10000000 :=
    (decimals_sum _).trans (sum_values ks)
  refine rational_bigInt ?_
  rw [total]
  exact decimals_floor ks.sum

theorem decimals_cents (ks : List Nat) : decimals.cents ks = (ks.sum : ℚ) :=
  decimalsCount.cents (fun _ _ => trivial) trivial

theorem decimals_remaining {paid : List Nat} (less : paid.sum ≤ ks.sum) :
    decimals.column (decimals.remaining ks paid) = some (ks.sum - paid.sum) := by
  have difference : max 0 ((ks.sum : ℚ) - paid.sum) = (ks.sum - paid.sum : ℕ) := by
    rw [Nat.cast_sub less]
    exact max_eq_right (sub_nonneg.mpr (Nat.cast_le.mpr less))
  have cents := congrArg₂ (fun x y : ℚ => max 0 (x - y)) (decimals_cents ks) (decimals_cents paid)
  have left := congrArg (fun x : ℚ => x / (10000000 : ℕ)) (cents.trans difference)
  have printed : decimals.text (decimals.remaining ks paid) = some (ks.sum - paid.sum) :=
    (congrArg decimals.text left).trans (congrArg (fun n : ℤ => some n.toNat) (decimals_printed _))
  exact congrArg (Option.filter decimals.holds) printed

theorem decimals_exact (ks : List Nat) : decimals.ExactFor ks where
  deposit := decimals_deposit ks
  release k _ := decimals_release k
  remaining _ less := decimals_remaining less

/-! ### Doubles -/

open Rounding (binary64)
open Double (Normal)

theorem normal_of {x : ℚ} (large : x = 0 ∨ 1 / 2 ^ 100 ≤ x) (small : x ≤ 2 ^ 100) : Normal x := by
  refine ⟨large.imp_right fun least => le_trans ?_ least, lt_of_le_of_lt small ?_⟩
  · exact one_div_le_one_div_of_le (by norm_num) (pow_le_pow_right₀ (by norm_num) (by omega))
  · exact pow_lt_pow_right₀ (by norm_num) (by omega)

theorem amount_normal (safe : k < 2 ^ 53) : Normal ((k : ℚ) / 10000000) := by
  have most : (k : ℚ) ≤ 2 ^ 53 := by exact_mod_cast safe.le
  refine normal_of ?_ (by linarith)
  rcases Nat.eq_zero_or_pos k with rfl | positive
  · simp
  · have one : (1 : ℚ) ≤ k := by exact_mod_cast positive
    right
    linarith

theorem doubles_amount (safe : k < 2 ^ 53) : (doubles.amount k).Is (parsed binary64 k) :=
  Double.nearest_is (by norm_num) (by norm_num) (amount_normal safe).1 (amount_normal safe).2

theorem doubles_toStroops {a : Double} {v : ℚ} {n : Nat} (is : a.Is v) (normal : Normal (v * 10000000))
    (whole : converted binary64 v = n) : (doubles.toStroops a).Is n := by
  have scale : (Double.ofNat 10000000).Is (10000000 : ℕ) := Double.ofNat_is (by norm_num)
  have scaled := Double.mul_is is scale (by exact_mod_cast normal)
  have rounded := Double.round_is scaled
  have same : (⌊binary64.rd (v * (10000000 : ℕ)) + 1 / 2⌋ : ℚ) = n := by
    exact_mod_cast congrArg (Int.cast (R := ℚ)) whole
  exact same ▸ rounded

/-- An amount in stroops and back. -/
theorem parsed_normal (safe : k < 2 ^ 53) : Normal (parsed binary64 k * 10000000) := by
  have most : (k : ℚ) ≤ 2 ^ 53 := by exact_mod_cast safe.le
  have bounds := rd_bounds binary64 (show (0 : ℚ) ≤ k / 10000000 by positivity)
  refine normal_of ?_ ?_
  · rcases Nat.eq_zero_or_pos k with rfl | positive
    · left
      have nothing : parsed binary64 0 = 0 := by
        rw [Nat.cast_zero, zero_div] at bounds
        rw [parsed, Nat.cast_zero, zero_div]
        linarith
      rw [nothing, zero_mul]
    · have one : (1 : ℚ) ≤ k := by exact_mod_cast positive
      right
      rw [parsed]
      linarith
  · rw [parsed]
    linarith

theorem doubles_stroops (safe : k < 2 ^ 51) : (doubles.toStroops (doubles.amount k)).Is k :=
  doubles_toStroops (doubles_amount (by omega)) (parsed_normal (by omega)) (converted_parsed binary64 safe)

-- larger amounts are rounded up or down
example : doubles.release 2684391809025369 = some 2684391809025370 := by decide

example : doubles.release 8615972360836820 = some 8615972360836819 := by decide

theorem sum_append (numbers : Numbers) (xs : List numbers.Num) (x : numbers.Num) :
    numbers.sum (xs ++ [x]) = numbers.add (numbers.sum xs) x := by
  simp only [sum, List.foldl_append, List.foldl_cons, List.foldl_nil]

/-- A quotient of whole stroops is the amount that they are parsed to. -/
theorem doubles_div {a : Double} {n : Nat} (is : a.Is n) (safe : n < 2 ^ 53) :
    ∃ x, (doubles.div a doubles.scale).Is x ∧ (doubles.amount n).Is x := by
  have scale : (Double.ofNat 10000000).Is (10000000 : ℕ) := Double.ofNat_is (by norm_num)
  refine ⟨_, Double.div_is is scale (by norm_num) (by exact_mod_cast amount_normal safe), ?_⟩
  exact_mod_cast doubles_amount safe

/-- Whole stroops are added exactly, and printed exactly up to 2²⁹ XLM. -/
def doublesCount : Counts doubles where
  each k := k < 2 ^ 51
  total n := n < 2 ^ 53
  prints n := n < 2 ^ 29 * 10 ^ 7
  Is a n := Double.Is a n
  zero := Double.ofNat_is (n := 0) (by norm_num)
  stroops := doubles_stroops
  add := by
    intro a b m n first second safe
    have normal := Double.normal_natCast safe
    rw [Nat.cast_add] at normal
    rw [← Double.rd_natCast safe, Nat.cast_add]
    exact Double.add_is first second normal
  less safe ordered := Nat.lt_of_le_of_lt ordered safe
  printed := by
    intro a n is safe
    obtain ⟨x, divided, written⟩ := doubles_div is (by omega)
    refine (Double.toFixed_congr 7 divided written).trans ?_
    exact Double.toFixed_nearest (k := 28) (by norm_num) safe (by norm_num) rfl

end Numbers
end Stellance.Backend
