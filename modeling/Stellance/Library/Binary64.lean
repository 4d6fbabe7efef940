import Stellance.Library.Double
import Stellance.Library.Rounding

/-! Doubles as rational numbers. Each operation rounds its exact result to binary64, as long
as that is neither too large nor too small; and rounding keeps the order of numbers. -/

namespace Rounding
variable {x y : ℚ}

theorem roundEven_of_near {n : ℤ} (close : |x - n| < 1 / 2) : roundEven x = n := by
  have near := abs_le.mp (roundEven_near x)
  have close := abs_lt.mp close
  have above : ((roundEven x : ℤ) : ℚ) < (n + 1 : ℤ) := by
    push_cast
    linarith
  have below : ((n - 1 : ℤ) : ℚ) < (roundEven x : ℤ) := by
    push_cast
    linarith
  have above := Int.cast_lt.mp above
  have below := Int.cast_lt.mp below
  omega

theorem roundEven_intCast (n : ℤ) : roundEven n = n :=
  roundEven_of_near (by norm_num)

theorem roundEven_mono (ordered : x ≤ y) : roundEven x ≤ roundEven y := by
  by_contra exceeds
  have more : ((roundEven y + 1 : ℤ) : ℚ) ≤ roundEven x := by exact_mod_cast Int.not_le.mp exceeds
  push_cast at more
  have nearX := abs_le.mp (roundEven_near x)
  have nearY := abs_le.mp (roundEven_near y)
  -- both would be in the middle, so the same
  obtain rfl : x = y := by linarith
  exact exceeds le_rfl

end Rounding

namespace Double
open Rounding (roundEven_mono roundEven_intCast)
variable {num den num' den' : Nat}

/-! ### Rounding of a quotient -/

theorem floorLog2_eq (num_positive : 0 < num) (den_positive : 0 < den) :
    floorLog2 num den = Int.log 2 ((num : ℚ) / den) := by
  have denominator : (0 : ℚ) < den := Nat.cast_pos.mpr den_positive
  have positive : (0 : ℚ) < num / den := div_pos (Nat.cast_pos.mpr num_positive) denominator
  have low : (Nat.log2 num : ℤ) - (Nat.log2 den + 1) ≤ Int.log 2 ((num : ℚ) / den) := by
    have leading : ((2 ^ Nat.log2 num : ℕ) : ℚ) ≤ num := Nat.cast_le.mpr (Nat.log2_self_le (by omega))
    have above : (den : ℚ) ≤ (2 ^ (Nat.log2 den + 1) : ℕ) := Nat.cast_le.mpr Nat.lt_log2_self.le
    rw [← Int.zpow_le_iff_le_log (by omega) positive, le_div_iff₀ denominator, Nat.cast_ofNat]
    calc (2 : ℚ) ^ ((Nat.log2 num : ℤ) - (Nat.log2 den + 1)) * den
        ≤ 2 ^ ((Nat.log2 num : ℤ) - (Nat.log2 den + 1)) * (2 ^ (Nat.log2 den + 1) : ℕ) :=
          mul_le_mul_of_nonneg_left above (zpow_nonneg (by norm_num) _)
      _ = (2 ^ Nat.log2 num : ℕ) := by
          push_cast
          rw [← zpow_natCast, ← zpow_natCast, ← zpow_add₀ (by norm_num)]
          congr 1
          omega
      _ ≤ num := leading
  have high : Int.log 2 ((num : ℚ) / den) < (Nat.log2 num : ℤ) + 1 - Nat.log2 den := by
    have leading : ((2 ^ Nat.log2 den : ℕ) : ℚ) ≤ den := Nat.cast_le.mpr (Nat.log2_self_le (by omega))
    have above : (num : ℚ) < (2 ^ (Nat.log2 num + 1) : ℕ) := Nat.cast_lt.mpr Nat.lt_log2_self
    rw [← Int.lt_zpow_iff_log_lt (by omega) positive, div_lt_iff₀ denominator, Nat.cast_ofNat]
    calc (num : ℚ) < (2 ^ (Nat.log2 num + 1) : ℕ) := above
      _ = 2 ^ ((Nat.log2 num : ℤ) + 1 - Nat.log2 den) * (2 ^ Nat.log2 den : ℕ) := by
          push_cast
          rw [← zpow_natCast, ← zpow_natCast, ← zpow_add₀ (by norm_num)]
          congr 1
          omega
      _ ≤ 2 ^ ((Nat.log2 num : ℤ) + 1 - Nat.log2 den) * den :=
          mul_le_mul_of_nonneg_left leading (zpow_nonneg (by norm_num) _)
  have fits : den * 2 ^ ((Nat.log2 num : ℤ) - Nat.log2 den).toNat ≤
      num * 2 ^ (-((Nat.log2 num : ℤ) - Nat.log2 den)).toNat ↔
      (Nat.log2 num : ℤ) - Nat.log2 den ≤ Int.log 2 ((num : ℚ) / den) := by
    rw [← Int.zpow_le_iff_le_log (by omega) positive, le_div_iff₀ denominator, Nat.cast_ofNat]
    generalize (Nat.log2 num : ℤ) - Nat.log2 den = guess
    obtain ⟨n, rfl | rfl⟩ := Int.eq_nat_or_neg guess
    · rw [Int.toNat_natCast, show (-(n : ℤ)).toNat = 0 by omega, zpow_natCast, mul_comm den]
      simp only [pow_zero, mul_one]
      exact_mod_cast Iff.rfl
    · rw [neg_neg, Int.toNat_natCast, show (-(n : ℤ)).toNat = 0 by omega, zpow_neg, zpow_natCast,
        inv_mul_le_iff₀ (by positivity), mul_comm _ (num : ℚ)]
      simp only [pow_zero, mul_one]
      exact_mod_cast Iff.rfl
  unfold floorLog2
  dsimp only
  split
  · have := fits.mp ‹_›
    omega
  · have := mt fits.mpr ‹_›
    omega

theorem roundEven_eq (positive : 0 < den) : (roundEven num den : ℤ) = Rounding.roundEven ((num : ℚ) / den) := by
  have denominator : (0 : ℚ) < den := Nat.cast_pos.mpr positive
  have floor : ⌊(num : ℚ) / den⌋ = (num / den : ℕ) := by
    rw [Int.floor_div_natCast, Int.floor_natCast, Int.natCast_ediv]
  have part : Int.fract ((num : ℚ) / den) = (num % den : ℕ) / den := by
    have divided : ((num / den : ℕ) : ℚ) * den + (num % den : ℕ) = num := by exact_mod_cast Nat.div_add_mod' num den
    rw [Int.fract, floor, Int.cast_natCast, eq_div_iff denominator.ne', sub_mul, div_mul_cancel₀ _ denominator.ne']
    linarith
  have value : (num : ℚ) / den = (num / den : ℕ) + Int.fract ((num : ℚ) / den) := by
    have parts := Int.floor_add_fract ((num : ℚ) / den)
    rw [floor, Int.cast_natCast] at parts
    exact parts.symm
  have nonneg := Int.fract_nonneg ((num : ℚ) / den)
  have less := Int.fract_lt_one ((num : ℚ) / den)
  unfold roundEven
  dsimp only
  split
  · rename_i below
    have below : (2 : ℚ) * (num % den : ℕ) < den := by exact_mod_cast below
    have small : Int.fract ((num : ℚ) / den) < 1 / 2 := by
      rw [part, div_lt_iff₀ denominator]
      linarith
    refine (Rounding.roundEven_of_near ?_).symm
    rw [Int.cast_natCast, value, add_sub_cancel_left, abs_of_nonneg nonneg]
    exact small
  · rename_i notBelow
    split
    · rename_i above
      have above : (den : ℚ) < 2 * (num % den : ℕ) := by exact_mod_cast above
      have large : 1 / 2 < Int.fract ((num : ℚ) / den) := by
        rw [part, lt_div_iff₀ denominator]
        linarith
      refine (Rounding.roundEven_of_near ?_).symm
      rw [Int.cast_natCast, value, Nat.cast_add_one, abs_lt]
      constructor <;> linarith
    · rename_i notAbove
      have middle : (2 : ℚ) * (num % den : ℕ) = den := by
        exact_mod_cast Nat.le_antisymm (Nat.not_lt.mp notAbove) (Nat.not_lt.mp notBelow)
      have tie : Int.fract ((num : ℚ) / den) = 1 / 2 := by
        rw [part, div_eq_iff denominator.ne']
        linarith
      rw [Rounding.roundEven, if_pos tie, floor]
      split <;> omega

theorem two_zpow (e : ℤ) : (2 : ℚ) ^ e = (2 ^ e.toNat : ℕ) / (2 ^ (-e).toNat : ℕ) := by
  obtain ⟨n, rfl | rfl⟩ := Int.eq_nat_or_neg e
  · simp
  · simp

/-- The mantissa is that of the quotient in units of the last place, to the nearest. -/
theorem nearest_eq (num_positive : 0 < num) (den_positive : 0 < den) :
    ∃ m : Nat, (m : ℤ) = Rounding.roundEven ((num : ℚ) / den / 2 ^ max (-1074) (Int.log 2 ((num : ℚ) / den) - 52)) ∧
      nearest num den =
        if 1024 ≤ (Nat.log2 m : ℤ) + max (-1074) (Int.log 2 ((num : ℚ) / den) - 52) then .infinity
        else .finite m (max (-1074) (Int.log 2 ((num : ℚ) / den) - 52)) := by
  unfold nearest
  rw [if_neg (by omega)]
  dsimp only
  rw [exponent, floorLog2_eq num_positive den_positive]
  generalize max (-1074) (Int.log 2 ((num : ℚ) / den) - 52) = e
  refine ⟨_, ?_, rfl⟩
  rw [roundEven_eq (Nat.mul_pos den_positive (Nat.two_pow_pos _)), two_zpow, div_div_div_eq]
  push_cast
  rfl

/-- The double is finite, with the given value. -/
def Is (double : Double) (x : ℚ) : Prop :=
  ∃ mantissa e, double = .finite mantissa e ∧ (mantissa : ℚ) * 2 ^ e = x

theorem Is.unique {double : Double} {x y : ℚ} (first : double.Is x) (second : double.Is y) : x = y := by
  obtain ⟨m, e, rfl, rfl⟩ := first
  obtain ⟨m', e', same, rfl⟩ := second
  cases same
  rfl

theorem Is.nonneg {double : Double} {x : ℚ} (is : double.Is x) : 0 ≤ x := by
  obtain ⟨m, e, rfl, rfl⟩ := is
  exact mul_nonneg (Nat.cast_nonneg _) (zpow_nonneg (by norm_num) _)

theorem nearest_zero (den : Nat) : (nearest 0 den).Is 0 :=
  ⟨0, 0, rfl, by norm_num⟩

/-- In the normal range. -/
theorem nearest_is (den_positive : 0 < den) {q : ℚ} (exact : (num : ℚ) / den = q)
    (large : q = 0 ∨ 1 / 2 ^ 1022 ≤ q) (small : q < 2 ^ 1023) : (nearest num den).Is (Rounding.binary64.rd q) := by
  rcases Nat.eq_zero_or_pos num with rfl | num_positive
  · obtain rfl : q = 0 := by simpa using exact.symm
    have nothing : Rounding.binary64.rd 0 = 0 := by simpa using Rounding.binary64.near 0
    rw [nothing]
    exact nearest_zero den
  have positive : 0 < q := exact ▸ div_pos (Nat.cast_pos.mpr num_positive) (Nat.cast_pos.mpr den_positive)
  have atLeast : -1022 ≤ Int.log 2 q := by
    rw [← Int.zpow_le_iff_le_log (by omega) positive]
    have := large.resolve_left positive.ne'
    simpa [zpow_neg] using this
  have atMost : Int.log 2 q < 1023 := by
    rw [← Int.lt_zpow_iff_log_lt (by omega) positive]
    exact_mod_cast small
  obtain ⟨m, mantissa, found⟩ := nearest_eq num_positive den_positive
  rw [exact, max_eq_right (by omega)] at mantissa found
  have scaled : q / 2 ^ (Int.log 2 q - 52) ≤ ((2 ^ 53 : ℤ) : ℚ) := by
    have next := Int.lt_zpow_succ_log_self (b := 2) (by omega) q
    rw [div_le_iff₀ (zpow_pos (by norm_num) _)]
    refine next.le.trans (le_of_eq ?_)
    rw [show Int.log 2 q + 1 = 53 + (Int.log 2 q - 52) by omega, Nat.cast_ofNat, zpow_add₀ (by norm_num)]
    norm_num
  have few : m ≤ 2 ^ 53 := by
    have bound := roundEven_mono scaled
    rw [roundEven_intCast, ← mantissa] at bound
    exact_mod_cast bound
  have log : Nat.log2 m ≤ 53 := by
    rcases Nat.eq_zero_or_pos m with rfl | some'
    · exact Nat.zero_le _
    · exact (Nat.pow_le_pow_iff_right (by omega)).mp ((Nat.log2_self_le (by omega)).trans few)
  rw [if_neg (by omega)] at found
  refine ⟨m, _, found, ?_⟩
  have same := congrArg (Int.cast (R := ℚ)) mantissa
  rw [Int.cast_natCast] at same
  rw [same]
  simp only [Rounding.binary64, abs_of_pos positive]

/-! ### Arithmetic -/

section Arithmetic
variable {a b : Double} {x y : ℚ}

/-- Where an exact result is not too small and not too large for its rounding. -/
def Normal (x : ℚ) : Prop := (x = 0 ∨ 1 / 2 ^ 1022 ≤ x) ∧ x < 2 ^ 1023

theorem Is.fraction {m : Nat} {e : ℤ} (is : (Double.finite m e).Is x) :
    ((m * 2 ^ e.toNat : ℕ) : ℚ) / (2 ^ (-e).toNat : ℕ) = x := by
  obtain ⟨_, _, same, rfl⟩ := is
  cases same
  rw [two_zpow]
  push_cast
  ring

theorem lift₂_is {f : Nat × Nat → Nat × Nat → Nat × Nat} {q : ℚ} (first : a.Is x) (second : b.Is y)
    (exact : ∀ n d n' d' : Nat, 0 < d → 0 < d' → (n : ℚ) / d = x → (n' : ℚ) / d' = y →
      0 < (f (n, d) (n', d')).2 ∧ ((f (n, d) (n', d')).1 : ℚ) / (f (n, d) (n', d')).2 = q)
    (normal : Normal q) : (lift₂ f a b).Is (Rounding.binary64.rd q) := by
  cases a with
  | infinity => obtain ⟨_, _, contra, _⟩ := first; contradiction
  | finite m e =>
    cases b with
    | infinity => obtain ⟨_, _, contra, _⟩ := second; contradiction
    | finite m' e' =>
      obtain ⟨positive, same⟩ := exact _ _ _ _ (Nat.two_pow_pos _) (Nat.two_pow_pos _) first.fraction second.fraction
      exact nearest_is positive same normal.1 normal.2

theorem add_is (first : a.Is x) (second : b.Is y) (normal : Normal (x + y)) :
    (add a b).Is (Rounding.binary64.rd (x + y)) := by
  refine lift₂_is first second (fun n d n' d' positive positive' same same' => ?_) normal
  refine ⟨Nat.mul_pos positive positive', ?_⟩
  have denominator : (d : ℚ) ≠ 0 := Nat.cast_ne_zero.mpr positive.ne'
  have denominator' : (d' : ℚ) ≠ 0 := Nat.cast_ne_zero.mpr positive'.ne'
  rw [← same, ← same', div_add_div _ _ denominator denominator']
  push_cast
  ring

theorem mul_is (first : a.Is x) (second : b.Is y) (normal : Normal (x * y)) :
    (mul a b).Is (Rounding.binary64.rd (x * y)) := by
  refine lift₂_is first second (fun n d n' d' positive positive' same same' => ?_) normal
  refine ⟨Nat.mul_pos positive positive', ?_⟩
  rw [← same, ← same', div_mul_div_comm]
  push_cast
  rfl

theorem div_is (first : a.Is x) (second : b.Is y) (positive : 0 < y) (normal : Normal (x / y)) :
    (div a b).Is (Rounding.binary64.rd (x / y)) := by
  have nonzero : b.isZero = false := by
    obtain ⟨m, e, rfl, rfl⟩ := second
    have : m ≠ 0 := by
      rintro rfl
      simp at positive
    simpa [isZero] using this
  have unfolded : div a b = lift₂ (fun a b => (a.1 * b.2, a.2 * b.1)) a b := by
    obtain ⟨_, _, rfl, _⟩ := second
    obtain ⟨_, _, rfl, _⟩ := first
    exact if_neg (by simp [nonzero])
  rw [unfolded]
  refine lift₂_is first second (fun n d n' d' positive₁ positive₂ same same' => ?_) normal
  have some' : 0 < n' := by
    rcases Nat.eq_zero_or_pos n' with rfl | some'
    · rw [← same', Nat.cast_zero, zero_div] at positive
      exact absurd positive (lt_irrefl _)
    · exact some'
  refine ⟨Nat.mul_pos positive₁ some', ?_⟩
  rw [← same, ← same', div_div_div_eq]
  push_cast
  rfl

theorem fraction_floor (n d : Nat) (positive : 0 < d) :
    ((2 * n + d) / (2 * d) : ℕ) = ⌊(n : ℚ) / d + 1 / 2⌋ := by
  have denominator : (0 : ℚ) < d := Nat.cast_pos.mpr positive
  have same : (n : ℚ) / d + 1 / 2 = ((2 * n + d : ℕ) : ℚ) / (2 * d : ℕ) := by
    push_cast
    rw [div_add_div _ _ denominator.ne' (by norm_num)]
    ring
  rw [same, Int.floor_div_natCast, Int.floor_natCast, Int.natCast_ediv]

theorem round_is (first : a.Is x) : a.round.Is ⌊x + 1 / 2⌋ := by
  obtain ⟨m, e, rfl, same⟩ := first
  have value := Is.fraction ⟨m, e, rfl, same⟩
  refine ⟨_, 0, rfl, ?_⟩
  rw [zpow_zero, mul_one, ← value, ← fraction_floor _ _ (Nat.two_pow_pos _), Int.cast_natCast]

theorem toFixed_is (places : Nat) (first : a.Is x) :
    ∃ n : Nat, a.toFixed places = some n ∧ (n : ℤ) = ⌊x * 10 ^ places + 1 / 2⌋ := by
  obtain ⟨m, e, rfl, same⟩ := first
  have value := Is.fraction ⟨m, e, rfl, same⟩
  refine ⟨_, rfl, ?_⟩
  rw [fraction_floor _ _ (Nat.two_pow_pos _), ← value]
  push_cast
  rw [mul_div_right_comm]

theorem rd_natCast {n : Nat} (small : n < 2 ^ 53) : Rounding.binary64.rd n = n := by
  rcases Nat.eq_zero_or_pos n with rfl | positive
  · simpa using Rounding.binary64.near 0
  have log : Int.log 2 (n : ℚ) ≤ 52 := by
    rw [Int.log_natCast]
    have := Nat.log_lt_of_lt_pow (by omega) small
    omega
  obtain ⟨p, shift⟩ : ∃ p : Nat, Int.log 2 (n : ℚ) - 52 = -(p : ℤ) := ⟨(52 - Int.log 2 (n : ℚ)).toNat, by omega⟩
  simp only [Rounding.binary64, Nat.abs_cast]
  rw [shift, zpow_neg, zpow_natCast, div_inv_eq_mul]
  have whole : (n : ℚ) * 2 ^ p = ((n * 2 ^ p : ℕ) : ℤ) := by push_cast; rfl
  rw [whole, roundEven_intCast, ← whole, mul_inv_cancel_right₀ (by positivity)]

theorem normal_natCast {n : Nat} (small : n < 2 ^ 53) : Normal n := by
  constructor
  · rcases Nat.eq_zero_or_pos n with rfl | positive
    · exact .inl Nat.cast_zero
    · right
      have one : (1 : ℚ) ≤ n := by exact_mod_cast positive
      exact le_trans (div_le_one_of_le₀ (one_le_pow₀ (by norm_num)) (by positivity)) one
  · have bound : (n : ℚ) < 2 ^ 53 := by exact_mod_cast small
    exact bound.trans (pow_lt_pow_right₀ (by norm_num) (by omega))

theorem ofNat_is {n : Nat} (small : n < 2 ^ 53) : (ofNat n).Is n := by
  have normal := normal_natCast small
  have rounded : (ofNat n).Is (Rounding.binary64.rd n) :=
    nearest_is Nat.one_pos (by rw [Nat.cast_one, div_one]) normal.1 normal.2
  rwa [rd_natCast small] at rounded

/-- What is printed of a number depends on its value alone. -/
theorem toFixed_congr (places : Nat) (first : a.Is x) (second : b.Is x) : a.toFixed places = b.toFixed places := by
  obtain ⟨n, printed, value⟩ := toFixed_is places first
  obtain ⟨n', printed', value'⟩ := toFixed_is places second
  rw [printed, printed', Int.ofNat.inj (value.trans value'.symm)]

end Arithmetic

/-! ### Order -/

/-- No larger; and nothing is larger than infinity. -/
def AtMost (a b : Double) : Prop := ∀ y, b.Is y → ∃ x, a.Is x ∧ x ≤ y

variable {a b c d : Double}

theorem AtMost.refl (a : Double) : a.AtMost a :=
  fun y is => ⟨y, is, le_rfl⟩

theorem AtMost.trans (first : a.AtMost b) (second : b.AtMost c) : a.AtMost c := by
  intro z is
  obtain ⟨y, is, less⟩ := second z is
  obtain ⟨x, is, less'⟩ := first y is
  exact ⟨x, is, less'.trans less⟩

theorem zero_atMost (a : Double) : (finite 0 0).AtMost a :=
  fun _ is => ⟨0, ⟨0, 0, rfl, by norm_num⟩, is.nonneg⟩

theorem infinity_not {x : ℚ} : ¬ infinity.Is x := by
  rintro ⟨_, _, contra, _⟩
  contradiction

/-- The mantissa of a number with 53 bits. -/
theorem mantissa_le {q : ℚ} {e : ℤ} {m : Nat} (rounded : (m : ℤ) = Rounding.roundEven (q / 2 ^ e)) {p : Nat}
    (below : q ≤ 2 ^ (p + e)) : m ≤ 2 ^ p := by
  have scaled : q / 2 ^ e ≤ ((2 ^ p : ℤ) : ℚ) := by
    rw [div_le_iff₀ (zpow_pos (by norm_num) _), Int.cast_pow, Int.cast_ofNat, ← zpow_natCast, ← zpow_add₀ (by norm_num)]
    exact below
  have bound := roundEven_mono scaled
  rw [roundEven_intCast, ← rounded] at bound
  exact_mod_cast bound

theorem le_mantissa {q : ℚ} {e : ℤ} {m : Nat} (rounded : (m : ℤ) = Rounding.roundEven (q / 2 ^ e)) {p : Nat}
    (above : 2 ^ (p + e) ≤ q) : 2 ^ p ≤ m := by
  have scaled : ((2 ^ p : ℤ) : ℚ) ≤ q / 2 ^ e := by
    rw [le_div_iff₀ (zpow_pos (by norm_num) _), Int.cast_pow, Int.cast_ofNat, ← zpow_natCast, ← zpow_add₀ (by norm_num)]
    exact above
  have bound := roundEven_mono scaled
  rw [roundEven_intCast, ← rounded] at bound
  exact_mod_cast bound

/-- Rounding keeps the order, also where the exponents differ. -/
theorem mantissas_mono {q q' : ℚ} {m m' : Nat} (positive : 0 < q) (ordered : q ≤ q')
    (rounded : (m : ℤ) = Rounding.roundEven (q / 2 ^ max (-1074) (Int.log 2 q - 52)))
    (rounded' : (m' : ℤ) = Rounding.roundEven (q' / 2 ^ max (-1074) (Int.log 2 q' - 52))) :
    (m : ℚ) * 2 ^ max (-1074) (Int.log 2 q - 52) ≤ m' * 2 ^ max (-1074) (Int.log 2 q' - 52) := by
  have logs : Int.log 2 q ≤ Int.log 2 q' := Int.log_mono_right positive ordered
  rcases (max_le_max_left (-1074) (sub_le_sub_right logs 52)).eq_or_lt with same | less
  · rw [← same] at rounded' ⊢
    refine mul_le_mul_of_nonneg_right ?_ (zpow_nonneg (by norm_num) _)
    have unit : (0 : ℚ) ≤ 2 ^ max (-1074) (Int.log 2 q - 52) := zpow_nonneg (by norm_num) _
    have mantissas := roundEven_mono (div_le_div_of_nonneg_right ordered unit)
    rw [← rounded, ← rounded'] at mantissas
    exact_mod_cast mantissas
  · have most : m ≤ 2 ^ 53 := by
      refine mantissa_le rounded ((Int.lt_zpow_succ_log_self (b := 2) (by omega) q).le.trans ?_)
      rw [Nat.cast_ofNat]
      exact zpow_le_zpow_right₀ (by norm_num) (by omega)
    have least : 2 ^ 52 ≤ m' := by
      refine le_mantissa rounded' (le_trans ?_ (Int.zpow_log_le_self (b := 2) (by omega) (positive.trans_le ordered)))
      rw [Nat.cast_ofNat]
      exact zpow_le_zpow_right₀ (by norm_num) (by omega)
    generalize max (-1074) (Int.log 2 q - 52) = e at less ⊢
    generalize max (-1074) (Int.log 2 q' - 52) = e' at less ⊢
    have unit : (0 : ℚ) < 2 ^ e := zpow_pos (by norm_num) _
    have units : (2 : ℚ) * 2 ^ e ≤ 2 ^ e' := by
      rw [← zpow_one_add₀ (by norm_num)]
      exact zpow_le_zpow_right₀ (by norm_num) (by omega)
    calc (m : ℚ) * 2 ^ e ≤ 2 ^ 53 * 2 ^ e := mul_le_mul_of_nonneg_right (by exact_mod_cast most) unit.le
      _ = 2 ^ 52 * (2 * 2 ^ e) := by ring
      _ ≤ m' * 2 ^ e' := mul_le_mul (by exact_mod_cast least) units (by positivity) (Nat.cast_nonneg _)

/-- A number with a mantissa of so many bits. -/
theorem log2_le {m m' : Nat} {e e' : ℤ} (value : (m : ℚ) * 2 ^ e ≤ m' * 2 ^ e') (exponents : e ≤ e') {limit : ℤ}
    (finite : (Nat.log2 m' : ℤ) + e' < limit) : (Nat.log2 m : ℤ) + e < limit := by
  rcases Nat.eq_zero_or_pos m with rfl | positive
  · rw [Nat.log2_zero]
    omega
  have leading : ((2 ^ Nat.log2 m : ℕ) : ℚ) ≤ m := Nat.cast_le.mpr (Nat.log2_self_le (by omega))
  have above : (m' : ℚ) < (2 ^ (Nat.log2 m' + 1) : ℕ) := Nat.cast_lt.mpr Nat.lt_log2_self
  have powers : (2 : ℚ) ^ ((Nat.log2 m : ℤ) + e) < 2 ^ ((Nat.log2 m' : ℤ) + 1 + e') := by
    rw [zpow_add₀ (by norm_num), zpow_add₀ (by norm_num)]
    push_cast at leading above
    calc (2 : ℚ) ^ (Nat.log2 m : ℤ) * 2 ^ e ≤ m * 2 ^ e :=
          mul_le_mul_of_nonneg_right leading (zpow_nonneg (by norm_num) _)
      _ ≤ m' * 2 ^ e' := value
      _ < 2 ^ ((Nat.log2 m' : ℤ) + 1) * 2 ^ e' := mul_lt_mul_of_pos_right above (zpow_pos (by norm_num) _)
  have := (zpow_lt_zpow_iff_right₀ (by norm_num : (1 : ℚ) < 2)).mp powers
  omega

theorem nearest_mono (positive : 0 < den) (positive' : 0 < den') (ordered : (num : ℚ) / den ≤ num' / den') :
    (nearest num den).AtMost (nearest num' den') := by
  rcases Nat.eq_zero_or_pos num with rfl | some'
  · exact zero_atMost _
  have quotient : (0 : ℚ) < num / den := div_pos (Nat.cast_pos.mpr some') (Nat.cast_pos.mpr positive)
  have some'' : 0 < num' := by
    rcases Nat.eq_zero_or_pos num' with rfl | more
    · rw [Nat.cast_zero, zero_div] at ordered
      exact absurd quotient (not_lt_of_ge ordered)
    · exact more
  obtain ⟨m, rounded, found⟩ := nearest_eq some' positive
  obtain ⟨m', rounded', found'⟩ := nearest_eq some'' positive'
  have values := mantissas_mono quotient ordered rounded rounded'
  have exponents : max (-1074) (Int.log 2 ((num : ℚ) / den) - 52) ≤ max (-1074) (Int.log 2 ((num' : ℚ) / den') - 52) :=
    max_le_max_left _ (sub_le_sub_right (Int.log_mono_right quotient ordered) _)
  rw [found, found']
  intro y is
  split at is
  · exact absurd is infinity_not
  · rename_i finite
    rw [if_neg (not_le.mpr (log2_le values exponents (not_le.mp finite)))]
    have own : y = m' * 2 ^ max (-1074) (Int.log 2 ((num' : ℚ) / den') - 52) := is.unique ⟨_, _, rfl, rfl⟩
    exact ⟨_, ⟨_, _, rfl, rfl⟩, own ▸ values⟩

/-- The doubles are fixed by rounding: what is not below one is not rounded below it. -/
theorem le_nearest {x : ℚ} (positive : 0 < den) (positive' : 0 < den') (is : (nearest num den).Is x)
    (above : x ≤ num' / den') : (nearest num den).AtMost (nearest num' den') := by
  rcases le_or_gt ((num : ℚ) / den) (num' / den') with ordered | between
  · exact nearest_mono positive positive' ordered
  have own := is
  rcases is.nonneg.eq_or_lt with rfl | some'
  · exact fun _ is' => ⟨0, is, is'.nonneg⟩
  have quotient' : (0 : ℚ) < num' / den' := some'.trans_le above
  have quotient : (0 : ℚ) < num / den := quotient'.trans between
  have num_positive : 0 < num := Nat.pos_of_ne_zero (by rintro rfl; simp at quotient)
  have num_positive' : 0 < num' := Nat.pos_of_ne_zero (by rintro rfl; simp at quotient')
  obtain ⟨m, rounded, found⟩ := nearest_eq num_positive positive
  obtain ⟨m', rounded', found'⟩ := nearest_eq num_positive' positive'
  rw [found] at is
  split at is
  · exact absurd is infinity_not
  have value : x = m * 2 ^ max (-1074) (Int.log 2 ((num : ℚ) / den) - 52) := is.unique ⟨_, _, rfl, rfl⟩
  -- between a double and a number that is rounded to it the exponent is the same
  have exponent : max (-1074) (Int.log 2 ((num' : ℚ) / den') - 52) = max (-1074) (Int.log 2 ((num : ℚ) / den) - 52) := by
    have logs : Int.log 2 ((num' : ℚ) / den') ≤ Int.log 2 ((num : ℚ) / den) := Int.log_mono_right quotient' between.le
    rcases le_or_gt (-1074) (Int.log 2 ((num : ℚ) / den) - 52) with normal | subnormal
    · have least : 2 ^ 52 ≤ m := by
        refine le_mantissa rounded (le_trans ?_ (Int.zpow_log_le_self (b := 2) (by omega) quotient))
        rw [Nat.cast_ofNat]
        exact zpow_le_zpow_right₀ (by norm_num) (by omega)
      have leading : (2 : ℚ) ^ Int.log 2 ((num : ℚ) / den) ≤ x := by
        rw [value, max_eq_right normal]
        calc (2 : ℚ) ^ Int.log 2 ((num : ℚ) / den) = (2 ^ 52 : ℕ) * 2 ^ (Int.log 2 ((num : ℚ) / den) - 52) := by
              rw [Nat.cast_pow, Nat.cast_ofNat, ← zpow_natCast, ← zpow_add₀ (by norm_num)]
              congr 1
              omega
          _ ≤ m * 2 ^ (Int.log 2 ((num : ℚ) / den) - 52) :=
              mul_le_mul_of_nonneg_right (Nat.cast_le.mpr least) (zpow_nonneg (by norm_num) _)
      have atLeast : Int.log 2 ((num : ℚ) / den) ≤ Int.log 2 ((num' : ℚ) / den') := by
        rw [← Int.zpow_le_iff_le_log (by omega) quotient', Nat.cast_ofNat]
        exact leading.trans above
      omega
    · omega
  rw [found', exponent]
  intro y is'
  split at is'
  · exact absurd is' infinity_not
  obtain rfl : y = m' * 2 ^ max (-1074) (Int.log 2 ((num : ℚ) / den) - 52) := is'.unique ⟨_, _, rfl, rfl⟩
  refine ⟨x, own, ?_⟩
  rw [value] at above ⊢
  have unit : (0 : ℚ) < 2 ^ max (-1074) (Int.log 2 ((num : ℚ) / den) - 52) := zpow_pos (by norm_num) _
  have scaled : ((m : ℤ) : ℚ) ≤ num' / den' / 2 ^ max (-1074) (Int.log 2 ((num : ℚ) / den) - 52) := by
    rw [le_div_iff₀ unit]
    exact above
  have bound := roundEven_mono scaled
  rw [roundEven_intCast, ← exponent, ← rounded'] at bound
  exact mul_le_mul_of_nonneg_right (by exact_mod_cast bound) unit.le

theorem exists_is {double : Double} (finite : double ≠ .infinity) : ∃ x, double.Is x := by
  cases double with
  | finite m e => exact ⟨_, m, e, rfl, rfl⟩
  | infinity => contradiction

theorem add_mono (less : a.AtMost b) (c : Double) : (add a c).AtMost (add b c) := by
  intro z is
  cases c with
  | infinity => cases b <;> exact absurd is infinity_not
  | finite m e =>
    cases b with
    | infinity => exact absurd is infinity_not
    | finite n p =>
      have own : (finite n p).Is _ := ⟨n, p, rfl, rfl⟩
      obtain ⟨x, is', below⟩ := less _ own
      cases a with
      | infinity => exact absurd is' infinity_not
      | finite n' p' =>
        refine nearest_mono (Nat.mul_pos (Nat.two_pow_pos _) (Nat.two_pow_pos _))
          (Nat.mul_pos (Nat.two_pow_pos _) (Nat.two_pow_pos _)) ?_ z is
        rw [← is'.fraction, ← own.fraction] at below
        have sum := add_le_add_left below (((m * 2 ^ e.toNat : ℕ) : ℚ) / (2 ^ (-e).toNat : ℕ))
        rw [div_add_div _ _ (by simp) (by simp), div_add_div _ _ (by simp) (by simp)] at sum
        push_cast at sum ⊢
        convert sum using 2 <;> ring

/-- Operations have such results. -/
def Rounded (a : Double) : Prop := a = .infinity ∨ ∃ num den, 0 < den ∧ a = nearest num den

theorem add_rounded (a b : Double) : (add a b).Rounded := by
  cases a with
  | infinity => exact .inl rfl
  | finite m e =>
    cases b with
    | infinity => exact .inl rfl
    | finite n p => exact .inr ⟨_, _, Nat.mul_pos (Nat.two_pow_pos _) (Nat.two_pow_pos _), rfl⟩

theorem ofNat_rounded (n : Nat) : (ofNat n).Rounded := .inr ⟨n, 1, Nat.one_pos, rfl⟩

/-- Nothing gets smaller by an addition. -/
theorem le_add (rounded : a.Rounded) (c : Double) : a.AtMost (add a c) := by
  rcases rounded with rfl | ⟨num, den, positive, rfl⟩
  · exact fun _ is => absurd is infinity_not
  intro z is
  cases c with
  | infinity =>
    cases found : nearest num den <;> rw [found] at is <;> exact absurd is infinity_not
  | finite m e =>
    cases found : nearest num den with
    | infinity =>
      rw [found] at is
      exact absurd is infinity_not
    | finite n p =>
      have own : (finite n p).Is _ := ⟨n, p, rfl, rfl⟩
      rw [found] at is
      rw [← found] at own ⊢
      refine le_nearest positive (Nat.mul_pos (Nat.two_pow_pos _) (Nat.two_pow_pos _)) own ?_ z is
      rw [found] at own
      have added : (0 : ℚ) ≤ ((m * 2 ^ e.toNat : ℕ) : ℚ) / (2 ^ (-e).toNat : ℕ) := by positivity
      have sum := add_le_add own.fraction.ge added
      rw [div_add_div _ _ (by simp) (by simp)] at sum
      push_cast at sum ⊢
      rwa [add_zero, mul_comm _ ((m : ℚ) * 2 ^ e.toNat)] at sum

/-- With more terms a sum is no smaller. -/
theorem sum_mono {xs ys : List Double} (sublist : xs.Sublist ys) (less : a.AtMost b) (rounded : b.Rounded) :
    (xs.foldl add a).AtMost (ys.foldl add b) := by
  induction sublist generalizing a b with
  | slnil => exact less
  | cons y _ ih => exact ih (less.trans (le_add rounded y)) (add_rounded b y)
  | cons_cons y _ ih => exact ih (add_mono less y) (add_rounded b y)

theorem div_mono (less : a.AtMost b) (c : Double) : (div a c).AtMost (div b c) := by
  cases b with
  | infinity =>
    have divided : div .infinity c = .infinity := by
      unfold div
      split
      · contradiction
      · split <;> rfl
    rw [divided]
    exact fun _ is => absurd is infinity_not
  | finite n p =>
    have own : (finite n p).Is _ := ⟨n, p, rfl, rfl⟩
    obtain ⟨x, is', below⟩ := less _ own
    cases a with
    | infinity => exact absurd is' infinity_not
    | finite n' p' =>
      cases c with
      | infinity => exact .refl _
      | finite m e =>
        by_cases zero : (finite m e).isZero = true
        · have divided : ∀ a, div a (finite m e) = .infinity := fun a => by cases a <;> exact if_pos zero
          rw [divided, divided]
          exact .refl _
        · have divided : ∀ a, div a (finite m e) = lift₂ (fun a b => (a.1 * b.2, a.2 * b.1)) a (finite m e) :=
            fun a => by cases a <;> exact if_neg zero
          rw [divided, divided]
          have some' : 0 < m := Nat.pos_of_ne_zero (by simpa [isZero] using zero)
          have divisor : 0 < m * 2 ^ e.toNat := Nat.mul_pos some' (Nat.two_pow_pos _)
          refine nearest_mono (Nat.mul_pos (Nat.two_pow_pos _) divisor) (Nat.mul_pos (Nat.two_pow_pos _) divisor) ?_
          rw [← is'.fraction, ← own.fraction] at below
          have ratio := mul_le_mul_of_nonneg_right below
            (by positivity : (0 : ℚ) ≤ ((2 ^ (-e).toNat : ℕ) : ℚ) / (m * 2 ^ e.toNat : ℕ))
          rw [div_mul_div_comm, div_mul_div_comm] at ratio
          push_cast at ratio ⊢
          exact ratio

theorem toFixed_mono {places n : Nat} (less : a.AtMost b) (printed : b.toFixed places = some n) :
    ∃ n' ≤ n, a.toFixed places = some n' := by
  obtain ⟨y, is⟩ := exists_is (show b ≠ .infinity by rintro rfl; contradiction)
  obtain ⟨x, is', below⟩ := less y is
  obtain ⟨m, printed', value⟩ := toFixed_is places is
  obtain rfl := Option.some.inj (printed.symm.trans printed')
  obtain ⟨m', printed'', value'⟩ := toFixed_is places is'
  refine ⟨m', ?_, printed''⟩
  have scaled : x * 10 ^ places + 1 / 2 ≤ y * 10 ^ places + 1 / 2 := by
    have := mul_le_mul_of_nonneg_right below (pow_nonneg (by norm_num : (0 : ℚ) ≤ 10) places)
    linarith
  have floors := Int.floor_mono scaled
  rw [← value, ← value'] at floors
  exact_mod_cast floors

end Double
