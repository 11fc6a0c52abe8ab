import Mathlib.Algebra.Order.Floor.Ring
import Mathlib.Data.Int.Log
import Mathlib.Data.Rat.Floor
import Mathlib.Tactic.Linarith
import Mathlib.Tactic.Positivity
import Mathlib.Tactic.Ring

/-!
# Rounding

A number is rounded to the nearest whole number, half way between two to the even one
(`halfEven`), and so to the nearest multiple of any unit (`roundTo`). With a power of ten for
the unit these are the decimals of a number (`roundDecimals`), with a power of two that goes
by its magnitude they are the doubles, the floating-point numbers of 53 bits (`toDouble`).

The exponent of a double has no bounds here. A number that 53 bits hold is a double
(`IsDouble`), and is not changed by rounding; nor are the digits it has behind the point
(`IsDouble.sub_floor`). Rounding to a double may reach the next whole number, and it is known
from where on it does (`floor_toDouble_eq_iff`).
-/

namespace Sentrix

/-! ### Whole numbers -/

/-- The nearest whole number; of two that are as near, the even one. -/
def halfEven (x : ℚ) : ℤ :=
  let n := ⌊x⌋
  if x - n < 1 / 2 then n
  else if 1 / 2 < x - n then n + 1
  else if n % 2 = 0 then n else n + 1

/-- Rounding goes down to the floor at most. -/
theorem floor_le_halfEven (x : ℚ) : ⌊x⌋ ≤ halfEven x := by
  unfold halfEven
  dsimp only
  split_ifs <;> omega

theorem halfEven_intCast (n : ℤ) : halfEven n = n := by
  unfold halfEven
  dsimp only
  rw [Int.floor_intCast, sub_self]
  exact if_pos (by norm_num)

/-- Rounding moves a number by half at most. -/
theorem abs_halfEven_sub_le (x : ℚ) : |(halfEven x : ℚ) - x| ≤ 1 / 2 := by
  have hle := Int.floor_le x
  have hlt := Int.lt_floor_add_one x
  unfold halfEven
  dsimp only
  rw [abs_le]
  -- below the middle, above it, and the two ties
  split_ifs with hbelow habove heven
  · constructor <;> linarith
  · push_cast
    constructor <;> linarith
  · constructor <;> linarith
  · push_cast
    constructor <;> linarith

/-- An even number is reached from half below it on. -/
theorem le_halfEven_iff_of_even {k : ℤ} (hk : Even k) (x : ℚ) :
    k ≤ halfEven x ↔ (k : ℚ) - 1 / 2 ≤ x := by
  have hle := Int.floor_le x
  have hlt := Int.lt_floor_add_one x
  constructor
  · intro h
    have hnear := (abs_le.mp (abs_halfEven_sub_le x)).2
    have hcast : (k : ℚ) ≤ halfEven x := by exact_mod_cast h
    linarith
  · intro h
    obtain hk' | hk' : k ≤ ⌊x⌋ ∨ ⌊x⌋ + 1 ≤ k := le_or_gt k ⌊x⌋
    · exact hk'.trans (floor_le_halfEven x)
    · -- the next number up, and the one below it is odd
      have hnext : k = ⌊x⌋ + 1 := by
        refine le_antisymm (Int.lt_add_one_iff.mp ?_) hk'
        have hcast : (k : ℚ) < ((⌊x⌋ + 1 + 1 : ℤ) : ℚ) := by
          push_cast
          linarith
        exact_mod_cast hcast
      have hodd : ⌊x⌋ % 2 ≠ 0 := by
        obtain ⟨j, hj⟩ := hk
        omega
      have hhalf : ¬ x - ⌊x⌋ < 1 / 2 := by
        rw [hnext] at h
        push_cast at h
        linarith
      unfold halfEven
      dsimp only
      rw [if_neg hhalf]
      split_ifs <;> omega

/-! ### Multiples of a unit -/

/-- The nearest multiple of a unit. -/
def roundTo (unit x : ℚ) : ℚ := halfEven (x / unit) * unit

section RoundTo

variable {unit : ℚ} (hunit : 0 < unit)
include hunit

/-- Rounding to a unit moves a number by half a unit at most. -/
theorem abs_roundTo_sub_le (x : ℚ) : |roundTo unit x - x| ≤ unit / 2 := by
  have hx : x = x / unit * unit := (div_mul_cancel₀ x hunit.ne').symm
  calc |roundTo unit x - x|
      = |((halfEven (x / unit) : ℚ) - x / unit) * unit| := by rw [sub_mul, ← hx, roundTo]
    _ = |(halfEven (x / unit) : ℚ) - x / unit| * unit := by rw [abs_mul, abs_of_pos hunit]
    _ ≤ 1 / 2 * unit := mul_le_mul_of_nonneg_right (abs_halfEven_sub_le _) hunit.le
    _ = unit / 2 := by ring

/-- A multiple of the unit is not changed. -/
theorem roundTo_mul_unit (k : ℤ) : roundTo unit (k * unit) = k * unit := by
  unfold roundTo
  rw [mul_div_cancel_right₀ _ hunit.ne', halfEven_intCast]

/-- An even multiple is reached from half a unit below it on. -/
theorem le_roundTo_iff_of_even {k : ℤ} (hk : Even k) (x : ℚ) :
    k * unit ≤ roundTo unit x ↔ k * unit - unit / 2 ≤ x := by
  have hhalf : k * unit - unit / 2 = ((k : ℚ) - 1 / 2) * unit := by ring
  unfold roundTo
  rw [mul_le_mul_iff_of_pos_right hunit, Int.cast_le, le_halfEven_iff_of_even hk, hhalf,
    le_div_iff₀ hunit]

end RoundTo

/-! ### Decimals -/

/-- The number with so many decimals. -/
def roundDecimals (x : ℚ) (n : ℕ) : ℚ := roundTo (1 / 10 ^ n) x

theorem abs_roundDecimals_sub_le (x : ℚ) (n : ℕ) :
    |roundDecimals x n - x| ≤ 1 / 10 ^ n / 2 :=
  abs_roundTo_sub_le (by positivity) x

/-! ### Doubles -/

/-- How far apart the doubles of a number's magnitude are. -/
def ulp (x : ℚ) : ℚ := 2 ^ (Int.log 2 |x| - 52)

/-- The nearest double. -/
def toDouble (x : ℚ) : ℚ := roundTo (ulp x) x

theorem ulp_pos (x : ℚ) : 0 < ulp x := zpow_pos (by norm_num) _

/-- A number that 53 bits hold. -/
def IsDouble (x : ℚ) : Prop := ∃ m e : ℤ, |m| < 2 ^ 53 ∧ x = m * 2 ^ e

/-- A double. -/
structure Double where
  val : ℚ
  isDouble : IsDouble val

theorem toDouble_of_eq_mul_ulp {x : ℚ} {k : ℤ} (hx : x = k * ulp x) : toDouble x = x :=
  calc toDouble x = roundTo (ulp x) (k * ulp x) := congrArg (roundTo (ulp x)) hx
    _ = k * ulp x := roundTo_mul_unit (ulp_pos x) k
    _ = x := hx.symm

/-- The exponent of a number that 53 bits hold is not less than that of its unit. -/
theorem log_sub_le {m e : ℤ} (hm : |m| < 2 ^ 53) (hm0 : m ≠ 0) :
    Int.log 2 |(m : ℚ) * 2 ^ e| - 52 ≤ e := by
  have hpow : (0 : ℚ) < 2 ^ e := zpow_pos (by norm_num) e
  have hpos : 0 < |(m : ℚ) * 2 ^ e| :=
    abs_pos.mpr (mul_ne_zero (Int.cast_ne_zero.mpr hm0) hpow.ne')
  have hbound : |(m : ℚ)| < 2 ^ 53 := by exact_mod_cast hm
  -- a significand of 53 bits reaches at most 53 places above the exponent
  have hlog : Int.log 2 |(m : ℚ) * 2 ^ e| < 53 + e := by
    rw [← Int.lt_zpow_iff_log_lt Nat.one_lt_two hpos]
    calc |(m : ℚ) * 2 ^ e| = |(m : ℚ)| * 2 ^ e := by rw [abs_mul, abs_of_pos hpow]
      _ < 2 ^ 53 * 2 ^ e := mul_lt_mul_of_pos_right hbound hpow
      _ = ((2 : ℕ) : ℚ) ^ (53 + e) := by
          rw [zpow_add₀ (by norm_num)]
          norm_num
  omega

/-- **Doubles are not rounded.** -/
theorem toDouble_eq_self {x : ℚ} (hx : IsDouble x) : toDouble x = x := by
  obtain ⟨m, e, hm, rfl⟩ := hx
  obtain rfl | hm0 := eq_or_ne m 0
  · refine toDouble_of_eq_mul_ulp (k := 0) ?_
    rw [Int.cast_zero, zero_mul, zero_mul]
  · obtain ⟨j, hj⟩ : ∃ j : ℕ, e = (Int.log 2 |(m : ℚ) * 2 ^ e| - 52) + j :=
      ⟨(e - (Int.log 2 |(m : ℚ) * 2 ^ e| - 52)).toNat, by have := log_sub_le (e := e) hm hm0; omega⟩
    refine toDouble_of_eq_mul_ulp (k := m * 2 ^ j) ?_
    -- the exponent is at least that of the unit, so the significand is a multiple of it
    have hsplit : (2 : ℚ) ^ e = ulp (m * 2 ^ e) * 2 ^ j := by
      unfold ulp
      rw [← zpow_natCast, ← zpow_add₀ (by norm_num), ← hj]
    calc (m : ℚ) * 2 ^ e = m * (ulp (m * 2 ^ e) * 2 ^ j) := congrArg ((m : ℚ) * ·) hsplit
      _ = ((m * 2 ^ j : ℤ) : ℚ) * ulp (m * 2 ^ e) := by
          push_cast
          ring

/-- What a double has behind the point is a double. -/
theorem IsDouble.sub_floor {x : ℚ} (hx : IsDouble x) (h0 : 0 ≤ x) : IsDouble (x - ⌊x⌋) := by
  obtain ⟨m, e, hm, rfl⟩ := hx
  have hm0 : 0 ≤ m := by
    have hpow : (0 : ℚ) < 2 ^ e := zpow_pos (by norm_num) e
    exact_mod_cast nonneg_of_mul_nonneg_left h0 hpow
  obtain ⟨j, rfl | rfl⟩ := Int.eq_nat_or_neg e
  · -- a whole number
    have hwhole : (m : ℚ) * 2 ^ (j : ℤ) = ((m * 2 ^ j : ℤ) : ℚ) := by
      rw [zpow_natCast]
      push_cast
      rfl
    rw [hwhole, Int.floor_intCast, sub_self]
    exact ⟨0, 0, by norm_num, by norm_num⟩
  · -- the last bits
    have hdiv (k : ℤ) : (k : ℚ) * 2 ^ (-(j : ℤ)) = (k : ℚ) / ((2 ^ j : ℕ) : ℚ) := by
      rw [zpow_neg, zpow_natCast, Nat.cast_pow, Nat.cast_two, div_eq_mul_inv]
    refine ⟨m % ((2 ^ j : ℕ) : ℤ), -j, ?_, ?_⟩
    · have hquot : 0 ≤ ((2 ^ j : ℕ) : ℤ) * (m / ((2 ^ j : ℕ) : ℤ)) :=
        mul_nonneg (by positivity) (Int.ediv_nonneg hm0 (by positivity))
      rw [abs_of_nonneg (Int.emod_nonneg m (by positivity))]
      calc m % ((2 ^ j : ℕ) : ℤ) = m - ((2 ^ j : ℕ) : ℤ) * (m / ((2 ^ j : ℕ) : ℤ)) :=
            Int.emod_def m _
        _ ≤ m := sub_le_self m hquot
        _ ≤ |m| := le_abs_self m
        _ < 2 ^ 53 := hm
    · rw [hdiv, hdiv, Int.self_sub_floor]
      exact Int.fract_div_intCast_eq_div_intCast_mod

/-! ### Doubles and whole numbers -/

section WholeNumbers

variable {x : ℚ} (h0 : 0 ≤ x) (hx : x < 2 ^ 52)
include h0 hx

theorem log_le_of_lt : Int.log 2 |x| ≤ 51 := by
  rw [abs_of_nonneg h0]
  obtain rfl | hpos := h0.eq_or_lt
  · rw [Int.log_of_right_le_zero _ le_rfl]
    norm_num
  · have hlog : Int.log 2 x < 52 := by
      rw [← Int.lt_zpow_iff_log_lt Nat.one_lt_two hpos]
      exact_mod_cast hx
    omega

/-- A whole number is reached from half a unit below it on. -/
theorem le_toDouble_iff (n : ℤ) : (n : ℚ) ≤ toDouble x ↔ n - ulp x / 2 ≤ x := by
  have hlog := log_le_of_lt h0 hx
  -- it is a multiple of the unit, and an even one
  obtain ⟨j, hj⟩ : ∃ j : ℕ, -((j : ℤ) + 1) = Int.log 2 |x| - 52 :=
    ⟨(51 - Int.log 2 |x|).toNat, by omega⟩
  have hunit : ulp x * 2 ^ (j + 1) = 1 := by
    unfold ulp
    rw [← hj, ← zpow_natCast, ← zpow_add₀ (by norm_num)]
    push_cast
    rw [neg_add_cancel, zpow_zero]
  have hmul : (n : ℚ) = ((n * 2 ^ (j + 1) : ℤ) : ℚ) * ulp x := by
    push_cast
    rw [mul_assoc, mul_comm _ (ulp x), hunit, mul_one]
  have heven : Even (n * 2 ^ (j + 1)) := (even_two.pow_of_ne_zero j.succ_ne_zero).mul_left n
  rw [hmul]
  exact le_roundTo_iff_of_even (ulp_pos x) heven x

/-- A double lies above the floor of what it stands for. -/
theorem floor_le_toDouble : (⌊x⌋ : ℚ) ≤ toDouble x := by
  rw [le_toDouble_iff h0 hx]
  have := Int.floor_le x
  have := ulp_pos x
  linarith

/-- A unit is at most one half. -/
theorem ulp_le : ulp x ≤ 1 / 2 := by
  have hlog := log_le_of_lt h0 hx
  calc ulp x ≤ 2 ^ (-1 : ℤ) := zpow_le_zpow_right₀ (by norm_num) (by omega)
    _ = 1 / 2 := by norm_num

/-- Its own floor is at most one larger. -/
theorem floor_toDouble_le : ⌊toDouble x⌋ ≤ ⌊x⌋ + 1 := by
  rw [← Int.lt_add_one_iff, Int.floor_lt]
  by_contra hge
  rw [not_lt, le_toDouble_iff h0 hx] at hge
  have := Int.lt_floor_add_one x
  have := ulp_le h0 hx
  push_cast at hge
  linarith

/-- **Rounding keeps the whole part** of a number that is more than half a unit below the
next whole number. -/
theorem floor_toDouble_eq_iff : ⌊toDouble x⌋ = ⌊x⌋ ↔ ulp x / 2 < ⌊x⌋ + 1 - x := by
  have hnext := le_toDouble_iff h0 hx (⌊x⌋ + 1)
  push_cast at hnext
  rw [Int.floor_eq_iff, and_iff_right (floor_le_toDouble h0 hx), ← not_le, hnext, not_le]
  constructor
  · intro h
    linarith
  · intro h
    linarith

end WholeNumbers

end Sentrix
