import Mathlib.Algebra.BigOperators.Intervals
import Mathlib.Algebra.Order.BigOperators.Ring.Finset
import Mathlib.Algebra.Order.Field.Basic
import Mathlib.Data.List.GetD
import Mathlib.Tactic.Ring

/-!
# Exponential smoothing

A moving average takes the first observation as it is and then moves by a share `α` of the way
towards each new one. What it shows is a weighted mean of all the observations (`smoothed`): the
newest has the weight `α`, each older one `1 - α` times the weight of the next, and the oldest what
is left, so that the weights sum up to one (`sum_weight`). With a share between zero and one no
weight is negative, and the mean lies between any bounds of the observations (`smoothed_mem_Icc`).
-/

namespace Sentrix

open Finset

variable {K : Type*} [Field K]

/-- The weight of the `i`-th of `n` observations, the oldest being the `0`-th. -/
def weight (α : K) (n i : ℕ) : K :=
  if i = 0 then (1 - α) ^ (n - 1) else α * (1 - α) ^ (n - 1 - i)

/-- The weighted mean of some observations, the oldest first; zero if there are none. -/
def smoothed (α : K) (xs : List K) : K :=
  ∑ i ∈ range xs.length, weight α xs.length i * xs.getD i 0

/-- A new observation takes its share from all the others alike. -/
theorem weight_succ (α : K) {n i : ℕ} (hi : i < n) :
    weight α (n + 1) i = (1 - α) * weight α n i := by
  unfold weight
  split
  · obtain ⟨m, rfl⟩ : ∃ m, n = m + 1 := ⟨n - 1, by omega⟩
    rw [Nat.add_sub_cancel, Nat.add_sub_cancel, pow_succ']
  · have hexp : n + 1 - 1 - i = (n - 1 - i) + 1 := by omega
    rw [hexp, pow_succ']
    ring

/-- The last of several samples has the smoothing weight. -/
theorem weight_last (α : K) {n : ℕ} (hn : 0 < n) : weight α (n + 1) n = α := by
  unfold weight
  rw [if_neg hn.ne', Nat.add_sub_cancel, Nat.sub_self, pow_zero, mul_one]

theorem weight_one (α : K) : weight α 1 0 = 1 := pow_zero _

/-- **The weights sum up to one.** -/
theorem sum_weight (α : K) {n : ℕ} (hn : 0 < n) : ∑ i ∈ range n, weight α n i = 1 := by
  induction n with
  | zero => exact absurd hn (Nat.lt_irrefl 0)
  | succ n ih =>
    obtain rfl | hpos := Nat.eq_zero_or_pos n
    · rw [sum_range_one, weight_one]
    · calc ∑ i ∈ range (n + 1), weight α (n + 1) i
          = ∑ i ∈ range n, weight α (n + 1) i + α := by rw [sum_range_succ, weight_last α hpos]
        _ = ∑ i ∈ range n, (1 - α) * weight α n i + α := by
            rw [sum_congr rfl fun i hi => weight_succ α (mem_range.mp hi)]
        _ = (1 - α) * 1 + α := by rw [← mul_sum, ih hpos]
        _ = 1 := by ring

theorem smoothed_nil (α : K) : smoothed α ([] : List K) = 0 := sum_range_zero _

/-- The average of one sample is the sample. -/
theorem smoothed_singleton (α : K) (x : K) : smoothed α [x] = x := by
  show ∑ i ∈ range 1, weight α 1 i * [x].getD i 0 = x
  rw [sum_range_one, weight_one, one_mul]
  rfl

/-- **One observation more** moves the mean by the share of the way to it. -/
theorem smoothed_concat (α : K) {xs : List K} (hxs : xs ≠ []) (x : K) :
    smoothed α (xs ++ [x]) = α * x + (1 - α) * smoothed α xs := by
  have hpos : 0 < xs.length := List.length_pos_iff.mpr hxs
  -- every old weight is multiplied once more
  have hold : ∀ i ∈ range xs.length, weight α (xs.length + 1) i * (xs ++ [x]).getD i 0 =
      (1 - α) * (weight α xs.length i * xs.getD i 0) := by
    intro i hi
    rw [mem_range] at hi
    rw [weight_succ α hi, List.getD_append xs [x] 0 i hi, mul_assoc]
  have hnew : (xs ++ [x]).getD xs.length 0 = x := by
    rw [List.getD_append_right xs [x] 0 xs.length (Nat.le_refl _), Nat.sub_self]
    rfl
  calc smoothed α (xs ++ [x])
      = ∑ i ∈ range (xs.length + 1), weight α (xs.length + 1) i * (xs ++ [x]).getD i 0 := by
        rw [smoothed, List.length_append, List.length_singleton]
    _ = (1 - α) * smoothed α xs + α * x := by
        rw [sum_range_succ, sum_congr rfl hold, ← mul_sum, weight_last α hpos, hnew]
        rfl
    _ = α * x + (1 - α) * smoothed α xs := add_comm _ _

section Order

variable [LinearOrder K] [IsStrictOrderedRing K] {α : K}

/-- No weight is negative. -/
theorem weight_nonneg (h0 : 0 ≤ α) (h1 : α ≤ 1) (n i : ℕ) : 0 ≤ weight α n i := by
  have hrest : 0 ≤ 1 - α := sub_nonneg.mpr h1
  unfold weight
  split
  · exact pow_nonneg hrest _
  · exact mul_nonneg h0 (pow_nonneg hrest _)

/-- **The mean lies between the observations.** -/
theorem smoothed_mem_Icc (h0 : 0 ≤ α) (h1 : α ≤ 1) {xs : List K} (hxs : xs ≠ []) {lo hi : K}
    (hbounds : ∀ x ∈ xs, lo ≤ x ∧ x ≤ hi) : lo ≤ smoothed α xs ∧ smoothed α xs ≤ hi := by
  -- the weights are nonnegative and sum up to one
  have hone : ∑ i ∈ range xs.length, weight α xs.length i = 1 :=
    sum_weight α (List.length_pos_iff.mpr hxs)
  have hget : ∀ i ∈ range xs.length, lo ≤ xs.getD i 0 ∧ xs.getD i 0 ≤ hi := by
    intro i hi
    rw [mem_range] at hi
    rw [List.getD_eq_getElem xs 0 hi]
    exact hbounds _ (List.getElem_mem hi)
  constructor
  · calc lo = ∑ i ∈ range xs.length, weight α xs.length i * lo := by
          rw [← sum_mul, hone, one_mul]
      _ ≤ smoothed α xs :=
          sum_le_sum fun i hi => mul_le_mul_of_nonneg_left (hget i hi).1 (weight_nonneg h0 h1 _ i)
  · calc smoothed α xs ≤ ∑ i ∈ range xs.length, weight α xs.length i * hi :=
          sum_le_sum fun i hi => mul_le_mul_of_nonneg_left (hget i hi).2 (weight_nonneg h0 h1 _ i)
      _ = hi := by rw [← sum_mul, hone, one_mul]

/-- No observation, and the mean is zero: it lies between bounds that hold zero. -/
theorem smoothed_mem_Icc_of_zero (h0 : 0 ≤ α) (h1 : α ≤ 1) (xs : List K) {lo hi : K}
    (hlo : lo ≤ 0) (hhi : 0 ≤ hi) (hbounds : ∀ x ∈ xs, lo ≤ x ∧ x ≤ hi) :
    lo ≤ smoothed α xs ∧ smoothed α xs ≤ hi := by
  by_cases hxs : xs = []
  · rw [hxs, smoothed_nil]
    exact ⟨hlo, hhi⟩
  · exact smoothed_mem_Icc h0 h1 hxs hbounds

end Order

end Sentrix
