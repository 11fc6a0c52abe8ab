import Mathlib.Algebra.BigOperators.Group.List.Basic
import Mathlib.Algebra.Order.BigOperators.Group.List
import Mathlib.Algebra.Order.Field.Basic
import Mathlib.Data.List.Induction
import Mathlib.Tactic.Ring
import Mathlib.Tactic.Linarith
import Sentrix.Lib.Literals

/-!
# Samples

The mean and the variance of a list of samples, and the gaps between the times of a list.
The variance is taken from the deviations from the mean. What becomes of it when a sample
is added is said by `sum_sq_shift`: moving the centre of the deviations changes their
squares by a multiple of their sum, and the sum of the deviations from the mean is zero.
-/

namespace Sentrix

variable {K : Type*} [Field K]

/-- The arithmetic mean. -/
def mean (xs : List K) : K := xs.sum / xs.length

/-- The sum of the squared deviations from a centre. -/
def sumSquares (c : K) (xs : List K) : K := (xs.map fun x => (x - c) ^ 2).sum

/-- The variance of the samples, by Bessel's count. -/
def sampleVariance (xs : List K) : K := sumSquares (mean xs) xs / (xs.length - 1)

/-- One more sample adds its own square. -/
theorem sumSquares_concat (c : K) (xs : List K) (x : K) :
    sumSquares c (xs ++ [x]) = sumSquares c xs + (x - c) ^ 2 := by
  unfold sumSquares
  rw [List.map_append, List.sum_append, List.map_singleton, List.sum_singleton]

/-- Squares around a moved centre, from those around the old one. -/
theorem sum_sq_shift (c d : K) (xs : List K) :
    sumSquares (c + d) xs =
      sumSquares c xs - 2 * d * (xs.sum - xs.length * c) + xs.length * d ^ 2 := by
  unfold sumSquares
  induction xs with
  | nil =>
    simp only [List.map_nil, List.sum_nil, List.length_nil, Nat.cast_zero, zero_mul, sub_self,
      mul_zero, add_zero]
  | cons x xs ih =>
    rw [List.map_cons, List.sum_cons, ih, List.map_cons, List.sum_cons, List.sum_cons,
      List.length_cons, Nat.cast_add, Nat.cast_one]
    ring

/-! ### Gaps -/

/-- The gaps between consecutive times. -/
def gaps : List K → List K
  | a :: b :: ts => (b - a) :: gaps (b :: ts)
  | _ => []

/-- One more time adds its gap to the last. -/
theorem gaps_concat {ts : List K} {last : K} (hlast : ts.getLast? = some last) (t : K) :
    gaps (ts ++ [t]) = gaps ts ++ [t - last] := by
  induction ts using gaps.induct with
  | case1 a b ts ih =>
    show (b - a) :: gaps (b :: ts ++ [t]) = (b - a) :: gaps (b :: ts) ++ [t - last]
    rw [ih (by rwa [List.getLast?_cons_cons] at hlast), List.cons_append]
  | case2 ts hshort =>
    -- fewer than two times have no gap yet
    cases ts with
    | nil => cases hlast
    | cons a ts =>
      cases ts with
      | nil =>
        rw [List.getLast?_singleton] at hlast
        obtain rfl := Option.some.inj hlast
        rfl
      | cons b ts => exact absurd rfl (hshort a b ts)

variable [LinearOrder K]

/-- The gaps between the times that differ. -/
def positiveGaps (ts : List K) : List K := (gaps ts).filter fun g => decide (0 < g)

theorem positiveGaps_concat {ts : List K} {last : K} (hlast : ts.getLast? = some last) (t : K) :
    positiveGaps (ts ++ [t]) =
      if 0 < t - last then positiveGaps ts ++ [t - last] else positiveGaps ts := by
  unfold positiveGaps
  rw [gaps_concat hlast, List.filter_append]
  split
  · next hpos =>
    have hkeep : [t - last].filter (fun g => decide (0 < g)) = [t - last] := by simpa using hpos
    rw [hkeep]
  · next hpos =>
    have hdrop : [t - last].filter (fun g => decide (0 < g)) = [] := by simpa using hpos
    rw [hdrop, List.append_nil]

variable [IsStrictOrderedRing K]

/-- **Telescoping.** The positive gaps of nondecreasing times add up to the time from the
first to the last. -/
theorem sum_positiveGaps {ts : List K} (hsorted : ts.Pairwise fun a b => a ≤ b) {first last : K}
    (hfirst : ts.head? = some first) (hlast : ts.getLast? = some last) :
    (positiveGaps ts).sum = last - first := by
  induction ts using List.reverseRecOn generalizing last with
  | nil => cases hlast
  | append_singleton ts t ih =>
    rw [List.getLast?_concat] at hlast
    obtain rfl := Option.some.inj hlast
    cases hprev : ts.getLast? with
    | none =>
      rw [List.getLast?_eq_none_iff] at hprev
      subst hprev
      obtain rfl := Option.some.inj hfirst
      exact (sub_self _).symm
    | some prev =>
      have hmem := List.mem_of_getLast? hprev
      rw [List.head?_append_of_ne_nil _ (List.ne_nil_of_mem hmem)] at hfirst
      have hle := (List.pairwise_append.mp hsorted).2.2 prev hmem t (List.mem_singleton_self t)
      have hsum := ih (List.pairwise_append.mp hsorted).1 hfirst hprev
      rw [positiveGaps_concat hprev]
      split
      · calc (positiveGaps ts ++ [t - prev]).sum
            = (positiveGaps ts).sum + (t - prev) := by rw [List.sum_append, List.sum_singleton]
          _ = t - first := by rw [hsum]; ring
      · next hpos =>
        -- the two last times are the same
        have heq : t = prev := by linarith
        rw [hsum, heq]

/-- The mean of positive gaps is positive. -/
theorem mean_positiveGaps_pos {ts : List K} (hne : positiveGaps ts ≠ []) :
    0 < mean (positiveGaps ts) := by
  have hpos : ∀ g ∈ positiveGaps ts, 0 < g :=
    fun g hg => of_decide_eq_true (List.mem_filter.mp hg).2
  exact div_pos (List.sum_pos _ hpos hne) (Nat.cast_pos.mpr (List.length_pos_of_ne_nil hne))

end Sentrix
