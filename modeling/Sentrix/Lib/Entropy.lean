import Mathlib.Analysis.SpecialFunctions.Complex.LogBounds
import Mathlib.Analysis.SpecialFunctions.Log.NegMulLog
import Sentrix.Lib.Literals

/-!
# Entropies of counts

The entropy of a vector of counts is that of their relative frequencies. It does
not determine the counts, but how it changes does: if two vectors have the same
entropy however much one of their places is counted up, they agree outside this
place in total (`sum_erase_eq_of_entropy_eq`), and if that holds at two places or
more, they are equal (`eq_of_entropy_eq`).

The argument is asymptotic. With `m` more at one place, the entropy times the
total is `R log m` up to a bounded term, where `R` is the total of the other
places (`tendsto_growth`).

Places can be merged, with their counts added up. A place then counts by the
logarithm of all that it is merged with, so that entropy is only ever lost
(`entropy_merge_le`), and none is if no two places are merged
(`entropy_merge_eq_iff`).
-/

namespace Sentrix

open Filter Topology Real

variable {ι : Type*} [DecidableEq ι]

/-- The entropy, in nats, of the counts `c` over the places `s`. -/
noncomputable def entropy (s : Finset ι) (c : ι → ℕ) : ℝ :=
  ∑ i ∈ s, negMulLog (c i / (∑ i ∈ s, c i : ℕ))

/-- The counts with `m` more at the place `j`. -/
def grow (c : ι → ℕ) (j : ι) (m : ℕ) : ι → ℕ := Function.update c j (c j + m)

/-! ### A place that grows -/

/-- `(m + A) log (m + A)` grows over `(m + a) log (m + a)` as `(A - a) log m`. -/
theorem tendsto_growth (A a : ℝ) :
    Tendsto (fun m : ℕ => ((m + A) * log (m + A) - (m + a) * log (m + a)) / log m) atTop
      (𝓝 (A - a)) := by
  -- up to a bounded term, `(m + b) log (m + b)` is `(m + b) log m`
  have hbounded : ∀ b : ℝ, Tendsto (fun x : ℝ => (x + b) * log (1 + b / x)) atTop (𝓝 b) := by
    intro b
    have hmul := tendsto_mul_log_one_add_div_atTop b
    have hlog : Tendsto (fun x : ℝ => log (1 + b / x)) atTop (𝓝 0) := by
      have hdiv : Tendsto (fun x : ℝ => 1 + b / x) atTop (𝓝 (1 + 0)) :=
        tendsto_const_nhds.add (tendsto_const_nhds.div_atTop tendsto_id)
      rw [add_zero] at hdiv
      rw [← log_one]
      exact (continuousAt_log one_ne_zero).tendsto.comp hdiv
    have hsum := hmul.add (hlog.const_mul b)
    rw [mul_zero, add_zero] at hsum
    refine hsum.congr fun x => ?_
    ring
  have hvanishes : Tendsto (fun x : ℝ => ((x + A) * log (1 + A / x) -
      (x + a) * log (1 + a / x)) / log x) atTop (𝓝 0) :=
    ((hbounded A).sub (hbounded a)).div_atTop tendsto_log_atTop
  have hreal : Tendsto (fun x : ℝ => ((x + A) * log (x + A) - (x + a) * log (x + a)) / log x) atTop
      (𝓝 (A - a)) := by
    have hsum := hvanishes.const_add (A - a)
    rw [add_zero] at hsum
    refine hsum.congr' ?_
    filter_upwards [eventually_gt_atTop 1, eventually_gt_atTop (-A), eventually_gt_atTop (-a)]
      with x hx hA ha
    have hx0 : x ≠ 0 := by linarith
    have hlogx : log x ≠ 0 := (log_pos hx).ne'
    have hsplit : ∀ b : ℝ, -b < x → log (x + b) = log x + log (1 + b / x) := by
      intro b hb
      have hpos : 0 < 1 + b / x := by
        have hfrac : 1 + b / x = (x + b) / x := by field_simp
        rw [hfrac]
        exact div_pos (by linarith) (by linarith)
      rw [← log_mul hx0 hpos.ne', mul_add, mul_one, mul_div_cancel₀ _ hx0]
    rw [hsplit A hA, hsplit a ha]
    field_simp
    ring
  exact hreal.comp tendsto_natCast_atTop_atTop

/-! ### The entropy of grown counts -/

omit [DecidableEq ι] in
/-- The entropy times the total. -/
theorem total_mul_entropy (s : Finset ι) (c : ι → ℕ) (hpos : 0 < ∑ i ∈ s, c i) :
    (∑ i ∈ s, c i : ℕ) * entropy s c =
      (∑ i ∈ s, c i : ℕ) * log (∑ i ∈ s, c i : ℕ) - ∑ i ∈ s, c i * log (c i) := by
  set N : ℕ := ∑ i ∈ s, c i
  have hN : (N : ℝ) ≠ 0 := by exact_mod_cast hpos.ne'
  have hterm : ∀ i, (N : ℝ) * negMulLog (c i / N) = c i * log N - c i * log (c i) := by
    intro i
    -- an item that never occurs adds nothing on either side
    by_cases hi : c i = 0
    · rw [hi, Nat.cast_zero, zero_div, negMulLog_zero, mul_zero, zero_mul, zero_mul, sub_zero]
    · have hci : (c i : ℝ) ≠ 0 := by exact_mod_cast hi
      rw [negMulLog, log_div hci hN]
      field_simp
      ring
  have hsum : (∑ i ∈ s, (c i : ℝ)) = N := by
    rw [← Nat.cast_sum]
  calc (N : ℝ) * entropy s c = ∑ i ∈ s, (N : ℝ) * negMulLog (c i / N) := Finset.mul_sum _ _ _
    _ = ∑ i ∈ s, (c i * log N - c i * log (c i)) := Finset.sum_congr rfl fun i _ => hterm i
    _ = N * log N - ∑ i ∈ s, c i * log (c i) := by
      rw [Finset.sum_sub_distrib, ← Finset.sum_mul, hsum]

theorem sum_grow {s : Finset ι} {j : ι} (hj : j ∈ s) (c : ι → ℕ) (m : ℕ) :
    ∑ i ∈ s, grow c j m i = (∑ i ∈ s, c i) + m := by
  rw [← Finset.add_sum_erase s _ hj, ← Finset.add_sum_erase s c hj]
  have hrest : ∑ i ∈ s.erase j, grow c j m i = ∑ i ∈ s.erase j, c i :=
    Finset.sum_congr rfl fun i hi => Function.update_of_ne (Finset.ne_of_mem_erase hi) _ _
  rw [hrest, grow, Function.update_self]
  omega

/-- The sum of `c log c` over counts that have grown at one place. -/
theorem sum_log_grow {s : Finset ι} {j : ι} (hj : j ∈ s) (c : ι → ℕ) (m : ℕ) :
    ∑ i ∈ s, grow c j m i * log (grow c j m i) =
      (m + c j) * log (m + c j) + ∑ i ∈ s.erase j, c i * log (c i) := by
  rw [← Finset.add_sum_erase s _ hj]
  have hrest : ∑ i ∈ s.erase j, (grow c j m i : ℝ) * log (grow c j m i) =
      ∑ i ∈ s.erase j, c i * log (c i) := by
    refine Finset.sum_congr rfl fun i hi => ?_
    rw [grow, Function.update_of_ne (Finset.ne_of_mem_erase hi)]
  rw [hrest, grow, Function.update_self, Nat.cast_add, add_comm (c j : ℝ)]

/-- With `m` more at one place, the entropy times the total is `R log m`, where
`R` is the total of the other places. -/
theorem tendsto_entropy_grow {s : Finset ι} {j : ι} (hj : j ∈ s) (c : ι → ℕ) :
    Tendsto (fun m : ℕ => (m + (∑ i ∈ s, c i : ℕ)) * entropy s (grow c j m) / log m) atTop
      (𝓝 (∑ i ∈ s.erase j, c i : ℕ)) := by
  have hrest : ((∑ i ∈ s, c i : ℕ) : ℝ) - c j = (∑ i ∈ s.erase j, c i : ℕ) := by
    rw [← Finset.add_sum_erase s c hj, Nat.cast_add, add_sub_cancel_left]
  have hlogs := tendsto_growth (∑ i ∈ s, c i : ℕ) (c j)
  rw [hrest] at hlogs
  -- the other items' counts stay, so their logarithms vanish against the growing one
  have hconst : Tendsto (fun m : ℕ => (∑ i ∈ s.erase j, c i * log (c i)) / log m) atTop (𝓝 0) :=
    tendsto_const_nhds.div_atTop (tendsto_log_atTop.comp tendsto_natCast_atTop_atTop)
  have hdiff := hlogs.sub hconst
  rw [sub_zero] at hdiff
  refine hdiff.congr' ?_
  filter_upwards [eventually_gt_atTop 0] with m hm
  have htotal : 0 < ∑ i ∈ s, grow c j m i := by
    rw [sum_grow hj]
    omega
  have hmul := total_mul_entropy s (grow c j m) htotal
  rw [sum_grow hj, sum_log_grow hj, Nat.cast_add, add_comm ((∑ i ∈ s, c i : ℕ) : ℝ)] at hmul
  rw [hmul]
  ring

/-- **One place.** If the entropies agree however much the place `j` grows, the
other places have the same total. -/
theorem sum_erase_eq_of_entropy_eq {s : Finset ι} {j : ι} (hj : j ∈ s) {c d : ι → ℕ}
    {m₀ : ℕ} (h : ∀ m, m₀ < m → entropy s (grow c j m) = entropy s (grow d j m)) :
    ∑ i ∈ s.erase j, c i = ∑ i ∈ s.erase j, d i := by
  have hc := tendsto_entropy_grow hj c
  have hd := tendsto_entropy_grow hj d
  -- the two totals are asymptotically equal
  have hratio : Tendsto (fun m : ℕ => ((m : ℝ) + (∑ i ∈ s, c i : ℕ)) / (m + (∑ i ∈ s, d i : ℕ)))
      atTop (𝓝 1) := by
    have hsmall : Tendsto (fun m : ℕ => (((∑ i ∈ s, c i : ℕ) : ℝ) - (∑ i ∈ s, d i : ℕ)) /
        (m + (∑ i ∈ s, d i : ℕ))) atTop (𝓝 0) :=
      tendsto_const_nhds.div_atTop
        (tendsto_atTop_add_const_right _ _ tendsto_natCast_atTop_atTop)
    have hsum := hsmall.const_add 1
    rw [add_zero] at hsum
    refine hsum.congr' ?_
    filter_upwards [eventually_gt_atTop 0] with m hm
    have hne : (m : ℝ) + (∑ i ∈ s, d i : ℕ) ≠ 0 := by positivity
    field_simp
    ring
  have hprod := hratio.mul hd
  rw [one_mul] at hprod
  have hsame : Tendsto (fun m : ℕ => (m + (∑ i ∈ s, c i : ℕ)) * entropy s (grow c j m) / log m)
      atTop (𝓝 (∑ i ∈ s.erase j, d i : ℕ)) := by
    refine hprod.congr' ?_
    filter_upwards [eventually_gt_atTop 0, eventually_gt_atTop m₀] with m hpos hm
    have hne : (m : ℝ) + (∑ i ∈ s, d i : ℕ) ≠ 0 := by positivity
    rw [h m hm]
    field_simp
  exact_mod_cast tendsto_nhds_unique hc hsame

/-- **Counts are determined by entropies.** Two vectors of counts are equal if
their entropies agree however much any one of the places `r` grows, where there
are two such places at least and nothing is counted elsewhere. -/
theorem eq_of_entropy_eq {s r : Finset ι} (hrs : r ⊆ s) (htwo : 2 ≤ r.card) {c d : ι → ℕ}
    (hc : ∀ i ∈ s, i ∉ r → c i = 0) (hd : ∀ i ∈ s, i ∉ r → d i = 0) {m₀ : ℕ}
    (h : ∀ j ∈ r, ∀ m, m₀ < m → entropy s (grow c j m) = entropy s (grow d j m)) :
    ∀ i ∈ s, c i = d i := by
  -- the difference at each of the places is the difference of the totals
  have hdiff : ∀ j ∈ r, (c j : ℤ) - d j = (∑ i ∈ s, c i : ℕ) - (∑ i ∈ s, d i : ℕ) := by
    intro j hj
    have hrest := sum_erase_eq_of_entropy_eq (hrs hj) (h j hj)
    rw [← Finset.add_sum_erase s c (hrs hj), ← Finset.add_sum_erase s d (hrs hj), hrest]
    push_cast
    ring
  have htotal : ((∑ i ∈ s, c i : ℕ) : ℤ) - (∑ i ∈ s, d i : ℕ) =
      r.card * ((∑ i ∈ s, c i : ℕ) - (∑ i ∈ s, d i : ℕ)) := by
    have hsum : ∀ e : ι → ℕ, (∀ i ∈ s, i ∉ r → e i = 0) → ∑ i ∈ r, e i = ∑ i ∈ s, e i :=
      fun e he => Finset.sum_subset hrs he
    calc ((∑ i ∈ s, c i : ℕ) : ℤ) - (∑ i ∈ s, d i : ℕ)
        = ∑ i ∈ r, ((c i : ℤ) - d i) := by
          rw [← hsum c hc, ← hsum d hd, Finset.sum_sub_distrib, Nat.cast_sum, Nat.cast_sum]
      _ = ∑ i ∈ r, (((∑ i ∈ s, c i : ℕ) : ℤ) - (∑ i ∈ s, d i : ℕ)) :=
          Finset.sum_congr rfl hdiff
      _ = r.card * ((∑ i ∈ s, c i : ℕ) - (∑ i ∈ s, d i : ℕ)) := by
          rw [Finset.sum_const, nsmul_eq_mul]
  have hzero : ((∑ i ∈ s, c i : ℕ) : ℤ) - (∑ i ∈ s, d i : ℕ) = 0 := by
    by_contra hne
    have hone : (r.card : ℤ) = 1 := mul_right_cancel₀ hne (by rw [one_mul]; exact htotal.symm)
    omega
  intro i hi
  by_cases hir : i ∈ r
  · have heq := hdiff i hir
    rw [hzero] at heq
    omega
  · rw [hc i hi hir, hd i hi hir]

/-! ### Places that are merged -/

section Merge

omit [DecidableEq ι]

variable {κ : Type*} [DecidableEq κ]

/-- The counts of the places that are merged into one. -/
def merge (s : Finset ι) (f : ι → κ) (c : ι → ℕ) (k : κ) : ℕ := ∑ i ∈ s with f i = k, c i

variable {s : Finset ι} {t : Finset κ} {f : ι → κ} {c : ι → ℕ}

theorem entropy_nonneg (s : Finset ι) (c : ι → ℕ) : 0 ≤ entropy s c := by
  refine Finset.sum_nonneg fun i hi => negMulLog_nonneg ?_ ?_
  · positivity
  · refine div_le_one_of_le₀ ?_ (Nat.cast_nonneg _)
    exact_mod_cast Finset.single_le_sum_of_canonicallyOrdered hi

/-- Merging keeps the total. -/
theorem sum_merge (hf : ∀ i ∈ s, f i ∈ t) (c : ι → ℕ) : ∑ k ∈ t, merge s f c k = ∑ i ∈ s, c i :=
  Finset.sum_fiberwise_of_maps_to hf c

theorem le_merge {i : ι} (hi : i ∈ s) : c i ≤ merge s f c (f i) :=
  Finset.single_le_sum_of_canonicallyOrdered (Finset.mem_filter.mpr ⟨hi, rfl⟩)

/-- Something else is counted at a merged place unless nothing is merged with it. -/
theorem merge_eq_iff (hc : ∀ i ∈ s, 0 < c i) {i : ι} (hi : i ∈ s) :
    merge s f c (f i) = c i ↔ ∀ j ∈ s, f j = f i → j = i := by
  classical
  have hmem : i ∈ s.filter (f · = f i) := Finset.mem_filter.mpr ⟨hi, rfl⟩
  rw [merge, ← Finset.add_sum_erase _ c hmem, Nat.add_eq_left, Finset.sum_eq_zero_iff]
  constructor
  · -- a second item in the cell would add its own count
    intro hzero j hj hfj
    by_contra hne
    have hrest := hzero j (Finset.mem_erase.mpr ⟨hne, Finset.mem_filter.mpr ⟨hj, hfj⟩⟩)
    exact (hc j hj).ne' hrest
  · intro halone j hj
    obtain ⟨hne, hj⟩ := Finset.mem_erase.mp hj
    obtain ⟨hj, hfj⟩ := Finset.mem_filter.mp hj
    exact absurd (halone j hj hfj) hne

/-- The entropy of merged counts, place by place: a place counts by the logarithm of all
that it is merged with. -/
theorem entropy_merge (hf : ∀ i ∈ s, f i ∈ t) (c : ι → ℕ) :
    entropy t (merge s f c) = ∑ i ∈ s, (c i / (∑ i ∈ s, c i : ℕ) : ℝ) *
      -log (merge s f c (f i) / (∑ i ∈ s, c i : ℕ)) := by
  unfold entropy
  rw [sum_merge hf]
  set N : ℕ := ∑ i ∈ s, c i
  have hplace (k : κ) : negMulLog (merge s f c k / N) =
      ∑ i ∈ s with f i = k, (c i / N : ℝ) * -log (merge s f c (f i) / N) := by
    -- the items of one cell share its count
    have hfibre : ∀ i ∈ s.filter (f · = k), (c i / N : ℝ) * -log (merge s f c (f i) / N) =
        (c i / N : ℝ) * -log (merge s f c k / N) := by
      intro i hi
      rw [(Finset.mem_filter.mp hi).2]
    rw [Finset.sum_congr rfl hfibre, ← Finset.sum_mul, ← Finset.sum_div, ← Nat.cast_sum,
      negMulLog, neg_mul, mul_neg]
    rfl
  calc ∑ k ∈ t, negMulLog (merge s f c k / N)
      = ∑ k ∈ t, ∑ i ∈ s with f i = k, (c i / N : ℝ) * -log (merge s f c (f i) / N) :=
        Finset.sum_congr rfl fun k _ => hplace k
    _ = ∑ i ∈ s, (c i / N : ℝ) * -log (merge s f c (f i) / N) :=
        Finset.sum_fiberwise_of_maps_to hf _

/-- A place is worth no more when others are merged with it. -/
theorem mul_neg_log_le {i : ι} (hi : i ∈ s) :
    (c i / (∑ i ∈ s, c i : ℕ) : ℝ) * -log (merge s f c (f i) / (∑ i ∈ s, c i : ℕ)) ≤
      negMulLog (c i / (∑ i ∈ s, c i : ℕ)) := by
  have hle : c i ≤ ∑ i ∈ s, c i := Finset.single_le_sum_of_canonicallyOrdered hi
  set N : ℕ := ∑ i ∈ s, c i
  by_cases hci : c i = 0
  · rw [hci, Nat.cast_zero, zero_div, zero_mul, negMulLog_zero]
  · have hpos : 0 < (c i : ℝ) := by exact_mod_cast Nat.pos_of_ne_zero hci
    have hN : 0 < (N : ℝ) := hpos.trans_le (by exact_mod_cast hle)
    -- a cell holds at least each of its items
    have hlog : log (c i / N) ≤ log (merge s f c (f i) / N) := by
      apply log_le_log (div_pos hpos hN)
      gcongr
      exact le_merge hi
    rw [negMulLog, neg_mul, ← mul_neg]
    exact mul_le_mul_of_nonneg_left (neg_le_neg hlog) (div_pos hpos hN).le

/-- It is worth the same just if nothing else is. -/
theorem mul_neg_log_eq_iff {i : ι} (hi : i ∈ s) (hci : 0 < c i) :
    (c i / (∑ i ∈ s, c i : ℕ) : ℝ) * -log (merge s f c (f i) / (∑ i ∈ s, c i : ℕ)) =
      negMulLog (c i / (∑ i ∈ s, c i : ℕ)) ↔ merge s f c (f i) = c i := by
  have hle : c i ≤ ∑ i ∈ s, c i := Finset.single_le_sum_of_canonicallyOrdered hi
  set N : ℕ := ∑ i ∈ s, c i
  have hpos : 0 < (c i : ℝ) := by exact_mod_cast hci
  have hN : 0 < (N : ℝ) := hpos.trans_le (by exact_mod_cast hle)
  have hmerge : c i ≤ merge s f c (f i) := le_merge hi
  have hmerged : 0 < (merge s f c (f i) : ℝ) := hpos.trans_le (by exact_mod_cast hmerge)
  rw [negMulLog, neg_mul, ← mul_neg, mul_right_inj' (div_pos hpos hN).ne', neg_inj]
  constructor
  · -- the logarithm is injective on positive numbers
    intro hlog
    have hdiv := log_injOn_pos (div_pos hmerged hN) (div_pos hpos hN) hlog
    exact_mod_cast (div_left_inj' hN.ne').mp hdiv
  · intro heq
    rw [heq]

/-- **Merging loses entropy.** -/
theorem entropy_merge_le (hf : ∀ i ∈ s, f i ∈ t) (c : ι → ℕ) :
    entropy t (merge s f c) ≤ entropy s c := by
  rw [entropy_merge hf]
  exact Finset.sum_le_sum fun i hi => mul_neg_log_le hi

/-- **No entropy is lost** just if no two places are merged. -/
theorem entropy_merge_eq_iff (hf : ∀ i ∈ s, f i ∈ t) (hc : ∀ i ∈ s, 0 < c i) :
    entropy t (merge s f c) = entropy s c ↔ Set.InjOn f s := by
  rw [entropy_merge hf, entropy, Finset.sum_eq_sum_iff_of_le fun i hi => mul_neg_log_le hi]
  constructor
  · intro hsame i hi j hj hfij
    have halone := (merge_eq_iff hc hi).mp ((mul_neg_log_eq_iff hi (hc i hi)).mp (hsame i hi))
    exact (halone j hj hfij.symm).symm
  · intro hinj i hi
    rw [mul_neg_log_eq_iff hi (hc i hi), merge_eq_iff hc hi]
    exact fun j hj hfj => hinj hj hi hfj

end Merge

end Sentrix
