import Mathlib.Algebra.BigOperators.Group.Finset.Piecewise
import Mathlib.Algebra.Order.BigOperators.Group.List
import Mathlib.Data.List.GetD
import Mathlib.Order.Bounds.Basic
import Sentrix.Features.Beaconing
import Sentrix.Lib.Lists
import Sentrix.Lib.Samples

/-!
# What the online statistics compute

`Welford` of `features/online_stats.py` keeps the count, the mean and the sum of the squared
deviations of all values it was given (`Welford.run_exact`). `CountMinSketch` keeps, in each
cell of its table, the total of the items that hash to it (`CountMinSketch.Of`), so that no
row loses a count and what it answers for an item is never too small
(`CountMinSketch.get_exact`). In both the order in which things were added is forgotten.

The values are exact. A hash function into the columns is any function to the numbers,
reduced modulo the width; the counts that are added are not negative.
-/

namespace Sentrix

/-! ### Welford -/

namespace Welford

variable {K : Type} [Field K]

/-- The statistics after a list of values. -/
def run (xs : List K) : Welford K := xs.foldl update new

variable [CharZero K]

theorem run_of (xs : List K) : (run xs).Of xs := by
  induction xs using List.reverseRecOn with
  | nil => exact Of.new
  | append_singleton xs x ih =>
    have hrun : run (xs ++ [x]) = (run xs).update x := List.foldl_append
    rw [hrun]
    exact ih.update x

/-- The mean that is kept is the mean of the values; without values it is zero. -/
theorem mean_run (xs : List K) : (run xs).mean = Sentrix.mean xs := by
  cases xs with
  | nil =>
    -- a mean of no values is taken to be zero on both sides
    show (0 : K) = 0 / ((0 : ℕ) : K)
    exact (zero_div _).symm
  | cons x xs => exact (run_of (x :: xs)).mean_eq (List.cons_ne_nil x xs)

/-- The statistics are determined by the values, in whatever order. -/
theorem run_perm {xs ys : List K} (h : xs.Perm ys) : run xs = run ys := by
  have hcount : (run xs).count = (run ys).count := by
    rw [(run_of xs).count, (run_of ys).count, h.length_eq]
  have hmean : (run xs).mean = (run ys).mean := by
    rw [mean_run, mean_run, Sentrix.mean, Sentrix.mean, h.sum_eq, h.length_eq]
  have hsquares : (run xs).m2 = (run ys).m2 := by
    rw [(run_of xs).squares, (run_of ys).squares, hmean]
    exact (h.map _).sum_eq
  calc run xs = ⟨(run xs).count, (run xs).mean, (run xs).m2⟩ := rfl
    _ = ⟨(run ys).count, (run ys).mean, (run ys).m2⟩ := by rw [hcount, hmean, hsquares]
    _ = run ys := rfl

section Ordered

variable [LinearOrder K] [IsStrictOrderedRing K]

theorem m2_run_nonneg (xs : List K) : 0 ≤ (run xs).m2 := by
  rw [(run_of xs).squares]
  apply List.sum_nonneg
  intro y hy
  obtain ⟨x, -, rfl⟩ := List.mem_map.mp hy
  exact sq_nonneg _

theorem getVariance_run_nonneg (xs : List K) : 0 ≤ (run xs).getVariance := by
  unfold getVariance
  by_cases hfew : (run xs).count < 2
  · rw [if_pos hfew]
  · have hcount : (1 : K) ≤ (run xs).count := by
      exact_mod_cast Nat.le_of_succ_le (not_lt.mp hfew)
    rw [if_neg hfew]
    exact div_nonneg (m2_run_nonneg xs) (sub_nonneg.mpr hcount)

end Ordered

/-- **Welford's update is exact.** After any values the count is their number, the mean their
mean, and `m2` the sum of their squared deviations from it, which is not negative; the
variance is the sample variance, no root of a negative number is taken, and another order of
the values makes no difference. -/
theorem run_exact (xs : List ℚ) :
    (run xs).count = xs.length ∧
    (run xs).count * (run xs).mean = xs.sum ∧
    (run xs).m2 = (xs.map fun x => (x - (run xs).mean) ^ 2).sum ∧
    0 ≤ (run xs).m2 ∧
    0 ≤ (run xs).getVariance ∧
    (2 ≤ xs.length →
      (run xs).getVariance = (xs.map fun x => (x - xs.sum / xs.length) ^ 2).sum /
        (xs.length - 1)) ∧
    ∀ ys, ys.Perm xs →
      (run ys).mean = (run xs).mean ∧ (run ys).getVariance = (run xs).getVariance := by
  have hrun := run_of xs
  refine ⟨hrun.count, ?_, hrun.squares, m2_run_nonneg xs, getVariance_run_nonneg xs, ?_, ?_⟩
  · rw [mul_comm]
    exact hrun.total
  · intro htwo
    exact hrun.getVariance_eq htwo
  · intro ys hys
    rw [run_perm hys]
    exact ⟨rfl, rfl⟩

end Welford

/-! ### Count-Min sketch -/

namespace CountMinSketch

variable (hash : SketchHash)

/-- The sketch after a stream of items with their counts. -/
def run (width depth : ℕ) (stream : List (String × ℕ)) : CountMinSketch :=
  stream.foldl (fun s a => s.add hash a.1 a.2) (new width depth)

/-- The counts of a stream. -/
def total (stream : List (String × ℕ)) : ℕ := (stream.map Prod.snd).sum

/-- The count of an item. -/
def trueCount (item : String) (stream : List (String × ℕ)) : ℕ :=
  total (stream.filter fun a => decide (a.1 = item))

/-- The counts of the items that hash to a column in a row. -/
def cellCount (width i column : ℕ) (stream : List (String × ℕ)) : ℕ :=
  total (stream.filter fun a => decide (hash i a.1 % width = column))

/-- The counts of the items that share an item's cell in a row. -/
def sharedCount (width i : ℕ) (item : String) (stream : List (String × ℕ)) : ℕ :=
  cellCount hash width i (hash i item % width) stream

variable {width depth : ℕ}

theorem total_concat (stream : List (String × ℕ)) (a : String × ℕ) :
    total (stream ++ [a]) = total stream + a.2 := by
  rw [total, List.map_append, List.sum_append, List.map_singleton, List.sum_singleton]
  rfl

theorem cellCount_concat (i column : ℕ) (stream : List (String × ℕ)) (a : String × ℕ) :
    cellCount hash width i column (stream ++ [a]) =
      cellCount hash width i column stream + if hash i a.1 % width = column then a.2 else 0 := by
  unfold cellCount
  rw [List.filter_append]
  -- the item falls into this cell or into another of the row
  by_cases hcell : hash i a.1 % width = column
  · have hone : [a].filter (fun a => decide (hash i a.1 % width = column)) = [a] :=
      List.filter_eq_self.mpr fun b hb => by
        rw [List.mem_singleton.mp hb]
        exact decide_eq_true hcell
    rw [hone, total_concat, if_pos hcell]
  · have hnone : [a].filter (fun a => decide (hash i a.1 % width = column)) = [] :=
      List.filter_eq_nil_iff.mpr fun b hb => by
        rw [List.mem_singleton.mp hb, decide_eq_true_eq]
        exact hcell
    rw [hnone, List.append_nil, if_neg hcell, Nat.add_zero]

/-- A part of a stream counts at most what the stream counts. -/
theorem total_filter_le (p : String × ℕ → Bool) (stream : List (String × ℕ)) :
    total (stream.filter p) ≤ total stream :=
  (List.filter_sublist.map Prod.snd).sum_le_sum fun _ _ => Nat.zero_le _

/-- **The invariant of a sketch.** Each cell of the table holds the counts of the items that
hash to it. -/
structure Of (width depth : ℕ) (s : CountMinSketch) (stream : List (String × ℕ)) : Prop where
  width_eq : s.width = width
  depth_eq : s.depth = depth
  totalCount : s.totalCount = total stream
  table : s.table = (List.range depth).map fun i => (List.range width).map fun column =>
    cellCount hash width i column stream

theorem Of.new : Of hash width depth (new width depth) [] := by
  refine ⟨rfl, rfl, rfl, ?_⟩
  show List.replicate depth (List.replicate width 0) =
    (List.range depth).map fun _ => (List.range width).map fun _ => 0
  rw [List.map_const', List.map_const', List.length_range, List.length_range]

variable {hash}

/-- **One call of `add`.** -/
theorem Of.add {s : CountMinSketch} {stream : List (String × ℕ)}
    (hs : Of hash width depth s stream) (item : String) (count : ℕ) :
    Of hash width depth (s.add hash item count) (stream ++ [(item, count)]) := by
  refine ⟨hs.width_eq, hs.depth_eq, ?_, ?_⟩
  · rw [total_concat, ← hs.totalCount]
    rfl
  · show (s.table.mapIdx fun i row => row.modify (hash i item % s.width) (· + count)) = _
    rw [hs.table, hs.width_eq, mapIdx_map_range]
    refine List.map_congr_left fun i _ => ?_
    rw [modify_map_range]
    refine List.map_congr_left fun column _ => ?_
    -- one cell in each row takes the count
    rw [cellCount_concat]
    split
    · rfl
    · rfl

theorem run_of (hash : SketchHash) (width depth : ℕ) (stream : List (String × ℕ)) :
    Of hash width depth (run hash width depth stream) stream := by
  induction stream using List.reverseRecOn with
  | nil => exact Of.new hash
  | append_singleton stream a ih =>
    have hrun : run hash width depth (stream ++ [a]) =
        (run hash width depth stream).add hash a.1 a.2 := List.foldl_append
    rw [hrun]
    exact ih.add a.1 a.2

/-! #### Rows -/

/-- Every count is in one column of a row. -/
theorem sum_cellCount (hwidth : 0 < width) (i : ℕ) (stream : List (String × ℕ)) :
    ((List.range width).map fun column => cellCount hash width i column stream).sum =
      total stream := by
  show ∑ column ∈ Finset.range width, cellCount hash width i column stream = total stream
  induction stream using List.reverseRecOn with
  | nil => exact Finset.sum_eq_zero fun column _ => rfl
  | append_singleton stream a ih =>
    -- the count that is added is in exactly one column
    have hcolumn : hash i a.1 % width ∈ Finset.range width :=
      Finset.mem_range.mpr (Nat.mod_lt _ hwidth)
    simp only [cellCount_concat]
    rw [Finset.sum_add_distrib, ih, Finset.sum_ite_eq, if_pos hcolumn, total_concat]

/-- No row of a sketch loses a count. -/
theorem Of.sum_row {s : CountMinSketch} {stream : List (String × ℕ)} (hwidth : 0 < width)
    (hs : Of hash width depth s stream) : ∀ row ∈ s.table, row.sum = s.totalCount := by
  intro row hrow
  rw [hs.table] at hrow
  obtain ⟨i, -, rfl⟩ := List.mem_map.mp hrow
  rw [sum_cellCount hwidth, hs.totalCount]

/-! #### Estimates -/

/-- A search for the smallest element that starts at the top. -/
theorem isLeast_foldl_min {α : Type*} [LinearOrder α] [OrderTop α] {l : List α} (hl : l ≠ []) :
    IsLeast {c | c ∈ l} (l.foldl (fun m c => min m c) ⊤) := by
  induction l using List.reverseRecOn with
  | nil => exact absurd rfl hl
  | append_singleton l a ih =>
    have hset : {c | c ∈ l ++ [a]} = insert a {c | c ∈ l} := by
      ext c
      exact (List.mem_append.trans (or_congr_right List.mem_singleton)).trans or_comm
    rw [List.foldl_append, List.foldl_cons, List.foldl_nil, hset, min_comm]
    by_cases hempty : l = []
    · -- the search starts at the top, which is no element
      subst hempty
      have hnone : {c : α | c ∈ ([] : List α)} = ∅ := by
        ext c
        exact iff_of_false List.not_mem_nil (Set.notMem_empty c)
      rw [hnone, List.foldl_nil, inf_top_eq, insert_empty_eq]
      exact isLeast_singleton
    · exact (ih hempty).insert a

/-- **The estimate of an item** is the least of what shares its cells. -/
theorem Of.isLeast_get {s : CountMinSketch} {stream : List (String × ℕ)} (hwidth : 0 < width)
    (hdepth : 1 ≤ depth) (hs : Of hash width depth s stream) (item : String) :
    IsLeast {c : WithTop ℕ | ∃ i < depth, c = sharedCount hash width i item stream}
      (s.get hash item) := by
  -- the cells of the item, row by row, hold what shares them
  have hcells : (s.table.mapIdx fun i row =>
      ((row.getD (hash i item % s.width) 0 : ℕ) : WithTop ℕ)) =
        (List.range depth).map fun i => (sharedCount hash width i item stream : WithTop ℕ) := by
    rw [hs.table, hs.width_eq, mapIdx_map_range]
    refine List.map_congr_left fun i _ => ?_
    have hcolumn : hash i item % width < width := Nat.mod_lt _ hwidth
    rw [List.getD_eq_getElem _ _ (by rwa [List.length_map, List.length_range]),
      List.getElem_map, List.getElem_range]
    rfl
  have hne : ((List.range depth).map fun i =>
      (sharedCount hash width i item stream : WithTop ℕ)) ≠ [] := by
    rw [ne_eq, List.map_eq_nil_iff, List.range_eq_nil]
    exact Nat.one_le_iff_ne_zero.mp hdepth
  have hset : {c : WithTop ℕ | ∃ i < depth, c = sharedCount hash width i item stream} =
      {c | c ∈ (List.range depth).map fun i =>
        (sharedCount hash width i item stream : WithTop ℕ)} := by
    ext c
    exact ⟨fun ⟨i, hi, hc⟩ => List.mem_map.mpr ⟨i, List.mem_range.mpr hi, hc.symm⟩,
      fun hc => let ⟨i, hi, h⟩ := List.mem_map.mp hc; ⟨i, List.mem_range.mp hi, h.symm⟩⟩
  unfold get
  rw [hcells, hset]
  exact isLeast_foldl_min hne

/-- What shares a cell with an item counts at least what the item counts. -/
theorem trueCount_le_sharedCount (i : ℕ) (item : String) (stream : List (String × ℕ)) :
    trueCount item stream ≤ sharedCount hash width i item stream := by
  -- the item shares its own cell
  have hsub : stream.filter (fun a => decide (a.1 = item)) =
      (stream.filter fun a => decide (hash i a.1 % width = hash i item % width)).filter
        fun a => decide (a.1 = item) := by
    rw [List.filter_filter]
    apply List.filter_congr
    intro a _
    by_cases ha : a.1 = item
    · simp [ha]
    · simp [ha]
  rw [trueCount, hsub]
  exact total_filter_le _ _

theorem total_perm {stream stream' : List (String × ℕ)} (h : stream.Perm stream') :
    total stream = total stream' :=
  (h.map Prod.snd).sum_eq

/-- A sketch is determined by the totals of its cells. -/
theorem Of.eq {s : CountMinSketch} {stream : List (String × ℕ)}
    (hs : Of hash width depth s stream) :
    s = ⟨width, depth, (List.range depth).map fun i => (List.range width).map fun column =>
      cellCount hash width i column stream, total stream⟩ :=
  calc s = ⟨s.width, s.depth, s.table, s.totalCount⟩ := rfl
    _ = _ := by rw [hs.width_eq, hs.depth_eq, hs.table, hs.totalCount]

/-- The order of the stream is forgotten. -/
theorem run_perm {stream stream' : List (String × ℕ)} (h : stream.Perm stream') :
    run hash width depth stream = run hash width depth stream' := by
  have hcell (i column : ℕ) :
      cellCount hash width i column stream = cellCount hash width i column stream' :=
    total_perm (h.filter _)
  rw [(run_of hash width depth stream).eq, (run_of hash width depth stream').eq, total_perm h]
  simp only [hcell]

/-- **The sketch never undercounts.** After any stream each row of the table sums to
`total_count`, and the estimate of an item is the least, over the rows, of what the items
that share its cell count together; so it is at least the count of the item and at most the
total, in whatever order the stream came. -/
theorem get_exact (hash : SketchHash) {width depth : ℕ} (hwidth : 0 < width)
    (hdepth : 1 ≤ depth) (stream : List (String × ℕ)) :
    (∀ row ∈ (run hash width depth stream).table,
      row.sum = (run hash width depth stream).totalCount) ∧
    (run hash width depth stream).totalCount = total stream ∧
    ∀ item : String,
      IsLeast {c : WithTop ℕ | ∃ i < depth, c = sharedCount hash width i item stream}
        ((run hash width depth stream).get hash item) ∧
      trueCount item stream ≤ (run hash width depth stream).get hash item ∧
      (run hash width depth stream).get hash item ≤ total stream ∧
      ∀ stream', stream'.Perm stream →
        (run hash width depth stream').get hash item =
          (run hash width depth stream).get hash item := by
  have hs := run_of hash width depth stream
  refine ⟨hs.sum_row hwidth, hs.totalCount, fun item => ?_⟩
  have hleast := hs.isLeast_get hwidth hdepth item
  -- the estimate is some row's count, which holds the item's own count and no more than all
  obtain ⟨i, hi, hget⟩ := hleast.1
  refine ⟨hleast, ?_, ?_, ?_⟩
  · rw [hget]
    exact_mod_cast trueCount_le_sharedCount i item stream
  · rw [hget]
    exact_mod_cast total_filter_le _ stream
  · intro stream' hperm
    rw [run_perm hperm]

/-- Two items that collide in every row: the estimate of each is the total. -/
theorem get_exact_colliding :
    ((trueCount "ab" [("ab", 3), ("cd", 1)] : ℕ) : WithTop ℕ) ≤
        (run (fun seed item => seed + item.length) 4 2 [("ab", 3), ("cd", 1)]).get
          (fun seed item => seed + item.length) "ab" ∧
      (run (fun seed item => seed + item.length) 4 2 [("ab", 3), ("cd", 1)]).get
        (fun seed item => seed + item.length) "ab" ≤ total [("ab", 3), ("cd", 1)] := by
  have hget := (get_exact (fun seed item => seed + item.length) (by decide : 0 < 4)
    (by decide : 1 ≤ 2) [("ab", 3), ("cd", 1)]).2.2 "ab"
  exact ⟨hget.2.1, hget.2.2.1⟩

end CountMinSketch

end Sentrix
