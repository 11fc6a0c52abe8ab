import Sentrix.Features.RunningStats
import Sentrix.Features.Tumbling

/-!
# The entropy of a sketch

`approximate_entropy` of `features/online_stats.py` is the entropy of the first row of the
table. The items of a cell count as one there, so it is the entropy of the stream with some of
its items merged: never more than the entropy of the stream, and the same just if no two items
share a cell (`CountMinSketch.approximateEntropy_exact`). The comment of the function calls it
an upper bound, but it is a lower one. An entropy above a threshold is not an artefact of
collisions, while they may hide one.

An item is anything that has a text, and is hashed by it. The arithmetic is that of the reals.
-/

namespace Sentrix

namespace CountMinSketch

variable {α : Type*} [DecidableEq α]

/-! ### Streams -/

/-- The items of a stream. -/
def items (stream : List (α × ℕ)) : Finset α := (stream.map Prod.fst).toFinset

/-- The count of an item. -/
def countOf (stream : List (α × ℕ)) (item : α) : ℕ :=
  ((stream.filter fun a => decide (a.1 = item)).map Prod.snd).sum

/-- The relative frequency of an item. -/
noncomputable def frequency (stream : List (α × ℕ)) (item : α) : ℝ :=
  countOf stream item / (stream.map Prod.snd).sum

/-- The Shannon entropy of the frequencies, in bits. -/
noncomputable def shannonEntropy (stream : List (α × ℕ)) : ℝ :=
  ∑ item ∈ items stream, -(frequency stream item * Real.logb 2 (frequency stream item))

omit [DecidableEq α] in
/-- The stream as it is hashed. -/
def texts (str : α → String) (stream : List (α × ℕ)) : List (String × ℕ) :=
  stream.map fun a => (str a.1, a.2)

variable {stream : List (α × ℕ)}

theorem countOf_cons (a : α × ℕ) (item : α) :
    countOf (a :: stream) item = (if a.1 = item then a.2 else 0) + countOf stream item := by
  unfold countOf
  rw [List.filter_cons]
  by_cases ha : a.1 = item
  · rw [if_pos (decide_eq_true ha), if_pos ha, List.map_cons, List.sum_cons]
  · rw [if_neg (by rwa [decide_eq_true_eq]), if_neg ha, Nat.zero_add]

/-- Everything in a stream is counted for one of its items. -/
theorem sum_countOf {t : Finset α} (ht : ∀ a ∈ stream, a.1 ∈ t) :
    ∑ item ∈ t, countOf stream item = (stream.map Prod.snd).sum := by
  induction stream with
  | nil => exact Finset.sum_eq_zero fun item _ => rfl
  | cons a stream ih =>
    rw [List.forall_mem_cons] at ht
    simp only [countOf_cons]
    rw [Finset.sum_add_distrib, ih ht.2, Finset.sum_ite_eq, if_pos ht.1, List.map_cons,
      List.sum_cons]

theorem mem_items {item : α} : item ∈ items stream ↔ ∃ a ∈ stream, a.1 = item := by
  rw [items, List.mem_toFinset, List.mem_map]

/-- The total of a stream is that of its items. -/
theorem sum_items_countOf :
    ∑ item ∈ items stream, countOf stream item = (stream.map Prod.snd).sum :=
  sum_countOf fun a ha => mem_items.mpr ⟨a, ha, rfl⟩

/-- An item of a stream without empty counts has a count. -/
theorem countOf_pos (hpos : ∀ a ∈ stream, 0 < a.2) {item : α} (hitem : item ∈ items stream) :
    0 < countOf stream item := by
  obtain ⟨a, ha, rfl⟩ := mem_items.mp hitem
  have hcounted : a.2 ∈ (stream.filter fun b => decide (b.1 = a.1)).map Prod.snd :=
    List.mem_map_of_mem (List.mem_filter.mpr ⟨ha, decide_eq_true rfl⟩)
  exact (hpos a ha).trans_le (List.single_le_sum (fun _ _ => Nat.zero_le _) _ hcounted)

/-- The entropy of a stream is that of the counts of its items. -/
theorem shannonEntropy_eq (stream : List (α × ℕ)) :
    shannonEntropy stream = entropy (items stream) (countOf stream) / Real.log 2 := by
  unfold shannonEntropy entropy
  rw [Finset.sum_div, sum_items_countOf]
  refine Finset.sum_congr rfl fun item _ => ?_
  show -(frequency stream item * (Real.log (frequency stream item) / Real.log 2)) =
    Real.negMulLog (frequency stream item) / Real.log 2
  rw [Real.negMulLog, ← mul_div_assoc, ← neg_div, neg_mul]

/-- A part of a stream that is told by its items. -/
theorem sum_filter_countOf (p : α → Prop) [DecidablePred p] :
    ∑ item ∈ items stream with p item, countOf stream item =
      ((stream.filter fun a => decide (p a.1)).map Prod.snd).sum := by
  -- the part counts its items as the stream does
  have hpart : ∀ item ∈ (items stream).filter p,
      countOf stream item = countOf (stream.filter fun a => decide (p a.1)) item := by
    intro item hitem
    have hp : p item := (Finset.mem_filter.mp hitem).2
    unfold countOf
    rw [List.filter_filter]
    congr 2
    apply List.filter_congr
    intro a _
    by_cases ha : a.1 = item
    · rw [ha, decide_eq_true hp, Bool.and_true]
    · rw [decide_eq_false ha, Bool.false_and]
  rw [Finset.sum_congr rfl hpart]
  apply sum_countOf
  intro a ha
  obtain ⟨hmem, hp⟩ := List.mem_filter.mp ha
  exact Finset.mem_filter.mpr ⟨mem_items.mpr ⟨a, hmem, rfl⟩, of_decide_eq_true hp⟩

/-! ### The first row -/

omit [DecidableEq α] in
theorem total_texts (str : α → String) (stream : List (α × ℕ)) :
    total (texts str stream) = (stream.map Prod.snd).sum := by
  rw [total, texts, List.map_map]
  rfl

variable (hash : SketchHash) (str : α → String) {width depth : ℕ}

/-- The cell of an item in the first row. -/
def cell (width : ℕ) (item : α) : ℕ := hash 0 (str item) % width

/-- A cell counts the items that are merged in it. -/
theorem cellCount_texts (column : ℕ) :
    cellCount hash width 0 column (texts str stream) =
      merge (items stream) (cell hash str width) (countOf stream) column := by
  rw [merge, sum_filter_countOf fun item => cell hash str width item = column, cellCount, texts,
    List.filter_map]
  exact total_texts str _

omit [DecidableEq α] in
theorem cell_mem_range (hwidth : 0 < width) (item : α) :
    cell hash str width item ∈ Finset.range width :=
  Finset.mem_range.mpr (Nat.mod_lt _ hwidth)

/-- The first row of a sketch holds the merged counts. -/
theorem head?_table_run (hdepth : 1 ≤ depth) (stream : List (α × ℕ)) :
    (run hash width depth (texts str stream)).table.head? = some ((List.range width).map
      (merge (items stream) (cell hash str width) (countOf stream))) := by
  obtain ⟨rows, rfl⟩ := Nat.exists_eq_add_of_le' hdepth
  rw [(run_of hash width (rows + 1) (texts str stream)).table, List.range_succ_eq_map,
    List.map_cons, List.head?_cons]
  exact congrArg some (List.map_congr_left fun column _ => cellCount_texts hash str column)

/-- The entropy of a sketch is that of the merged counts. -/
theorem approximateEntropy_run (hwidth : 0 < width) (hdepth : 1 ≤ depth)
    (stream : List (α × ℕ)) :
    (run hash width depth (texts str stream)).approximateEntropy FeatureScheduler.realMath =
      entropy (Finset.range width)
        (merge (items stream) (cell hash str width) (countOf stream)) / Real.log 2 := by
  have htotal : (run hash width depth (texts str stream)).totalCount = ∑ column ∈
      Finset.range width, merge (items stream) (cell hash str width) (countOf stream) column := by
    rw [(run_of hash width depth (texts str stream)).totalCount, total_texts,
      sum_merge fun item _ => cell_mem_range hash str hwidth item, sum_items_countOf]
  by_cases hempty : (run hash width depth (texts str stream)).totalCount = 0
  · -- without counts every share is a division by zero, which is zero
    have hzero : entropy (Finset.range width)
        (merge (items stream) (cell hash str width) (countOf stream)) = 0 := by
      refine Finset.sum_eq_zero fun column _ => ?_
      rw [← htotal, hempty, Nat.cast_zero, div_zero, Real.negMulLog_zero]
    rw [approximateEntropy, if_pos hempty, hzero, zero_div]
  · exact approximateEntropy_eq (fun _ _ => rfl) (head?_table_run hash str hdepth stream) htotal
      hempty

/-- **A sketch never has too much entropy.** After any stream the entropy of the sketch is not
negative and at most that of the stream, and it is the same just if no two items of the stream
share a cell of the first row. -/
theorem approximateEntropy_exact (hwidth : 0 < width) (hdepth : 1 ≤ depth)
    (stream : List (α × ℕ)) (hpos : ∀ a ∈ stream, 0 < a.2) :
    0 ≤ (run hash width depth (texts str stream)).approximateEntropy FeatureScheduler.realMath ∧
    (run hash width depth (texts str stream)).approximateEntropy FeatureScheduler.realMath ≤
      shannonEntropy stream ∧
    ((run hash width depth (texts str stream)).approximateEntropy FeatureScheduler.realMath =
        shannonEntropy stream ↔
      ∀ a ∈ stream, ∀ b ∈ stream,
        hash 0 (str a.1) % width = hash 0 (str b.1) % width → a.1 = b.1) := by
  have hlog : 0 < Real.log 2 := Real.log_pos one_lt_two
  have hcell : ∀ item ∈ items stream, cell hash str width item ∈ Finset.range width :=
    fun item _ => cell_mem_range hash str hwidth item
  rw [approximateEntropy_run hash str hwidth hdepth, shannonEntropy_eq]
  refine ⟨div_nonneg (entropy_nonneg _ _) hlog.le, ?_, ?_⟩
  · exact div_le_div_of_nonneg_right (entropy_merge_le hcell _) hlog.le
  · rw [div_left_inj' hlog.ne', entropy_merge_eq_iff hcell fun item => countOf_pos hpos]
    -- the items of the stream are those of its entries
    constructor
    · intro hinj a ha b hb hab
      exact hinj (mem_items.mpr ⟨a, ha, rfl⟩) (mem_items.mpr ⟨b, hb, rfl⟩) hab
    · intro halone item hitem item' hitem' hsame
      obtain ⟨a, ha, rfl⟩ := mem_items.mp hitem
      obtain ⟨b, hb, rfl⟩ := mem_items.mp hitem'
      exact halone a ha b hb hsame

/-- Two addresses in cells of their own: the sketch has the entropy of the stream. -/
theorem approximateEntropy_exact_apart :
    (run FeatureScheduler.sampleHash 256 4
        (texts id [("10.0.0.1", 1), ("10.0.0.3", 1)])).approximateEntropy
      FeatureScheduler.realMath = shannonEntropy [("10.0.0.1", 1), ("10.0.0.3", 1)] := by
  have hpos : ∀ a ∈ [("10.0.0.1", 1), ("10.0.0.3", 1)], 0 < a.2 := by decide
  refine (approximateEntropy_exact FeatureScheduler.sampleHash id (by decide : 0 < 256)
    (by decide : 1 ≤ 4) [("10.0.0.1", 1), ("10.0.0.3", 1)] hpos).2.2.mpr ?_
  decide

end CountMinSketch

end Sentrix
