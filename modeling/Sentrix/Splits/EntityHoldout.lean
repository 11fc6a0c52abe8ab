import Mathlib.Data.List.Dedup
import Sentrix.Datasource.ReplayTelemetry
import Sentrix.Lib.Lists

/-!
# Hold-out splits

`data/splits/generate_splits.py`. `generate_entity_holdout_splits` holds out some of the
entities for the test split, and splits the records of the others chronologically into train
and validation with the ratios 0.8 and 0.2. `generate_chronological_splits` rounds both ratios
down and answers what is left as a third part, which the caller throws away. There is
something left unless the number of records is a multiple of five, and then the newest record
is in no split (`keepsAll_iff`). The entities are kept apart, and the order of time between
train and validation is kept, in any case.

Timestamps and ratios are exact. What `random.shuffle` makes of the distinct entities is any
of their orders.
-/

namespace Sentrix

namespace GenerateSplits

variable {ρ ε : Type*}

/-- The three parts of a list of records. -/
structure Splits (ρ : Type*) where
  train : List ρ
  val : List ρ
  test : List ρ

namespace Splits

/-- The records a model sees before the test. -/
def trainVal (s : Splits ρ) : List ρ := s.train ++ s.val

/-- The records of all parts. -/
def all (s : Splits ρ) : List ρ := s.trainVal ++ s.test

end Splits

/-! ### Splits by time -/

/-- The records in order of time. -/
def sortedRecords (timestamp : ρ → ℚ) (records : List ρ) : List ρ :=
  records.mergeSort fun a b => decide (timestamp a ≤ timestamp b)

/-- `generate_chronological_splits`, for the timestamps of the records. -/
def generateChronologicalSplits (timestamp : ρ → ℚ) (records : List ρ)
    (trainRatio valRatio : ℚ) : Splits ρ :=
  let sorted := sortedRecords timestamp records
  let total : ℚ := sorted.length
  let trainEnd := ReplayTelemetry.toInt (total * trainRatio)
  let valEnd := trainEnd + ReplayTelemetry.toInt (total * valRatio)
  { train := slice sorted 0 trainEnd
    val := slice sorted trainEnd valEnd
    test := sliceFrom sorted valEnd }

theorem toInt_mul_div (n a b : ℕ) :
    ReplayTelemetry.toInt ((n : ℚ) * (a / b)) = ((n * a / b : ℕ) : ℤ) := by
  have hnonneg : (0 : ℚ) ≤ (n : ℚ) * (a / b) :=
    mul_nonneg n.cast_nonneg (div_nonneg a.cast_nonneg b.cast_nonneg)
  have hcast : (n : ℚ) * (a / b) = ((n * a : ℕ) : ℚ) / b := by
    push_cast
    exact (mul_div_assoc _ _ _).symm
  rw [ReplayTelemetry.toInt_eq_floor hnonneg, hcast, Rat.floor_natCast_div_natCast]
  rfl

section Chronological

variable (timestamp : ρ → ℚ) (records : List ρ)

theorem sortedRecords_perm : (sortedRecords timestamp records).Perm records :=
  List.mergeSort_perm _ _

theorem pairwise_sortedRecords :
    (sortedRecords timestamp records).Pairwise fun a b => timestamp a ≤ timestamp b := by
  apply pairwise_mergeSort_of_total
  · intro _ _ _
    exact le_trans
  · intro _ _
    exact le_total _ _

/-- The split of what is not held out. -/
def fourFifths : Splits ρ := generateChronologicalSplits timestamp records (4 / 5) (1 / 5)

/-- Where its validation part ends. -/
def valEnd (n : ℕ) : ℕ := n * 4 / 5 + n / 5

/-- Train and validation are the beginning of the records in order of time, cut in two. -/
theorem fourFifths_eq :
    (fourFifths timestamp records).train =
        ((sortedRecords timestamp records).take (valEnd records.length)).take
          (records.length * 4 / 5) ∧
      (fourFifths timestamp records).val =
        ((sortedRecords timestamp records).take (valEnd records.length)).drop
          (records.length * 4 / 5) := by
  have htrain : ReplayTelemetry.toInt ((records.length : ℚ) * (4 / 5)) =
      ((records.length * 4 / 5 : ℕ) : ℤ) := by
    exact_mod_cast toInt_mul_div records.length 4 5
  have hval : ReplayTelemetry.toInt ((records.length : ℚ) * (1 / 5)) =
      ((records.length / 5 : ℕ) : ℤ) := by
    have h := toInt_mul_div records.length 1 5
    rw [Nat.mul_one] at h
    exact_mod_cast h
  have hlength : (sortedRecords timestamp records).length = records.length :=
    (sortedRecords_perm timestamp records).length_eq
  have hle : records.length * 4 / 5 ≤ valEnd records.length := Nat.le_add_right _ _
  unfold fourFifths generateChronologicalSplits
  -- the bounds count from the front, for they are not negative
  simp only [hlength, htrain, hval]
  constructor
  · rw [List.take_take, min_eq_left hle]
    exact slice_zero_natCast _ _
  · rw [← Nat.cast_add]
    exact slice_natCast _ _ _

/-- Both parts together. -/
theorem trainVal_fourFifths :
    (fourFifths timestamp records).trainVal =
      (sortedRecords timestamp records).take (valEnd records.length) := by
  obtain ⟨htrain, hval⟩ := fourFifths_eq timestamp records
  rw [Splits.trainVal, htrain, hval, List.take_append_drop]

/-- The rounding leaves nothing just if the number of records is a multiple of five. -/
theorem le_valEnd_iff (n : ℕ) : n ≤ valEnd n ↔ 5 ∣ n := by
  unfold valEnd
  omega

variable {timestamp records}

theorem trainVal_fourFifths_perm_iff :
    (fourFifths timestamp records).trainVal.Perm records ↔ 5 ∣ records.length := by
  have hlength : (sortedRecords timestamp records).length = records.length :=
    (sortedRecords_perm timestamp records).length_eq
  rw [trainVal_fourFifths, ← le_valEnd_iff]
  constructor
  · -- what lies behind the end of the validation part is in neither
    intro hperm
    have htake := hperm.length_eq
    rw [List.length_take, hlength] at htake
    exact min_eq_right_iff.mp htake
  · intro hle
    rw [List.take_of_length_le (hlength.le.trans hle)]
    exact sortedRecords_perm timestamp records

theorem mem_of_mem_fourFifths {r : ρ} (hr : r ∈ (fourFifths timestamp records).trainVal) :
    r ∈ records := by
  rw [trainVal_fourFifths] at hr
  exact (sortedRecords_perm timestamp records).mem_iff.mp (List.mem_of_mem_take hr)

/-- Train is not later than validation. -/
theorem train_le_val {a b : ρ} (ha : a ∈ (fourFifths timestamp records).train)
    (hb : b ∈ (fourFifths timestamp records).val) : timestamp a ≤ timestamp b := by
  obtain ⟨htrain, hval⟩ := fourFifths_eq timestamp records
  rw [htrain] at ha
  rw [hval] at hb
  have hfront := (pairwise_sortedRecords timestamp records).sublist
    (List.take_sublist (valEnd records.length) _)
  -- a sorted list, cut in two
  rw [← List.take_append_drop (records.length * 4 / 5) (List.take _ _)] at hfront
  exact (List.pairwise_append.mp hfront).2.2 a ha b hb

end Chronological

/-! ### Splits by entity -/

variable [DecidableEq ε]

/-- An outcome of shuffling the distinct entities of the records; what is no entity, or a false
one, is left out. -/
structure EntityShuffle (entity : ρ → Option ε) (truthy : ε → Bool) (records : List ρ) where
  uniqueEntities : List ε
  perm : uniqueEntities.Perm ((records.filterMap entity).filter truthy).dedup

/-- `holdout_entities`. -/
def holdoutEntities (uniqueEntities : List ε) (holdoutRatio : ℚ) : List ε :=
  let holdoutCount := max 1 (ReplayTelemetry.toInt (uniqueEntities.length * holdoutRatio))
  slice uniqueEntities 0 holdoutCount

/-- Whether the entity of a record is held out. -/
def isHeldOut (entity : ρ → Option ε) (holdout : List ε) (r : ρ) : Bool :=
  match entity r with
  | none => false
  | some e => decide (e ∈ holdout)

/-- `generate_entity_holdout_splits`, after the shuffle. -/
def generateEntityHoldoutSplits (entity : ρ → Option ε) (timestamp : ρ → ℚ)
    (holdoutRatio : ℚ) (uniqueEntities : List ε) (records : List ρ) : Splits ρ :=
  let holdout := holdoutEntities uniqueEntities holdoutRatio
  let trainVal := records.filter fun r => !isHeldOut entity holdout r
  let splits := generateChronologicalSplits timestamp trainVal (4 / 5) (1 / 5)
  { train := splits.train
    val := splits.val
    test := records.filter (isHeldOut entity holdout) }

/-- No record is lost, no entity of the test split occurs elsewhere, and train is not later
than validation. -/
structure KeepsAll (entity : ρ → Option ε) (timestamp : ρ → ℚ) (records : List ρ)
    (splits : Splits ρ) : Prop where
  perm : splits.all.Perm records
  apart : ∀ a ∈ splits.test, ∀ b ∈ splits.trainVal, entity a ≠ entity b
  ordered : ∀ a ∈ splits.train, ∀ b ∈ splits.val, timestamp a ≤ timestamp b

theorem isHeldOut_congr {entity : ρ → Option ε} {holdout : List ε} {a b : ρ}
    (h : entity a = entity b) : isHeldOut entity holdout a = isHeldOut entity holdout b := by
  unfold isHeldOut
  rw [h]

section Holdout

variable (entity : ρ → Option ε) (timestamp : ρ → ℚ) (holdoutRatio : ℚ)
  (uniqueEntities : List ε) (records : List ρ)

/-- The splits are all records just if those that are not held out can be split. -/
theorem entityHoldoutSplits_perm_iff :
    (generateEntityHoldoutSplits entity timestamp holdoutRatio uniqueEntities
        records).all.Perm records ↔
      5 ∣ records.countP fun r =>
        !isHeldOut entity (holdoutEntities uniqueEntities holdoutRatio) r := by
  set heldOut := isHeldOut entity (holdoutEntities uniqueEntities holdoutRatio) with hheldOut
  -- the held-out records are all in the test part, so the others decide
  have hwhole : ((records.filter fun r => !heldOut r) ++ records.filter heldOut).Perm records :=
    List.perm_append_comm.trans (List.filter_append_perm _ records)
  rw [List.countP_eq_length_filter, ← trainVal_fourFifths_perm_iff]
  constructor
  · intro hperm
    exact (List.perm_append_right_iff (records.filter heldOut)).mp (hperm.trans hwhole.symm)
  · intro hperm
    exact (hperm.append_right (records.filter heldOut)).trans hwhole

/-- The entities of the test split are in no other. -/
theorem entityHoldoutSplits_apart :
    ∀ a ∈ (generateEntityHoldoutSplits entity timestamp holdoutRatio uniqueEntities
        records).test,
      ∀ b ∈ (generateEntityHoldoutSplits entity timestamp holdoutRatio uniqueEntities
        records).trainVal, entity a ≠ entity b := by
  intro a ha b hb hentity
  -- the test only looks at the entity
  have hheld := (List.mem_filter.mp ha).2
  have hfree := (List.mem_filter.mp (mem_of_mem_fourFifths hb)).2
  rw [← isHeldOut_congr hentity, hheld] at hfree
  exact Bool.false_ne_true hfree

end Holdout

/-- **When no record is lost.** The splits keep every record, the entities apart and the order
of time if and only if the number of records whose entity is not held out is a multiple of
five. -/
theorem keepsAll_iff (entity : ρ → Option ε) (timestamp : ρ → ℚ) (truthy : ε → Bool)
    (records : List ρ) (holdoutRatio : ℚ) (shuffle : EntityShuffle entity truthy records) :
    KeepsAll entity timestamp records (generateEntityHoldoutSplits entity timestamp holdoutRatio
        shuffle.uniqueEntities records) ↔
      5 ∣ records.countP fun r =>
        !isHeldOut entity (holdoutEntities shuffle.uniqueEntities holdoutRatio) r := by
  rw [← entityHoldoutSplits_perm_iff entity timestamp holdoutRatio]
  constructor
  · intro hkeeps
    exact hkeeps.perm
  · -- apartness and order hold in any case
    intro hperm
    refine ⟨hperm, entityHoldoutSplits_apart entity timestamp holdoutRatio _ records, ?_⟩
    intro a ha b hb
    exact train_le_val ha hb

/-! ### Two hosts -/

/-- One record of each of two hosts. -/
def twoHosts : List (String × ℚ) := [("10.0.0.1", 1600000000), ("10.0.0.2", 1600000001)]

/-- The two hosts, in the order of their records. -/
def twoHostsShuffle :
    EntityShuffle (fun r : String × ℚ => some r.1) (fun e => decide (e ≠ "")) twoHosts :=
  ⟨["10.0.0.1", "10.0.0.2"], by rfl⟩

/-- One host is held out, and the record of the other is in no split. -/
theorem twoHosts_not_keepsAll :
    ¬ KeepsAll (fun r : String × ℚ => some r.1) Prod.snd twoHosts
      (generateEntityHoldoutSplits (fun r => some r.1) Prod.snd (1 / 5)
        twoHostsShuffle.uniqueEntities twoHosts) := by
  intro hkeeps
  have hfive := (entityHoldoutSplits_perm_iff _ _ _ _ _).mp hkeeps.perm
  exact absurd hfive (by decide +kernel)

end GenerateSplits

end Sentrix
