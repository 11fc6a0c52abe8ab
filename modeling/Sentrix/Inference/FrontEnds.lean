import Sentrix.Lib.Lists
import Sentrix.Inference.Onnx

/-!
# Anomaly detectors through the two front ends

An isolation forest or a one-class SVM exported to ONNX has two outputs, labels
in `{-1, 1}` and decision scores. The engine's methods report the label. The
worker's `predict_batch` sees two outputs, takes them for a classifier's and
marks a row when its *score* exceeds one half, whatever the label says. The two
agree on a batch exactly when, row by row, the score happens to say what the
label says (`frontEnds_agree_iff`); a negative decision score, the usual one of
an outlier, never does (`outlier_not_marked`).
-/

namespace Sentrix

/-- A row-wise anomaly detector: a label and a row of scores for each input. -/
structure AnomalyDetector where
  label : List ℚ → ℤ
  scores : List ℚ → List ℚ
  scores_ne_nil : ∀ v, scores v ≠ []

/-- How an output array is laid out: `n` elements, or `n` rows. -/
inductive Layout
  | oneAxis
  | twoAxes

namespace AnomalyDetector

/-- The label output for a batch. -/
def labelOutput (d : AnomalyDetector) : Layout → List (List ℚ) → Output ℚ
  | .oneAxis, X => .labels (X.map d.label)
  | .twoAxes, X => .labelRows (X.map fun v => [d.label v])

/-- The score output for a batch. -/
def scoreOutput (d : AnomalyDetector) : Layout → List (List ℚ) → Output ℚ
  | .oneAxis, X => .scores (X.map fun v => (d.scores v).head (d.scores_ne_nil v))
  | .twoAxes, X => .scoreRows (X.map d.scores)

/-- The two-output session of a detector. -/
def session (d : AnomalyDetector) (labels scores : Layout) : OnnxSession ℚ where
  run X := some [d.labelOutput labels X, d.scoreOutput scores X]

/-- The score `predict_batch` reads off a score row: the second, or the only one. -/
def decisive (d : AnomalyDetector) (v : List ℚ) : ℚ :=
  (d.scores v).getD (if (d.scores v).length > 1 then 1 else 0) 0

theorem rowScore_scores (d : AnomalyDetector) (v : List ℚ) :
    rowScore (d.scores v) = some (d.decisive v) := by
  unfold rowScore decisive
  have hpos : 0 < (d.scores v).length := List.length_pos_iff.mpr (d.scores_ne_nil v)
  split
  · next h => simp [List.getD_eq_getElem?_getD, List.getElem?_eq_getElem h]
  · simp [List.getD_eq_getElem?_getD, List.getElem?_eq_getElem hpos]

end AnomalyDetector

/-! ### What the engine reports -/

section Engine

variable (np : Numpy ℚ) (d : AnomalyDetector) (labels scores : Layout)

/-- The label read off the outputs for one row is the row's label. -/
theorem predictLabel_session (row : List ℚ) :
    predictLabel np (some (d.session labels scores)) row =
      some (d.label (row.map np.round32)) := by
  cases labels <;> rfl

theorem firstScore_scoreOutput (v : List ℚ) :
    firstScore (d.scoreOutput scores [v]) = some ((d.scores v).head (d.scores_ne_nil v)) := by
  -- the engine takes the first score of the row, not the decisive one
  cases scores with
  | oneAxis => rfl
  | twoAxes =>
    show (d.scores v)[0]? = _
    rw [← List.head?_eq_getElem?]
    exact List.head?_eq_some_head (d.scores_ne_nil v)

theorem predictBeaconing_session (cv meanIat : ℚ) :
    (predictBeaconing np (some (d.session labels scores)) cv meanIat).map Prod.fst =
      some (d.label ([cv, meanIat].map np.round32)) := by
  -- in either layout the first label is the row's
  have hlabel : firstLabel (d.labelOutput labels [[cv, meanIat].map np.round32]) =
      some (d.label ([cv, meanIat].map np.round32)) := by
    cases labels <;> rfl
  have hscore := firstScore_scoreOutput d scores ([cv, meanIat].map np.round32)
  have hrun : runRow np (d.session labels scores) [cv, meanIat] =
      some [d.labelOutput labels [[cv, meanIat].map np.round32],
        d.scoreOutput scores [[cv, meanIat].map np.round32]] := rfl
  unfold predictBeaconing
  simp only [hrun, Option.bind_eq_bind, Option.bind_some, List.getElem?_cons_zero,
    List.getElem?_cons_succ, hlabel, hscore]
  rfl

end Engine

/-! ### What the worker marks -/

section Manager

variable (np : Numpy ℚ) (d : AnomalyDetector) (labels : Layout)

/-- A batch of float rows as the worker receives it. -/
def floatBatch (rows : List (List ℚ)) : List (List Value) := rows.map fun row => row.map .num

theorem array_floatBatch (rows : List (List ℚ)) :
    np.array (floatBatch rows) = some (rows.map fun row => row.map np.round32) := by
  unfold Numpy.array floatBatch
  rw [List.mapM_map]
  refine mapM_eq_some_of_forall fun row _ => ?_
  show (row.map Value.num).mapM np.float32 = some (row.map np.round32)
  rw [List.mapM_map]
  exact mapM_eq_some_of_forall fun q _ => rfl

/-- `predict_batch` marks row `i` of a batch as anomalous. -/
def Marks (sess : OnnxSession ℚ) (rows : List (List ℚ)) (i : ℕ) : Prop :=
  (predictBatch np (some sess) (floatBatch rows)).results[i]?.map Prod.snd = some true

/-- With two-axis scores the worker reads the decisive score of each row. -/
theorem marks_twoAxes (rows : List (List ℚ)) (i : ℕ) :
    Marks np (d.session labels .twoAxes) rows i ↔
      ∃ row, rows[i]? = some row ∧ d.decisive (row.map np.round32) > 1 / 2 := by
  have hread : readOutputs [d.labelOutput labels (rows.map fun row => row.map np.round32),
      d.scoreOutput .twoAxes (rows.map fun row => row.map np.round32)] =
      some (rows.map fun row => (d.decisive (row.map np.round32),
        decide (d.decisive (row.map np.round32) > 1 / 2))) := by
    -- two outputs: the second is read as rows of probabilities
    show List.mapM _ (List.map Element.floats (List.map d.scores _)) = _
    rw [List.map_map, List.map_map, List.mapM_map]
    refine mapM_eq_some_of_forall fun row _ => ?_
    show (rowScore (d.scores (row.map np.round32))).map _ = _
    rw [d.rowScore_scores]
    rfl
  have hbatch : predictBatch np (some (d.session labels .twoAxes)) (floatBatch rows) =
      ⟨rows.map fun row => (d.decisive (row.map np.round32),
        decide (d.decisive (row.map np.round32) > 1 / 2)), false⟩ := by
    unfold predictBatch
    rw [array_floatBatch]
    simp only [Option.bind_some, AnomalyDetector.session, hread]
  unfold Marks
  rw [hbatch]
  -- outside the batch there is neither a result nor a row
  cases hrow : rows[i]? with
  | none => simp [hrow]
  | some row => simp [hrow]

/-- With one-axis scores the worker's reading raises, and nothing is marked. -/
theorem not_marks_oneAxis (rows : List (List ℚ)) (i : ℕ) :
    ¬ Marks np (d.session labels .oneAxis) rows i := by
  unfold Marks
  cases rows with
  | nil => simp [predictBatch, floatBatch, Numpy.array, AnomalyDetector.session,
      AnomalyDetector.scoreOutput, readOutputs, Output.elements]
  | cons row rows =>
    have hread : readOutputs
        [d.labelOutput labels ((row :: rows).map fun row => row.map np.round32),
          d.scoreOutput .oneAxis ((row :: rows).map fun row => row.map np.round32)] = none := by
      -- `len` of a scalar raises, on the first row already
      refine mapM_eq_none_of_mem (x := Element.float
        ((d.scores (row.map np.round32)).head (d.scores_ne_nil _))) ?_ rfl
      exact List.mem_cons_self
    have hbatch : predictBatch np (some (d.session labels .oneAxis)) (floatBatch (row :: rows)) =
        ⟨List.replicate (floatBatch (row :: rows)).length (0, false), true⟩ := by
      unfold predictBatch
      rw [array_floatBatch]
      simp only [Option.bind_some, AnomalyDetector.session, hread]
    rw [hbatch, List.getElem?_replicate]
    split <;> simp

end Manager

/-! ### Agreement -/

/-- The score output says of the row what its label says, to a reader that
takes scores above one half for anomalies and cannot read one-axis scores. -/
def ScoreMatchesLabel (d : AnomalyDetector) (v : List ℚ) : Layout → Prop
  | .oneAxis => d.label v ≠ -1
  | .twoAxes => d.label v = -1 ↔ d.decisive v > 1 / 2

/-- **When the two front ends agree.** The engine's methods report the label of
the row they are given, and the worker marks exactly the rows labelled `-1` of a
batch if and only if the score output matches the label of every row. -/
theorem frontEnds_agree_iff (np : Numpy ℚ) (d : AnomalyDetector) (labels scores : Layout) :
    (∀ a b, predictReconIso np (some (d.session labels scores)) a b =
      some (d.label ([a, b].map np.round32))) ∧
    (∀ a b c, predictExfilIso np (some (d.session labels scores)) a b c =
      some (d.label ([a, b, c].map np.round32))) ∧
    (∀ cv meanIat, (predictBeaconing np (some (d.session labels scores)) cv meanIat).map Prod.fst =
      some (d.label ([cv, meanIat].map np.round32))) ∧
    ∀ rows : List (List ℚ),
      (∀ i row, rows[i]? = some row →
        (Marks np (d.session labels scores) rows i ↔ d.label (row.map np.round32) = -1)) ↔
      ∀ row ∈ rows, ScoreMatchesLabel d (row.map np.round32) scores := by
  refine ⟨fun a b => predictLabel_session np d labels scores [a, b],
    fun a b c => predictLabel_session np d labels scores [a, b, c],
    predictBeaconing_session np d labels scores, fun rows => ?_⟩
  cases scores with
  | oneAxis =>
    refine ⟨fun hagree row hrow => ?_, fun hmatch i row hrow => ?_⟩
    -- nothing is marked, so agreement leaves no row to be labelled `-1`
    · obtain ⟨i, hi⟩ := List.mem_iff_getElem?.mp hrow
      exact fun hlabel => not_marks_oneAxis np d labels rows i ((hagree i row hi).mpr hlabel)
    · have hlabel := hmatch row (List.mem_of_getElem? hrow)
      exact ⟨fun hm => absurd hm (not_marks_oneAxis np d labels rows i), fun h => absurd h hlabel⟩
  | twoAxes =>
    have hmarks : ∀ i row, rows[i]? = some row →
        (Marks np (d.session labels .twoAxes) rows i ↔
          d.decisive (row.map np.round32) > 1 / 2) := by
      intro i row hrow
      rw [marks_twoAxes, hrow]
      simp
    refine ⟨fun hagree row hrow => ?_, fun hmatch i row hrow => ?_⟩
    · obtain ⟨i, hi⟩ := List.mem_iff_getElem?.mp hrow
      exact (hagree i row hi).symm.trans (hmarks i row hi)
    · exact (hmarks i row hrow).trans (hmatch row (List.mem_of_getElem? hrow)).symm

/-- A detector that takes every row for an outlier at decision score `-1/5`. -/
def outlierDetector : AnomalyDetector where
  label _ := -1
  scores _ := [-1 / 5]
  scores_ne_nil _ := List.cons_ne_nil _ _

/-- **An outlier the worker does not mark.** The engine reports `-1` for the row,
the worker reads the decision score `-1/5` as a probability. -/
theorem outlier_not_marked :
    predictReconIso ⟨id, fun _ => none⟩ (some (outlierDetector.session .oneAxis .twoAxes)) 1 60 =
      some (-1) ∧
    ¬ Marks ⟨id, fun _ => none⟩ (outlierDetector.session .oneAxis .twoAxes) [[1, 60]] 0 ∧
    ¬ ∀ (np : Numpy ℚ) (d : AnomalyDetector) (labels scores : Layout) (rows : List (List ℚ)) (i : ℕ)
      (row : List ℚ), rows[i]? = some row →
      (Marks np (d.session labels scores) rows i ↔ d.label (row.map np.round32) = -1) := by
  have hmarks : ¬ Marks ⟨id, fun _ => none⟩ (outlierDetector.session .oneAxis .twoAxes)
      [[1, 60]] 0 := by
    unfold Marks
    decide +kernel
  refine ⟨rfl, hmarks, fun hall => hmarks ?_⟩
  exact (hall ⟨id, fun _ => none⟩ outlierDetector .oneAxis .twoAxes [[1, 60]] 0 [1, 60] rfl).mpr rfl

end Sentrix
