import Sentrix.Lib.Lists
import Sentrix.Lib.Placeholders
import Sentrix.Models.Detectors

/-!
# Batched DDoS scoring

`predict_batch` of the DDoS detector repeats the rules of `predict` in a loop over the
vectors. A vector that a rule catches is answered at once. The others wait: the loop
leaves a placeholder, remembers the position, and collects the rows for one call of the
model, whose answers a second loop puts in place.

A model works on rows, so it answers the rows of one call as it would one after the other,
and the placeholders are filled in the order of the vectors (`foldlM_fill`). Both loops
together answer what `predict` answers to the vectors, with every model
(`predictBatch_eq`).
-/

namespace Sentrix

variable {K : Type} [Field K] [LinearOrder K]

/-- `BaseDetector.predict_batch`: one vector after the other. -/
def BaseDetector.predictBatch {φ ω : Type} (predict : φ → Option ω) (featureVectors : List φ) :
    Option (List ω) :=
  featureVectors.foldlM (fun results fv => (predict fv).map fun v => results ++ [v]) []

namespace DDoSDetector

/-- The state of the first loop. -/
structure BatchState (K : Type) where
  results : List (Option (Verdict K))
  mlBatchIndices : List ℕ
  mlBatchX : List (List K)

/-- The features a verdict reports. -/
def featuresUsed (fv : DdosVector K) : List (String × K) :=
  [("syn_synack_ratio", fv.synSynackRatio.getD 0), ("dst_pkt_ewma", fv.dstPktEwma.getD 0),
    ("amp_byte_ratio", fv.ampByteRatio.getD 0), ("src_ip_entropy", fv.srcIpEntropy.getD 0)]

variable (rt : Runtime K) (model : Option (PickledModel K))

/-- One turn of the first loop. -/
def triage (s : BatchState K) (x : DdosVector K × ℕ) : BatchState K :=
  let fv := x.1
  let synRatio := fv.synSynackRatio.getD 0
  let pktEwma := fv.dstPktEwma.getD 0
  let ampRatio := fv.ampByteRatio.getD 0
  let entropy := fv.srcIpEntropy.getD 0
  let byteEwma := fv.dstByteEwma.getD 0
  let featsUsed := [("syn_synack_ratio", synRatio), ("dst_pkt_ewma", pktEwma),
    ("amp_byte_ratio", ampRatio), ("src_ip_entropy", entropy)]
  let append (v : Option (Verdict K)) : BatchState K := { s with results := s.results ++ [v] }
  if pktEwma < 2 ∧ synRatio < 2 ∧ ampRatio < 5 ∧ entropy < 3 then
    append (some ⟨0, featsUsed, ""⟩)
  else if synRatio > 10 then
    append (some ⟨19 / 20, featsUsed, "High probability of SYN Flood: SYN to SYN-ACK ratio is " ++
      rt.fixed 1 synRatio ++ "x."⟩)
  else if ampRatio > 10 then
    append (some ⟨49 / 50, featsUsed,
      "UDP Reflection/Amplification Flood: Outbound-to-inbound byte " ++
      "amplification ratio is " ++ rt.fixed 1 ampRatio ++ "x."⟩)
  else if entropy > 3 ∧ (pktEwma > 5 ∨ byteEwma > 1000) then
    append (some ⟨23 / 25, featsUsed, "Spoofed IP Volumetric Flood: Source IP entropy is " ++
      rt.fixed 2 entropy ++ " bits."⟩)
  else
    match model with
    | some _ =>
      { mlBatchIndices := s.mlBatchIndices ++ [x.2]
        mlBatchX := s.mlBatchX ++ [[synRatio, pktEwma]]
        results := s.results ++ [none] }
    | none => append (some ⟨0, featsUsed, ""⟩)

/-- What the second loop makes of a row of probabilities. -/
def ofProbabilities (fv : DdosVector K) (prob : List K) : Option (Verdict K) :=
  (rowScore prob).map fun score => ⟨score, featuresUsed fv,
    if score > 1 / 2 then
      "LGBM classifier flagged flow with confidence " ++ rt.fixed 2 score ++ "." else ""⟩

/-- What the second loop makes of a label. -/
def ofLabel (fv : DdosVector K) (pred : ℤ) : Option (Verdict K) :=
  some ⟨if pred = -1 then 4 / 5 else 0, featuresUsed fv,
    if pred = -1 then "Isolation Forest detected volumetric anomaly." else ""⟩

/-- `predict_batch`; `none` is an exception. -/
def predictBatch (featureVectors : List (DdosVector K)) : Option (List (Option (Verdict K))) :=
  let s := featureVectors.zipIdx.foldl (triage rt model) ⟨[], [], []⟩
  match model with
  | none => some s.results
  | some m =>
    if s.mlBatchX = [] then some s.results
    else
      let x := s.mlBatchX.map rt.row
      match m.predictProba with
      | some proba => (s.mlBatchIndices.zip (x.map proba)).foldlM
          (fill featureVectors (ofProbabilities rt)) s.results
      | none => (s.mlBatchIndices.zip (x.map m.predict)).foldlM
          (fill featureVectors ofLabel) s.results

/-! ### The two loops -/

/-- The verdict of the rules; `none` for a vector that is left to the model. -/
def ruled (fv : DdosVector K) : Option (Verdict K) :=
  if fv.dstPktEwma.getD 0 < 2 ∧ fv.synSynackRatio.getD 0 < 2 ∧ fv.ampByteRatio.getD 0 < 5 ∧
      fv.srcIpEntropy.getD 0 < 3 then
    some ⟨0, featuresUsed fv, ""⟩
  else if fv.synSynackRatio.getD 0 > 10 then
    some ⟨19 / 20, featuresUsed fv, "High probability of SYN Flood: SYN to SYN-ACK ratio is " ++
      rt.fixed 1 (fv.synSynackRatio.getD 0) ++ "x."⟩
  else if fv.ampByteRatio.getD 0 > 10 then
    some ⟨49 / 50, featuresUsed fv,
      "UDP Reflection/Amplification Flood: Outbound-to-inbound byte " ++
      "amplification ratio is " ++ rt.fixed 1 (fv.ampByteRatio.getD 0) ++ "x."⟩
  else if fv.srcIpEntropy.getD 0 > 3 ∧
      (fv.dstPktEwma.getD 0 > 5 ∨ fv.dstByteEwma.getD 0 > 1000) then
    some ⟨23 / 25, featuresUsed fv, "Spoofed IP Volumetric Flood: Source IP entropy is " ++
      rt.fixed 2 (fv.srcIpEntropy.getD 0) ++ " bits."⟩
  else none

/-- The verdict of the first loop. -/
def first (fv : DdosVector K) : Option (Verdict K) :=
  (ruled rt fv).or (if model.isSome then none else some ⟨0, featuresUsed fv, ""⟩)

/-- The row of a vector. -/
def mlRow (fv : DdosVector K) : List K := [fv.synSynackRatio.getD 0, fv.dstPktEwma.getD 0]

/-- **One turn** of the first loop answers the vector, or queues it. -/
theorem triage_eq (s : BatchState K) (x : DdosVector K × ℕ) :
    triage rt model s x =
      { results := s.results ++ [first rt model x.1]
        mlBatchIndices := if (first rt model x.1).isNone then s.mlBatchIndices ++ [x.2]
          else s.mlBatchIndices
        mlBatchX := if (first rt model x.1).isNone then s.mlBatchX ++ [mlRow x.1]
          else s.mlBatchX } := by
  unfold triage first ruled
  dsimp only
  -- the rules are tried in one order
  split
  · rfl
  split
  · rfl
  split
  · rfl
  split
  · rfl
  -- no rule applies: the vector waits if there is a model
  cases model <;> rfl

/-- **After the first loop** the results are the verdicts it has, and the rows and the
positions are those of the vectors without one. -/
theorem foldl_triage (fvs : List (DdosVector K)) :
    fvs.zipIdx.foldl (triage rt model) ⟨[], [], []⟩ =
      { results := fvs.map (first rt model)
        mlBatchIndices := openAt (first rt model) fvs
        mlBatchX := (fvs.filter fun fv => (first rt model fv).isNone).map mlRow } := by
  induction fvs using List.reverseRecOn with
  | nil => rfl
  | append_singleton fvs fv ih =>
    rw [List.zipIdx_append, List.foldl_append, ih, Nat.zero_add]
    show triage rt model _ (fv, fvs.length) = _
    rw [triage_eq, openAt_concat, List.map_append, List.map_singleton, List.filter_append]
    dsimp only
    -- a vector without a first verdict is put off to the batch
    by_cases hfirst : (first rt model fv).isNone = true
    · have hkeep : [fv].filter (fun fv => (first rt model fv).isNone) = [fv] := by simp [hfirst]
      rw [if_pos hfirst, if_pos hfirst, hkeep, List.map_append, List.map_singleton]
    · have hdrop : [fv].filter (fun fv => (first rt model fv).isNone) = [] := by simp [hfirst]
      rw [if_neg hfirst, if_neg hfirst, hdrop, List.append_nil]

/-- The verdict of a model on one vector. -/
def ask (m : PickledModel K) (fv : DdosVector K) : Option (Verdict K) :=
  match m.predictProba with
  | some proba => ofProbabilities rt fv (proba (rt.row (mlRow fv)))
  | none => ofLabel fv (m.predict (rt.row (mlRow fv)))

/-- `predict` applies the same rules, and asks the same model. -/
theorem predict_eq (fv : DdosVector K) :
    predict rt model fv = (first rt model fv).or (model.bind fun m => ask rt m fv) := by
  unfold predict first ruled
  -- the quiet vector and the three rules are decided before the model is asked
  dsimp only
  split
  · rfl
  split
  · rfl
  split
  · rfl
  split
  · rfl
  cases model with
  | none => rfl
  | some m =>
    show _ = ask rt m fv
    unfold ask
    dsimp only
    cases m.predictProba with
    | some proba => rfl
    | none =>
      show (if m.predict (rt.row (mlRow fv)) = -1 then _ else _) = ofLabel fv _
      unfold ofLabel
      split
      · rfl
      · rfl

/-- The second loop puts the verdicts for the rows in place. It is left out if no row
waits, and would do nothing then. -/
theorem fill_rows {ρ : Type} (m : PickledModel K) (f : List K → ρ)
    (verdict : DdosVector K → ρ → Option (Verdict K)) (fvs : List (DdosVector K)) :
    (if (fvs.filter fun fv => (first rt (some m) fv).isNone).map mlRow = [] then
        some (fvs.map (first rt (some m)))
      else ((openAt (first rt (some m)) fvs).zip
          ((((fvs.filter fun fv => (first rt (some m) fv).isNone).map mlRow).map rt.row).map
            f)).foldlM (fill fvs verdict) (fvs.map (first rt (some m)))) =
      (fvs.mapM fun fv => (first rt (some m) fv).or (verdict fv (f (rt.row (mlRow fv))))).map
        (List.map some) := by
  rw [← foldlM_fill (first rt (some m)) (fun fv => f (rt.row (mlRow fv))) verdict fvs]
  split
  · -- nothing was put off, so no prediction is made
    next hnil =>
    rw [List.map_eq_nil_iff.mp hnil, List.map_nil, List.zip_nil_right]
    rfl
  · rw [List.map_map, List.map_map]
    rfl

theorem predictBatch_some (m : PickledModel K) (fvs : List (DdosVector K)) :
    predictBatch rt (some m) fvs = (fvs.mapM fun fv => (first rt (some m) fv).or (ask rt m fv)).map
      (List.map some) := by
  unfold predictBatch ask
  dsimp only
  rw [foldl_triage]
  dsimp only
  cases m.predictProba with
  | some proba => exact fill_rows rt m proba (ofProbabilities rt) fvs
  | none => exact fill_rows rt m m.predict ofLabel fvs

/-- Without a model, no vector waits. -/
theorem predictBatch_none (fvs : List (DdosVector K)) :
    predictBatch rt none fvs = some (fvs.map (first rt none)) := by
  unfold predictBatch
  dsimp only
  rw [foldl_triage]

end DDoSDetector

theorem BaseDetector.predictBatch_eq_mapM {φ ω : Type} (predict : φ → Option ω) (fvs : List φ) :
    predictBatch predict fvs = fvs.mapM predict := by
  induction fvs using List.reverseRecOn with
  | nil => rfl
  | append_singleton fvs fv ih =>
    unfold predictBatch at ih ⊢
    rw [List.foldlM_append, ih, mapM_concat]
    cases fvs.mapM predict with
    | none => rfl
    | some vs =>
      -- the next prediction may still raise
      show [fv].foldlM (fun results fv => (predict fv).map fun v => results ++ [v]) vs =
        (predict fv).map fun v => vs ++ [v]
      rw [List.foldlM_cons]
      cases predict fv <;> rfl

namespace DDoSDetector

/-- **Batched scoring is one-by-one scoring.** For every list of vectors, with any keys
missing, and every model, or none: `predict_batch` answers the list of what `predict`
answers to the vectors, in their order, and raises an exception where one of these does.
It answers what the base class would. -/
theorem predictBatch_eq (rt : Runtime K) (model : Option (PickledModel K))
    (fvs : List (DdosVector K)) :
    predictBatch rt model fvs = (fvs.mapM (predict rt model)).map (List.map some) ∧
      predictBatch rt model fvs =
        (BaseDetector.predictBatch (predict rt model) fvs).map (List.map some) := by
  have hmapM : predictBatch rt model fvs = (fvs.mapM (predict rt model)).map (List.map some) := by
    have hpredict : predict rt model =
        fun fv => (first rt model fv).or (model.bind fun m => ask rt m fv) := funext fun fv =>
      predict_eq rt model fv
    rw [hpredict]
    cases model with
    | some m => exact predictBatch_some rt m fvs
    | none =>
      -- without a model the first loop answers all
      have hfirst : ∀ fv, ∃ v, first rt none fv = some v := by
        intro fv
        unfold first
        cases ruled rt fv <;> exact ⟨_, rfl⟩
      choose verdict hverdict using hfirst
      have hall : (fvs.mapM fun fv => (first rt none fv).or none) = some (fvs.map verdict) := by
        refine mapM_eq_some_of_forall fun fv _ => ?_
        rw [Option.or_none, hverdict]
      rw [predictBatch_none]
      show _ = ((fvs.mapM fun fv => (first rt none fv).or none)).map (List.map some)
      rw [hall, Option.map_some, List.map_map]
      exact congrArg some (List.map_congr_left fun fv _ => hverdict fv)
  exact ⟨hmapM, by rw [hmapM, BaseDetector.predictBatch_eq_mapM]⟩

end DDoSDetector

end Sentrix
