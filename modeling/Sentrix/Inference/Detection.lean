import Sentrix.Lib.Lists
import Sentrix.Inference.Batching
import Sentrix.Ingest.FlowTracker

/-!
# What the worker detects

Three tables have to agree for the Kafka path to detect anything: the files the
models are loaded from, the widths these were exported with and the feature
vectors records are mapped to. This module says what follows from the tables as
they are.

For any table of widths, the worker stores an alert for exactly the records its
models flag, and never sees an inference error, if and only if every loaded
model that records are mapped for has the width of its mapping, or no record
arrives (`InferenceWorker.detects_iff_widths`). With the widths of `export_all`
no mapped model has, so what is left is a worker that has only the unmapped
model loaded (`InferenceWorker.worker_detects_iff`).
-/

namespace Sentrix

/-! ### Row-wise sessions -/

/-- A session that decides row by row, for rows of one width; a batch with any
other row makes it raise. -/
structure RowSession (width : Option ℕ) where
  session : OnnxSession ℚ
  decision : List ℚ → ℚ × Bool
  raises : ∀ X, (∃ row ∈ X, some row.length ≠ width) → session.run X = none
  answers : ∀ X, (∀ row ∈ X, some row.length = width) →
    (session.run X).bind readOutputs = some (X.map decision)

/-- An anomaly is read with a score above one half, whichever way it is read. -/
theorem score_of_readOutputs {outs : List (Output ℚ)} {results : List (ℚ × Bool)}
    (h : readOutputs outs = some results) {p : ℚ × Bool} (hp : p ∈ results) (hanom : p.2 = true) :
    p.1 > 1 / 2 := by
  match outs, h with
  | [labels], h =>
    -- labels: the score of an anomaly is one
    obtain ⟨l, -, hl⟩ := mem_of_mapM_eq_some h hp
    obtain ⟨b, -, rfl⟩ := Option.map_eq_some_iff.mp hl
    obtain rfl : b = true := hanom
    norm_num
  | _ :: probs :: _, h =>
    -- probabilities: an anomaly is a score above one half
    obtain ⟨q, -, hq⟩ := mem_of_mapM_eq_some h hp
    obtain ⟨x, -, rfl⟩ := Option.map_eq_some_iff.mp hq
    exact of_decide_eq_true hanom

namespace RowSession

variable {width : Option ℕ} (d : RowSession width)

/-- The vector is accepted and flagged. -/
def Flags (v : List ℚ) : Prop := some v.length = width ∧ (d.decision v).2 = true

instance (v : List ℚ) : Decidable (d.Flags v) := inferInstanceAs (Decidable (_ ∧ _))

theorem score_of_flagged {v : List ℚ} (hlen : some v.length = width)
    (hflag : (d.decision v).2 = true) : (d.decision v).1 > 1 / 2 := by
  have hans := d.answers [v] (by simpa using hlen)
  obtain ⟨outs, -, hread⟩ := Option.bind_eq_some_iff.mp hans
  exact score_of_readOutputs hread (by simp) hflag

end RowSession

/-! ### Well-formed records -/

/-- The lengths of the mapped feature vectors. -/
def featureCount : ModelName → Option ℕ
  | .ddos => some 8
  | .recon => some 5
  | .beaconing | .exfil | .encrypted => some 5
  | .dga => none

/-- A record as the ingestor publishes it. -/
def WellFormed (v : Value) : Prop := ∃ r : FeatureRecord, v = r.toJson

/-- A well-formed record is mapped to numbers, as many as the model's mapping has. -/
theorem extract_toJson (m : ModelName) (r : FeatureRecord) {n : ℕ} (hn : featureCount m = some n) :
    ∃ qs : List ℚ, extractFeaturesForModel m r.toJson = some (qs.map .num) ∧ qs.length = n := by
  cases m with
  | ddos =>
    cases hn
    exact ⟨[r.pktRate1s, r.byteRate1s, r.synRate1s, r.uniqueDstPorts1s.toNat, r.ipLen.toNat,
      r.tcpFlags.toNat, r.flowPktCount.toNat, r.flowByteCount.toNat],
      by simp [extractFeaturesForModel, Value.get, FeatureRecord.toJson, List.lookup_cons], rfl⟩
  | recon =>
    -- the port scan flag counts as a number
    cases hn
    exact ⟨[r.uniquePortsScanned.toNat, r.pktRate1s, if r.isPortScan then 1 else 0,
      r.flowDuration, r.tcpFlags.toNat],
      by simp [extractFeaturesForModel, Value.get, FeatureRecord.toJson, List.lookup_cons,
        Value.truthy], rfl⟩
  | beaconing | exfil | encrypted =>
    cases hn
    exact ⟨[r.flowDuration, r.flowPktCount.toNat, r.flowByteCount.toNat, r.byteRate1s, r.pktRate1s],
      by simp [extractFeaturesForModel, Value.get, FeatureRecord.toJson, List.lookup_cons], rfl⟩
  | dga => cases hn

namespace InferenceWorker

theorem featureCount_of_scored {m : ModelName} {r : Value} {feats : List Value}
    (h : scored m r = some feats) : featureCount m ≠ none := by
  cases m with
  | dga => cases h
  | _ => exact Option.some_ne_none _

/-- A mapped model scores every well-formed record. -/
theorem exists_scored {m : ModelName} {r : Value} (hr : WellFormed r) {n : ℕ}
    (hn : featureCount m = some n) (hpos : 0 < n) :
    ∃ qs : List ℚ, scored m r = some (qs.map .num) ∧ qs.length = n := by
  obtain ⟨r, rfl⟩ := hr
  obtain ⟨qs, hex, hlen⟩ := extract_toJson m r hn
  -- a mapping of positive length gives a non-empty list
  refine ⟨qs, scored_eq_some.mpr ⟨hex, ?_⟩, hlen⟩
  intro hnil
  have hzero : qs.length = 0 := by simpa using congrArg List.length hnil
  omega

theorem featureCount_pos {m : ModelName} {n : ℕ} (hn : featureCount m = some n) : 0 < n := by
  cases m <;> cases hn <;> norm_num

/-- The row of the `float32` array that holds a feature vector. -/
def row (np : Numpy ℚ) (feats : List Value) : List ℚ := (feats.mapM np.float32).getD []

theorem mapM_float32_num (np : Numpy ℚ) (qs : List ℚ) :
    (qs.map Value.num).mapM np.float32 = some (qs.map np.round32) := by
  rw [List.mapM_map]
  exact mapM_eq_some_of_forall fun q _ => rfl

/-- The feature vector scored for a well-formed record has a row of its own length. -/
theorem row_of_scored (np : Numpy ℚ) {m : ModelName} {r : Value} {feats : List Value}
    (hr : WellFormed r) (h : scored m r = some feats) :
    feats.mapM np.float32 = some (row np feats) ∧ some (row np feats).length = featureCount m := by
  -- a scored model is a mapped one, and the mapping fixes the length
  obtain ⟨n, hn⟩ := Option.ne_none_iff_exists'.mp (featureCount_of_scored h)
  obtain ⟨qs, hqs, hlen⟩ := exists_scored hr hn (featureCount_pos hn)
  obtain rfl : qs.map Value.num = feats := Option.some.inj (hqs.symm.trans h)
  have hrow := mapM_float32_num np qs
  refine ⟨by rw [row, hrow, Option.getD_some], ?_⟩
  rw [row, hrow, Option.getD_some, List.length_map, hlen, hn]

/-- Every alert for a well-formed record can be built. -/
theorem isSome_buildAlert (w : InferenceWorker) (env : FlushEnv) (m : ModelName) (idx : ℕ)
    (score : ℚ) {r : Value} (hr : WellFormed r) : (w.buildAlert env m idx score r).isSome := by
  obtain ⟨r, rfl⟩ := hr
  simp [buildAlert, AlertNormalizer.normalize, Value.get, FeatureRecord.toJson, List.lookup_cons,
    Coercions.asStr, Coercions.asOptInt, Coercions.asFloat]

/-! ### What one flush stores -/

variable (w : InferenceWorker) {env : FlushEnv}

/-- The records for which a model's alerts were stored, in order. -/
def recordsStored (s : Sinks) (m : ModelName) : List Value :=
  (s.stored.filter fun a => a.model = m).map Raised.record

theorem raiseAlert_healthy (henv : env.Healthy) (m : ModelName) (idx : ℕ) (score : ℚ) {r : Value}
    (hr : WellFormed r) (s : Sinks) :
    ∃ alert s', w.raiseAlert env m idx score r s = (s', true) ∧
      s'.stored = s.stored ++ [⟨m, r, alert⟩] := by
  obtain ⟨alert, halert⟩ := Option.isSome_iff_exists.mp (w.isSome_buildAlert env m idx score hr)
  unfold raiseAlert
  rw [halert]
  simp only [henv.2.1 m idx, henv.2.2 m idx]
  exact ⟨_, _, rfl, rfl⟩

theorem errors_raiseAlert (env : FlushEnv) (m : ModelName) (idx : ℕ) (score : ℚ) (r : Value)
    (s : Sinks) :
    (w.raiseAlert env m idx score r s).1.errors = s.errors := by
  unfold raiseAlert
  split
  · rfl
  · dsimp only
    split
    · rfl
    · split <;> rfl

/-- Raising alerts records no inference error. -/
theorem errors_raiseAlerts (m : ModelName) (rs : List Value) (results : List (ℚ × Bool))
    (idx : ℕ) (s : Sinks) : (w.raiseAlerts env m rs idx results s).errors = s.errors := by
  induction results generalizing idx s with
  | nil => rfl
  | cons p results ih =>
    obtain ⟨score, isAnomaly⟩ := p
    unfold raiseAlerts
    split
    · split
      · rfl
      · next r _ =>
        have hone := w.errors_raiseAlert env m idx score r s
        split
        · next s' hs' =>
          rw [hs'] at hone
          exact (ih _ _).trans hone
        · next s' hs' =>
          rw [hs'] at hone
          exact hone
    · -- not an anomaly: nothing is raised
      exact ih _ _

/-- The loop over a model's results stores an alert for each record whose result
is an anomaly, and for no other model. -/
theorem recordsStored_raiseAlerts (henv : env.Healthy) (m k : ModelName) {rs : List Value}
    (hrs : ∀ r ∈ rs, WellFormed r) (results : List (ℚ × Bool)) (idx : ℕ) (s : Sinks)
    (hlen : idx + results.length ≤ rs.length) :
    recordsStored (w.raiseAlerts env m rs idx results s) k = recordsStored s k ++
      if k = m then (((rs.drop idx).zip results).filter
        fun p => p.2.2 && decide (p.2.1 > 1 / 2)).map Prod.fst
      else [] := by
  induction results generalizing idx s with
  | nil => simp [raiseAlerts]
  | cons p results ih =>
    obtain ⟨score, isAnomaly⟩ := p
    rw [List.length_cons] at hlen
    have hidx : idx < rs.length := by omega
    have hrest := fun s' => ih (idx + 1) s' (by omega)
    have hget : rs[idx]? = some rs[idx] := List.getElem?_eq_getElem hidx
    rw [List.drop_eq_getElem_cons hidx, List.zip_cons_cons, List.filter_cons]
    unfold raiseAlerts
    by_cases hanom : (isAnomaly && decide (score > 1 / 2)) = true
    · -- an anomaly: its alert is stored, and the loop goes on
      obtain ⟨alert, s', hraise, hstored⟩ :=
        w.raiseAlert_healthy henv m idx score (hrs _ (List.getElem_mem hidx)) s
      have hone : recordsStored s' k = recordsStored s k ++ if k = m then [rs[idx]] else [] := by
        unfold recordsStored
        rw [hstored, List.filter_append, List.map_append]
        by_cases hk : k = m
        · simp [hk]
        · have hk' : m ≠ k := fun h => hk h.symm
          simp [hk, hk']
      rw [if_pos hanom, hget]
      simp only [hraise]
      rw [hrest s', hone, if_pos hanom]
      by_cases hk : k = m
      · simp [hk]
      · simp [hk]
    -- no anomaly: nothing is stored for this row
    · rw [if_neg hanom, hrest s, if_neg hanom]

/-! ### Scoring a batch of well-formed records -/

section Rows

variable {width : ModelName → Option ℕ} (rows : (m : ModelName) → RowSession (width m))

/-- The worker whose files hold the given row-wise sessions. -/
def withModels : InferenceWorker := { w with session := fun m => (rows m).session }

/-- The record is mapped to a vector that the model's decision function flags. -/
def flagged (m : ModelName) (r : Value) : Bool :=
  match scored m r with
  | none => false
  | some feats =>
    match feats.mapM w.np.float32 with
    | none => false
    | some v => decide ((rows m).Flags v)

/-- Every record of a batch is well formed and paired with its features. -/
def GoodBatch (b : Batch) : Prop :=
  b.Aligned ∧ ∀ m ∈ w.loaded, ∀ r ∈ b.pendingMeta m, WellFormed r

variable {w} in
/-- The array built from a model's batch has the rows of its feature vectors. -/
theorem GoodBatch.array {b : Batch} (hb : w.GoodBatch b) {m : ModelName} (hm : m ∈ w.loaded) :
    w.np.array (b.pending m) = some ((b.pending m).map (row w.np)) ∧
      ∀ feats ∈ b.pending m, some (row w.np feats).length = featureCount m := by
  have hrow : ∀ feats ∈ b.pending m, feats.mapM w.np.float32 = some (row w.np feats) ∧
      some (row w.np feats).length = featureCount m := by
    intro feats hfeats
    -- the record at the same index is the one these features came from
    obtain ⟨i, hi, rfl⟩ := List.getElem_of_mem hfeats
    have hal := hb.1 m
    have hi' : i < (b.pendingMeta m).length := hal.length_eq ▸ hi
    have hsc : scored m (b.pendingMeta m)[i] = some (b.pending m)[i] := hal.get hi hi'
    exact row_of_scored w.np (hb.2 m hm _ (List.getElem_mem hi')) hsc
  exact ⟨mapM_eq_some_of_forall fun feats hfeats => (hrow feats hfeats).1,
    fun feats hfeats => (hrow feats hfeats).2⟩

variable {w} in
/-- A model of the width of its mapping scores its batch row by row. -/
theorem GoodBatch.predictBatch_of_width {b : Batch} (hb : w.GoodBatch b) {m : ModelName}
    (hm : m ∈ w.loaded) (hwidth : featureCount m = width m) :
    predictBatch w.np (some (rows m).session) (b.pending m) =
      ⟨(b.pending m).map fun feats => (rows m).decision (row w.np feats), false⟩ := by
  obtain ⟨harray, hlen⟩ := hb.array hm
  have hans := (rows m).answers ((b.pending m).map (row w.np)) (by
    intro v hv
    obtain ⟨feats, hfeats, rfl⟩ := List.mem_map.mp hv
    rw [hlen feats hfeats, hwidth])
  unfold predictBatch
  simp only [harray, Option.bind_some, hans, List.map_map]
  rfl

variable {w} in
/-- A model of another width raises on any batch of its own. -/
theorem GoodBatch.errored_of_width {b : Batch} (hb : w.GoodBatch b) {m : ModelName}
    (hm : m ∈ w.loaded) (hwidth : featureCount m ≠ width m) (hne : b.pending m ≠ []) :
    (predictBatch w.np (some (rows m).session) (b.pending m)).errored = true := by
  obtain ⟨harray, hlen⟩ := hb.array hm
  obtain ⟨feats, hfeats⟩ := List.exists_mem_of_ne_nil _ hne
  have hraise := (rows m).raises ((b.pending m).map (row w.np))
    ⟨row w.np feats, List.mem_map_of_mem hfeats, fun h => hwidth ((hlen feats hfeats).symm.trans h)⟩
  unfold predictBatch
  simp only [harray, Option.bind_some, hraise, Option.bind_none]

variable {w} in
/-- Pairing the records with their results and keeping the anomalies is keeping
the records that are flagged. -/
theorem GoodBatch.anomalies {b : Batch} (hb : w.GoodBatch b) {m : ModelName} (hm : m ∈ w.loaded)
    (hwidth : featureCount m = width m) :
    (((b.pendingMeta m).zip ((b.pending m).map fun feats => (rows m).decision (row w.np feats))
      ).filter fun p => p.2.2 && decide (p.2.1 > 1 / 2)).map Prod.fst =
    (b.pendingMeta m).filter (w.flagged rows m) := by
  refine map_fst_filter_zip (hb.1 m) ?_ (p := fun x : ℚ × Bool => x.2 && decide (x.1 > 1 / 2))
  intro feats r hr hsc
  obtain ⟨hrow, hlen⟩ := row_of_scored w.np (hb.2 m hm r hr) hsc
  have hacc : some (row w.np feats).length = width m := hlen.trans hwidth
  unfold flagged
  simp only [hsc, hrow]
  -- accepted, so flagging is the decision's second component
  by_cases hd : ((rows m).decision (row w.np feats)).2 = true
  · have hgt := decide_eq_true ((rows m).score_of_flagged hacc hd)
    have hflags := decide_eq_true (show (rows m).Flags (row w.np feats) from ⟨hacc, hd⟩)
    rw [hd, hgt, hflags]
    rfl
  · have hflags := decide_eq_false (show ¬ (rows m).Flags (row w.np feats) from fun h => hd h.2)
    rw [Bool.eq_false_iff.mpr hd, hflags]
    rfl

/-! ### What a run stores -/

/-- The model has the width of its mapping, or there is no mapping. -/
def Matches (width : ModelName → Option ℕ) (m : ModelName) : Prop :=
  featureCount m = none ∨ featureCount m = width m

/-- A model's share of a flush adds at most one inference error. -/
theorem errors_flushModel (b : Batch) (s : Sinks) (m : ModelName) :
    (w.flushModel env b s m).errors = s.errors ++
      if b.pending m ≠ [] ∧ (predictBatch w.np (w.sessions m) (b.pending m)).errored = true then
        [(m, b.pending m)]
      else [] := by
  unfold flushModel
  by_cases hne : b.pending m = []
  · simp [hne]
  · -- whether it times out or not, only `predict_batch` can add an error
    by_cases herr : (predictBatch w.np (w.sessions m) (b.pending m)).errored = true
    · by_cases hlate : env.timesOut m = true
      · simp [hne, herr, hlate]
      · simp [hne, herr, hlate, errors_raiseAlerts]
    · by_cases hlate : env.timesOut m = true
      · simp [hne, herr, hlate]
      · simp [hne, herr, hlate, errors_raiseAlerts]

theorem errors_foldl_flushModel (env : FlushEnv) (b : Batch) (ms : List ModelName) (s : Sinks) :
    s.errors <+: (ms.foldl (w.flushModel env b) s).errors := by
  induction ms generalizing s with
  | nil => exact List.prefix_rfl
  | cons m ms ih =>
    have hone : s.errors <+: (w.flushModel env b s m).errors := by
      rw [errors_flushModel]
      exact List.prefix_append _ _
    exact hone.trans (ih _)

/-- A model of another width leaves an error behind. -/
theorem flushModel_of_mismatch (env : FlushEnv) {b : Batch} (hb : w.GoodBatch b)
    {m : ModelName} (hm : m ∈ w.loaded) (hwidth : featureCount m ≠ width m)
    (hne : b.pending m ≠ []) (s : Sinks) :
    ((w.withModels rows).flushModel env b s m).errors ≠ [] := by
  have hsess : (w.withModels rows).sessions m = some (rows m).session := if_pos hm
  have herr : (predictBatch (w.withModels rows).np ((w.withModels rows).sessions m)
      (b.pending m)).errored = true := by
    rw [hsess]
    exact hb.errored_of_width rows hm hwidth hne
  rw [errors_flushModel, if_pos ⟨hne, herr⟩]
  simp

/-- A model that matches what it has to score adds the records it flags, and no error. -/
theorem flushModel_of_matches {b : Batch} (hb : w.GoodBatch b) (henv : env.Healthy) {m : ModelName}
    (hm : m ∈ w.loaded) (hmatch : b.pending m ≠ [] → featureCount m = width m) (s : Sinks) :
    ((w.withModels rows).flushModel env b s m).errors = s.errors ∧
    ∀ k, recordsStored ((w.withModels rows).flushModel env b s m) k = recordsStored s k ++
      if k = m then (b.pendingMeta m).filter (w.flagged rows m) else [] := by
  have hal := hb.1 m
  by_cases hne : b.pending m = []
  · -- nothing pending, so no records either
    have hmeta : b.pendingMeta m = [] := by
      rw [hne] at hal
      exact List.forall₂_nil_left_iff.mp hal
    have hskip : (w.withModels rows).flushModel env b s m = s := if_pos (by simp [hne])
    rw [hskip, hmeta]
    simp
  · have hwidth := hmatch hne
    have hpred := hb.predictBatch_of_width rows hm hwidth
    have hsess : (w.withModels rows).sessions m = some (rows m).session := if_pos hm
    have hempty : (b.pending m).isEmpty = false := by simpa using hne
    have hflush : (w.withModels rows).flushModel env b s m =
        (w.withModels rows).raiseAlerts env m (b.pendingMeta m) 0
          ((b.pending m).map fun feats => (rows m).decision (row w.np feats)) s := by
      unfold flushModel
      rw [hempty, hsess, henv.1 m]
      simp only [withModels, hpred]
      rfl
    have hlen : 0 + ((b.pending m).map fun feats => (rows m).decision (row w.np feats)).length ≤
        (b.pendingMeta m).length := by
      rw [Nat.zero_add, List.length_map, hal.length_eq]
    rw [hflush]
    refine ⟨errors_raiseAlerts _ m _ _ 0 s, fun k => ?_⟩
    rw [recordsStored_raiseAlerts _ henv m k (hb.2 m hm) _ 0 s hlen, List.drop_zero,
      hb.anomalies rows hm hwidth]

/-- A flush of matching models adds what each of them flags. -/
theorem flushModels_of_matches {b : Batch} (hb : w.GoodBatch b) (henv : env.Healthy)
    {ms : List ModelName} (hms : ms.Nodup) (hloaded : ∀ m ∈ ms, m ∈ w.loaded)
    (hmatch : ∀ m ∈ ms, b.pending m ≠ [] → featureCount m = width m) (s : Sinks) :
    (ms.foldl ((w.withModels rows).flushModel env b) s).errors = s.errors ∧
    ∀ k, recordsStored (ms.foldl ((w.withModels rows).flushModel env b) s) k =
      recordsStored s k ++ if k ∈ ms then (b.pendingMeta k).filter (w.flagged rows k) else [] := by
  induction ms generalizing s with
  | nil => simp
  | cons m ms ih =>
    have hm : m ∉ ms := (List.nodup_cons.mp hms).1
    have hstep := w.flushModel_of_matches rows hb henv (hloaded m List.mem_cons_self)
      (hmatch m List.mem_cons_self) s
    have hrest := ih (List.nodup_cons.mp hms).2
      (fun k hk => hloaded k (List.mem_cons_of_mem _ hk))
      (fun k hk => hmatch k (List.mem_cons_of_mem _ hk))
      ((w.withModels rows).flushModel env b s m)
    rw [List.foldl_cons]
    refine ⟨hrest.1.trans hstep.1, fun k => ?_⟩
    rw [hrest.2 k, hstep.2 k]
    -- `k` is the head, or it can only be in the tail
    by_cases hk : k = m
    · subst hk
      simp [hm]
    · simp [hk]

/-- All flushes of a run with matching models, in healthy surroundings. -/
theorem flushes_of_matches (envs : ℕ → FlushEnv) (henv : ∀ i, (envs i).Healthy)
    {calls : List (Batch × ℕ)} (hcalls : ∀ c ∈ calls, w.GoodBatch c.1)
    (hmatch : ∀ c ∈ calls, ∀ m ∈ w.loaded, c.1.pending m ≠ [] → featureCount m = width m)
    (s : Sinks) :
    (calls.foldl (fun s c => (w.withModels rows).flushBatch (envs c.2) s c.1) s).errors = s.errors ∧
    ∀ k ∈ w.loaded, recordsStored
        (calls.foldl (fun s c => (w.withModels rows).flushBatch (envs c.2) s c.1) s) k =
      recordsStored s k ++ (calls.map Prod.fst).flatMap fun b =>
        (b.pendingMeta k).filter (w.flagged rows k) := by
  induction calls generalizing s with
  | nil => simp
  | cons c calls ih =>
    -- the first call stores what is flagged in its own batch
    have hstep : ((w.withModels rows).flushBatch (envs c.2) s c.1).errors = s.errors ∧
        ∀ k, recordsStored ((w.withModels rows).flushBatch (envs c.2) s c.1) k =
          recordsStored s k ++
            if k ∈ w.loaded then (c.1.pendingMeta k).filter (w.flagged rows k) else [] :=
      w.flushModels_of_matches rows (hcalls c List.mem_cons_self) (henv c.2) w.nodup_loaded
        (fun _ hm => hm) (hmatch c List.mem_cons_self) s
    have hrest := ih (fun c' hc' => hcalls c' (List.mem_cons_of_mem _ hc'))
      (fun c' hc' => hmatch c' (List.mem_cons_of_mem _ hc'))
      ((w.withModels rows).flushBatch (envs c.2) s c.1)
    rw [List.foldl_cons]
    refine ⟨hrest.1.trans hstep.1, fun k hk => ?_⟩
    rw [hrest.2 k hk, hstep.2 k, if_pos hk, List.map_cons, List.flatMap_cons, List.append_assoc]

/-- One batch for a model of another width makes the run see an error. -/
theorem flushes_of_mismatch (envs : ℕ → FlushEnv) {m : ModelName} (hm : m ∈ w.loaded)
    (hwidth : featureCount m ≠ width m) {calls : List (Batch × ℕ)}
    (hcalls : ∀ c ∈ calls, w.GoodBatch c.1) (hne : ∃ c ∈ calls, c.1.pending m ≠ []) (s : Sinks) :
    (calls.foldl (fun s c => (w.withModels rows).flushBatch (envs c.2) s c.1) s).errors ≠ [] := by
  -- errors survive every later flush
  have hkeep : ∀ (calls : List (Batch × ℕ)) (s : Sinks), s.errors ≠ [] →
      (calls.foldl (fun s c => (w.withModels rows).flushBatch (envs c.2) s c.1) s).errors ≠ [] := by
    intro calls
    induction calls with
    | nil => exact fun s hs => hs
    | cons c calls ih =>
      intro s hs
      have hpre : s.errors <+: ((w.withModels rows).flushBatch (envs c.2) s c.1).errors :=
        errors_foldl_flushModel _ (envs c.2) c.1 _ s
      exact ih _ fun hnil => hs (List.prefix_nil.mp (hnil ▸ hpre))
  induction calls generalizing s with
  | nil => simp at hne
  | cons c calls ih =>
    have hgood := hcalls c List.mem_cons_self
    rw [List.foldl_cons]
    by_cases hc : c.1.pending m = []
    · -- the batch is a later one
      refine ih (fun c' hc' => hcalls c' (List.mem_cons_of_mem _ hc')) ?_ _
      obtain ⟨c', hc', hne'⟩ := hne
      obtain rfl | hc' := List.mem_cons.mp hc'
      · exact absurd hc hne'
      · exact ⟨c', hc', hne'⟩
    · -- this flush leaves the error, in the middle of its loop over the models
      refine hkeep calls _ ?_
      obtain ⟨before, later, hsplit⟩ := List.append_of_mem hm
      have hloaded : (w.withModels rows).loaded = before ++ m :: later := hsplit
      unfold flushBatch
      rw [hloaded, List.foldl_append, List.foldl_cons]
      have herr := w.flushModel_of_mismatch rows (envs c.2) hgood hm hwidth hc
        (before.foldl ((w.withModels rows).flushModel (envs c.2) c.1) s)
      have hpre := errors_foldl_flushModel (w.withModels rows) (envs c.2) c.1 later
        ((w.withModels rows).flushModel (envs c.2) c.1
          (before.foldl ((w.withModels rows).flushModel (envs c.2) c.1) s) m)
      exact fun hnil => herr (List.prefix_nil.mp (hnil ▸ hpre))

/-! ### When the worker detects what its models detect -/

/-- A stream of well-formed records, with polls that deliver nothing in between. -/
def RawFeatures (polls : List Poll) : Prop :=
  ∀ p ∈ polls, p = .none ∨ p = .error ∨ ∃ r : FeatureRecord, p = .message (.value r.toJson)

theorem RawFeatures.decodes {polls : List Poll} (h : RawFeatures polls) : Decodes polls := by
  intro p hp
  obtain rfl | rfl | ⟨r, rfl⟩ := h p hp <;> simp

theorem RawFeatures.wellFormed {polls : List Poll} (h : RawFeatures polls) {v : Value}
    (hv : v ∈ records polls) : WellFormed v := by
  obtain ⟨p, hp, hrec⟩ := List.mem_filterMap.mp hv
  obtain rfl | rfl | ⟨r, rfl⟩ := h p hp
  · cases hrec
  · cases hrec
  · exact ⟨r, (Option.some.inj hrec).symm⟩

theorem goodBatch_of_mem {polls : List Poll} (h : RawFeatures polls) {b : Batch}
    (hb : b ∈ w.flushCalls polls) : w.GoodBatch b := by
  refine ⟨w.aligned_of_mem_flushCalls h.decodes hb, ?_⟩
  intro m hm r hr
  have hmem : r ∈ (w.flushCalls polls).flatMap (Batch.pendingMeta · m) :=
    List.mem_flatMap.mpr ⟨b, hb, hr⟩
  rw [w.flushCalls_pendingMeta h.decodes hm] at hmem
  exact h.wellFormed (List.mem_filter.mp hmem).1

/-- After the final flush each loaded model's stored alerts are those of the
records it flags, in order, and `predict_batch` never took its exception branch. -/
def Detects (envs : ℕ → FlushEnv) (polls : List Poll) : Prop :=
  (∀ m ∈ w.loaded, recordsStored ((w.withModels rows).run envs polls) m =
    (records polls).filter (w.flagged rows m)) ∧
  ((w.withModels rows).run envs polls).errors = []

/-- Only scored records are flagged. -/
theorem filter_scoredRecords (m : ModelName) (rs : List Value) :
    (scoredRecords m rs).filter (w.flagged rows m) = rs.filter (w.flagged rows m) := by
  rw [scoredRecords, List.filter_filter]
  refine List.filter_congr fun r _ => ?_
  unfold flagged
  cases scored m r <;> simp

/-- **Detection, for any table of widths.** In healthy surroundings the worker
detects what its models detect if and only if no record arrives or every loaded
model has the width of its mapping. -/
theorem detects_iff_widths (envs : ℕ → FlushEnv) (henv : ∀ i, (envs i).Healthy)
    {polls : List Poll} (hraw : RawFeatures polls) :
    w.Detects rows envs polls ↔ records polls = [] ∨ ∀ m ∈ w.loaded, Matches width m := by
  have hcalls : ∀ c ∈ (w.flushCalls polls).zipIdx, w.GoodBatch c.1 := by
    intro c hc
    exact w.goodBatch_of_mem hraw (List.fst_mem_of_mem_zipIdx hc)
  constructor
  · rintro ⟨-, herr⟩
    by_contra hcon
    push Not at hcon
    obtain ⟨hrecords, m, hm, hmis⟩ := hcon
    obtain ⟨hmapped, hwidth⟩ := not_or.mp hmis
    -- some record arrived, the model scores it, so one of its batches is flushed
    obtain ⟨n, hn⟩ := Option.ne_none_iff_exists'.mp hmapped
    obtain ⟨r, hr⟩ := List.exists_mem_of_ne_nil _ hrecords
    obtain ⟨qs, hsc, -⟩ := exists_scored (hraw.wellFormed hr) hn (featureCount_pos hn)
    have hscored : qs.map Value.num ∈ (w.flushCalls polls).flatMap (Batch.pending · m) := by
      rw [w.flushCalls_pending hraw.decodes hm]
      exact List.mem_filterMap.mpr ⟨r, hr, hsc⟩
    obtain ⟨b, hb, hmem⟩ := List.mem_flatMap.mp hscored
    obtain ⟨i, hi, hib⟩ := List.getElem_of_mem hb
    have hc : (b, i) ∈ (w.flushCalls polls).zipIdx := by
      rw [List.mem_zipIdx_iff_getElem?, List.getElem?_eq_getElem hi, hib]
    exact w.flushes_of_mismatch rows envs hm hwidth hcalls ⟨(b, i), hc, List.ne_nil_of_mem hmem⟩
      Sinks.empty herr
  · intro hcond
    -- what a loaded model has to score, it has the width for
    have hmatch : ∀ c ∈ (w.flushCalls polls).zipIdx, ∀ m ∈ w.loaded, c.1.pending m ≠ [] →
        featureCount m = width m := by
      intro c hc m hm hne
      obtain ⟨feats, hfeats⟩ := List.exists_mem_of_ne_nil _ hne
      have hmem : feats ∈ (w.flushCalls polls).flatMap (Batch.pending · m) :=
        List.mem_flatMap.mpr ⟨c.1, List.fst_mem_of_mem_zipIdx hc, hfeats⟩
      rw [w.flushCalls_pending hraw.decodes hm] at hmem
      obtain ⟨r, hr, hsc⟩ := List.mem_filterMap.mp hmem
      obtain hnil | hwidths := hcond
      · rw [hnil] at hr
        exact absurd hr List.not_mem_nil
      · obtain hnone | hwidth := hwidths m hm
        · exact absurd hnone (featureCount_of_scored hsc)
        · exact hwidth
    have hrun := w.flushes_of_matches rows envs henv hcalls hmatch Sinks.empty
    refine ⟨fun m hm => ?_, hrun.1⟩
    have hstored := hrun.2 m hm
    rw [List.zipIdx_map_fst, ← List.filter_flatMap, w.flushCalls_pendingMeta hraw.decodes hm,
      filter_scoredRecords] at hstored
    exact hstored

end Rows

/-- With the widths of `export_all`, the only model that fits its mapping is the
one without a mapping. -/
theorem matches_exportWidth (m : ModelName) : Matches ModelName.exportWidth m ↔ m = .dga := by
  unfold Matches
  cases m <;> decide

/-- **When the Kafka path detects what the models detect.** With row-wise models
of the exported widths and well-formed records, in healthy surroundings: exactly
when no record arrives, or no model is loaded that records are mapped for. -/
theorem worker_detects_iff (w : InferenceWorker)
    (rows : (m : ModelName) → RowSession m.exportWidth) (envs : ℕ → FlushEnv)
    (henv : ∀ i, (envs i).Healthy) (polls : List Poll) (hraw : RawFeatures polls) :
    w.Detects rows envs polls ↔ records polls = [] ∨ ∀ m ∈ w.loaded, m = .dga := by
  rw [w.detects_iff_widths rows envs henv hraw]
  refine or_congr_right (forall_congr' fun m => imp_congr_right fun _ => ?_)
  exact matches_exportWidth m

/-- A session that takes rows of one width and finds every row anomalous. -/
def alarmSession (width : Option ℕ) : RowSession width where
  session := ⟨fun X =>
    if ∀ row ∈ X, some row.length = width then some [.labels (X.map fun _ => -1)] else none⟩
  decision _ := (1, true)
  raises X := by
    rintro ⟨row, hrow, hne⟩
    exact if_neg fun h => hne (h row hrow)
  answers X h := by
    show (if ∀ row ∈ X, some row.length = width then
      some [Output.labels (X.map fun _ => -1)] else none).bind readOutputs = _
    rw [if_pos h, Option.bind_some]
    show List.mapM _ (List.map Element.int (X.map fun _ => -1)) = _
    rw [List.map_map, List.mapM_map]
    exact mapM_eq_some_of_forall fun row _ => rfl

/-- Surroundings in which nothing goes wrong. -/
def calm : FlushEnv := ⟨fun _ => false, fun _ _ => false, fun _ _ => false, fun _ _ => "id", 0⟩

theorem healthy_calm : calm.Healthy := ⟨fun _ => rfl, fun _ _ => rfl, fun _ _ => rfl⟩

/-- One second of a SYN flood, as the ingestor reports it. -/
def synFlood : FeatureRecord where
  srcIp := "10.0.0.1"
  dstIp := "10.0.0.2"
  srcPort := 40000
  dstPort := 443
  protocol := "TCP"
  timestamp := 100
  pktRate1s := 5000
  byteRate1s := 300000
  synRate1s := 5000
  uniqueDstPorts1s := 1
  flowDuration := 1
  flowPktCount := 5000
  flowByteCount := 300000
  ipLen := 60
  tcpFlags := 2
  isPortScan := false
  uniquePortsScanned := 1

theorem rawFeatures_synFlood : RawFeatures [.message (.value synFlood.toJson)] := by
  intro p hp
  obtain rfl := List.mem_singleton.mp hp
  exact Or.inr (Or.inr ⟨synFlood, rfl⟩)

/-- A worker with the DGA model only has nothing to detect, and detects that. -/
theorem worker_detects_iff_dga_only :
    (ofFiles 1 ["dga_gbt.onnx"] fun _ => ⟨fun _ => none⟩).Detects
      (fun m => alarmSession m.exportWidth) (fun _ => calm) [.message (.value synFlood.toJson)] :=
  (worker_detects_iff _ _ _ (fun _ => healthy_calm) _ rawFeatures_synFlood).mpr
    (Or.inr (by decide))

/-- **A flood the worker does not see.** The DDoS model flags every vector it
accepts, but it was exported for two features and is given eight: scoring the
flood takes the exception branch. -/
theorem synFlood_not_detected :
    ¬ ∀ (w : InferenceWorker) (rows : (m : ModelName) → RowSession m.exportWidth)
      (envs : ℕ → FlushEnv) (polls : List Poll), 1 ≤ w.batchSize → (∀ i, (envs i).Healthy) →
      RawFeatures polls → w.Detects rows envs polls := by
  intro hall
  have hdetects := hall (ofFiles 1 ["ddos_lgbm.onnx"] fun _ => ⟨fun _ => none⟩)
    (fun m => alarmSession m.exportWidth) (fun _ => calm) [.message (.value synFlood.toJson)]
    le_rfl (fun _ => healthy_calm) rawFeatures_synFlood
  rw [detects_iff_widths _ _ _ (fun _ => healthy_calm) rawFeatures_synFlood] at hdetects
  obtain hnil | hmatch := hdetects
  · simp [records, Poll.record?] at hnil
  · -- the exported model does not take the eight features of the worker
    have hddos := (matches_exportWidth .ddos).mp (hmatch .ddos (by decide))
    cases hddos

end InferenceWorker

end Sentrix
