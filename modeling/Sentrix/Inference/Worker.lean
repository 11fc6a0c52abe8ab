import Sentrix.Alerting.Correlator
import Sentrix.Alerting.Normalizer
import Sentrix.Inference.Onnx

/-!
# The Kafka inference worker

`InferenceWorker` of `inference/worker.py`. The run loop polls the
`raw-features` topic, maps each decoded record to one feature vector per loaded
model (`extract_features_for_model`) and accumulates the vectors and the records
they came from in two dictionaries of lists; when one of the lists is full, and
once more when the loop is left, `_flush_batch` scores the batches and turns
each anomaly into an alert that is normalized, correlated, stored and published.

The loop and the flushes are separate here. `InferenceWorker.machine` is the
accumulator: it is fed polls and answers the batches it passes to
`_flush_batch` (`flushCalls`). `InferenceWorker.flushBatch` is what becomes of
one of them; nothing of it flows back into the loop, since every exception of
the scoring and of the sinks is caught inside it.
-/

namespace Sentrix

/-! ### Models and their tables -/

/-- The names under which models are loaded. -/
inductive ModelName
  | ddos | beaconing | dga | encrypted | recon | exfil
deriving DecidableEq

def ModelName.name : ModelName → String
  | .ddos => "ddos"
  | .beaconing => "beaconing"
  | .dga => "dga"
  | .encrypted => "encrypted"
  | .recon => "recon"
  | .exfil => "exfil"

/-- `model_files` of `ONNXModelManager`, in its order. -/
def modelFiles : List (ModelName × String) := [
  (.ddos, "ddos_lgbm.onnx"),
  (.beaconing, "beaconing_ocsvm.onnx"),
  (.dga, "dga_gbt.onnx"),
  (.encrypted, "encrypted_rf.onnx"),
  (.recon, "recon_iso.onnx"),
  (.exfil, "exfil_iso.onnx")]

/-- The feature counts `export_all` exports the models with, by export name:
`lgbm_models`, `sklearn_models` and `iso_models` of `inference/export_onnx.py`. -/
def exportWidths : List (String × ℕ) := [
  ("ddos_lgbm", 2), ("dga_gbt", 3),
  ("beaconing_ocsvm", 2), ("encrypted_rf", 4),
  ("recon_iso", 2), ("exfil_iso", 3)]

/-- The input width of the file a model is loaded from (`{name}.onnx`). -/
def ModelName.exportWidth (m : ModelName) : Option ℕ := do
  let file ← modelFiles.lookup m
  (exportWidths.find? fun e => e.1 ++ ".onnx" = file).map Prod.snd

/-- `extract_features_for_model`; `none` is Python's `None`, which is also what
an exception is turned into. -/
def extractFeaturesForModel (m : ModelName) (record : Value) : Option (List Value) :=
  match m with
  | .ddos => do
    return [← record.get "pkt_rate_1s" (.num 0),
      ← record.get "byte_rate_1s" (.num 0),
      ← record.get "syn_rate_1s" (.num 0),
      ← record.get "unique_dst_ports_1s" (.num 0),
      ← record.get "ip_len" (.num 0),
      ← record.get "tcp_flags" (.num 0),
      ← record.get "flow_pkt_count" (.num 0),
      ← record.get "flow_byte_count" (.num 0)]
  | .recon => do
    return [← record.get "unique_ports_scanned" (.num 0),
      ← record.get "pkt_rate_1s" (.num 0),
      .num (if (← record.get "is_port_scan" (.bool false)).truthy then 1 else 0),
      ← record.get "flow_duration" (.num 0),
      ← record.get "tcp_flags" (.num 0)]
  | .beaconing | .exfil | .encrypted => do
    return [← record.get "flow_duration" (.num 0),
      ← record.get "flow_pkt_count" (.num 0),
      ← record.get "flow_byte_count" (.num 0),
      ← record.get "byte_rate_1s" (.num 0),
      ← record.get "pkt_rate_1s" (.num 0)]
  -- no branch of the source names this model
  | .dga => none

/-- What a worker is started with. -/
structure InferenceWorker where
  batchSize : ℕ
  /-- Whether a model file exists. -/
  present : String → Bool
  /-- The session a model's file holds. -/
  session : ModelName → OnnxSession ℚ
  np : Numpy ℚ
  coercions : Coercions
  normalizer : AlertNormalizer
  setOrder : SetOrder String
  /-- The format `:.3f`. -/
  fixed3 : ℚ → String

namespace InferenceWorker

/-- The keys of `sessions`, in order. -/
def loaded (w : InferenceWorker) : List ModelName :=
  (modelFiles.filter fun e => w.present e.2).map Prod.fst

/-- `sessions.get(model_name)`. -/
def sessions (w : InferenceWorker) (m : ModelName) : Option (OnnxSession ℚ) :=
  if m ∈ w.loaded then some (w.session m) else none

/-! ### The run loop -/

/-- What `json.loads` does with a message's value. -/
inductive Decoded
  | value (v : Value)
  /-- A `JSONDecodeError`. -/
  | invalid
  /-- Any other exception. -/
  | raises

/-- What `consumer.poll` answers. -/
inductive Poll
  | none
  | error
  | message (value : Decoded)

/-- The record a poll delivers, if it delivers one. -/
def Poll.record? : Poll → Option Value
  | .message (.value r) => some r
  | _ => Option.none

/-- `pending` and `pending_meta`, lists by model. -/
structure Batch where
  pending : ModelName → List (List Value)
  pendingMeta : ModelName → List Value

/-- `{m: [] for m in sessions}`, twice. -/
def Batch.empty : Batch := ⟨fun _ => [], fun _ => []⟩

/-- Append a model's features and the record they were extracted from. -/
def Batch.add (b : Batch) (m : ModelName) (feats : List Value) (record : Value) : Batch where
  pending := Function.update b.pending m (b.pending m ++ [feats])
  pendingMeta := Function.update b.pendingMeta m (b.pendingMeta m ++ [record])

/-- One turn of the loop over the models: an empty list is as good as `None`. -/
def Batch.addRecord (record : Value) (b : Batch) (m : ModelName) : Batch :=
  match extractFeaturesForModel m record with
  | some (f :: feats) => b.add m (f :: feats) record
  | _ => b

/-- The state of the run loop. -/
structure Accumulator where
  batch : Batch
  /-- An exception left the loop. -/
  raised : Bool

variable (w : InferenceWorker)

/-- Some list is full. -/
def full (b : Batch) : Bool := w.loaded.any fun m => decide ((b.pending m).length ≥ w.batchSize)

/-- One poll: the next state, and the batch passed to `_flush_batch` if it is called. -/
def step (s : Accumulator) (p : Poll) : Accumulator × Option Batch :=
  if s.raised then (s, none)
  else
    match p with
    -- `continue`, before anything is accumulated
    | .none | .error | .message .invalid => (s, none)
    | .message .raises => ({ s with raised := true }, none)
    | .message (.value record) =>
      let batch := w.loaded.foldl (Batch.addRecord record) s.batch
      if w.full batch then ({ s with batch := Batch.empty }, some batch)
      else ({ s with batch := batch }, none)

/-- The run loop as a machine that is fed polls. -/
def machine : Machine Accumulator Poll (Option Batch) where
  init := ⟨Batch.empty, false⟩
  step := w.step

/-- The flush after the loop, if anything is pending. -/
def finalFlush (s : Accumulator) : List Batch :=
  if !s.raised && w.loaded.any fun m => !(s.batch.pending m).isEmpty then [s.batch] else []

/-- The arguments of all calls of `_flush_batch` in a run that is stopped after
the given polls. -/
def flushCalls (polls : List Poll) : List Batch :=
  (w.machine.emits polls).reduceOption ++ w.finalFlush (w.machine.after polls)

/-! ### Flushing a batch -/

/-- What the surroundings do during one call of `_flush_batch`. -/
structure FlushEnv where
  /-- `future.result` times out for a model. -/
  timesOut : ModelName → Bool
  /-- `store.append` raises for a model's result of an index. -/
  appendRaises : ModelName → ℕ → Bool
  /-- `producer.produce` raises. -/
  produceRaises : ModelName → ℕ → Bool
  /-- The id drawn for an alert. -/
  alertId : ModelName → ℕ → String
  /-- `time.time()`. -/
  now : ℚ

/-- Nothing times out or raises. -/
def FlushEnv.Healthy (env : FlushEnv) : Prop :=
  (∀ m, env.timesOut m = false) ∧ (∀ m i, env.appendRaises m i = false) ∧
    ∀ m i, env.produceRaises m i = false

/-- An alert that was stored or published, with the model and the record it was
raised for. -/
structure Raised where
  model : ModelName
  record : Value
  alert : AlertRecord

/-- What the flushes so far have done. -/
structure Sinks where
  correlator : Correlator
  stored : List Raised
  published : List Raised
  /-- The batches for which `predict_batch` took its exception branch. -/
  errors : List (ModelName × List (List Value))

def Sinks.empty : Sinks := ⟨Correlator.empty, [], [], []⟩

/-- The alert built for an anomalous record. -/
def buildAlert (env : FlushEnv) (m : ModelName) (idx : ℕ) (score : ℚ) (record : Value) :
    Option AlertRecord := do
  let flowInfo := [
    ("src_ip", ← record.get "src_ip" (.str "0.0.0.0")),
    ("dst_ip", ← record.get "dst_ip" (.str "0.0.0.0")),
    ("src_port", ← record.get "src_port" (.num 0)),
    ("dst_port", ← record.get "dst_port" (.num 0)),
    ("protocol", ← record.get "protocol" (.str "TCP")),
    ("ip_len", ← record.get "ip_len" (.num 0))]
  let featureValues ←
    ["pkt_rate_1s", "byte_rate_1s", "syn_rate_1s", "flow_duration", "flow_pkt_count"].mapM
      fun k => (record.get k (.num 0)).map fun v => (k, v)
  w.normalizer.normalize w.coercions (env.alertId m idx) m.name score featureValues
    ("ONNX " ++ m.name ++ " anomaly score=" ++ w.fixed3 score) flowInfo
    (← record.get "timestamp" (.num env.now)) none none

/-- The body of the loop over a model's results for an anomaly, and whether it
ran to its end. -/
def raiseAlert (env : FlushEnv) (m : ModelName) (idx : ℕ) (score : ℚ) (record : Value)
    (s : Sinks) : Sinks × Bool :=
  match w.buildAlert env m idx score record with
  | none => (s, false)
  | some alert =>
    let (correlator, correlated) := Correlator.process 600 w.setOrder s.correlator alert
    let s := { s with correlator := correlator }
    -- the correlator has seen the alert even if the store refuses it
    if env.appendRaises m idx then (s, false)
    else
      let s := { s with stored := s.stored ++ [⟨m, record, correlated⟩] }
      if env.produceRaises m idx then (s, false)
      else ({ s with published := s.published ++ [⟨m, record, correlated⟩] }, true)

/-- The loop over a model's results. The `try` is around the loop, so the first
exception ends it. -/
def raiseAlerts (env : FlushEnv) (m : ModelName) (records : List Value) :
    ℕ → List (ℚ × Bool) → Sinks → Sinks
  | _, [], s => s
  | idx, (score, isAnomaly) :: results, s =>
    if isAnomaly && decide (score > 1 / 2) then
      match records[idx]? with
      -- `pending_meta[model_name][idx]` is out of range
      | none => s
      | some record =>
        match w.raiseAlert env m idx score record s with
        | (s, true) => raiseAlerts env m records (idx + 1) results s
        | (s, false) => s
    else raiseAlerts env m records (idx + 1) results s

/-- One model's share of `_flush_batch`. -/
def flushModel (env : FlushEnv) (b : Batch) (s : Sinks) (m : ModelName) : Sinks :=
  if (b.pending m).isEmpty then s
  else
    let prediction := predictBatch w.np (w.sessions m) (b.pending m)
    let s := if prediction.errored then { s with errors := s.errors ++ [(m, b.pending m)] } else s
    -- the executor goes on, but its results are not read
    if env.timesOut m then s
    else w.raiseAlerts env m (b.pendingMeta m) 0 prediction.results s

/-- `_flush_batch`. -/
def flushBatch (env : FlushEnv) (s : Sinks) (b : Batch) : Sinks :=
  w.loaded.foldl (w.flushModel env b) s

/-- What a run that is stopped after the given polls has done; `env i` are the
surroundings of the call number `i` of `_flush_batch`. -/
def run (env : ℕ → FlushEnv) (polls : List Poll) : Sinks :=
  (w.flushCalls polls).zipIdx.foldl (fun s b => w.flushBatch (env b.2) s b.1) Sinks.empty

end InferenceWorker

end Sentrix
