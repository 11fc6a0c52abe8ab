import Mathlib.Algebra.Field.Rat
import Mathlib.Algebra.Order.Field.Basic
import Mathlib.Algebra.Order.Ring.Rat
import Mathlib.Data.Int.Cast.Basic
import Sentrix.Lib.Dict
import Sentrix.Lib.Value
import Sentrix.Lib.Literals

/-!
# The two ONNX front ends

The repository reads ONNX models in two places. `ONNXModelManager.predict_batch`
(`inference/worker.py`) scores the batches of the Kafka worker and decides how
to read a session's outputs from their *number*: two or more outputs are a
classifier's, the second being probabilities; one output is a list of labels,
`-1` for an anomaly. `ONNXInferenceEngine` (`inference/onnx_engine.py`) has one
method per model and reads what that model's convention says: the label of an
anomaly detector, the class-1 entry of a classifier's probability map.

Sessions are third-party: a session is whatever it answers to a batch of rows
(`none` when it raises). Numbers live in an ordered field `K`; `Numpy` says what
becomes of a value put into a `float32` array.
-/

namespace Sentrix

/-- The conversions of `np.array(…, dtype=np.float32)`. -/
structure Numpy (K : Type) where
  /-- The number a float is stored as. -/
  round32 : K → K
  /-- What values that are not numbers are stored as; `none` if that raises. -/
  other : Value → Option K

/-- One output of `InferenceSession.run`. -/
inductive Output (K : Type)
  /-- An integer array with one axis. -/
  | labels (ls : List ℤ)
  /-- An integer array with two axes. -/
  | labelRows (rows : List (List ℤ))
  /-- A float array with one axis. -/
  | scores (xs : List K)
  /-- A float array with two axes. -/
  | scoreRows (rows : List (List K))
  /-- A list of maps from classes to probabilities (`ZipMap`). -/
  | zipMap (ds : List (Dict ℤ K))

/-- What iterating over an output yields. -/
inductive Element (K : Type)
  | int (z : ℤ)
  | ints (zs : List ℤ)
  | float (x : K)
  | floats (xs : List K)
  | map (d : Dict ℤ K)

/-- The elements of an output, in order. -/
def Output.elements {K : Type} : Output K → List (Element K)
  | .labels ls => ls.map .int
  | .labelRows rows => rows.map .ints
  | .scores xs => xs.map .float
  | .scoreRows rows => rows.map .floats
  | .zipMap ds => ds.map .map

/-- An inference session: the outputs for a batch of rows, `none` if `run` raises. -/
structure OnnxSession (K : Type) where
  run : List (List K) → Option (List (Output K))

section Manager

variable {K : Type} [Field K] [LinearOrder K]

/-- `p[1] if len(p) > 1 else p[0]` on a row; `none` if indexing raises. -/
def rowScore (xs : List K) : Option K := if xs.length > 1 then xs[1]? else xs[0]?

/-- `float(p[1] if len(p) > 1 else p[0])`: a scalar has no length, and a map is
read at the keys `1` and `0`. -/
def Element.score : Element K → Option K
  | .int _ => none
  | .ints zs => rowScore (zs.map fun z : ℤ => (z : K))
  | .float _ => none
  | .floats xs => rowScore xs
  | .map d => if d.size > 1 then d.get? 1 else d.get? 0

/-- The truth value of `l == -1`; an array of other than one element has none. -/
def Element.isMinusOne : Element K → Option Bool
  | .int z => some (decide (z = -1))
  | .ints [z] => some (decide (z = -1))
  | .ints _ => none
  | .float x => some (decide (x = -1))
  | .floats [x] => some (decide (x = -1))
  | .floats _ => none
  | .map _ => some false

/-- How `predict_batch` reads a session's outputs: `(score, is_anomaly)` for
each row, `none` if that raises. -/
def readOutputs : List (Output K) → Option (List (K × Bool))
  -- an index error
  | [] => none
  -- isolation forest, one-class SVM: `-1` is an anomaly
  | [labels] =>
    labels.elements.mapM fun l => l.isMinusOne.map fun b => (if b then 1 else 0, b)
  -- a classifier: the probability of the anomaly class
  | _ :: probs :: _ =>
    probs.elements.mapM fun p => p.score.map fun x => (x, decide (x > 1 / 2))

/-- One value of a `float32` array. -/
def Numpy.float32 (np : Numpy ℚ) : Value → Option ℚ
  | .num q => some (np.round32 q)
  | .bool b => some (if b then 1 else 0)
  | v => np.other v

/-- The array built from a batch of rows; `none` if that raises. -/
def Numpy.array (np : Numpy ℚ) (batch : List (List Value)) : Option (List (List ℚ)) :=
  batch.mapM fun row => row.mapM np.float32

end Manager

/-- What `predict_batch` returns, and whether its exception branch was taken. -/
structure Prediction where
  results : List (ℚ × Bool)
  errored : Bool

/-- `ONNXModelManager.predict_batch`. -/
def predictBatch (np : Numpy ℚ) (sess : Option (OnnxSession ℚ)) (batch : List (List Value)) :
    Prediction :=
  match sess with
  | none => ⟨List.replicate batch.length (0, false), false⟩
  | some sess =>
    match ((np.array batch).bind sess.run).bind readOutputs with
    | some results => ⟨results, false⟩
    -- logged, and read as "no anomaly"
    | none => ⟨List.replicate batch.length (0, false), true⟩

/-! ### The in-process engine -/

section Engine

variable {K : Type} [Field K] [LinearOrder K]

/-- `int(res[0][0][0]) if res[0].ndim > 1 else int(res[0][0])`. -/
def firstLabel : Output K → Option ℤ
  | .labels ls => ls[0]?
  | .labelRows rows => rows[0]?.bind fun row => row[0]?
  | _ => none

/-- `float(res[1][0][0]) if res[1].ndim > 1 else float(res[1][0])`. -/
def firstScore : Output K → Option K
  | .scores xs => xs[0]?
  | .scoreRows rows => rows[0]?.bind fun row => row[0]?
  | _ => none

/-- `probs[0].get(1, 0.0)` if the probabilities are a non-empty list of maps. -/
def firstProbability : Output K → K
  | .zipMap (d :: _) => (d.get? 1).getD 0
  | _ => 0

/-- The outputs for a single row of floats. -/
def runRow (np : Numpy K) (sess : OnnxSession K) (row : List K) : Option (List (Output K)) :=
  sess.run [row.map np.round32]

/-- The label an anomaly detector's session gives a row; `1` without a session.
`none` if reading the outputs raises. -/
def predictLabel (np : Numpy K) (sess : Option (OnnxSession K)) (row : List K) : Option ℤ :=
  match sess with
  | none => some 1
  | some sess => (runRow np sess row).bind fun res => res[0]?.bind firstLabel

/-- The class-1 probability a classifier's session gives a row; `0` without a
session. -/
def predictProbability (np : Numpy K) (sess : Option (OnnxSession K)) (row : List K) :
    Option K :=
  match sess with
  | none => some 0
  | some sess => (runRow np sess row).bind fun res => res[1]?.map firstProbability

/-- `predict_ddos`. -/
def predictDdos (np : Numpy K) (sess : Option (OnnxSession K)) (synRatio pktEwma : K) :
    Option K :=
  predictProbability np sess [synRatio, pktEwma]

/-- `predict_dga_gbt`. -/
def predictDgaGbt (np : Numpy K) (sess : Option (OnnxSession K)) (avgLen avgEnt nxdomain : K) :
    Option K :=
  predictProbability np sess [avgLen, avgEnt, nxdomain]

/-- `predict_encrypted_rf`. -/
def predictEncryptedRf (np : Numpy K) (sess : Option (OnnxSession K))
    (meanSz varSz meanIpt sniLen : K) : Option K :=
  predictProbability np sess [meanSz, varSz, meanIpt, sniLen]

/-- `predict_recon_iso`. -/
def predictReconIso (np : Numpy K) (sess : Option (OnnxSession K)) (synRatio scanActivity : K) :
    Option ℤ :=
  predictLabel np sess [synRatio, scanActivity]

/-- `predict_exfil_iso`. -/
def predictExfilIso (np : Numpy K) (sess : Option (OnnxSession K))
    (outInRatio outBytes inBytes : K) : Option ℤ :=
  predictLabel np sess [outInRatio, outBytes, inBytes]

/-- `predict_beaconing`: the label and the score. -/
def predictBeaconing (np : Numpy K) (sess : Option (OnnxSession K)) (cv meanIat : K) :
    Option (ℤ × K) :=
  match sess with
  | none => some (1, 0)
  | some s => do
    let res ← runRow np s [cv, meanIat]
    let label ← res[0]?.bind firstLabel
    let score ← res[1]?.bind firstScore
    return (label, score)

end Engine

end Sentrix
