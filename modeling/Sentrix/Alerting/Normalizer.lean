import Mathlib.Algebra.Order.Field.Basic
import Mathlib.Algebra.Order.Ring.Rat
import Mathlib.Algebra.Field.Rat
import Sentrix.Alerting.Schema

/-!
# The alert normalizer

`AlertNormalizer` of `alerting/normalizer.py` turns a detector's raw output into
an `AlertRecord`. The score is calibrated when the detector has a calibrator and
the calibrator answers, then clamped to `[0, 1]`; the severity is read off the
result. Building the record validates its fields, so `normalize` fails on values
the schema cannot convert.
-/

namespace Sentrix

/-- What the schema's validation and `float(…)` make of values that are not of
the type asked for; `none` if they are refused. -/
structure Coercions where
  str : Value → Option String
  int : Value → Option ℤ
  float : Value → Option ℚ

namespace Coercions

variable (c : Coercions)

/-- A `str` field. -/
def asStr : Value → Option String
  | .str s => some s
  | v => c.str v

/-- An `Optional[int]` field. -/
def asOptInt : Value → Option (Option ℤ)
  | .none => some none
  -- a number with a fractional part is refused
  | .num q => if q.den = 1 then some (some q.num) else none
  | v => (c.int v).map some

/-- `float(v)`. -/
def asFloat : Value → Option ℚ
  | .num q => some q
  | v => c.float v

end Coercions

/-- `AlertNormalizer`: the calibrators that were found. A calibrator that raises
answers `none`. -/
structure AlertNormalizer where
  calibrators : String → Option (ℚ → Option ℚ)

namespace AlertNormalizer

def getSeverity (confidence : ℚ) : String :=
  if confidence ≥ 9 / 10 then "CRITICAL"
  else if confidence ≥ 3 / 4 then "HIGH"
  else if confidence ≥ 1 / 2 then "MEDIUM"
  else "LOW"

/-- The calibrated score, clamped to `[0, 1]`. -/
def confidence (nz : AlertNormalizer) (detectorName : String) (rawScore : ℚ) : ℚ :=
  let calibrated :=
    match nz.calibrators detectorName with
    | none => rawScore
    -- a calibrator that fails leaves the raw score
    | some predict => (predict rawScore).getD rawScore
  max 0 (min 1 calibrated)

/-- `AlertNormalizer.normalize`, the record's id being drawn by its caller. -/
def normalize (nz : AlertNormalizer) (c : Coercions) (alertId detectorName : String) (rawScore : ℚ)
    (featureValues : List (String × Value)) (explanation : String)
    (flowInfo : List (String × Value)) (timestamp : Value)
    (windowStart windowEnd : Option ℚ) : Option AlertRecord := do
  let info (key : String) (default : Value) := (flowInfo.lookup key).getD default
  let confidence := nz.confidence detectorName rawScore
  let srcIp ← c.asStr (info "src_ip" (.str ""))
  let dstIp ← c.asStr (info "dst_ip" (.str ""))
  let srcPort ← c.asOptInt (info "src_port" .none)
  let dstPort ← c.asOptInt (info "dst_port" .none)
  let protocol ← c.asStr (info "protocol" (.str "UNKNOWN"))
  let time ← c.asFloat timestamp
  return {
    alertId := alertId
    timestamp := time
    detector := detectorName
    flowId := ⟨srcIp, dstIp, srcPort, dstPort, protocol⟩
    threatClass := detectorName.toUpper
    severity := getSeverity confidence
    confidenceScore := confidence
    evidence := ⟨featureValues, explanation, windowStart, windowEnd⟩
    relatedAlertIds := [] }

/-- The record is what the schema has made of the values it was given. -/
theorem normalize_eq_some {nz : AlertNormalizer} {c : Coercions}
    {alertId detectorName explanation : String} {rawScore : ℚ}
    {featureValues flowInfo : List (String × Value)} {timestamp : Value}
    {windowStart windowEnd : Option ℚ} {a : AlertRecord}
    (h : nz.normalize c alertId detectorName rawScore featureValues explanation flowInfo timestamp
      windowStart windowEnd = some a) :
    (c.asStr ((flowInfo.lookup "src_ip").getD (.str "")) = some a.flowId.srcIp ∧
      c.asStr ((flowInfo.lookup "dst_ip").getD (.str "")) = some a.flowId.dstIp ∧
      c.asOptInt ((flowInfo.lookup "src_port").getD .none) = some a.flowId.srcPort ∧
      c.asOptInt ((flowInfo.lookup "dst_port").getD .none) = some a.flowId.dstPort ∧
      c.asStr ((flowInfo.lookup "protocol").getD (.str "UNKNOWN")) = some a.flowId.protocol) ∧
    c.asFloat timestamp = some a.timestamp ∧ a.alertId = alertId ∧ a.detector = detectorName ∧
      a.threatClass = detectorName.toUpper ∧
      a.evidence = ⟨featureValues, explanation, windowStart, windowEnd⟩ ∧
      a.relatedAlertIds = [] := by
  unfold normalize at h
  simp only [Option.bind_eq_bind, Option.bind_eq_some_iff, Option.pure_def,
    Option.some.injEq] at h
  -- each conversion has succeeded, or there were no record
  obtain ⟨src, hsrc, dst, hdst, sport, hsport, dport, hdport, proto, hproto, time, htime, rfl⟩ := h
  exact ⟨⟨hsrc, hdst, hsport, hdport, hproto⟩, htime, rfl, rfl, rfl, rfl, rfl⟩

end AlertNormalizer

end Sentrix
