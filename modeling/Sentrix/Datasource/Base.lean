import Mathlib.Logic.Function.Basic
import Sentrix.Lib.Value

/-!
# Records of the data sources

The records of `datasource/base.py`: a labelled flow, and the dictionary the
dashboard is given for it.
-/

namespace Sentrix

/-- `FlowRecord` of `datasource/base.py`. -/
structure FlowRecord where
  timestamp : ℚ
  srcIp : String
  dstIp : String
  srcPort : ℤ
  dstPort : ℤ
  protocol : String
  attackFamily : String
  severity : String
  confidence : ℚ
  generator : String
  features : List (String × Value)
  explanation : String
  pktCount : ℤ
  byteCount : ℤ
  durationS : ℚ

/-- A record of a family at a given time. -/
def FlowRecord.ofFamily (attackFamily : String) (timestamp : ℚ) : FlowRecord where
  timestamp := timestamp
  srcIp := "10.0.0.9"
  dstIp := "10.0.0.1"
  srcPort := 40000
  dstPort := 443
  protocol := "TCP"
  attackFamily := attackFamily
  severity := "HIGH"
  confidence := 9 / 10
  generator := "dataset"
  features := []
  explanation := ""
  pktCount := 1
  byteCount := 60
  durationS := 0

/-- `to_alert_dict`: the id that was drawn, and the record everything else in the
dictionary is computed from. -/
structure AlertDict where
  alertId : String
  record : FlowRecord

/-- `str(uuid.uuid4())`: the ids drawn one after another. They are taken to be
distinct. -/
structure UuidSource where
  draw : ℕ → String
  injective : Function.Injective draw
  nonempty : ∀ n, draw n ≠ ""

end Sentrix
