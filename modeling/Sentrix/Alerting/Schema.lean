import Sentrix.Lib.Value

/-!
# The alert schema

The records of `alerting/schema.py`. Timestamps and scores are exact rationals
(every finite float is one). An alert's flow is a required field, so the tests
`if new_alert.flow_id` of the code that reads it always succeed.
-/

namespace Sentrix

/-- `FlowID`: the endpoints an alert is about. -/
structure FlowID where
  srcIp : String
  dstIp : String
  srcPort : Option ℤ
  dstPort : Option ℤ
  protocol : String

/-- `Evidence`: the features an alert was raised on. -/
structure Evidence where
  /-- `Dict[str, Any]`: feature names and values. -/
  features : List (String × Value)
  explanation : String
  windowStart : Option ℚ
  windowEnd : Option ℚ

/-- `AlertRecord`. -/
structure AlertRecord where
  alertId : String
  timestamp : ℚ
  detector : String
  flowId : FlowID
  threatClass : String
  severity : String
  confidenceScore : ℚ
  evidence : Evidence
  relatedAlertIds : List String

namespace AlertRecord

/-- Whether `evidence.model_dump_json()` succeeds: the features are the only
untyped field of an alert. -/
def Serialisable (a : AlertRecord) : Prop := Value.dumpsDict a.evidence.features = true

instance (a : AlertRecord) : Decidable a.Serialisable :=
  inferInstanceAs (Decidable (_ = true))

/-- `ip` is a non-empty address of the alert's flow. -/
def HasIp (a : AlertRecord) (ip : String) : Prop :=
  ip ≠ "" ∧ (a.flowId.srcIp = ip ∨ a.flowId.dstIp = ip)

instance (a : AlertRecord) (ip : String) : Decidable (a.HasIp ip) :=
  inferInstanceAs (Decidable (_ ∧ _))

/-- The two alerts share a non-empty address, in either role. -/
def SharesIp (a b : AlertRecord) : Prop := ∃ ip, a.HasIp ip ∧ b.HasIp ip

/-- Only the two addresses of `b` can be shared. -/
theorem sharesIp_iff (a b : AlertRecord) :
    a.SharesIp b ↔ (a.HasIp b.flowId.srcIp ∨ a.HasIp b.flowId.dstIp) := by
  constructor
  · rintro ⟨ip, ha, -, rfl | rfl⟩
    · exact Or.inl ha
    · exact Or.inr ha
  · rintro (h | h)
    · exact ⟨_, h, h.1, Or.inl rfl⟩
    · exact ⟨_, h, h.1, Or.inr rfl⟩

instance (a b : AlertRecord) : Decidable (a.SharesIp b) :=
  decidable_of_iff _ (sharesIp_iff a b).symm

/-- A bare alert between two addresses. -/
def between (alertId : String) (timestamp : ℚ) (srcIp dstIp : String) : AlertRecord where
  alertId := alertId
  timestamp := timestamp
  detector := "ddos"
  flowId := ⟨srcIp, dstIp, some 40000, some 443, "TCP"⟩
  threatClass := "DDOS"
  severity := "HIGH"
  confidenceScore := 4 / 5
  evidence := ⟨[], "", none, none⟩
  relatedAlertIds := []

end AlertRecord

end Sentrix
