import Sentrix.Features.Extractors
import Sentrix.Inference.Onnx

/-!
# The fallback detectors

The detectors of `models/`: each reads a feature vector, applies its rules and,
where these are silent, asks a pickled model. `predict` answers a score, the
features it looked at and an explanation; `none` is an exception. An alert is
raised for a non-empty explanation with a score above one half (`alertScore`).
-/

namespace Sentrix

variable {K : Type} [Field K] [LinearOrder K]

/-- A pickled model, as far as the detectors use one; models work on rows. -/
structure PickledModel (K : Type) where
  /-- `predict_proba`, if the model has it: one probability per class. -/
  predictProba : Option (List K → List K)
  predict : List K → ℤ
  /-- `decision_function`; `none` if it raises. -/
  decisionFunction : List K → Option K

/-- What detectors need of the host: float arrays and number formats. -/
structure Runtime (K : Type) where
  np : Numpy K
  /-- The format `:.nf` for a number `n` of digits. -/
  fixed : ℕ → K → String
  /-- The format without a specification. -/
  str : K → String

/-- What a detector answers. -/
structure Verdict (K : Type) where
  score : K
  featuresUsed : List (String × K)
  explanation : String

/-- The score of the alert a verdict raises, if it raises one. -/
def alertScore (v : Option (Verdict K)) : Option K :=
  v.bind fun v => if v.explanation ≠ "" ∧ v.score > 1 / 2 then some v.score else none

/-- `np.array([row], dtype=np.float32)`, its only row. -/
def Runtime.row (rt : Runtime K) (values : List K) : List K := values.map rt.np.round32

/-- A verdict for a probability: flagged above one half, with the given
explanation of the score. -/
def Verdict.ofProbability (featuresUsed : List (String × K)) (explain : K → String) (score : K) :
    Verdict K :=
  ⟨score, featuresUsed, if score > 1 / 2 then explain score else ""⟩

/-! ### DDoS -/

namespace DDoSDetector

def predict (rt : Runtime K) (model : Option (PickledModel K)) (fv : DdosVector K) :
    Option (Verdict K) :=
  let synRatio := fv.synSynackRatio.getD 0
  let pktEwma := fv.dstPktEwma.getD 0
  let ampRatio := fv.ampByteRatio.getD 0
  let entropy := fv.srcIpEntropy.getD 0
  let byteEwma := fv.dstByteEwma.getD 0
  let featuresUsed := [("syn_synack_ratio", synRatio), ("dst_pkt_ewma", pktEwma),
    ("amp_byte_ratio", ampRatio), ("src_ip_entropy", entropy)]
  -- early exit gatekeeper
  if pktEwma < 2 ∧ synRatio < 2 ∧ ampRatio < 5 ∧ entropy < 3 then
    some ⟨0, featuresUsed, ""⟩
  else if synRatio > 10 then
    some ⟨19 / 20, featuresUsed, "High probability of SYN Flood: SYN to SYN-ACK ratio is " ++
      rt.fixed 1 synRatio ++ "x."⟩
  else if ampRatio > 10 then
    some ⟨49 / 50, featuresUsed, "UDP Reflection/Amplification Flood: Outbound-to-inbound byte " ++
      "amplification ratio is " ++ rt.fixed 1 ampRatio ++ "x."⟩
  -- spoofed-source floods
  else if entropy > 3 ∧ (pktEwma > 5 ∨ byteEwma > 1000) then
    some ⟨23 / 25, featuresUsed, "Spoofed IP Volumetric Flood: Source IP entropy is " ++
      rt.fixed 2 entropy ++ " bits."⟩
  else
    match model with
    | none => some ⟨0, featuresUsed, ""⟩
    | some m =>
      let x := rt.row [synRatio, pktEwma]
      match m.predictProba with
      | some proba => (rowScore (proba x)).map (Verdict.ofProbability featuresUsed fun score =>
          "LGBM classifier flagged flow with confidence " ++ rt.fixed 2 score ++ ".")
      | none =>
        if m.predict x = -1 then
          some ⟨4 / 5, featuresUsed, "Isolation Forest detected volumetric anomaly."⟩
        else some ⟨0, featuresUsed, ""⟩

end DDoSDetector

/-! ### DGA -/

namespace DGAClassifier

def predict (rt : Runtime K) (gbtModel : Option (PickledModel K)) (fv : DgaVector K) :
    Option (Verdict K) :=
  let avgLen := fv.avgQueryLength.getD 0
  let avgEnt := fv.avgQueryEntropy.getD 0
  let nxdomain := fv.nxdomainRate.getD 0
  let featuresUsed := [("avg_query_length", avgLen), ("avg_query_entropy", avgEnt),
    ("nxdomain_rate", nxdomain)]
  if avgLen = 0 then some ⟨0, featuresUsed, ""⟩
  else
    -- the entropy and length pre-filter
    let (score, explanation) : K × String :=
      if avgEnt > 7 / 2 ∧ avgLen > 15 then
        (7 / 10, "Heuristic Pre-filter: High query entropy (" ++ rt.fixed 2 avgEnt ++
          ") and length (" ++ rt.fixed 1 avgLen ++ ").")
      else (0, "")
    match gbtModel.bind PickledModel.predictProba with
    | none => some ⟨score, featuresUsed, explanation⟩
    | some proba =>
      (rowScore (proba (rt.row [avgLen, avgEnt, nxdomain]))).map fun gbtScore =>
        if gbtScore > 1 / 2 then
          ⟨max score gbtScore, featuresUsed, "GBT flagged tunneling/DGA behavior (prob: " ++
            rt.fixed 2 gbtScore ++ "). " ++ explanation⟩
        else ⟨score, featuresUsed, explanation⟩

end DGAClassifier

/-! ### Beaconing -/

namespace BeaconingDetector

def predict (rt : Runtime K) (model : Option (PickledModel K)) (fv : BeaconingVector K) :
    Option (Verdict K) :=
  let cv := fv.iatCv.getD 1
  let meanIat := fv.meanIat.getD 0
  let fanIn := fv.dstFanIn.getD 0
  let featuresUsed := [("iat_cv", cv), ("mean_iat", meanIat), ("dst_fan_in", fanIn)]
  if meanIat = 0 then some ⟨0, featuresUsed, ""⟩
  -- strict periodicity
  else if meanIat > 0 ∧ cv < 1 / 10 then
    some ⟨9 / 10, featuresUsed, "High periodicity detected: IAT CV is extremely low (" ++
      rt.fixed 3 cv ++ "), mean IAT " ++ rt.fixed 2 meanIat ++ "s."⟩
  else
    match model with
    | none => some ⟨0, featuresUsed, ""⟩
    | some m =>
      -- an outlier of low variation; bursty outliers are normal traffic
      if m.predict (rt.row [cv, meanIat]) = -1 ∧ cv < 1 / 2 then
        some ⟨17 / 20, featuresUsed, "One-Class SVM flagged abnormal timing periodicity (CV=" ++
          rt.fixed 2 cv ++ ")."⟩
      else some ⟨0, featuresUsed, ""⟩

end BeaconingDetector

/-! ### Reconnaissance -/

namespace ReconScanDetector

def predict (rt : Runtime K) (isoModel : Option (PickledModel K)) (fv : ReconVector K) :
    Option (Verdict K) :=
  let synRatio := fv.synOnlyRatio.getD 0
  let scanActivity := fv.scanActivityScore.getD 0
  let featuresUsed := [("syn_only_ratio", synRatio), ("scan_activity_score", scanActivity)]
  if scanActivity = 0 then some ⟨0, featuresUsed, ""⟩
  else if synRatio > 9 / 10 ∧ scanActivity > 50 then
    some ⟨9 / 10, featuresUsed, "Deterministic Rule: High SYN-only ratio (" ++
      rt.fixed 2 synRatio ++ ") with volume " ++ rt.fixed 0 scanActivity ++ "."⟩
  else
    match isoModel with
    | none => some ⟨0, featuresUsed, ""⟩
    | some m =>
      if m.predict (rt.row [synRatio, scanActivity]) = -1 then
        some ⟨max 0 (3 / 4), featuresUsed,
          "Isolation Forest flagged anomalous scanning cardinality relative to baseline."⟩
      else some ⟨0, featuresUsed, ""⟩

end ReconScanDetector

/-! ### Exfiltration -/

namespace ExfiltrationDetector

def predict (rt : Runtime K) (isoModel : Option (PickledModel K)) (fv : ExfilVector K) :
    Option (Verdict K) :=
  let outInRatio := fv.outboundInboundRatio.getD 0
  let outB := fv.outboundBytesEwma.getD 0
  let inB := fv.inboundBytesEwma.getD 0
  let featuresUsed := [("outbound_inbound_ratio", outInRatio), ("outbound_bytes_ewma", outB),
    ("inbound_bytes_ewma", inB)]
  if outB = 0 ∧ inB = 0 then some ⟨0, featuresUsed, ""⟩
  else if outInRatio > 10 ∧ outB > 5000 then
    some ⟨17 / 20, featuresUsed, "High Exfiltration Risk: Outbound/Inbound byte ratio is " ++
      rt.fixed 1 outInRatio ++ "x with high volume."⟩
  else
    match isoModel with
    | none => some ⟨0, featuresUsed, ""⟩
    | some m =>
      if m.predict (rt.row [outInRatio, outB, inB]) = -1 then
        some ⟨max 0 (3 / 4), featuresUsed, "Isolation Forest detected multivariate volumetric " ++
          "anomaly (potential exfiltration)."⟩
      else some ⟨0, featuresUsed, ""⟩

end ExfiltrationDetector

/-! ### Encrypted traffic -/

/-- `np.mean`. -/
def npMean (xs : List K) : K := xs.sum / xs.length

/-- `np.var`: the mean of the squared deviations from the mean. -/
def npVar (xs : List K) : K := npMean (xs.map fun x => (x - npMean xs) ^ 2)

namespace EncryptedTrafficClassifier

def predict (rt : Runtime K) (rfModel : Option (PickledModel K)) (fv : EncryptedVector K) :
    Option (Verdict K) :=
  let packetSizes := fv.packetSizes.getD []
  let packetIpts := fv.packetIpts.getD []
  let sniLen := fv.sniLengthEwma.getD 0
  let meanSize := if packetSizes.isEmpty then 0 else npMean packetSizes
  let varSize := if packetSizes.isEmpty then 0 else npVar packetSizes
  let meanIpt := if packetIpts.isEmpty then 0 else npMean packetIpts
  let featuresUsed := [("mean_size", meanSize), ("var_size", varSize), ("mean_ipt", meanIpt),
    ("sni_length_ewma", sniLen)]
  if packetSizes.isEmpty ∧ packetIpts.isEmpty ∧ sniLen = 0 then some ⟨0, featuresUsed, ""⟩
  else
    match rfModel.bind PickledModel.predictProba with
    | none => some ⟨0, featuresUsed, ""⟩
    | some proba =>
      (rowScore (proba (rt.row [meanSize, varSize, meanIpt, sniLen]))).map fun rfScore =>
        if rfScore > 1 / 2 then
          ⟨rfScore, featuresUsed, "Random Forest detected anomalous TLS handshake sequence " ++
            "(score: " ++ rt.fixed 2 rfScore ++ ")."⟩
        else ⟨0, featuresUsed, ""⟩

end EncryptedTrafficClassifier

/-! ### DNS exfiltration -/

/-- The entries a DNS exfiltration vector has. -/
def DnsExfilVector.entries (fv : DnsExfilVector K) : List (String × K) :=
  (fv.txtCnameRate.toList.map fun x => ("txt_cname_rate", x)) ++
    (fv.txtCnameAvgLen.toList.map fun x => ("txt_cname_avg_len", x)) ++
    (fv.txtCnameAvgEntropy.toList.map fun x => ("txt_cname_avg_entropy", x))

namespace DNSExfiltrationDetector

/-- `_heuristic_predict`. -/
def heuristicPredict (rt : Runtime K) (fv : DnsExfilVector K) : Option (Verdict K) :=
  let ent := fv.txtCnameAvgEntropy.getD 0
  let length := fv.txtCnameAvgLen.getD 0
  let rate := fv.txtCnameRate.getD 0
  if ent > 9 / 2 ∧ length > 40 ∧ rate > 5 then
    some ⟨17 / 20, fv.entries, "High entropy (" ++ rt.fixed 2 ent ++ ") and length (" ++
      rt.fixed 1 length ++ ") in " ++ rt.str rate ++ " TXT/CNAME queries per min."⟩
  else some ⟨0, fv.entries, ""⟩

/-- With a model, every exception falls back to the heuristic. -/
def predict (rt : Runtime K) (model : Option (PickledModel K)) (fv : DnsExfilVector K) :
    Option (Verdict K) :=
  match model with
  | none => heuristicPredict rt fv
  | some m =>
    if fv.txtCnameRate.getD 0 = 0 then some ⟨0, fv.entries, ""⟩
    else
      let x := rt.row [fv.txtCnameRate.getD 0, fv.txtCnameAvgLen.getD 0,
        fv.txtCnameAvgEntropy.getD 0]
      match m.decisionFunction x with
      | none => heuristicPredict rt fv
      | some score =>
        -- a division by zero
        if 1 + score + 1 = 0 then heuristicPredict rt fv
        else
          let prob := 1 - 1 / (1 + score + 1)
          some ⟨prob, fv.entries,
            if prob > 3 / 5 then "DNS Exfiltration detected: Entropy=" ++
              rt.fixed 2 (fv.txtCnameAvgEntropy.getD 0) ++ ", AvgLen=" ++
              rt.fixed 1 (fv.txtCnameAvgLen.getD 0)
            else ""⟩

end DNSExfiltrationDetector

end Sentrix
