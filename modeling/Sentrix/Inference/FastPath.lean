import Sentrix.Features.Scheduler
import Sentrix.Inference.Worker
import Sentrix.Models.Detectors

/-!
# The live pipeline's inference worker

`inference_worker` of the end-to-end pipeline scores a feature vector in one of
two ways. If the engine has an ONNX model of the detector's name it runs the
fast path: the detector's rules written out again, with the engine in place of
the pickled model. Otherwise it asks the fallback detector. DNS exfiltration has
no ONNX model, and its heuristic is written out in the worker as well.
-/

namespace Sentrix

variable {K : Type} [Field K] [LinearOrder K]

namespace FastPath

def ddos (rt : Runtime K) (sess : Option (OnnxSession K)) (fv : DdosVector K) :
    Option (Verdict K) :=
  let synR := fv.synSynackRatio.getD 0
  let pktEwma := fv.dstPktEwma.getD 0
  let ampR := fv.ampByteRatio.getD 0
  let ent := fv.srcIpEntropy.getD 0
  let featsUsed := [("syn_synack_ratio", synR), ("dst_pkt_ewma", pktEwma),
    ("amp_byte_ratio", ampR), ("src_ip_entropy", ent)]
  if synR > 10 then
    some ⟨19 / 20, featsUsed, "High probability of SYN Flood: SYN to SYN-ACK ratio is " ++
      rt.fixed 1 synR ++ "x."⟩
  else if ampR > 10 then
    some ⟨49 / 50, featsUsed, "UDP Reflection/Amplification Flood: Outbound-to-inbound byte " ++
      "amplification ratio is " ++ rt.fixed 1 ampR ++ "x."⟩
  else
    (predictDdos rt.np sess synR pktEwma).map (Verdict.ofProbability featsUsed fun score =>
      "ONNX LightGBM flagged DDoS volumetric flood (prob: " ++ rt.fixed 2 score ++ ").")

def beaconing (rt : Runtime K) (sess : Option (OnnxSession K)) (fv : BeaconingVector K) :
    Option (Verdict K) :=
  let cv := fv.iatCv.getD 1
  let meanIat := fv.meanIat.getD 0
  let featsUsed := [("iat_cv", cv), ("mean_iat", meanIat)]
  if meanIat > 0 ∧ cv < 1 / 10 then
    some ⟨9 / 10, featsUsed, "High periodicity detected: IAT CV is extremely low (" ++
      rt.fixed 3 cv ++ "), mean IAT " ++ rt.fixed 2 meanIat ++ "s."⟩
  else if meanIat > 0 then
    (predictBeaconing rt.np sess cv meanIat).map fun r =>
      if r.1 = -1 ∧ cv < 1 / 2 then
        ⟨17 / 20, featsUsed, "ONNX One-Class SVM flagged abnormal periodicity (CV=" ++
          rt.fixed 2 cv ++ ")."⟩
      else ⟨0, featsUsed, ""⟩
  else some ⟨0, featsUsed, ""⟩

def dga (rt : Runtime K) (sess : Option (OnnxSession K)) (fv : DgaVector K) : Option (Verdict K) :=
  let avgL := fv.avgQueryLength.getD 0
  let avgE := fv.avgQueryEntropy.getD 0
  let nx := fv.nxdomainRate.getD 0
  let featsUsed := [("avg_query_length", avgL), ("avg_query_entropy", avgE), ("nxdomain_rate", nx)]
  if avgL > 0 then
    (predictDgaGbt rt.np sess avgL avgE nx).map (Verdict.ofProbability featsUsed fun score =>
      "ONNX LightGBM flagged DGA tunneling activity (prob: " ++ rt.fixed 2 score ++ ").")
  else some ⟨0, featsUsed, ""⟩

def encrypted (rt : Runtime K) (sess : Option (OnnxSession K)) (fv : EncryptedVector K) :
    Option (Verdict K) :=
  let szs := fv.packetSizes.getD []
  let ipts := fv.packetIpts.getD []
  let sni := fv.sniLengthEwma.getD 0
  let mSz : K := if szs.isEmpty then 0 else szs.sum / szs.length
  let vSz : K := if szs.isEmpty then 0 else (szs.map fun x => (x - mSz) ^ 2).sum / szs.length
  let mIpt : K := if ipts.isEmpty then 0 else ipts.sum / ipts.length
  let featsUsed := [("mean_size", mSz), ("var_size", vSz), ("mean_ipt", mIpt),
    ("sni_length_ewma", sni)]
  if ¬ szs.isEmpty ∨ ¬ ipts.isEmpty ∨ sni > 0 then
    (predictEncryptedRf rt.np sess mSz vSz mIpt sni).map
      (Verdict.ofProbability featsUsed fun score =>
        "ONNX Random Forest flagged anomalous TLS sequence (prob: " ++ rt.fixed 2 score ++ ").")
  else some ⟨0, featsUsed, ""⟩

def recon (rt : Runtime K) (sess : Option (OnnxSession K)) (fv : ReconVector K) :
    Option (Verdict K) :=
  let synR := fv.synOnlyRatio.getD 0
  let act := fv.scanActivityScore.getD 0
  let featsUsed := [("syn_only_ratio", synR), ("scan_activity_score", act)]
  if act > 0 then
    if synR > 9 / 10 ∧ act > 50 then
      some ⟨9 / 10, featsUsed, "Deterministic Rule: High SYN-only ratio (" ++ rt.fixed 2 synR ++
        ") with volume " ++ rt.fixed 0 act ++ "."⟩
    else
      (predictReconIso rt.np sess synR act).map fun lbl =>
        if lbl = -1 then
          ⟨3 / 4, featsUsed, "ONNX Isolation Forest flagged anomalous scan volume."⟩
        else ⟨0, featsUsed, ""⟩
  else some ⟨0, featsUsed, ""⟩

def exfil (rt : Runtime K) (sess : Option (OnnxSession K)) (fv : ExfilVector K) :
    Option (Verdict K) :=
  let ratio := fv.outboundInboundRatio.getD 0
  let outB := fv.outboundBytesEwma.getD 0
  let inB := fv.inboundBytesEwma.getD 0
  let featsUsed := [("outbound_inbound_ratio", ratio), ("outbound_bytes_ewma", outB),
    ("inbound_bytes_ewma", inB)]
  if outB > 0 ∨ inB > 0 then
    if ratio > 10 ∧ outB > 5000 then
      some ⟨17 / 20, featsUsed, "High Exfiltration Risk: Byte ratio " ++ rt.fixed 1 ratio ++
        "x with high volume."⟩
    else
      (predictExfilIso rt.np sess ratio outB inB).map fun lbl =>
        if lbl = -1 then
          ⟨3 / 4, featsUsed, "ONNX Isolation Forest detected outbound volumetric exfiltration."⟩
        else ⟨0, featsUsed, ""⟩
  else some ⟨0, featsUsed, ""⟩

/-- The heuristic of the branch without an ONNX model. -/
def dnsExfil (rt : Runtime K) (fv : DnsExfilVector K) : Option (Verdict K) :=
  let ent := fv.txtCnameAvgEntropy.getD 0
  let length := fv.txtCnameAvgLen.getD 0
  let rate := fv.txtCnameRate.getD 0
  let featsUsed := [("txt_cname_avg_entropy", ent), ("txt_cname_avg_len", length),
    ("txt_cname_rate", rate)]
  if ent > 9 / 2 ∧ length > 40 ∧ rate > 5 then
    some ⟨17 / 20, featsUsed, "High entropy (" ++ rt.fixed 2 ent ++ ") and length (" ++
      rt.fixed 1 length ++ ") in " ++ rt.str rate ++ " TXT/CNAME queries per min."⟩
  else some ⟨0, featsUsed, ""⟩

end FastPath

/-- `ONNXInferenceEngine`, as the worker uses it. -/
structure OnnxEngine (K : Type) where
  /-- `name in sessions`: the model file exists. -/
  contains : ModelName → Bool
  /-- `get_session`; a file that cannot be loaded gives none. -/
  getSession : ModelName → Option (OnnxSession K)

/-- The pickled models found for the fallback detectors. -/
abbrev FallbackModels (K : Type) := ModelName → Option (PickledModel K)

/-- The fallback detector's answer to a vector; DNS exfiltration has no model. -/
def fallbackPredict (rt : Runtime K) (models : FallbackModels K) :
    FeatureDict K → Option (Verdict K)
  | .ddos fv => DDoSDetector.predict rt (models .ddos) fv
  | .recon fv => ReconScanDetector.predict rt (models .recon) fv
  | .dga fv => DGAClassifier.predict rt (models .dga) fv
  | .encrypted fv => EncryptedTrafficClassifier.predict rt (models .encrypted) fv
  | .dnsExfil fv => DNSExfiltrationDetector.predict rt none fv
  | .beaconing fv => BeaconingDetector.predict rt (models .beaconing) fv
  | .exfil fv => ExfiltrationDetector.predict rt (models .exfil) fv

/-- The worker's verdict on one task. -/
def inferenceTask (rt : Runtime K) (engine : OnnxEngine K) (models : FallbackModels K)
    (fd : FeatureDict K) : Option (Verdict K) :=
  let either (m : ModelName) (fast : Option (OnnxSession K) → Option (Verdict K)) :=
    if engine.contains m then fast (engine.getSession m) else fallbackPredict rt models fd
  match fd with
  | .ddos fv => either .ddos (FastPath.ddos rt · fv)
  | .recon fv => either .recon (FastPath.recon rt · fv)
  | .dga fv => either .dga (FastPath.dga rt · fv)
  | .encrypted fv => either .encrypted (FastPath.encrypted rt · fv)
  | .dnsExfil fv => FastPath.dnsExfil rt fv
  | .beaconing fv => either .beaconing (FastPath.beaconing rt · fv)
  | .exfil fv => either .exfil (FastPath.exfil rt · fv)

end Sentrix
