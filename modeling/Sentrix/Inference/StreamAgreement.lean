import Sentrix.Features.Signs
import Sentrix.Inference.Agreement

/-!
# Fast path against fallback: the other detectors

For beaconing, reconnaissance, exfiltration, encrypted traffic and DNS
exfiltration the fast path repeats all rules, but it writes the gates another
way: a feature is tested for being positive where the detector tests it for
being zero. The two forms differ on negative features only, and the scheduler
emits none (`FeatureScheduler.signed_of_emitted`). So along every packet stream
the two raise the same alerts (`fastPath_agrees_on_stream`).
-/

namespace Sentrix

variable {K : Type} [Field K] [LinearOrder K]

/-- An anomaly detector as both sides see it: a session and a pickled model of
one label function. -/
structure SharedLabels (K : Type) [Field K] [LinearOrder K] where
  label : List K → ℤ
  session : OnnxSession K
  model : PickledModel K
  session_eq : ∀ v, ∃ labels scores rest, session.run [v] = some (labels :: scores :: rest) ∧
    firstLabel labels = some (label v) ∧ (firstScore scores).isSome
  model_eq : ∀ v, model.predict v = label v

namespace SharedLabels

variable (c : SharedLabels K) (rt : Runtime K)

/-- A session over a label model answers the label of the row. -/
theorem predictLabel (values : List K) :
    Sentrix.predictLabel rt.np (some c.session) values = some (c.label (rt.row values)) := by
  obtain ⟨labels, scores, rest, hrun, hlabel, -⟩ := c.session_eq (rt.row values)
  have hrow : runRow rt.np c.session values = some (labels :: scores :: rest) := hrun
  unfold Sentrix.predictLabel
  simp [hrow, hlabel]

theorem predictBeaconing (cv meanIat : K) : ∃ score,
    Sentrix.predictBeaconing rt.np (some c.session) cv meanIat =
      some (c.label (rt.row [cv, meanIat]), score) := by
  obtain ⟨labels, scores, rest, hrun, hlabel, hscore⟩ := c.session_eq (rt.row [cv, meanIat])
  obtain ⟨score, hscore⟩ := Option.isSome_iff_exists.mp hscore
  have hrow : runRow rt.np c.session [cv, meanIat] = some (labels :: scores :: rest) := hrun
  refine ⟨score, ?_⟩
  unfold Sentrix.predictBeaconing
  simp [hrow, hlabel, hscore]

end SharedLabels

/-- Alerts of a verdict that is computed first. -/
theorem alertScore_some_ite {c : Prop} [Decidable c] {a b : Verdict K} {x y : Option K}
    (ha : alertScore (some a) = x) (hb : alertScore (some b) = y) :
    alertScore (some (if c then a else b)) = if c then x else y := by
  rw [apply_ite some]
  exact alertScore_ite ha hb

theorem alertScore_flagged (used : List (String × K)) {explanation : String}
    (hne : explanation ≠ "") (p : K) :
    alertScore (some (if p > 1 / 2 then ⟨p, used, explanation⟩ else ⟨0, used, ""⟩)) =
      flagAbove p := by
  unfold flagAbove
  by_cases hp : p > 1 / 2
  · rw [if_pos hp, if_pos hp]
    exact alertScore_explained _ hne hp
  · rw [if_neg hp, if_neg hp]
    exact alertScore_silent _ _

/-- Two explained verdicts of one score raise the same alert. -/
theorem alertScore_explained_congr {score : K} (hscore : score > 1 / 2)
    {used used' : List (String × K)} {explanation explanation' : String} (h : explanation ≠ "")
    (h' : explanation' ≠ "") :
    alertScore (some ⟨score, used, explanation⟩) =
      alertScore (some ⟨score, used', explanation'⟩) := by
  rw [alertScore_explained _ h hscore, alertScore_explained _ h' hscore]

/-- The two forms of a detector with a rule and a label: the fast path asks for
a signal before it looks at either, the detector leaves first without one. -/
theorem alertScore_gated {signal idle rule : Prop} [Decidable signal] [Decidable idle]
    [Decidable rule] {label : ℤ} {ruled flagged silent ruled' flagged' silent' : Verdict K}
    (hgate : signal ↔ ¬ idle)
    (hruled : alertScore (some ruled) = alertScore (some ruled'))
    (hflagged : alertScore (some flagged) = alertScore (some flagged'))
    (hsilent : alertScore (some silent) = alertScore (some silent')) :
    alertScore (if signal then
        if rule then some ruled
        else (some label).map fun lbl => if lbl = -1 then flagged else silent
      else some silent) =
    alertScore (if idle then some silent'
      else if rule then some ruled'
      else if label = -1 then some flagged' else some silent') := by
  -- a label decides between the same two verdicts on both sides
  have hlabel : alertScore (some (if label = -1 then flagged else silent)) =
      alertScore (if label = -1 then some flagged' else some silent') := by
    rw [apply_ite some]
    by_cases h : label = -1
    · rw [if_pos h, if_pos h, hflagged]
    · rw [if_neg h, if_neg h, hsilent]
  by_cases hidle : idle
  · rw [if_neg fun h => hgate.mp h hidle, if_pos hidle, hsilent]
  · rw [if_pos (hgate.mpr hidle), if_neg hidle]
    by_cases hrule : rule
    · rw [if_pos hrule, if_pos hrule, hruled]
    · rw [if_neg hrule, if_neg hrule]
      exact hlabel

variable [IsStrictOrderedRing K]

/-! ### Beaconing -/

/-- The two beaconing detectors agree where the mean is no negative number. -/
theorem beaconing_agrees (rt : Runtime K) (c : SharedLabels K) {fv : BeaconingVector K}
    (hsign : 0 ≤ fv.meanIat.getD 0) :
    alertScore (FastPath.beaconing rt (some c.session) fv) =
      alertScore (BeaconingDetector.predict rt (some c.model) fv) := by
  have hfast : alertScore (FastPath.beaconing rt (some c.session) fv) =
      if fv.meanIat.getD 0 > 0 ∧ fv.iatCv.getD 1 < 1 / 10 then some (9 / 10)
      else if fv.meanIat.getD 0 > 0 then
        if c.label (rt.row [fv.iatCv.getD 1, fv.meanIat.getD 0]) = -1 ∧ fv.iatCv.getD 1 < 1 / 2
        then some (17 / 20) else none
      else none := by
    obtain ⟨score, hengine⟩ := c.predictBeaconing rt (fv.iatCv.getD 1) (fv.meanIat.getD 0)
    unfold FastPath.beaconing
    refine alertScore_ite (alertScore_explained _ (by simp) (by norm_num)) ?_
    refine alertScore_ite ?_ (alertScore_silent _ _)
    rw [hengine, Option.map_some]
    exact alertScore_some_ite (alertScore_explained _ (by simp) (by norm_num))
      (alertScore_silent _ _)
  have hslow : alertScore (BeaconingDetector.predict rt (some c.model) fv) =
      if fv.meanIat.getD 0 = 0 then none
      else if fv.meanIat.getD 0 > 0 ∧ fv.iatCv.getD 1 < 1 / 10 then some (9 / 10)
      else if c.label (rt.row [fv.iatCv.getD 1, fv.meanIat.getD 0]) = -1 ∧
        fv.iatCv.getD 1 < 1 / 2 then some (17 / 20) else none := by
    unfold BeaconingDetector.predict
    refine alertScore_ite (alertScore_silent _ _) ?_
    refine alertScore_ite (alertScore_explained _ (by simp) (by norm_num)) ?_
    simp only [c.model_eq]
    exact alertScore_ite (alertScore_explained _ (by simp) (by norm_num)) (alertScore_silent _ _)
  rw [hfast, hslow]
  -- a mean gap is zero or positive, where the two gates say the same
  obtain hzero | hpos := hsign.eq_or_lt
  · simp [← hzero]
  · simp [hpos, hpos.ne']

/-! ### Reconnaissance -/

/-- The two recon detectors agree where the score is no negative number. -/
theorem recon_agrees (rt : Runtime K) (c : SharedLabels K) {fv : ReconVector K}
    (hsign : 0 ≤ fv.scanActivityScore.getD 0) :
    alertScore (FastPath.recon rt (some c.session) fv) =
      alertScore (ReconScanDetector.predict rt (some c.model) fv) := by
  have hengine : predictReconIso rt.np (some c.session) (fv.synOnlyRatio.getD 0)
      (fv.scanActivityScore.getD 0) =
      some (c.label (rt.row [fv.synOnlyRatio.getD 0, fv.scanActivityScore.getD 0])) :=
    c.predictLabel rt _
  -- the detector raises its score from zero, the fast path sets it
  have hmax : max (0 : K) (3 / 4) = 3 / 4 := max_eq_right (by norm_num)
  have hgate : fv.scanActivityScore.getD 0 > 0 ↔ ¬ fv.scanActivityScore.getD 0 = 0 :=
    hsign.lt_iff_ne'
  unfold FastPath.recon ReconScanDetector.predict
  simp only [hengine, c.model_eq, hmax]
  apply alertScore_gated hgate
  · exact alertScore_explained_congr (by norm_num) (by simp) (by simp)
  · exact alertScore_explained_congr (by norm_num) (by simp) (by simp)
  · rfl

/-! ### Exfiltration -/

/-- The two exfiltration detectors agree where both averages are no negative numbers. -/
theorem exfil_agrees (rt : Runtime K) (c : SharedLabels K) {fv : ExfilVector K}
    (hout : 0 ≤ fv.outboundBytesEwma.getD 0) (hin : 0 ≤ fv.inboundBytesEwma.getD 0) :
    alertScore (FastPath.exfil rt (some c.session) fv) =
      alertScore (ExfiltrationDetector.predict rt (some c.model) fv) := by
  have hengine : predictExfilIso rt.np (some c.session) (fv.outboundInboundRatio.getD 0)
      (fv.outboundBytesEwma.getD 0) (fv.inboundBytesEwma.getD 0) =
      some (c.label (rt.row [fv.outboundInboundRatio.getD 0, fv.outboundBytesEwma.getD 0,
        fv.inboundBytesEwma.getD 0])) := c.predictLabel rt _
  have hmax : max (0 : K) (3 / 4) = 3 / 4 := max_eq_right (by norm_num)
  -- numbers that are not negative are positive or zero
  have hgate : fv.outboundBytesEwma.getD 0 > 0 ∨ fv.inboundBytesEwma.getD 0 > 0 ↔
      ¬ (fv.outboundBytesEwma.getD 0 = 0 ∧ fv.inboundBytesEwma.getD 0 = 0) := by
    rw [not_and_or, gt_iff_lt, gt_iff_lt, hout.lt_iff_ne', hin.lt_iff_ne']
  unfold FastPath.exfil ExfiltrationDetector.predict
  simp only [hengine, c.model_eq, hmax]
  apply alertScore_gated hgate
  · exact alertScore_explained_congr (by norm_num) (by simp) (by simp)
  · exact alertScore_explained_congr (by norm_num) (by simp) (by simp)
  · rfl

/-! ### Encrypted traffic -/

namespace EncryptedVector

/-- The statistics of a vector's sequences. -/
def meanSize (fv : EncryptedVector K) : K :=
  if (fv.packetSizes.getD []).isEmpty then 0 else npMean (fv.packetSizes.getD [])

def varSize (fv : EncryptedVector K) : K :=
  if (fv.packetSizes.getD []).isEmpty then 0 else npVar (fv.packetSizes.getD [])

def meanIpt (fv : EncryptedVector K) : K :=
  if (fv.packetIpts.getD []).isEmpty then 0 else npMean (fv.packetIpts.getD [])

def row (rt : Runtime K) (fv : EncryptedVector K) : List K :=
  rt.row [fv.meanSize, fv.varSize, fv.meanIpt, fv.sniLengthEwma.getD 0]

omit [LinearOrder K] [IsStrictOrderedRing K] in
/-- The hand-written sum of squared deviations is the variance of `numpy`. -/
theorem sum_deviations (fv : EncryptedVector K) :
    (if (fv.packetSizes.getD []).isEmpty then (0 : K)
      else ((fv.packetSizes.getD []).map fun x => (x - fv.meanSize) ^ 2).sum /
        (fv.packetSizes.getD []).length) = fv.varSize := by
  unfold varSize
  -- without sizes both are zero
  by_cases hempty : (fv.packetSizes.getD []).isEmpty
  · rw [if_pos hempty, if_pos hempty]
  · have hmean : fv.meanSize = npMean (fv.packetSizes.getD []) := if_neg hempty
    have hvar : npVar (fv.packetSizes.getD []) =
        ((fv.packetSizes.getD []).map fun x => (x - npMean (fv.packetSizes.getD [])) ^ 2).sum /
          ((fv.packetSizes.getD []).map
            fun x => (x - npMean (fv.packetSizes.getD [])) ^ 2).length := rfl
    rw [if_neg hempty, if_neg hempty, hmean, hvar, List.length_map]

end EncryptedVector

omit [IsStrictOrderedRing K] in
/-- The two detectors of encrypted traffic agree where the average is no negative number. -/
theorem encrypted_agrees (rt : Runtime K) (c : SharedProbability K) {fv : EncryptedVector K}
    (hsign : 0 ≤ fv.sniLengthEwma.getD 0) :
    alertScore (FastPath.encrypted rt (some c.session) fv) =
      alertScore (EncryptedTrafficClassifier.predict rt (some c.model) fv) := by
  have hfast : alertScore (FastPath.encrypted rt (some c.session) fv) =
      if ¬ (fv.packetSizes.getD []).isEmpty ∨ ¬ (fv.packetIpts.getD []).isEmpty ∨
        fv.sniLengthEwma.getD 0 > 0 then flagAbove (c.probability (fv.row rt)) else none := by
    have hengine : predictEncryptedRf rt.np (some c.session) fv.meanSize fv.varSize fv.meanIpt
        (fv.sniLengthEwma.getD 0) = some (c.probability (fv.row rt)) := c.predictProbability rt _
    -- the fast path computes the variance by hand
    rw [← fv.sum_deviations] at hengine
    unfold FastPath.encrypted
    refine alertScore_ite ?_ (alertScore_silent _ _)
    exact alertScore_map_ofProbability hengine _ (by simp)
  have hslow : alertScore (EncryptedTrafficClassifier.predict rt (some c.model) fv) =
      if (fv.packetSizes.getD []).isEmpty ∧ (fv.packetIpts.getD []).isEmpty ∧
        fv.sniLengthEwma.getD 0 = 0 then none else flagAbove (c.probability (fv.row rt)) := by
    obtain ⟨proba, hmodel, hproba⟩ := c.model_eq
    unfold EncryptedTrafficClassifier.predict
    refine alertScore_ite (alertScore_silent _ _) ?_
    simp only [Option.bind_some, hmodel, hproba, Option.map_some]
    exact alertScore_flagged _ (by simp) (c.probability (fv.row rt))
  have hgate : (¬ (fv.packetSizes.getD []).isEmpty ∨ ¬ (fv.packetIpts.getD []).isEmpty ∨
        fv.sniLengthEwma.getD 0 > 0) ↔
      ¬ ((fv.packetSizes.getD []).isEmpty ∧ (fv.packetIpts.getD []).isEmpty ∧
        fv.sniLengthEwma.getD 0 = 0) := by
    rw [not_and_or, not_and_or, gt_iff_lt, hsign.lt_iff_ne']
  rw [hfast, hslow, if_congr hgate rfl rfl, ite_not]

/-! ### DNS exfiltration -/

/-- Without a model, the two DNS exfiltration detectors are one rule. -/
theorem dnsExfil_agrees (rt : Runtime K) (fv : DnsExfilVector K) :
    alertScore (FastPath.dnsExfil rt fv) =
      alertScore (DNSExfiltrationDetector.predict rt none fv) := by
  have hfast : alertScore (FastPath.dnsExfil rt fv) =
      if fv.txtCnameAvgEntropy.getD 0 > 9 / 2 ∧ fv.txtCnameAvgLen.getD 0 > 40 ∧
        fv.txtCnameRate.getD 0 > 5 then some (17 / 20) else none := by
    unfold FastPath.dnsExfil
    exact alertScore_ite (alertScore_explained _ (by simp) (by norm_num)) (alertScore_silent _ _)
  rw [hfast]
  unfold DNSExfiltrationDetector.predict DNSExfiltrationDetector.heuristicPredict
  exact (alertScore_ite (alertScore_explained _ (by simp) (by norm_num))
    (alertScore_silent _ _)).symm

/-! ### Along a stream -/

/-- One decision function for each model, shared by session and pickled model. -/
structure SharedModels (K : Type) [Field K] [LinearOrder K] where
  ddos : SharedProbability K
  beaconing : SharedLabels K
  dga : SharedProbability K
  encrypted : SharedProbability K
  recon : SharedLabels K
  exfil : SharedLabels K

namespace SharedModels

/-- The engine with all sessions. -/
def engine (models : SharedModels K) : OnnxEngine K where
  contains _ := true
  getSession
    | .ddos => some models.ddos.session
    | .beaconing => some models.beaconing.session
    | .dga => some models.dga.session
    | .encrypted => some models.encrypted.session
    | .recon => some models.recon.session
    | .exfil => some models.exfil.session

/-- All pickled models. -/
def fallback (models : SharedModels K) : FallbackModels K
  | .ddos => some models.ddos.model
  | .beaconing => some models.beaconing.model
  | .dga => some models.dga.model
  | .encrypted => some models.encrypted.model
  | .recon => some models.recon.model
  | .exfil => some models.exfil.model

end SharedModels

/-- What a consumer may find in an emitted vector: the vector, or an encrypted
traffic vector whose list of packet sizes has grown since. -/
inductive FeatureDict.SeenAs : FeatureDict K → FeatureDict K → Prop
  | same (fd : FeatureDict K) : SeenAs fd fd
  | grown (v : EncryptedVector K) (more : List K) :
    SeenAs (.encrypted v) (.encrypted { v with packetSizes := v.packetSizes.map (· ++ more) })

omit [IsStrictOrderedRing K] in
theorem FeatureDict.Signed.seenAs {fd seen : FeatureDict K} (h : fd.Signed)
    (hseen : fd.SeenAs seen) : seen.Signed := by
  cases hseen with
  | same => exact h
  | grown v more => exact h

/-- **The fast path agrees with the fallback along every stream.** For every
packet stream and every vector the scheduler emits for it, read when emitted or
later, the worker's fast path and the fallback detector raise the same alert
with the same score, or neither does: for beaconing, reconnaissance,
exfiltration and encrypted traffic with models of one decision function, and for
DNS exfiltration without a model. -/
theorem fastPath_agrees_on_stream (rt : Runtime K) (cfg : SchedulerConfig K)
    (models : SharedModels K) (packets : List (TimedPacket K)) :
    ∀ fired ∈ (FeatureScheduler.machine cfg).emits packets, ∀ fd ∈ fired,
      (∀ v, fd ≠ .ddos v) → (∀ v, fd ≠ .dga v) → ∀ seen, fd.SeenAs seen →
      alertScore (inferenceTask rt models.engine models.fallback seen) =
        alertScore (fallbackPredict rt models.fallback seen) := by
  intro fired hfired fd hfd hddos hdga seen hseen
  have hsigned := (FeatureScheduler.signed_of_emitted cfg packets fired hfired fd hfd).seenAs hseen
  cases seen with
  | ddos v =>
    -- a vector of the two detectors excluded is seen as it was emitted
    cases hseen
    exact absurd rfl (hddos v)
  | dga v =>
    cases hseen
    exact absurd rfl (hdga v)
  | recon v => exact recon_agrees rt models.recon hsigned
  | encrypted v => exact encrypted_agrees rt models.encrypted hsigned
  | dnsExfil v => exact dnsExfil_agrees rt v
  | beaconing v => exact beaconing_agrees rt models.beaconing hsigned
  | exfil v => exact exfil_agrees rt models.exfil hsigned.1 hsigned.2

/-- Session and model of a constant label. -/
def constantLabel (z : ℤ) : SharedLabels ℚ where
  label _ := z
  session := ⟨fun X => some [.labels (X.map fun _ => z), .scores (X.map fun _ => 0)]⟩
  model := ⟨none, fun _ => z, fun _ => none⟩
  session_eq _ := ⟨.labels [z], .scores [0], [], rfl, rfl, rfl⟩
  model_eq _ := rfl

/-- Models that see a scan in everything and nothing else. -/
def sampleModels : SharedModels ℚ where
  ddos := constantProbability 0
  beaconing := constantLabel 1
  dga := constantProbability 0
  encrypted := constantProbability 0
  recon := constantLabel (-1)
  exfil := constantLabel 1

/-- The windows of the live pipeline. The root is exact at 0 and 1, the logarithm
at 1 and 1/2, which is all that is asked below. -/
def liveConfig : SchedulerConfig ℚ where
  window1s := 1 / 10
  window5s := 1 / 2
  window60s := 1
  hash seed item := seed + item.length
  math := ⟨id, fun x => if x = 1 then 0 else -1⟩

/-- A bare SYN. -/
def synTo (dstPort : ℕ) (time : ℚ) : TimedPacket ℚ :=
  ⟨⟨"10.0.0.1", "10.0.0.2", 60, some .tcp, 40000, dstPort, 2, none⟩, time, none, none⟩

/-- The vector is one of reconnaissance features. -/
def FeatureDict.isRecon : FeatureDict ℚ → Bool
  | .recon _ => true
  | _ => false

theorem fastPath_agrees_on_stream_two_syns :
    ∃ fired ∈ (FeatureScheduler.machine liveConfig).emits [synTo 22 1, synTo 23 (6 / 5)],
      ∃ v : ReconVector ℚ, .recon v ∈ fired ∧
        alertScore (inferenceTask plainRuntime sampleModels.engine sampleModels.fallback
          (.recon v)) =
          alertScore (fallbackPredict plainRuntime sampleModels.fallback (.recon v)) := by
  have hemitted : ((FeatureScheduler.machine liveConfig).emits
      [synTo 22 1, synTo 23 (6 / 5)]).any (fun fired => fired.any FeatureDict.isRecon) = true := by
    decide +kernel
  obtain ⟨fired, hfired, hany⟩ := List.any_eq_true.mp hemitted
  obtain ⟨fd, hfd, hrecon⟩ := List.any_eq_true.mp hany
  cases fd with
  | recon v =>
    exact ⟨fired, hfired, v, hfd, fastPath_agrees_on_stream plainRuntime liveConfig sampleModels _
      fired hfired _ hfd nofun nofun _ (.same _)⟩
  | _ => cases hrecon

end Sentrix
