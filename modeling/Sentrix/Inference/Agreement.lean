import Mathlib.Tactic.Linarith
import Mathlib.Tactic.NormNum
import Sentrix.Inference.FastPath

/-!
# Fast path against fallback: DDoS and DGA

The fast path repeats the detectors' rules, and for these two detectors it does
not repeat all of them: it has neither the DDoS gatekeeper nor the rule for
spoofed sources, and not the DGA pre-filter. Given an ONNX session and a pickled
model of one probability function, this module says on which vectors the two
raise the same alert (`fastPath_agrees_iff`).
-/

namespace Sentrix

variable {K : Type} [Field K] [LinearOrder K]

/-- A classifier as both sides see it: a session and a pickled model that
compute one probability function. -/
structure SharedProbability (K : Type) [Field K] [LinearOrder K] where
  probability : List K → K
  session : OnnxSession K
  model : PickledModel K
  session_eq : ∀ v, ∃ labels d ds rest,
    session.run [v] = some (labels :: .zipMap (d :: ds) :: rest) ∧ d.get? 1 = some (probability v)
  model_eq : ∃ proba, model.predictProba = some proba ∧
    ∀ v, rowScore (proba v) = some (probability v)

/-- What the engine reads off the session is the probability. -/
theorem SharedProbability.predictProbability (c : SharedProbability K) (rt : Runtime K)
    (values : List K) :
    Sentrix.predictProbability rt.np (some c.session) values =
      some (c.probability (rt.row values)) := by
  obtain ⟨labels, d, ds, rest, hrun, hget⟩ := c.session_eq (rt.row values)
  have hrow : runRow rt.np c.session values = some (labels :: .zipMap (d :: ds) :: rest) := hrun
  unfold Sentrix.predictProbability
  simp [hrow, firstProbability, hget]

/-! ### Alerts -/

/-- A probability raises an alert above one half. -/
def flagAbove (p : K) : Option K := if p > 1 / 2 then some p else none

theorem flagAbove_eq_none {p : K} : flagAbove p = none ↔ p ≤ 1 / 2 := by
  unfold flagAbove
  split
  · next hp => exact ⟨fun h => absurd h (Option.some_ne_none _), fun h => absurd hp (not_lt.mpr h)⟩
  · next hp => exact ⟨fun _ => not_lt.mp hp, fun _ => rfl⟩

theorem flagAbove_eq_some {p q : K} : flagAbove p = some q ↔ p = q ∧ q > 1 / 2 := by
  unfold flagAbove
  constructor
  · intro h
    split at h
    · next hp =>
      obtain rfl := Option.some.inj h
      exact ⟨rfl, hp⟩
    · cases h
  · rintro ⟨rfl, hp⟩
    exact if_pos hp

theorem alertScore_map_ofProbability {q : Option K} {p : K} (hq : q = some p)
    (used : List (String × K)) {explain : K → String} (hne : ∀ p, explain p ≠ "") :
    alertScore (q.map (Verdict.ofProbability used explain)) = flagAbove p := by
  subst hq
  unfold alertScore flagAbove Verdict.ofProbability
  -- the explanation is empty exactly when the score does not alert
  by_cases hp : p > 1 / 2
  · have hexpl : explain p ≠ "" := hne p
    simp only [Option.map_some, Option.bind_some, if_pos hp]
    rw [if_pos ⟨hexpl, hp⟩]
  · simp only [Option.map_some, Option.bind_some, if_neg hp]
    rw [if_neg fun h => h.1 rfl]

/-- A verdict without an explanation raises nothing. -/
theorem alertScore_silent (used : List (String × K)) (score : K) :
    alertScore (some ⟨score, used, ""⟩) = none := by
  simp [alertScore]

/-- An explained verdict above one half raises its score. -/
theorem alertScore_explained {score : K} (used : List (String × K)) {explanation : String}
    (hne : explanation ≠ "") (hscore : score > 1 / 2) :
    alertScore (some ⟨score, used, explanation⟩) = some score := if_pos ⟨hne, hscore⟩

/-- Alerts, branch by branch. -/
theorem alertScore_ite {c : Prop} [Decidable c] {a b : Option (Verdict K)} {x y : Option K}
    (ha : alertScore a = x) (hb : alertScore b = y) :
    alertScore (if c then a else b) = if c then x else y := by
  rw [apply_ite alertScore, ha, hb]

variable [IsStrictOrderedRing K]

/-! ### DDoS -/

namespace DdosVector

/-- The gatekeeper's test: nothing noticeable. -/
def Quiet (fv : DdosVector K) : Prop :=
  fv.dstPktEwma.getD 0 < 2 ∧ fv.synSynackRatio.getD 0 < 2 ∧ fv.ampByteRatio.getD 0 < 5 ∧
    fv.srcIpEntropy.getD 0 < 3

/-- The test for floods from spoofed sources. -/
def Spoofed (fv : DdosVector K) : Prop :=
  fv.srcIpEntropy.getD 0 > 3 ∧ (fv.dstPktEwma.getD 0 > 5 ∨ fv.dstByteEwma.getD 0 > 1000)

instance (fv : DdosVector K) : Decidable fv.Quiet := inferInstanceAs (Decidable (_ ∧ _))

instance (fv : DdosVector K) : Decidable fv.Spoofed := inferInstanceAs (Decidable (_ ∧ _))

/-- The row the model is asked about. -/
def row (rt : Runtime K) (fv : DdosVector K) : List K :=
  rt.row [fv.synSynackRatio.getD 0, fv.dstPktEwma.getD 0]

end DdosVector

/-- The alert of the fast path. -/
theorem alertScore_fastDdos (rt : Runtime K) (c : SharedProbability K) (fv : DdosVector K) :
    alertScore (FastPath.ddos rt (some c.session) fv) =
      if fv.synSynackRatio.getD 0 > 10 then some (19 / 20)
      else if fv.ampByteRatio.getD 0 > 10 then some (49 / 50)
      else flagAbove (c.probability (fv.row rt)) := by
  unfold FastPath.ddos
  refine alertScore_ite (alertScore_explained _ (by simp) (by norm_num)) ?_
  refine alertScore_ite (alertScore_explained _ (by simp) (by norm_num)) ?_
  have hengine : predictDdos rt.np (some c.session) (fv.synSynackRatio.getD 0)
      (fv.dstPktEwma.getD 0) = some (c.probability (fv.row rt)) := c.predictProbability rt _
  exact alertScore_map_ofProbability hengine _ (by simp)

/-- The alert of the fallback detector: two more rules. -/
theorem alertScore_predictDdos (rt : Runtime K) (c : SharedProbability K) (fv : DdosVector K) :
    alertScore (DDoSDetector.predict rt (some c.model) fv) =
      if fv.Quiet then none
      else if fv.synSynackRatio.getD 0 > 10 then some (19 / 20)
      else if fv.ampByteRatio.getD 0 > 10 then some (49 / 50)
      else if fv.Spoofed then some (23 / 25)
      else flagAbove (c.probability (fv.row rt)) := by
  obtain ⟨proba, hmodel, hproba⟩ := c.model_eq
  unfold DDoSDetector.predict
  refine alertScore_ite (alertScore_silent _ _) ?_
  refine alertScore_ite (alertScore_explained _ (by simp) (by norm_num)) ?_
  refine alertScore_ite (alertScore_explained _ (by simp) (by norm_num)) ?_
  refine alertScore_ite (alertScore_explained _ (by simp) (by norm_num)) ?_
  -- no rule applies, and the model is asked
  simp only [hmodel]
  exact alertScore_map_ofProbability (hproba _) _ (by simp)

/-- Where fast path and detector raise the same DDoS alert. -/
def DdosVector.Agrees (fv : DdosVector K) (p : K) : Prop :=
  fv.synSynackRatio.getD 0 > 10 ∨ fv.ampByteRatio.getD 0 > 10 ∨
    ((fv.Quiet → p ≤ 1 / 2) ∧ (fv.Spoofed → p = 23 / 25))

/-- The two DDoS detectors raise the same on exactly these vectors. -/
theorem ddos_agrees_iff (rt : Runtime K) (c : SharedProbability K) (fv : DdosVector K) :
    alertScore (FastPath.ddos rt (some c.session) fv) =
      alertScore (DDoSDetector.predict rt (some c.model) fv) ↔
    fv.Agrees (c.probability (fv.row rt)) := by
  rw [alertScore_fastDdos, alertScore_predictDdos]
  unfold DdosVector.Agrees
  set p := c.probability (fv.row rt)
  by_cases hsyn : fv.synSynackRatio.getD 0 > 10
  · -- a SYN flood is noticeable, so the gatekeeper lets it through
    have hquiet : ¬ fv.Quiet := fun h => by linarith [h.2.1]
    simp [hsyn, hquiet]
  · by_cases hamp : fv.ampByteRatio.getD 0 > 10
    -- likewise an amplification flood
    · have hquiet : ¬ fv.Quiet := fun h => by linarith [h.2.2.1]
      simp [hsyn, hamp, hquiet]
    · rw [if_neg hsyn, if_neg hamp]
      by_cases hquiet : fv.Quiet
      · -- the gatekeeper ends the detector: agreement is silence of the model
        have hspoof : ¬ fv.Spoofed := fun h => by linarith [h.1, hquiet.2.2.2]
        rw [if_pos hquiet, flagAbove_eq_none]
        simp only [hsyn, hamp, hquiet, hspoof, false_or, true_imp_iff, false_imp_iff, and_true]
      · rw [if_neg hquiet, if_neg hsyn, if_neg hamp]
        by_cases hspoof : fv.Spoofed
        · -- the detector's own rule raises 0.92: agreement is the model's saying the same
          have hhalf : (23 / 25 : K) > 1 / 2 := by norm_num
          rw [if_pos hspoof, flagAbove_eq_some]
          simp only [hsyn, hamp, hquiet, hspoof, hhalf, false_or, true_imp_iff, false_imp_iff,
            and_true, true_and]
        -- the model decides on both sides
        · rw [if_neg hspoof]
          simp [hquiet, hspoof]

/-! ### DGA -/

namespace DgaVector

/-- The pre-filter's test. -/
def Suspicious (fv : DgaVector K) : Prop :=
  fv.avgQueryEntropy.getD 0 > 7 / 2 ∧ fv.avgQueryLength.getD 0 > 15

instance (fv : DgaVector K) : Decidable fv.Suspicious := inferInstanceAs (Decidable (_ ∧ _))

def row (rt : Runtime K) (fv : DgaVector K) : List K :=
  rt.row [fv.avgQueryLength.getD 0, fv.avgQueryEntropy.getD 0, fv.nxdomainRate.getD 0]

end DgaVector

omit [IsStrictOrderedRing K] in
/-- The fast path for DGA flags by the probability alone, once there was a query. -/
theorem alertScore_fastDga (rt : Runtime K) (c : SharedProbability K) (fv : DgaVector K) :
    alertScore (FastPath.dga rt (some c.session) fv) =
      if fv.avgQueryLength.getD 0 > 0 then flagAbove (c.probability (fv.row rt)) else none := by
  unfold FastPath.dga
  refine alertScore_ite ?_ (alertScore_silent _ _)
  have hengine : predictDgaGbt rt.np (some c.session) (fv.avgQueryLength.getD 0)
      (fv.avgQueryEntropy.getD 0) (fv.nxdomainRate.getD 0) =
      some (c.probability (fv.row rt)) := c.predictProbability rt _
  exact alertScore_map_ofProbability hengine _ (by simp)

/-- The detector's score is at least the pre-filter's. -/
theorem alertScore_predictDga (rt : Runtime K) (c : SharedProbability K) (fv : DgaVector K) :
    alertScore (DGAClassifier.predict rt (some c.model) fv) =
      if fv.avgQueryLength.getD 0 = 0 then none
      else if fv.Suspicious then some (max (7 / 10) (c.probability (fv.row rt)))
      else flagAbove (c.probability (fv.row rt)) := by
  obtain ⟨proba, hmodel, hproba⟩ := c.model_eq
  unfold DGAClassifier.predict
  refine alertScore_ite (alertScore_silent _ _) ?_
  have hscore : rowScore (proba (rt.row [fv.avgQueryLength.getD 0, fv.avgQueryEntropy.getD 0,
      fv.nxdomainRate.getD 0])) = some (c.probability (fv.row rt)) := hproba _
  simp only [Option.bind_some, hmodel, hscore, Option.map_some]
  by_cases hsus : fv.Suspicious
  · -- the pre-filter's score and explanation, raised by the model at most
    have hfilter : fv.avgQueryEntropy.getD 0 > 7 / 2 ∧ fv.avgQueryLength.getD 0 > 15 := hsus
    rw [if_pos hsus]
    simp only [if_pos hfilter]
    split
    · next hp =>
      refine alertScore_explained _ (by simp) ?_
      exact lt_of_lt_of_le hp (le_max_right _ _)
    · next hp =>
      have hmax : max (7 / 10) (c.probability (fv.row rt)) = 7 / 10 :=
        max_eq_left (by linarith [not_lt.mp hp])
      rw [hmax]
      exact alertScore_explained _ (by simp) (by norm_num)
  -- the pre-filter is silent, and the score is the model's
  · have hfilter : ¬ (fv.avgQueryEntropy.getD 0 > 7 / 2 ∧ fv.avgQueryLength.getD 0 > 15) := hsus
    rw [if_neg hsus]
    simp only [if_neg hfilter]
    unfold flagAbove
    split
    · next hp =>
      have hmax : max 0 (c.probability (fv.row rt)) = c.probability (fv.row rt) :=
        max_eq_right (by linarith)
      rw [hmax]
      exact alertScore_explained _ (by simp) hp
    · exact alertScore_silent _ _

/-- Where fast path and detector raise the same DGA alert. -/
def DgaVector.Agrees (fv : DgaVector K) (p : K) : Prop :=
  (fv.avgQueryLength.getD 0 < 0 → p ≤ 1 / 2) ∧ (fv.Suspicious → p ≥ 7 / 10)

/-- The two DGA detectors raise the same on exactly these vectors. -/
theorem dga_agrees_iff (rt : Runtime K) (c : SharedProbability K) (fv : DgaVector K) :
    alertScore (FastPath.dga rt (some c.session) fv) =
      alertScore (DGAClassifier.predict rt (some c.model) fv) ↔
    fv.Agrees (c.probability (fv.row rt)) := by
  rw [alertScore_fastDga, alertScore_predictDga]
  unfold DgaVector.Agrees
  set p := c.probability (fv.row rt)
  obtain hlen | hlen | hlen := lt_trichotomy (fv.avgQueryLength.getD 0) 0
  · -- a negative length, which only a damaged vector has: the detector asks the model
    have hsus : ¬ fv.Suspicious := fun h => by linarith [h.2]
    rw [if_neg (not_lt.mpr hlen.le), if_neg hlen.ne, if_neg hsus, eq_comm, flagAbove_eq_none]
    exact ⟨fun h => ⟨fun _ => h, fun h' => absurd h' hsus⟩, fun h => h.1 hlen⟩
  -- no name seen: both gates are shut
  · have hsus : ¬ fv.Suspicious := fun h => by linarith [h.2]
    simp [hlen, hsus]
  · rw [if_pos hlen, if_neg hlen.ne']
    by_cases hsus : fv.Suspicious
    · -- the detector's score is at least 0.7
      have hmax : p = max (7 / 10) p ∧ max (7 / 10) p > 1 / 2 ↔ p ≥ 7 / 10 := by
        constructor
        · rintro ⟨h, -⟩
          exact max_eq_right_iff.mp h.symm
        · intro h
          rw [max_eq_right h]
          exact ⟨rfl, by linarith⟩
      rw [if_pos hsus, flagAbove_eq_some, hmax]
      simp [hsus, not_lt.mpr hlen.le]
    · rw [if_neg hsus]
      simp [hsus, not_lt.mpr hlen.le]

/-- **Where the fast path agrees with the fallback, for DDoS and DGA.** Given
one probability function, the two raise the same alert with the same score for
exactly these vectors. DDoS: a SYN or amplification flood, or a probability that
does not alert on a quiet vector and is the spoofing rule's score on a spoofed
one. DGA: a probability that does not alert on a negative length and is at least
the pre-filter's score on a suspicious vector. -/
theorem fastPath_agrees_iff (rt : Runtime K) (ddos dga : SharedProbability K) :
    (∀ fv : DdosVector K,
      alertScore (FastPath.ddos rt (some ddos.session) fv) =
        alertScore (DDoSDetector.predict rt (some ddos.model) fv) ↔
      fv.Agrees (ddos.probability (fv.row rt))) ∧
    ∀ fv : DgaVector K,
      alertScore (FastPath.dga rt (some dga.session) fv) =
        alertScore (DGAClassifier.predict rt (some dga.model) fv) ↔
      fv.Agrees (dga.probability (fv.row rt)) :=
  ⟨ddos_agrees_iff rt ddos, dga_agrees_iff rt dga⟩

/-! ### A classifier of one opinion -/

/-- Session and model of a constant probability. -/
def constantProbability (q : ℚ) : SharedProbability ℚ where
  probability _ := q
  session := ⟨fun X => some [.labels (X.map fun _ => 0),
    .zipMap (X.map fun _ => (Dict.empty.set 0 (1 - q)).set 1 q)]⟩
  model := ⟨some fun _ => [1 - q, q], fun _ => 1, fun _ => none⟩
  session_eq _ := ⟨.labels [0], (Dict.empty.set 0 (1 - q)).set 1 q, [], [], rfl,
    Dict.get?_set_self _ _ _⟩
  model_eq := ⟨fun _ => [1 - q, q], rfl, fun _ => rfl⟩

/-- Numbers are kept as they are and written as fractions. -/
def plainRuntime : Runtime ℚ := ⟨⟨id, fun _ => none⟩, fun _ q => toString q, fun q => toString q⟩

/-- A flood from many sources: entropy four bits, six packets. -/
def spoofedFlood : DdosVector ℚ := ⟨some 4, some 6, some 0, some 1, some 0⟩

/-- Long random names. -/
def randomNames : DgaVector ℚ := ⟨some 20, some 4, some 0⟩

theorem fastPath_agrees_iff_confident :
    alertScore (FastPath.ddos plainRuntime (some (constantProbability (23 / 25)).session)
      spoofedFlood) =
      alertScore (DDoSDetector.predict plainRuntime (some (constantProbability (23 / 25)).model)
        spoofedFlood) ∧
    alertScore (FastPath.dga plainRuntime (some (constantProbability (9 / 10)).session)
      randomNames) =
      alertScore (DGAClassifier.predict plainRuntime (some (constantProbability (9 / 10)).model)
        randomNames) := by
  obtain ⟨hddos, hdga⟩ := fastPath_agrees_iff plainRuntime (constantProbability (23 / 25))
    (constantProbability (9 / 10))
  constructor
  · refine (hddos spoofedFlood).mpr (Or.inr (Or.inr ⟨fun h => ?_, fun _ => rfl⟩))
    have hpkt : (6 : ℚ) < 2 := h.1
    norm_num at hpkt
  · refine (hdga randomNames).mpr ⟨fun h => ?_, fun _ => ?_⟩
    · have hlen : (20 : ℚ) < 0 := h
      norm_num at hlen
    · show (9 / 10 : ℚ) ≥ 7 / 10
      norm_num

/-- **Two alerts the fast path does not raise.** To a model that sees nothing in
either vector, the spoofed flood is the detector's spoofing rule's and the random
names are the pre-filter's, and the fast path has neither rule. -/
theorem fastPath_misses_rules :
    alertScore (FastPath.ddos plainRuntime (some (constantProbability 0).session) spoofedFlood) =
      none ∧
    alertScore (DDoSDetector.predict plainRuntime (some (constantProbability 0).model)
      spoofedFlood) = some (23 / 25) ∧
    alertScore (FastPath.dga plainRuntime (some (constantProbability 0).session) randomNames) =
      none ∧
    alertScore (DGAClassifier.predict plainRuntime (some (constantProbability 0).model)
      randomNames) = some (7 / 10) := by
  refine ⟨?_, ?_, ?_, ?_⟩ <;> decide +kernel

end Sentrix
