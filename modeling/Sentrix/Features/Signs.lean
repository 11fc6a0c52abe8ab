import Mathlib.Tactic.Linarith
import Mathlib.Tactic.NormNum
import Sentrix.Features.Scheduler

/-!
# Signs of the emitted features

Mean gaps, scan activity, byte averages and name lengths are never negative, in
any vector emitted along any packet stream (`FeatureScheduler.signed_of_emitted`).
The detectors rely on it where they test a feature for being zero rather than
for being positive.

The invariant (`Signed`) speaks about the three extractors that average: gaps
are averaged only when positive, byte counts and lengths are natural numbers.
-/

namespace Sentrix

variable {K : Type} [Field K] [LinearOrder K]

/-- The features a vector's detector tests against zero are not negative. -/
def FeatureDict.Signed : FeatureDict K → Prop
  | .beaconing v => 0 ≤ v.meanIat.getD 0
  | .recon v => 0 ≤ v.scanActivityScore.getD 0
  | .exfil v => 0 ≤ v.outboundBytesEwma.getD 0 ∧ 0 ≤ v.inboundBytesEwma.getD 0
  | .encrypted v => 0 ≤ v.sniLengthEwma.getD 0
  | .ddos _ | .dga _ | .dnsExfil _ => True

namespace FeatureScheduler

/-- What the extractors average is not negative. -/
structure Signed (s : FeatureScheduler K) : Prop where
  gaps : ∀ pair e, s.beaconing.flowIats.get? pair = some e → 0 ≤ e.welford.mean
  outbound : s.exfil.outboundBytesEwma.Nonneg
  inbound : s.exfil.inboundBytesEwma.Nonneg
  sni : s.encrypted.sniEntropyEwma.Nonneg

/-- The part of the state the invariant speaks about. -/
theorem Signed.of_eq {s s' : FeatureScheduler K} (hs : s.Signed) (hb : s'.beaconing = s.beaconing)
    (he : s'.exfil = s.exfil) (ht : s'.encrypted = s.encrypted) : s'.Signed := by
  refine ⟨?_, ?_, ?_, ?_⟩
  · rw [hb]
    exact hs.gaps
  · rw [he]
    exact hs.outbound
  · rw [he]
    exact hs.inbound
  · rw [ht]
    exact hs.sni

variable [IsStrictOrderedRing K]

/-- A scheduler that has seen nothing has no negative number. -/
theorem Signed.new : (FeatureScheduler.new : FeatureScheduler K).Signed where
  gaps _ _ he := absurd he (Option.some_ne_none _).symm
  outbound := Ewma.Nonneg.new (by norm_num) (by norm_num)
  inbound := Ewma.Nonneg.new (by norm_num) (by norm_num)
  sni := Ewma.Nonneg.new (by norm_num) (by norm_num)

/-! ### Feeding a packet -/

/-- A pair's mean gap stays non-negative: only positive gaps are averaged. -/
theorem mean_touch_nonneg {entry : Option (FlowIat K)}
    (h : ∀ e, entry = some e → 0 ≤ e.welford.mean) (t : K) :
    0 ≤ (BeaconingExtractor.touch entry t).welford.mean := by
  cases entry with
  | none => exact le_rfl
  | some e =>
    have hmean := h e rfl
    unfold BeaconingExtractor.touch
    by_cases hgap : t - e.lastTime > 0
    · simp only [if_pos hgap]
      exact Welford.mean_update_nonneg hmean hgap.le
    · simp only [if_neg hgap]
      exact hmean

/-- A packet adds no negative sample. -/
theorem Signed.feed (cfg : SchedulerConfig K) {s : FeatureScheduler K} (hs : s.Signed)
    (p : TimedPacket K) : (s.feed cfg p).Signed := by
  have hlen : (0 : K) ≤ p.info.ipLen := Nat.cast_nonneg _
  refine ⟨?_, ?_, ?_, ?_⟩
  · -- one pair's entry is touched, the others stay
    intro pair e he
    change (s.beaconing.flowIats.set _ _).get? pair = some e at he
    rw [Dict.get?_set] at he
    split at he
    · obtain rfl := Option.some.inj he
      exact mean_touch_nonneg (fun e he => hs.gaps _ e he) p.time
    · exact hs.gaps pair e he
  -- a packet updates the average of its direction with its length
  · show (if p.info.ipLen > 0 then s.exfil.update p.info (isOutbound p.info)
      else s.exfil).outboundBytesEwma.Nonneg
    unfold ExfilExtractor.update
    split
    · split
      · exact hs.outbound.update hlen
      · exact hs.outbound
    · exact hs.outbound
  · show (if p.info.ipLen > 0 then s.exfil.update p.info (isOutbound p.info)
      else s.exfil).inboundBytesEwma.Nonneg
    unfold ExfilExtractor.update
    split
    · split
      · exact hs.inbound
      · exact hs.inbound.update hlen
    · exact hs.inbound
  · show (p.tls.elim s.encrypted fun tls => s.encrypted.update p.info tls p.time
      ).sniEntropyEwma.Nonneg
    cases p.tls with
    | none => exact hs.sni
    | some tls =>
      rw [Option.elim_some]
      unfold EncryptedExtractor.update
      dsimp only
      split
      · exact hs.sni
      · split
        · exact hs.sni
        · exact hs.sni.update (Nat.cast_nonneg _)

/-! ### Emitting windows -/

/-- The step keeps the invariant, and what it emits is signed. -/
def EmitsSigned (emit : FeatureScheduler K → FeatureScheduler K × List (FeatureDict K)) : Prop :=
  ∀ s, s.Signed → (emit s).1.Signed ∧ ∀ fd ∈ (emit s).2, fd.Signed

omit [IsStrictOrderedRing K] in
/-- A window that is not due changes and emits nothing. -/
theorem EmitsSigned.whenDue {emit : FeatureScheduler K → FeatureScheduler K × List (FeatureDict K)}
    (h : EmitsSigned emit) (due : FeatureScheduler K → Bool) :
    EmitsSigned fun s => whenDue (due s) emit s := by
  intro s hs
  unfold FeatureScheduler.whenDue
  dsimp only
  split
  · exact h s hs
  · exact ⟨hs, fun fd hfd => absurd hfd List.not_mem_nil⟩

theorem emitsSigned_fire1s (cfg : SchedulerConfig K) (p : TimedPacket K) :
    EmitsSigned (fire1s cfg p) := by
  refine EmitsSigned.whenDue (fun s hs => ?_) _
  -- resetting the counters of a second leaves the averages alone
  refine ⟨hs.of_eq rfl rfl rfl, ?_⟩
  intro fd hfd
  obtain rfl | rfl : fd = _ ∨ fd = _ := by simpa [emit1sWindow] using hfd
  · trivial
  · -- a ratio of counts times a count
    show (0 : K) ≤ (s.recon.synCount : K) / ((max 1 s.recon.totalTcpCount : ℕ) : K) *
      s.recon.synCount
    exact mul_nonneg (div_nonneg (Nat.cast_nonneg _) (Nat.cast_nonneg _)) (Nat.cast_nonneg _)

omit [IsStrictOrderedRing K] in
theorem emitsSigned_fire5s (cfg : SchedulerConfig K) (p : TimedPacket K) :
    EmitsSigned (fire5s cfg p) := by
  refine EmitsSigned.whenDue (fun s hs => ?_) _
  refine ⟨hs.of_eq rfl rfl rfl, ?_⟩
  intro fd hfd
  obtain rfl | rfl | rfl : fd = _ ∨ fd = _ ∨ fd = _ := by simpa [emit5sWindow] using hfd
  · trivial
  · exact hs.sni.get
  · trivial

omit [IsStrictOrderedRing K] in
theorem emitsSigned_fire60s (cfg : SchedulerConfig K) (p : TimedPacket K) :
    EmitsSigned (fire60s cfg p) := by
  refine EmitsSigned.whenDue (fun s hs => ?_) _
  constructor
  · refine ⟨?_, hs.outbound, hs.inbound, hs.sni⟩
    -- the sweep only removes entries
    intro pair e he
    change (s.beaconing.flowIats.retain _).get? pair = some e at he
    rw [Dict.get?_retain, Option.filter_eq_some_iff] at he
    exact hs.gaps pair e he.1
  · intro fd hfd
    obtain rfl | rfl : fd = _ ∨ fd = _ := by simpa [emit60sWindow] using hfd
    -- the mean of the pair's gaps, or zero before there are two
    · show 0 ≤ (BeaconingExtractor.timing cfg.math _).1
      unfold BeaconingExtractor.timing
      split
      · exact le_rfl
      · next e he =>
        split
        · exact hs.gaps _ e he
        · exact le_rfl
    · exact ⟨hs.outbound.get, hs.inbound.get⟩

/-- No packet makes the scheduler emit a negative number. -/
theorem emitsSigned_processPacket (cfg : SchedulerConfig K) (p : TimedPacket K) :
    EmitsSigned (processPacket cfg · p) := by
  intro s hs
  have hfed := hs.feed cfg p
  have hbased : ((s.feed cfg p).rebase p.time).Signed := by
    unfold rebase
    split
    · exact hfed.of_eq rfl rfl rfl
    · exact hfed
  -- the three windows, one after the other
  have h1 := emitsSigned_fire1s cfg p _ hbased
  have h5 := emitsSigned_fire5s cfg p _ h1.1
  have h60 := emitsSigned_fire60s cfg p _ h5.1
  refine ⟨h60.1, ?_⟩
  intro fd hfd
  obtain hfd | hfd := List.mem_append.mp hfd
  · obtain hfd | hfd := List.mem_append.mp hfd
    · exact h1.2 fd hfd
    · exact h5.2 fd hfd
  · exact h60.2 fd hfd

/-- Every vector emitted along any packet stream is signed. -/
theorem signed_of_emitted (cfg : SchedulerConfig K) (packets : List (TimedPacket K)) :
    ∀ fired ∈ (machine cfg).emits packets, ∀ fd ∈ fired, fd.Signed :=
  (machine cfg).forall_mem_emits Signed (fun fired => ∀ fd ∈ fired, fd.Signed) Signed.new
    (fun s p hs => emitsSigned_processPacket cfg p s hs) packets

end FeatureScheduler

end Sentrix
