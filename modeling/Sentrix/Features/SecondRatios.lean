import Mathlib.Algebra.BigOperators.Group.List.Basic
import Mathlib.Tactic.NormNum
import Mathlib.Data.Rat.Cast.Order
import Sentrix.Features.Scheduler

/-!
# The ratios of a second

Four counters of the DDoS extractor belong to the one-second window: SYNs, SYN-ACKs, and
the bytes of DNS requests and responses. They are fed with each packet before the windows
are checked, and reset by the emission. So the packet that finds the window due is the
last one of the window that ends, and the next one is the first of the window that
begins, whatever the clock does and wherever the windows are started afresh: what is
counted are the packets after the last emission (`windowCounts_after`).
-/

namespace Sentrix

variable {K : Type} [Field K] [LinearOrder K]

/-- The number of TCP packets with exactly the given flags. -/
def tcpWithFlags (flags : ℕ) (ps : List (TimedPacket K)) : ℕ :=
  ps.countP fun p => decide (p.info.protocol = some .tcp ∧ p.info.tcpFlags = flags)

/-- The bytes of UDP packets to port 53. -/
def requestBytes (ps : List (TimedPacket K)) : ℕ :=
  (ps.map fun p => if p.info.protocol = some .udp ∧ p.info.dstPort = 53 then p.info.ipLen
    else 0).sum

/-- The bytes of the other UDP packets from port 53. -/
def responseBytes (ps : List (TimedPacket K)) : ℕ :=
  (ps.map fun p => if p.info.protocol = some .udp ∧ p.info.dstPort ≠ 53 ∧ p.info.srcPort = 53
    then p.info.ipLen else 0).sum

/-- The counters are those of some packets. -/
structure WindowCounts (d : DdosExtractor K) (ps : List (TimedPacket K)) : Prop where
  syns : d.synCount = tcpWithFlags 2 ps
  synAcks : d.synAckCount = tcpWithFlags 18 ps
  requests : d.ampReqBytes = requestBytes ps
  responses : d.ampResBytes = responseBytes ps

omit [Field K] [LinearOrder K] in
theorem tcpWithFlags_concat (flags : ℕ) (ps : List (TimedPacket K)) (p : TimedPacket K) :
    tcpWithFlags flags (ps ++ [p]) =
      if p.info.protocol = some .tcp ∧ p.info.tcpFlags = flags then tcpWithFlags flags ps + 1
      else tcpWithFlags flags ps := by
  unfold tcpWithFlags
  rw [List.countP_append, List.countP_singleton]
  simp only [decide_eq_true_eq]
  split <;> rfl

omit [Field K] [LinearOrder K] in
theorem requestBytes_concat (ps : List (TimedPacket K)) (p : TimedPacket K) :
    requestBytes (ps ++ [p]) =
      if p.info.protocol = some .udp ∧ p.info.dstPort = 53 then requestBytes ps + p.info.ipLen
      else requestBytes ps := by
  unfold requestBytes
  rw [List.map_append, List.sum_append, List.map_singleton, List.sum_singleton]
  split <;> rfl

omit [Field K] [LinearOrder K] in
theorem responseBytes_concat (ps : List (TimedPacket K)) (p : TimedPacket K) :
    responseBytes (ps ++ [p]) =
      if p.info.protocol = some .udp ∧ p.info.dstPort ≠ 53 ∧ p.info.srcPort = 53
      then responseBytes ps + p.info.ipLen else responseBytes ps := by
  unfold responseBytes
  rw [List.map_append, List.sum_append, List.map_singleton, List.sum_singleton]
  split <;> rfl

namespace FeatureScheduler

variable (cfg : SchedulerConfig K)

/-- The packets after the last one-second emission. -/
def second (h : List (TimedPacket K)) : List (TimedPacket K) :=
  (machine cfg).pending (fun s p => s.Due1s cfg p.time) h

/-- **One packet** is counted with those before it, before the windows are checked. -/
theorem WindowCounts.feed {s : FeatureScheduler K} {ps : List (TimedPacket K)}
    (hi : WindowCounts s.ddos ps) (p : TimedPacket K) :
    WindowCounts (s.feed cfg p).ddos (ps ++ [p]) := by
  have hddos : (s.feed cfg p).ddos =
      if p.info.protocol.isSome then s.ddos.update cfg.hash p.info p.time else s.ddos := rfl
  rw [hddos]
  by_cases hp : p.info.protocol.isSome = true
  · rw [if_pos hp]
    refine ⟨?_, ?_, ?_, ?_⟩
    · rw [tcpWithFlags_concat, ← hi.syns]
      rfl
    · rw [tcpWithFlags_concat, ← hi.synAcks]
      rfl
    · rw [requestBytes_concat, ← hi.requests]
      rfl
    · rw [responseBytes_concat, ← hi.responses]
      rfl
  · -- a packet of another protocol is not fed, and is in none of the counts
    have hnot : ∀ proto : Protocol, p.info.protocol ≠ some proto := by
      intro proto heq
      rw [heq] at hp
      exact hp rfl
    rw [if_neg hp]
    refine ⟨?_, ?_, ?_, ?_⟩
    · rw [tcpWithFlags_concat, if_neg fun h => hnot _ h.1]
      exact hi.syns
    · rw [tcpWithFlags_concat, if_neg fun h => hnot _ h.1]
      exact hi.synAcks
    · rw [requestBytes_concat, if_neg fun h => hnot _ h.1]
      exact hi.requests
    · rw [responseBytes_concat, if_neg fun h => hnot _ h.1]
      exact hi.responses

/-- An emission starts the counters over, a sweep leaves them. -/
theorem WindowCounts.next {s : FeatureScheduler K} {ps : List (TimedPacket K)}
    (hi : WindowCounts s.ddos ps) (p : TimedPacket K) :
    WindowCounts ((machine cfg).next s p).ddos
      (if s.Due1s cfg p.time then [] else ps ++ [p]) := by
  show WindowCounts (processPacket cfg s p).1.ddos _
  rw [processPacket_fst]
  dsimp only
  -- the 60 s window removes destinations, and leaves the counters
  have hsweep : ∀ {d : DdosExtractor K} {qs : List (TimedPacket K)}, WindowCounts d qs →
      WindowCounts (if s.Due60s cfg p.time then d.sweepStaleState (s.start60s p.time) 60 else d)
        qs := by
    intro d qs hd
    split
    · exact ⟨hd.syns, hd.synAcks, hd.requests, hd.responses⟩
    · exact hd
  refine hsweep ?_
  split
  · exact ⟨rfl, rfl, rfl, rfl⟩
  · exact WindowCounts.feed cfg hi p

/-- **After every run** the counters are those of the packets after the last emission. -/
theorem windowCounts_after (h : List (TimedPacket K)) :
    WindowCounts ((machine cfg).after h).ddos (second cfg h) := by
  refine (machine cfg).invariant (fun h s => WindowCounts s.ddos (second cfg h))
    ⟨rfl, rfl, rfl, rfl⟩ ?_ h
  intro h p hi
  have hsecond : second cfg (h ++ [p]) =
      if ((machine cfg).after h).Due1s cfg p.time then [] else second cfg h ++ [p] :=
    (machine cfg).pending_concat h p
  rw [hsecond]
  exact WindowCounts.next cfg hi p

/-- A DDoS vector is emitted where the one-second window is due, and is extracted from
the state that has been fed with the packet. -/
theorem ddos_mem_out_iff (s : FeatureScheduler K) (p : TimedPacket K) (v : DdosVector K) :
    .ddos v ∈ (machine cfg).out s p ↔
      s.Due1s cfg p.time ∧ v = (s.feed cfg p).ddos.extract cfg.math p.info.dstIp := by
  show .ddos v ∈ (processPacket cfg s p).2 ↔ _
  rw [processPacket_snd, List.mem_append, List.mem_append]
  by_cases h1 : s.Due1s cfg p.time
  · rw [if_pos h1, and_iff_right h1]
    constructor
    · -- the other windows emit vectors of other detectors
      rintro ((hv | hv) | hv)
      · simpa using hv
      · split at hv <;> simp at hv
      · split at hv <;> simp at hv
    · rintro rfl
      exact Or.inl (Or.inl List.mem_cons_self)
  · rw [if_neg h1]
    refine iff_of_false ?_ fun h => h1 h.1
    rintro ((hv | hv) | hv)
    · exact absurd hv List.not_mem_nil
    · split at hv <;> simp at hv
    · split at hv <;> simp at hv

/-- **The ratios are those of the window.** In every run, with whatever times, the SYN
ratio and the amplification ratio of a one-second emission are those of exactly the
packets after the previous one-second emission, up to the one that is being processed. -/
theorem second_ratios_exact (h : List (TimedPacket K)) (p : TimedPacket K) (v : DdosVector K)
    (hv : .ddos v ∈ (machine cfg).out ((machine cfg).after h) p) :
    v.synSynackRatio = some ((tcpWithFlags 2 (second cfg h ++ [p]) : K) /
        (max 1 (tcpWithFlags 18 (second cfg h ++ [p])) : ℕ)) ∧
      v.ampByteRatio = some ((responseBytes (second cfg h ++ [p]) : K) /
        (max 1 (requestBytes (second cfg h ++ [p])) : ℕ)) := by
  obtain ⟨-, rfl⟩ := (ddos_mem_out_iff cfg _ p v).mp hv
  have hi := WindowCounts.feed cfg (windowCounts_after cfg h) p
  unfold DdosExtractor.extract
  rw [hi.syns, hi.synAcks, hi.requests, hi.responses]
  exact ⟨rfl, rfl⟩

/-- A bare SYN at a given time. -/
def synAt (time : ℚ) : TimedPacket ℚ :=
  ⟨⟨"10.0.0.1", "10.0.0.2", 60, some .tcp, 40000, 443, 2, none⟩, time, none, none⟩

/-- A scheduler whose counters are looked at, so that the hash does not matter. -/
def countingConfig : SchedulerConfig ℚ := .default (fun _ _ => 0) ⟨id, id⟩

/-- Two SYNs, a second apart. -/
theorem second_ratios_exact_two_syns :
    ∃ v, .ddos v ∈ (machine countingConfig).out ((machine countingConfig).after [synAt 1])
      (synAt 2) ∧ v.synSynackRatio = some 2 := by
  -- the second packet is a whole second later
  have hdue : ((machine countingConfig).after [synAt 1]).Due1s countingConfig (synAt 2).time := by
    decide +kernel
  have hmem := (ddos_mem_out_iff countingConfig ((machine countingConfig).after [synAt 1])
    (synAt 2) _).mpr ⟨hdue, rfl⟩
  obtain ⟨hratio, -⟩ := second_ratios_exact countingConfig [synAt 1] (synAt 2) _ hmem
  have hsyns : tcpWithFlags 2 (second countingConfig [synAt 1] ++ [synAt 2]) = 2 := by
    decide +kernel
  have hacks : tcpWithFlags 18 (second countingConfig [synAt 1] ++ [synAt 2]) = 0 := by
    decide +kernel
  refine ⟨_, hmem, hratio.trans ?_⟩
  rw [hsyns, hacks]
  norm_num

end FeatureScheduler

end Sentrix
