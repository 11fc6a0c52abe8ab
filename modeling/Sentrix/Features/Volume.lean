import Sentrix.Features.SecondRatios
import Sentrix.Features.Sweeps
import Sentrix.Parsers.Packet

/-!
# The volume of a destination

`dst_pkt_ewma` is meant to follow the packets that arrive at a destination: the extractor
calls it a rate, and the detectors compare it with numbers up to a thousand. It averages
`orig_pkts`, a key `parse_packet` does not set, and takes one packet where the key is
missing. A packet that was parsed therefore contributes a one, and an average of ones is
one (`OnesInv`): the feature tells whether the destination has an entry, and not how many
packets there were (`dstPktEwma_of_emitted`). More packets make it larger in one case
only, when they are the first to be filed under the destination (`volume_iff`).
-/

namespace Sentrix

/-- The protocols the features tell apart, by their names. -/
def Protocol.ofName : String → Option Protocol
  | "TCP" => some .tcp
  | "UDP" => some .udp
  | "ICMP" => some .icmp
  | _ => none

/-- The dictionary `parse_packet` returns, as the features read it. -/
def ParsedPacket.ofMeta (m : Parsers.PacketMeta) : ParsedPacket where
  srcIp := m.srcIp
  dstIp := m.dstIp
  ipLen := m.ipLen
  protocol := m.protocol.bind Protocol.ofName
  srcPort := m.srcPort
  dstPort := m.dstPort
  tcpFlags := m.tcpFlags
  -- the parser has no such key
  origPkts := none

variable {K : Type} [Field K] [LinearOrder K]

namespace FeatureScheduler

/-- The packets are as `parse_packet` returns them. -/
def AllParsed (h : List (TimedPacket K)) : Prop := ∀ q ∈ h, ∃ m, q.info = .ofMeta m

variable (cfg : SchedulerConfig K)

/-- Two continuations of a history within its one-second window, which differ in that the
second has more packets to `d`, and a packet to `d` that ends the window after both. -/
structure Surge (d : String) (h k₁ k₂ : List (TimedPacket K)) (p : TimedPacket K) : Prop where
  parsed : AllParsed (h ++ k₂ ++ [p])
  sublist : k₁.Sublist k₂
  more : k₁.length < k₂.length
  others : (k₁.filter fun q => decide (q.info.dstIp ≠ d)) =
    k₂.filter fun q => decide (q.info.dstIp ≠ d)
  within₁ : (machine cfg).AlongFrom (fun s q => ¬ s.Due1s cfg q.time) ((machine cfg).after h) k₁
  within₂ : (machine cfg).AlongFrom (fun s q => ¬ s.Due1s cfg q.time) ((machine cfg).after h) k₂
  closes : p.info.dstIp = d

variable {cfg} in
theorem Surge.parsed_fewer {d : String} {h k₁ k₂ : List (TimedPacket K)} {p : TimedPacket K}
    (hsurge : Surge cfg d h k₁ k₂ p) : AllParsed (h ++ k₁ ++ [p]) := by
  intro q hq
  have hsub : (h ++ k₁ ++ [p]).Sublist (h ++ k₂ ++ [p]) :=
    ((List.Sublist.refl h).append hsurge.sublist).append (List.Sublist.refl [p])
  exact hsurge.parsed q (hsub.subset hq)

/-- The second value is strictly larger. -/
def Larger (v₁ v₂ : DdosVector K) : Prop :=
  ∃ x₁ x₂, v₁.dstPktEwma = some x₁ ∧ v₂.dstPktEwma = some x₂ ∧ x₁ < x₂

/-! ### An average of ones -/

/-- All destinations have the average one. -/
def OnesInv (s : FeatureScheduler K) : Prop :=
  ∀ d e, s.ddos.dstState.get? d = some e → e.pktEwma = ⟨1 / 5, some 1⟩

omit [LinearOrder K] in
theorem update_one : Ewma.update (⟨1 / 5, some 1⟩ : Ewma K) 1 = ⟨1 / 5, some 1⟩ := by
  unfold Ewma.update
  dsimp only
  congr 2
  ring

omit [LinearOrder K] in
/-- A parsed packet is one packet more in the average of its destination. -/
theorem OnesInv.touch {s : FeatureScheduler K} (hi : OnesInv s) {q : TimedPacket K}
    (hq : ∃ m, q.info = .ofMeta m) : (s.ddos.touch q.info q.time).pktEwma = ⟨1 / 5, some 1⟩ := by
  -- a parsed packet has no count of its own, so the default one is its sample
  have hone : ((q.info.origPkts.getD 1 : ℕ) : K) = 1 := by
    obtain ⟨m, hm⟩ := hq
    rw [hm]
    exact Nat.cast_one
  unfold DdosExtractor.touch
  dsimp only
  rw [hone]
  cases hget : s.ddos.dstState.get? q.info.dstIp with
  | none => rfl
  | some e =>
    dsimp only
    rw [hi _ e hget]
    exact update_one

/-- The entry a packet is filed in, before the windows are checked. -/
theorem get?_dstState_feed (s : FeatureScheduler K) (p : TimedPacket K) (d : String) :
    (s.feed cfg p).ddos.dstState.get? d =
      if p.info.protocol.isSome = true ∧ d = p.info.dstIp then
        some (s.ddos.touch p.info p.time)
      else s.ddos.dstState.get? d := by
  show (if p.info.protocol.isSome then s.ddos.update cfg.hash p.info p.time
    else s.ddos).dstState.get? d = _
  -- packets without a transport are not fed
  by_cases hp : p.info.protocol.isSome = true
  · rw [if_pos hp]
    show (s.ddos.dstState.set p.info.dstIp _).get? d = _
    rw [Dict.get?_set]
    simp only [hp, true_and]
  · rw [if_neg hp, if_neg fun h => hp h.1]

/-- **One packet** leaves averages of ones. -/
theorem OnesInv.feed {s : FeatureScheduler K} (hi : OnesInv s) {p : TimedPacket K}
    (hp : ∃ m, p.info = .ofMeta m) : OnesInv (s.feed cfg p) := by
  intro d e hget
  rw [get?_dstState_feed] at hget
  split at hget
  · rw [← Option.some.inj hget]
    exact hi.touch hp
  · exact hi d e hget

theorem OnesInv.next {s : FeatureScheduler K} (hi : OnesInv s) {p : TimedPacket K}
    (hp : ∃ m, p.info = .ofMeta m) : OnesInv ((machine cfg).next s p) := by
  intro d e hget
  rw [get?_dstState_next] at hget
  split at hget
  · exact hi.feed cfg hp d e (Option.filter_eq_some_iff.mp hget).1
  · exact hi.feed cfg hp d e hget

theorem onesInv_after {h : List (TimedPacket K)} (hparsed : AllParsed h) :
    OnesInv ((machine cfg).after h) := by
  refine (machine cfg).invariant_of AllParsed (fun _ s => OnesInv s) ?_ nofun ?_ h hparsed
  · intro h p hall q hq
    exact hall q (List.mem_append_left _ hq)
  · intro h p hall hi
    exact hi.next cfg (hall p (List.mem_append_right _ (List.mem_singleton_self p)))

/-- **What is emitted.** The average of a destination is one if the destination has an
entry, or the packet that ends the window makes one, and zero otherwise. -/
theorem dstPktEwma_of_emitted {h : List (TimedPacket K)} {p : TimedPacket K}
    (hparsed : AllParsed (h ++ [p])) {v : DdosVector K}
    (hv : .ddos v ∈ (machine cfg).out ((machine cfg).after h) p) :
    v.dstPktEwma = some (if p.info.protocol.isSome = true ∨
      p.info.dstIp ∈ ((machine cfg).after h).ddos.dstState.keys then 1 else 0) := by
  have hi : OnesInv (((machine cfg).after h).feed cfg p) := by
    refine (onesInv_after cfg fun q hq => hparsed q (List.mem_append_left _ hq)).feed cfg ?_
    exact hparsed p (List.mem_append_right _ (List.mem_singleton_self p))
  obtain ⟨-, rfl⟩ := (ddos_mem_out_iff cfg _ p v).mp hv
  -- the packet is filed before the windows are checked
  have hfiled : (∃ e, (((machine cfg).after h).feed cfg p).ddos.dstState.get? p.info.dstIp =
      some e) ↔ p.info.protocol.isSome = true ∨
        p.info.dstIp ∈ ((machine cfg).after h).ddos.dstState.keys := by
    rw [get?_dstState_feed, Dict.mem_keys]
    split
    · next hp => exact iff_of_true ⟨_, rfl⟩ (Or.inl hp.1)
    · next hp => rw [or_iff_right fun hsome => hp ⟨hsome, rfl⟩]
  unfold DdosExtractor.extract
  dsimp only
  cases hget : (((machine cfg).after h).feed cfg p).ddos.dstState.get? p.info.dstIp with
  | none =>
    rw [if_neg]
    · rfl
    · intro hmem
      obtain ⟨e, he⟩ := hfiled.mpr hmem
      rw [hget] at he
      cases he
  | some e =>
    rw [if_pos (hfiled.mp ⟨e, hget⟩), Option.elim_some, hi _ e hget]
    rfl

variable [IsStrictOrderedRing K]

/-- Of two emissions for a destination the second one is larger in one case only. -/
theorem larger_iff {h₁ h₂ : List (TimedPacket K)} {p : TimedPacket K}
    (hparsed₁ : AllParsed (h₁ ++ [p])) (hparsed₂ : AllParsed (h₂ ++ [p])) {v₁ v₂ : DdosVector K}
    (hv₁ : .ddos v₁ ∈ (machine cfg).out ((machine cfg).after h₁) p)
    (hv₂ : .ddos v₂ ∈ (machine cfg).out ((machine cfg).after h₂) p) :
    Larger v₁ v₂ ↔ p.info.protocol = none ∧
      p.info.dstIp ∉ ((machine cfg).after h₁).ddos.dstState.keys ∧
      p.info.dstIp ∈ ((machine cfg).after h₂).ddos.dstState.keys := by
  have hvalue₁ := dstPktEwma_of_emitted cfg hparsed₁ hv₁
  have hvalue₂ := dstPktEwma_of_emitted cfg hparsed₂ hv₂
  have hlarger : Larger v₁ v₂ ↔
      (if p.info.protocol.isSome = true ∨
        p.info.dstIp ∈ ((machine cfg).after h₁).ddos.dstState.keys then (1 : K) else 0) <
      if p.info.protocol.isSome = true ∨
        p.info.dstIp ∈ ((machine cfg).after h₂).ddos.dstState.keys then 1 else 0 := by
    unfold Larger
    rw [hvalue₁, hvalue₂]
    constructor
    · rintro ⟨x₁, x₂, heq₁, heq₂, hlt⟩
      rwa [Option.some.inj heq₁, Option.some.inj heq₂]
    · intro hlt
      exact ⟨_, _, rfl, rfl, hlt⟩
  rw [hlarger]
  by_cases hp : p.info.protocol.isSome = true
  · -- the packet itself is filed, in both runs
    rw [if_pos (Or.inl hp), if_pos (Or.inl hp)]
    refine iff_of_false (lt_irrefl _) ?_
    rintro ⟨hnone, -⟩
    rw [hnone] at hp
    cases hp
  · have hnone : p.info.protocol = none := Option.not_isSome_iff_eq_none.mp hp
    simp only [or_iff_right hp, and_iff_right hnone]
    split
    · next hmem => exact iff_of_false (fun hlt => by split at hlt <;> linarith) fun h => h.1 hmem
    · next hmem =>
      rw [and_iff_right hmem]
      split
      · next hmem₂ => exact iff_of_true one_pos hmem₂
      · next hmem₂ => exact iff_of_false (lt_irrefl _) hmem₂

/-- **When more packets make a larger average.** For every destination, every history and
every two continuations within the one-second window that differ in more packets to the
destination: the average emitted at the end of the window is larger with the second
continuation if and only if the packet that ends the window is of no transport that is
filed, and the destination has an entry by then with the second continuation and none
with the first. -/
theorem volume_iff (d : String) (h k₁ k₂ : List (TimedPacket K)) (p : TimedPacket K)
    (hsurge : Surge cfg d h k₁ k₂ p) (v₁ v₂ : DdosVector K)
    (hv₁ : .ddos v₁ ∈ (machine cfg).out ((machine cfg).after (h ++ k₁)) p)
    (hv₂ : .ddos v₂ ∈ (machine cfg).out ((machine cfg).after (h ++ k₂)) p) :
    Larger v₁ v₂ ↔ p.info.protocol = none ∧
      d ∉ ((machine cfg).after (h ++ k₁)).ddos.dstState.keys ∧
      d ∈ ((machine cfg).after (h ++ k₂)).ddos.dstState.keys := by
  rw [← hsurge.closes]
  exact larger_iff cfg hsurge.parsed_fewer hsurge.parsed hv₁ hv₂

/-- A packet to a host as the parser returns it. -/
def volumePacket (protocol : Option String) (time : ℚ) : TimedPacket ℚ :=
  ⟨.ofMeta ⟨"10.0.0.1", "10.0.0.2", 60, protocol, 40000, 443, 0, []⟩, time, none, none⟩

/-- One UDP packet more, between two packets of a protocol. -/
theorem surge_volume {protocol : Option String}
    (hwithin : (machine countingConfig).AlongFrom (fun s q => ¬ s.Due1s countingConfig q.time)
      ((machine countingConfig).after [volumePacket protocol 1])
      [volumePacket (some "UDP") (3 / 2)]) :
    Surge countingConfig "10.0.0.2" [volumePacket protocol 1] []
      [volumePacket (some "UDP") (3 / 2)] (volumePacket protocol 2) := by
  refine ⟨fun q hq => ?_, List.nil_sublist _, Nat.one_pos, ?_, trivial, hwithin, rfl⟩
  · simp only [List.mem_append, List.mem_singleton] at hq
    obtain (rfl | rfl) | rfl := hq <;> exact ⟨_, rfl⟩
  · -- the packet is to the destination itself
    exact (List.filter_cons_of_neg (by decide)).symm

/-- A UDP packet to a host to which only packets of other protocols have come. -/
theorem volume_iff_first_entry :
    ∃ v₁ v₂, .ddos v₁ ∈ (machine countingConfig).out
        ((machine countingConfig).after ([volumePacket none 1] ++ [])) (volumePacket none 2) ∧
      .ddos v₂ ∈ (machine countingConfig).out ((machine countingConfig).after
        ([volumePacket none 1] ++ [volumePacket (some "UDP") (3 / 2)])) (volumePacket none 2) ∧
      Larger v₁ v₂ := by
  have hsurge : Surge countingConfig "10.0.0.2" [volumePacket none 1] []
      [volumePacket (some "UDP") (3 / 2)] (volumePacket none 2) :=
    surge_volume (by decide +kernel)
  have hdue₁ : ((machine countingConfig).after ([volumePacket none 1] ++ [])).Due1s countingConfig
      (volumePacket none 2).time := by
    decide +kernel
  have hdue₂ : ((machine countingConfig).after
      ([volumePacket none 1] ++ [volumePacket (some "UDP") (3 / 2)])).Due1s countingConfig
      (volumePacket none 2).time := by
    decide +kernel
  have hmem₁ := (ddos_mem_out_iff countingConfig _ (volumePacket none 2) _).mpr ⟨hdue₁, rfl⟩
  have hmem₂ := (ddos_mem_out_iff countingConfig _ (volumePacket none 2) _).mpr ⟨hdue₂, rfl⟩
  refine ⟨_, _, hmem₁, hmem₂, ?_⟩
  refine (volume_iff countingConfig "10.0.0.2" _ _ _ _ hsurge _ _ hmem₁ hmem₂).mpr ?_
  exact ⟨rfl, by decide +kernel, by decide +kernel⟩

/-- **A flood that does not show.** With one UDP packet to a host in the second, and with
two, the average emitted for the host is the same. -/
theorem flood_not_larger :
    ¬ ∀ (cfg : SchedulerConfig ℚ) (d : String) (h k₁ k₂ : List (TimedPacket ℚ))
      (p : TimedPacket ℚ), Surge cfg d h k₁ k₂ p → ∀ v₁ v₂ : DdosVector ℚ,
      .ddos v₁ ∈ (machine cfg).out ((machine cfg).after (h ++ k₁)) p →
      .ddos v₂ ∈ (machine cfg).out ((machine cfg).after (h ++ k₂)) p → Larger v₁ v₂ := by
  intro hall
  have hsurge : Surge countingConfig "10.0.0.2" [volumePacket (some "UDP") 1] []
      [volumePacket (some "UDP") (3 / 2)] (volumePacket (some "UDP") 2) :=
    surge_volume (by decide +kernel)
  have hdue₁ : ((machine countingConfig).after ([volumePacket (some "UDP") 1] ++ [])).Due1s
      countingConfig (volumePacket (some "UDP") 2).time := by
    decide +kernel
  have hdue₂ : ((machine countingConfig).after ([volumePacket (some "UDP") 1] ++
      [volumePacket (some "UDP") (3 / 2)])).Due1s countingConfig
      (volumePacket (some "UDP") 2).time := by
    decide +kernel
  have hmem₁ := (ddos_mem_out_iff countingConfig _ (volumePacket (some "UDP") 2) _).mpr
    ⟨hdue₁, rfl⟩
  have hmem₂ := (ddos_mem_out_iff countingConfig _ (volumePacket (some "UDP") 2) _).mpr
    ⟨hdue₂, rfl⟩
  -- a packet with a protocol files its host itself, in both runs
  have hlarger := hall countingConfig "10.0.0.2" _ _ _ _ hsurge _ _ hmem₁ hmem₂
  obtain ⟨hnone, -⟩ := (larger_iff countingConfig hsurge.parsed_fewer hsurge.parsed
    hmem₁ hmem₂).mp hlarger
  cases hnone

end FeatureScheduler

end Sentrix
