import Mathlib.Algebra.Order.BigOperators.Group.List
import Mathlib.Data.List.ReduceOption
import Mathlib.Tactic.Linarith
import Sentrix.Ingest.ReplayLoop
import Sentrix.Ingest.Windows

/-!
# A run of the ingestor, from the captures to the records

The main loop of the ingestor gives each packet of the banks the next time of a simulated
clock, parses it and feeds it to the tracker. Seen from the captures, a run is the packets it
has replayed (`visited`), and everything it keeps is a function of these: the clock moves
forward with every packet, the tracker is the tracker fed the packets that parse, the totals are
theirs and the records sent are the tracker's (`Follows`). So the records of a run are those of
a partition of the replayed traffic into windows (`replayed_windows`).

The packets replayed are a prefix of the endless repetition of the banks, and all of the banks
once if a single pass has ended (`visited_cycle`).

The headers are decoded by a library (`Pnet`).
-/

namespace Sentrix

/-- The header fields of an IPv4 packet and its payload. -/
structure Ipv4Header where
  source : String
  destination : String
  totalLength : UInt16
  nextLevelProtocol : UInt8
  payload : List UInt8

/-- The packet views of `pnet`; `none` if the data is too short. -/
structure Pnet where
  /-- The ethertype and the payload. -/
  ethernet : List UInt8 → Option (UInt16 × List UInt8)
  ipv4 : List UInt8 → Option Ipv4Header
  /-- Source port, destination port and flags. -/
  tcp : List UInt8 → Option (UInt16 × UInt16 × UInt8)
  /-- Source port and destination port. -/
  udp : List UInt8 → Option (UInt16 × UInt16)

/-- `parse_packet` of the ingestor. -/
def Pnet.parsePacket (d : Pnet) (data : List UInt8) (timestamp : ℚ) : Option PacketMeta := do
  let (etherType, ethPayload) ← d.ethernet data
  -- `EtherTypes::Ipv4`
  if etherType = 0x0800 then
    let ipv4 ← d.ipv4 ethPayload
    let ipLen := ipv4.totalLength.toUInt32
    if ipv4.nextLevelProtocol = 6 then
      let (sport, dport, flags) ← d.tcp ipv4.payload
      some ⟨ipv4.source, ipv4.destination, sport, dport, "TCP", ipLen, flags, timestamp⟩
    else if ipv4.nextLevelProtocol = 17 then
      let (sport, dport) ← d.udp ipv4.payload
      some ⟨ipv4.source, ipv4.destination, sport, dport, "UDP", ipLen, 0, timestamp⟩
    else none
  else none

/-- A packet keeps the time it is parsed with. -/
theorem Pnet.timestamp_of_parsePacket {d : Pnet} {data : List UInt8} {timestamp : ℚ}
    {pkt : PacketMeta} (h : d.parsePacket data timestamp = some pkt) :
    pkt.timestamp = timestamp := by
  unfold Pnet.parsePacket at h
  simp only [Option.bind_eq_bind, Option.bind_eq_some_iff] at h
  obtain ⟨⟨etherType, ethPayload⟩, -, h⟩ := h
  dsimp only at h
  split at h
  · -- IPv4: each transport's packet is built with the timestamp given
    rw [Option.bind_eq_some_iff] at h
    obtain ⟨ipv4, -, h⟩ := h
    split at h
    · obtain ⟨tcp, -, h⟩ := Option.bind_eq_some_iff.mp h
      cases h
      rfl
    · split at h
      · obtain ⟨udp, -, h⟩ := Option.bind_eq_some_iff.mp h
        cases h
        rfl
      · cases h
  · cases h

namespace ReplayLoop

variable {args : ReplayArgs}

/-! ### The packets of a run -/

/-- The packet that a step replays. -/
def visit (args : ReplayArgs) (s : ReplayLoop) (now : ℚ) : Option BankPacket :=
  match s.phase with
  | .packet (p :: _) _ => if expired args now then none else some p
  | _ => none

/-- The loop, watched for the packets it replays. -/
def watched (args : ReplayArgs) : Machine ReplayLoop ℚ (Option BankPacket) where
  init := start args
  step s now := (step args s now, visit args s now)

/-- The packets a run has replayed, in order. -/
def visited (args : ReplayArgs) (h : List ℚ) : List BankPacket :=
  ((watched args).emits h).reduceOption

/-- Watching the loop does not change it. -/
theorem after_watched (args : ReplayArgs) (h : List ℚ) :
    (watched args).after h = (machine args).after h :=
  rfl

/-- One more turn visits at most one packet. -/
theorem visited_concat (args : ReplayArgs) (h : List ℚ) (now : ℚ) :
    visited args (h ++ [now]) =
      visited args h ++ (visit args ((machine args).after h) now).toList := by
  rw [visited, Machine.emits_concat, List.reduceOption_append, List.reduceOption_singleton,
    ← after_watched]
  rfl

/-- The simulated clock and the raw time it has seen last, as a machine that is fed packets
and answers their times. -/
def clock (now : ℚ) : Machine (ℚ × Option ℚ) BankPacket ℚ where
  init := (now, none)
  step s p :=
    let simClock := s.1 + dt s.2 p.1
    ((simClock, some p.1), simClock)

/-- The packets that parse, with the times they are given. -/
def parsed (args : ReplayArgs) (ps : List BankPacket) : List PacketMeta :=
  (ps.zip ((clock args.now).emits ps)).filterMap fun x => args.parsePacket x.1.2 x.2

/-- One more packet is parsed at the clock that its predecessors have set. -/
theorem parsed_concat (args : ReplayArgs) (ps : List BankPacket) (p : BankPacket) :
    parsed args (ps ++ [p]) =
      parsed args ps ++
        (args.parsePacket p.2 ((clock args.now).out ((clock args.now).after ps) p)).toList := by
  have hlength : ps.length = ((clock args.now).emits ps).length :=
    ((clock args.now).length_emits ps).symm
  rw [parsed, Machine.emits_concat, List.zip_append hlength, List.filterMap_append]
  show _ ++ [(p, (clock args.now).out ((clock args.now).after ps) p)].filterMap _ = _
  cases hparse : args.parsePacket p.2 ((clock args.now).out ((clock args.now).after ps) p) with
  | none => simp [parsed, hparse]
  | some pkt => simp [parsed, hparse]

/-! ### What a run keeps -/

/-- What a run keeps is what the packets it has replayed make of it. -/
structure Follows (args : ReplayArgs) (ps : List BankPacket) (s : ReplayLoop) : Prop where
  clock_eq : (s.simClock, s.prevRawTs) = (clock args.now).after ps
  tracker_eq : s.tracker = (FlowTracker.machine 1).after (parsed args ps)
  sent_eq : s.sent = ((FlowTracker.machine 1).emits (parsed args ps)).reduceOption
  totalPkts_eq : s.totalPkts = UInt64.ofNat (parsed args ps).length
  totalBytes_eq : s.totalBytes = UInt64.ofNat (FlowTracker.bytesOf (parsed args ps))

/-- A step that replays nothing only moves on. -/
theorem Follows.move {ps : List BankPacket} {s : ReplayLoop} (h : Follows args ps s)
    (phase : LoopPhase) : Follows args ps { s with phase } :=
  ⟨h.clock_eq, h.tracker_eq, h.sent_eq, h.totalPkts_eq, h.totalBytes_eq⟩

/-- One packet moves the state and the account alike. -/
theorem Follows.replay {ps : List BankPacket} {s : ReplayLoop} (h : Follows args ps s)
    (p : BankPacket) : Follows args (ps ++ [p]) (replay args s p) := by
  -- the time given to the parser is that of the clock
  have hclock : (clock args.now).out ((clock args.now).after ps) p =
      s.simClock + dt s.prevRawTs p.1 := by
    rw [← h.clock_eq]
    rfl
  have hnext : (s.simClock + dt s.prevRawTs p.1, some p.1) =
      (clock args.now).after (ps ++ [p]) := by
    rw [Machine.after_concat, ← h.clock_eq]
    rfl
  have hparsed := parsed_concat args ps p
  rw [hclock] at hparsed
  unfold ReplayLoop.replay
  dsimp only
  cases hparse : args.parsePacket p.2 (s.simClock + dt s.prevRawTs p.1) with
  | none =>
    -- nothing parsed: only the clock moves
    rw [hparse, Option.toList_none, List.append_nil] at hparsed
    refine ⟨hnext, ?_, ?_, ?_, ?_⟩
    · rw [hparsed]
      exact h.tracker_eq
    · rw [hparsed]
      exact h.sent_eq
    · rw [hparsed]
      exact h.totalPkts_eq
    · rw [hparsed]
      exact h.totalBytes_eq
  | some pkt =>
    rw [hparse, Option.toList_some] at hparsed
    refine ⟨hnext, ?_, ?_, ?_, ?_⟩
    · rw [hparsed, Machine.after_concat, ← h.tracker_eq]
      rfl
    · rw [hparsed, Machine.emits_concat, List.reduceOption_append, List.reduceOption_singleton,
        ← h.sent_eq, ← h.tracker_eq]
      rfl
    · rw [hparsed, FlowTracker.ofNat_length_concat, ← h.totalPkts_eq]
    · rw [hparsed, FlowTracker.ofNat_bytesOf_concat, ← h.totalBytes_eq]

/-- **One step** replays a packet or moves on. -/
theorem Follows.step {ps : List BankPacket} {s : ReplayLoop} (h : Follows args ps s) (now : ℚ) :
    Follows args (ps ++ (visit args s now).toList) (step args s now) := by
  unfold visit ReplayLoop.step
  cases hphase : s.phase with
  | outer =>
    rw [Option.toList_none, List.append_nil]
    exact h.move _
  | bank banks =>
    rw [Option.toList_none, List.append_nil]
    cases banks with
    | nil =>
      dsimp only
      split
      · exact h.move _
      · exact h.move _
    | cons b banks => exact h.move _
  | packet rest banks =>
    cases rest with
    | nil =>
      rw [Option.toList_none, List.append_nil]
      exact h.move _
    | cons p rest =>
      dsimp only
      split
      · rw [Option.toList_none, List.append_nil]
        exact h.move _
      · -- only here is a packet visited
        exact (h.replay p).move _
  | exited =>
    rw [Option.toList_none, List.append_nil]
    exact h

/-- In every run the state is that of the packets visited. -/
theorem follows_after (args : ReplayArgs) (h : List ℚ) :
    Follows args (visited args h) ((machine args).after h) := by
  induction h using List.reverseRecOn with
  | nil => exact ⟨rfl, rfl, rfl, rfl, rfl⟩
  | append_singleton h now ih =>
    rw [visited_concat, Machine.after_concat]
    exact ih.step now

/-! ### The records of a run -/

/-- The packets that parse have increasing times, between the start and the clock. -/
structure Stamped (now simClock : ℚ) (pkts : List PacketMeta) : Prop where
  started : now ≤ simClock
  increasing : pkts.Pairwise fun p q => p.timestamp < q.timestamp
  between : ∀ p ∈ pkts, now < p.timestamp ∧ p.timestamp ≤ simClock

/-- A packet stamped with the clock that was moved for it. -/
theorem Stamped.add {now simClock simClock' : ℚ} {pkts : List PacketMeta} {pkt : PacketMeta}
    (h : Stamped now simClock pkts) (hclock : simClock < simClock')
    (hpkt : pkt.timestamp = simClock') : Stamped now simClock' (pkts ++ [pkt]) where
  started := h.started.trans hclock.le
  increasing := by
    rw [List.pairwise_append]
    refine ⟨h.increasing, List.pairwise_singleton _ _, fun p hp q hq => ?_⟩
    rw [List.mem_singleton.mp hq, hpkt]
    exact (h.between p hp).2.trans_lt hclock
  between p hp := by
    obtain hp | hp := List.mem_append.mp hp
    · exact ⟨(h.between p hp).1, (h.between p hp).2.trans hclock.le⟩
    · rw [List.mem_singleton.mp hp, hpkt]
      -- the new packet is at the new clock, later than all before
      exact ⟨h.started.trans_lt hclock, le_refl _⟩

/-- A packet that is not parsed moves the clock alone. -/
theorem Stamped.later {now simClock simClock' : ℚ} {pkts : List PacketMeta}
    (h : Stamped now simClock pkts) (hclock : simClock < simClock') :
    Stamped now simClock' pkts where
  started := h.started.trans hclock.le
  increasing := h.increasing
  between p hp := ⟨(h.between p hp).1, (h.between p hp).2.trans hclock.le⟩

/-- The arguments with the parser of the ingestor. -/
def withPnet (d : Pnet) (args : ReplayArgs) : ReplayArgs :=
  { args with parsePacket := d.parsePacket }

theorem stamped_parsed (d : Pnet) (args : ReplayArgs) (ps : List BankPacket) :
    Stamped args.now ((clock args.now).after ps).1 (parsed (withPnet d args) ps) := by
  induction ps using List.reverseRecOn with
  | nil => exact ⟨le_refl _, List.Pairwise.nil, List.forall_mem_nil _⟩
  | append_singleton ps p ih =>
    rw [parsed_concat, Machine.after_concat]
    -- the gap added is never zero
    have hclock : ((clock args.now).after ps).1 <
        (clock args.now).out ((clock args.now).after ps) p :=
      lt_add_of_pos_right _ (dt_pos _ _)
    show Stamped _ ((clock args.now).out ((clock args.now).after ps) p) (_ ++
      (d.parsePacket p.2 ((clock args.now).out ((clock args.now).after ps) p)).toList)
    cases hparse : d.parsePacket p.2 ((clock args.now).out ((clock args.now).after ps) p) with
    | none =>
      rw [Option.toList_none, List.append_nil]
      exact ih.later hclock
    | some pkt => exact ih.add hclock (Pnet.timestamp_of_parsePacket hparse)

open FlowTracker in
/-- **From the captures to the records.** At any time of a run, the totals are those of the
packets that were replayed and parsed, modulo `2 ^ 64`, and exactly these if they fit; the
packets are at increasing times; cutting them into windows gives the records that were sent,
one for each window of at least a second, and each record describes its window. -/
theorem replayed_windows (d : Pnet) (args : ReplayArgs) (hnow : 0 ≤ args.now) (h : List ℚ) :
    let s := (machine (withPnet d args)).after h
    let pkts := parsed (withPnet d args) (visited (withPnet d args) h)
    (pkts.Pairwise fun p q => p.timestamp < q.timestamp) ∧
    s.totalPkts = UInt64.ofNat pkts.length ∧ s.totalBytes = UInt64.ofNat (bytesOf pkts) ∧
    (Fits pkts → s.totalPkts.toNat = pkts.length ∧ s.totalBytes.toNat = bytesOf pkts) ∧
    ((cut 1 pkts).closed.map Prod.fst).flatten ++ (cut 1 pkts).live = pkts ∧
    (cut 1 pkts).closed.map Prod.snd = s.sent ∧
    ∀ x ∈ (cut 1 pkts).closed, ∃ g p, g ++ [p] <+: pkts ∧ x.1 = (cut 1 g).live ++ [p] ∧
      1 ≤ p.timestamp - (reference 1 g p).timestamp ∧
      Describes x.2 x.1 (p.timestamp - (reference 1 g p).timestamp) := by
  intro s pkts
  have hfollows : Follows (withPnet d args) (visited (withPnet d args) h) s :=
    follows_after (withPnet d args) h
  have hstamped := stamped_parsed d args (visited (withPnet d args) h)
  -- a start at zero or later stamps every packet after zero
  have hpos : ∀ p ∈ pkts, 0 < p.timestamp := fun p hp =>
    hnow.trans_lt (hstamped.between p hp).1
  refine ⟨hstamped.increasing, hfollows.totalPkts_eq, hfollows.totalBytes_eq, fun hfits => ?_,
    (windowInv_after pkts hpos).partition, ?_, fun x hx => ?_⟩
  · rw [hfollows.totalPkts_eq, hfollows.totalBytes_eq]
    exact ⟨UInt64.toNat_ofNat_of_lt hfits.pkts, UInt64.toNat_ofNat_of_lt hfits.bytes⟩
  · rw [map_snd_closed, hfollows.sent_eq]
    rfl
  · obtain ⟨g, p, flow, hpre, hseg, hdue, hcounts, hrecord⟩ := counts_of_mem_closed hpos hx
    refine ⟨g, p, hpre, hseg, hdue, ?_⟩
    rw [hrecord]
    exact hcounts.describes p _ flow

/-- A library that takes a frame of four bytes for a datagram, and a run over a bank of two such
frames and one that is too short. -/
def fourBytes : Pnet where
  ethernet data := if data.length < 4 then none else some (0x0800, data)
  ipv4 data := some ⟨"10.0.0.1", "10.0.0.2", data.length.toUInt16, 17, data⟩
  tcp _ := none
  udp _ := some (53, 53)

def threeFrames : ReplayArgs where
  pcapBanks := [[(0, [0, 0, 0, 0]), (1, [0]), (3, [0, 0, 0, 0])]]
  duration := 0
  tStart := 0
  now := 100
  parsePacket _ _ := none

theorem replayed_windows_three_frames :
    let s := (machine (withPnet fourBytes threeFrames)).after (List.replicate 5 0)
    let pkts := parsed (withPnet fourBytes threeFrames)
      (visited (withPnet fourBytes threeFrames) (List.replicate 5 0))
    pkts.length = 2 ∧ s.totalPkts.toNat = pkts.length := by
  intro s pkts
  have hfits : FlowTracker.Fits pkts := ⟨by decide +kernel, by decide +kernel⟩
  obtain ⟨-, -, -, htotals, -⟩ :=
    replayed_windows fourBytes threeFrames (by decide +kernel) (List.replicate 5 0)
  exact ⟨by decide +kernel, (htotals hfits).1⟩

/-! ### Which packets are replayed -/

/-- One pass over the banks. -/
def pass (args : ReplayArgs) : List BankPacket := args.pcapBanks.flatten

/-- The packets that are left of the pass. -/
def ahead : LoopPhase → List BankPacket
  | .outer => []
  | .bank banks => banks.flatten
  | .packet rest banks => rest ++ banks.flatten
  | .exited => []

/-- The loop is between two passes or in one, and has replayed the banks over and over. -/
structure Cycles (args : ReplayArgs) (ps : List BankPacket) (phase : LoopPhase) : Prop where
  running : phase ≠ .exited →
    ∃ k, ps ++ ahead phase = (List.replicate k (pass args)).flatten
  exited : phase = .exited → ∃ k, ps <+: (List.replicate k (pass args)).flatten
  single : args.duration = 0 →
    (phase = .outer → ps = []) ∧ (phase ≠ .outer → ps ++ ahead phase = pass args)

/-- Without a duration there is no deadline. -/
theorem deadline_eq_none (hsingle : args.duration = 0) : deadline args = none := by
  unfold deadline
  rw [if_neg (by rw [hsingle]; exact Nat.lt_irrefl 0)]

/-- A step that replays nothing and is not at the end of a pass. -/
theorem Cycles.walk {ps : List BankPacket} {phase phase' : LoopPhase} (h : Cycles args ps phase)
    (hahead : ahead phase' = ahead phase) (houter : phase ≠ .outer) (houter' : phase' ≠ .outer)
    (hrunning : phase ≠ .exited) (hrunning' : phase' ≠ .exited) : Cycles args ps phase' where
  running _ := by
    rw [hahead]
    exact h.running hrunning
  exited hex := absurd hex hrunning'
  single hs := by
    rw [hahead]
    exact ⟨fun ho => absurd ho houter', fun _ => (h.single hs).2 houter⟩

/-- One turn goes on to the next packet of the banks, or to the next pass. -/
theorem Cycles.step {ps : List BankPacket} {s : ReplayLoop} (h : Cycles args ps s.phase)
    (now : ℚ) :
    Cycles args (ps ++ (visit args s now).toList) (ReplayLoop.step args s now).phase := by
  unfold visit ReplayLoop.step
  cases hphase : s.phase with
  | outer =>
    rw [hphase] at h
    rw [Option.toList_none, List.append_nil]
    obtain ⟨k, hk⟩ := h.running nofun
    refine ⟨fun _ => ⟨k + 1, ?_⟩, nofun, fun hs => ⟨nofun, fun _ => ?_⟩⟩
    · rw [List.replicate_succ', List.flatten_append, ← hk, List.flatten_singleton]
      show ps ++ pass args = ps ++ [] ++ pass args
      rw [List.append_nil]
    · rw [(h.single hs).1 rfl]
      rfl
  | bank banks =>
    rw [hphase] at h
    rw [Option.toList_none, List.append_nil]
    cases banks with
    | nil =>
      -- the end of a pass
      have hpass : ∃ k, ps = (List.replicate k (pass args)).flatten := by
        obtain ⟨k, hk⟩ := h.running nofun
        exact ⟨k, by rw [← hk]; exact (List.append_nil ps).symm⟩
      dsimp only
      split
      · refine ⟨fun hex => absurd rfl hex, fun _ => ?_, fun hs => ⟨nofun, fun _ => ?_⟩⟩
        · obtain ⟨k, rfl⟩ := hpass
          exact ⟨k, List.prefix_refl _⟩
        · exact (h.single hs).2 nofun
      · next hgo =>
        refine ⟨fun _ => ?_, nofun, fun hs => absurd ⟨deadline_eq_none hs, hs⟩ hgo⟩
        obtain ⟨k, rfl⟩ := hpass
        exact ⟨k, List.append_nil _⟩
    | cons b banks => exact h.walk rfl nofun nofun nofun nofun
  | packet rest banks =>
    rw [hphase] at h
    cases rest with
    | nil =>
      rw [Option.toList_none, List.append_nil]
      exact h.walk rfl nofun nofun nofun nofun
    | cons p rest =>
      dsimp only
      split
      · next hexp =>
        rw [Option.toList_none, List.append_nil]
        refine ⟨fun hex => absurd rfl hex, fun _ => ?_, fun hs => ?_⟩
        · obtain ⟨k, hk⟩ := h.running nofun
          exact ⟨k, by rw [← hk]; exact List.prefix_append _ _⟩
        · -- without a deadline nothing expires
          rw [expired, deadline_eq_none hs] at hexp
          cases hexp
      · have hmove : ps ++ [p] ++ ahead (.packet rest banks) =
            ps ++ ahead (.packet (p :: rest) banks) := by
          rw [List.append_assoc]
          rfl
        refine ⟨fun _ => ?_, nofun, fun hs => ⟨nofun, fun _ => ?_⟩⟩
        · rw [Option.toList_some, hmove]
          exact h.running nofun
        · rw [Option.toList_some, hmove]
          exact (h.single hs).2 nofun
  | exited =>
    rw [Option.toList_none, List.append_nil, hphase]
    rwa [hphase] at h

/-- The packets visited are the banks over and over, in every run. -/
theorem cycles_after (args : ReplayArgs) (h : List ℚ) :
    Cycles args (visited args h) ((machine args).after h).phase := by
  induction h using List.reverseRecOn with
  | nil =>
    show Cycles args [] (start args).phase
    unfold start
    dsimp only
    split
    · -- no banks: the run ends before its first pass
      next hempty =>
      have hpass : pass args = [] := by
        rw [pass, List.isEmpty_iff.mp hempty]
        rfl
      refine ⟨fun hex => absurd rfl hex, fun _ => ⟨0, List.prefix_refl _⟩, fun _ => ?_⟩
      exact ⟨nofun, fun _ => hpass.symm⟩
    · exact ⟨fun _ => ⟨0, rfl⟩, nofun, fun _ => ⟨fun _ => rfl, fun hne => absurd rfl hne⟩⟩
  | append_singleton h now ih =>
    rw [visited_concat, Machine.after_concat]
    exact ih.step now

/-- **Which packets are replayed.** The packets a run has replayed are the first ones of the
endless repetition of the banks; without a duration they are all of the banks, once, when the
loop is left. -/
theorem visited_cycle (args : ReplayArgs) (h : List ℚ) :
    (∃ k, visited args h <+: (List.replicate k args.pcapBanks.flatten).flatten) ∧
    (args.duration = 0 → ((machine args).after h).phase = .exited →
      visited args h = args.pcapBanks.flatten) := by
  have hinv := cycles_after args h
  constructor
  · by_cases hex : ((machine args).after h).phase = .exited
    · exact hinv.exited hex
    · obtain ⟨k, hk⟩ := hinv.running hex
      exact ⟨k, by rw [← pass, ← hk]; exact List.prefix_append _ _⟩
  · -- without a duration the loop exits after one pass, with nothing left of it
    intro hs hex
    have hall := (hinv.single hs).2 (by rw [hex]; nofun)
    rw [hex] at hall
    exact (List.append_nil _).symm.trans hall

end ReplayLoop

end Sentrix
