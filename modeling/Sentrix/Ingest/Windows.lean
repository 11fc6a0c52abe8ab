import Mathlib.Data.Fintype.Card
import Mathlib.Data.Finset.Card
import Mathlib.Tactic.Linarith
import Sentrix.Ingest.FlowTracker

/-!
# The windows of a run

Cutting a run of the tracker after each packet that closes a window splits it
into segments: one for each record and the packets since the last record
(`cut`). The counters of the tracker are those of the live segment, which is
the invariant `WindowInv`; a packet is accounted before the window is closed,
so the record's counters are those of the live segment *with* the closing
packet, and the reset leaves the next segment empty.

The window start is the time of the packet that closed the previous window, or
of the first packet (`opener`). The source marks "no window yet" by a start of
`0.0`, so a packet stamped `0` would be taken for a first packet again; with
positive timestamps the mark is never met once a packet was seen.

The counters have 64 bits. They are those of the segment modulo `2 ^ 64`, and
exactly its packets, bytes and SYN packets as long as these fit (`Counts.exactly`).
-/

namespace Sentrix

namespace FlowTracker

variable {w : ℚ}

/-! ### Segments -/

/-- A run cut into segments: those closed by a record, and the live one. -/
structure Cut where
  closed : List (List PacketMeta × FeatureRecord)
  live : List PacketMeta

/-- One more packet, with the record `update` returned for it. -/
def Cut.push (c : Cut) (p : PacketMeta) : Option FeatureRecord → Cut
  | some r => ⟨c.closed ++ [(c.live ++ [p], r)], []⟩
  | none => ⟨c.closed, c.live ++ [p]⟩

/-- A run of the tracker, cut after each packet for which `update` returns a
record. -/
def cut (w : ℚ) (ps : List PacketMeta) : Cut :=
  (ps.zip ((machine w).emits ps)).foldl (fun c x => c.push x.1 x.2) ⟨[], []⟩

/-- One more packet joins the live segment, and closes it with a record. -/
theorem cut_concat (ps : List PacketMeta) (p : PacketMeta) :
    cut w (ps ++ [p]) = (cut w ps).push p ((machine w).out ((machine w).after ps) p) := by
  have hlen : ps.length = ((machine w).emits ps).length := ((machine w).length_emits ps).symm
  unfold cut
  -- outputs are paired with their packets, so the last pair is `p` and its answer
  rw [Machine.emits_concat, List.zip_append hlen, List.foldl_append]
  rfl

/-- The packet whose time the window after `ps` starts at: the one that closed
the previous window, or the first. -/
def opener (w : ℚ) (ps : List PacketMeta) : Option PacketMeta :=
  match (cut w ps).closed.getLast? with
  | some x => x.1.getLast?
  | none => ps.head?

/-- The packet from whose time the elapsed time of `p`, fed after `ps`, is
measured: the opener, or `p` itself if it is the first packet. -/
def reference (w : ℚ) (ps : List PacketMeta) (p : PacketMeta) : PacketMeta :=
  (opener w ps).getD p

/-! ### Counters of a segment -/

/-- The bytes of a segment. -/
def bytesOf (seg : List PacketMeta) : ℕ := (seg.map fun p => p.ipLen.toNat).sum

/-- The SYN packets of a segment. -/
def synsOf (seg : List PacketMeta) : ℕ := seg.countP PacketMeta.syn

/-- The packets of a segment to a port. -/
def portCount (seg : List PacketMeta) (port : UInt16) : ℕ := seg.countP fun p => p.dstPort == port

/-- The destination ports of a segment. -/
def portsOf (seg : List PacketMeta) : Finset UInt16 := (seg.map PacketMeta.dstPort).toFinset

/-- The rates and the port count of a record are those of a segment that lasted
`elapsed`, with the packets, bits and SYN packets counted in 64 bits. -/
structure Describes (r : FeatureRecord) (seg : List PacketMeta) (elapsed : ℚ) : Prop where
  pkts : r.pktRate1s = (seg.length % 2 ^ 64 : ℕ) / max elapsed (1 / 1000)
  bytes : r.byteRate1s = (bytesOf seg * 8 % 2 ^ 64 : ℕ) / max elapsed (1 / 1000) / 1000000
  syns : r.synRate1s = (synsOf seg % 2 ^ 64 : ℕ) / max elapsed (1 / 1000)
  ports : r.uniqueDstPorts1s.toNat = (portsOf seg).card

/-- The window counters of a tracker are those of a segment, in 64 bits; the port
map has the segment's ports for keys, with their packets counted in 32 bits. -/
structure Counts (s : FlowTracker) (seg : List PacketMeta) : Prop where
  pkts : s.windowPkts = UInt64.ofNat seg.length
  bytes : s.windowBytes = UInt64.ofNat (bytesOf seg)
  syns : s.windowSyns = UInt64.ofNat (synsOf seg)
  ports : ∀ port, s.windowDstPorts.get? port =
    if portCount seg port = 0 then none else some (UInt32.ofNat (portCount seg port))

/-- 64 bits are enough for the packets and the bytes of a segment. -/
structure Fits (seg : List PacketMeta) : Prop where
  pkts : seg.length < 2 ^ 64
  bytes : bytesOf seg < 2 ^ 64

/-- The window counters of a tracker are the packets, bytes, SYN packets and ports
of a segment. -/
structure CountsExactly (s : FlowTracker) (seg : List PacketMeta) : Prop where
  pkts : s.windowPkts.toNat = seg.length
  bytes : s.windowBytes.toNat = bytesOf seg
  syns : s.windowSyns.toNat = synsOf seg
  ports : s.windowDstPorts.size = (portsOf seg).card

/-! A counter that adds up packet by packet holds the sum, in 64 bits. -/

/-- The packet counter and the number of packets wrap alike. -/
theorem ofNat_length_concat (seg : List PacketMeta) (p : PacketMeta) :
    UInt64.ofNat (seg ++ [p]).length = UInt64.ofNat seg.length + 1 := by
  rw [List.length_append, List.length_singleton, UInt64.ofNat_add]
  rfl

theorem bytesOf_concat (seg : List PacketMeta) (p : PacketMeta) :
    bytesOf (seg ++ [p]) = bytesOf seg + p.ipLen.toNat := by
  unfold bytesOf
  rw [List.map_append, List.sum_append, List.map_singleton, List.sum_singleton]

/-- So do the byte counter and the sum of the lengths. -/
theorem ofNat_bytesOf_concat (seg : List PacketMeta) (p : PacketMeta) :
    UInt64.ofNat (bytesOf (seg ++ [p])) = UInt64.ofNat (bytesOf seg) + p.ipLen.toUInt64 := by
  rw [bytesOf_concat, UInt64.ofNat_add, UInt64.ofNat_uInt32ToNat]

/-- So do the SYN counter and the number of SYN packets. -/
theorem ofNat_synsOf_concat (seg : List PacketMeta) (p : PacketMeta) :
    UInt64.ofNat (synsOf (seg ++ [p])) =
      if p.syn then UInt64.ofNat (synsOf seg) + 1 else UInt64.ofNat (synsOf seg) := by
  unfold synsOf
  rw [List.countP_append, List.countP_singleton]
  split
  · rw [UInt64.ofNat_add]
    rfl
  · rw [Nat.add_zero]

theorem Counts.nil : Counts (new w) [] :=
  ⟨rfl, rfl, rfl, fun _ => rfl⟩

/-- Closing the window leaves the counters of the empty segment. -/
theorem Counts.closeWindow (s : FlowTracker) (t : ℚ) : Counts (s.closeWindow t) [] :=
  ⟨rfl, rfl, rfl, fun _ => rfl⟩

/-- Accounting a packet adds it to the segment. -/
theorem Counts.account {s : FlowTracker} {seg : List PacketMeta} (h : Counts s seg)
    (p : PacketMeta) : Counts (s.account p) (seg ++ [p]) := by
  refine ⟨?_, ?_, ?_, fun port => ?_⟩
  · show s.windowPkts + 1 = _
    rw [h.pkts, ofNat_length_concat]
  · show s.windowBytes + p.ipLen.toUInt64 = _
    rw [h.bytes, ofNat_bytesOf_concat]
  · show (if p.syn then s.windowSyns + 1 else s.windowSyns) = _
    rw [h.syns, ofNat_synsOf_concat]
  · -- the packet's own port gets one more, every other port keeps its count
    show (s.windowDstPorts.set p.dstPort _).get? port = _
    have hcount : portCount (seg ++ [p]) port =
        portCount seg port + if p.dstPort = port then 1 else 0 := by
      simp [portCount, List.countP_append, List.countP_singleton]
    rw [hcount]
    by_cases hp : port = p.dstPort
    · subst hp
      rw [Dict.get?_set_self, h.ports, if_pos rfl]
      by_cases h0 : portCount seg p.dstPort = 0
      · simp [h0]
      · simp [h0, UInt32.ofNat_add]
    · rw [Dict.get?_set_of_ne _ _ hp, h.ports, if_neg (Ne.symm hp), Nat.add_zero]

/-- The number of keys of the port map is the number of distinct ports. -/
theorem Counts.size_ports {s : FlowTracker} {seg : List PacketMeta} (h : Counts s seg) :
    s.windowDstPorts.size = (portsOf seg).card := by
  have hkeys : s.windowDstPorts.keys.toFinset = portsOf seg := by
    ext port
    rw [List.mem_toFinset, portsOf, List.mem_toFinset, Dict.mem_keys, h.ports, List.mem_map]
    -- a port that was not seen has no entry, and the other way round
    by_cases h0 : portCount seg port = 0
    · have hnone : ∀ p ∈ seg, ¬ (p.dstPort == port) = true := List.countP_eq_zero.mp h0
      simp only [if_pos h0]
      refine ⟨fun hv => absurd hv.choose_spec (by simp), fun ⟨p, hp, hport⟩ => ?_⟩
      exact absurd (by simpa using hport) (hnone p hp)
    · obtain ⟨p, hp, hport⟩ := List.countP_pos_iff.mp (Nat.pos_of_ne_zero h0)
      simp only [if_neg h0]
      exact ⟨fun _ => ⟨p, hp, by simpa using hport⟩, fun _ => ⟨_, rfl⟩⟩
  rw [← hkeys, List.toFinset_card_of_nodup s.windowDstPorts.nodup_keys, Dict.length_keys]

/-- A port count fits the record's field. -/
theorem card_portsOf_lt (seg : List PacketMeta) : (portsOf seg).card < UInt32.size := by
  -- there are only that many 16-bit ports
  have hle : (portsOf seg).card ≤ (Finset.range UInt16.size).card :=
    Finset.card_le_card_of_injOn UInt16.toNat
      (fun port _ => Finset.mem_coe.mpr (Finset.mem_range.mpr port.toNat_lt))
      (fun a _ b _ hab => UInt16.toNat_inj.mp hab)
  rw [Finset.card_range] at hle
  exact lt_of_le_of_lt hle (by decide)

/-- There are no more SYN packets than packets. -/
theorem synsOf_lt {seg : List PacketMeta} (hfits : Fits seg) : synsOf seg < 2 ^ 64 :=
  lt_of_le_of_lt List.countP_le_length hfits.pkts

/-- A segment that fits is counted exactly. -/
theorem Counts.exactly {s : FlowTracker} {seg : List PacketMeta} (h : Counts s seg)
    (hfits : Fits seg) : CountsExactly s seg where
  pkts := by
    rw [h.pkts]
    exact UInt64.toNat_ofNat_of_lt hfits.pkts
  bytes := by
    rw [h.bytes]
    exact UInt64.toNat_ofNat_of_lt hfits.bytes
  syns := by
    rw [h.syns]
    exact UInt64.toNat_ofNat_of_lt (synsOf_lt hfits)
  ports := h.size_ports

/-- **The closing record** describes the segment the counters count. -/
theorem Counts.describes {s : FlowTracker} {seg : List PacketMeta} (h : Counts s seg)
    (p : PacketMeta) (elapsed : ℚ) (flow : FlowState) :
    Describes (s.record p elapsed flow) seg elapsed := by
  refine ⟨?_, ?_, ?_, ?_⟩
  · show (s.windowPkts.toNat : ℚ) / _ = _
    rw [h.pkts, UInt64.toNat_ofNat']
  · -- the product with eight wraps as well, so the remainder is taken once
    show ((s.windowBytes * 8).toNat : ℚ) / _ / _ = _
    rw [h.bytes, UInt64.toNat_mul, UInt64.toNat_ofNat', Nat.mod_mul_mod]
    rfl
  · show (s.windowSyns.toNat : ℚ) / _ = _
    rw [h.syns, UInt64.toNat_ofNat']
  · show (UInt32.ofNat s.windowDstPorts.size).toNat = _
    rw [h.size_ports]
    exact UInt32.toNat_ofNat_of_lt (card_portsOf_lt seg)

/-! ### The invariant -/

/-- What holds after the packets `ps`: the counters are those of the live
segment, the segments make up the run, and the window starts at the opener,
which is there and positive as soon as a packet was seen. -/
structure WindowInv (w : ℚ) (ps : List PacketMeta) (s : FlowTracker) : Prop where
  size : s.windowSizeSecs = w
  counts : Counts s (cut w ps).live
  partition : ((cut w ps).closed.map Prod.fst).flatten ++ (cut w ps).live = ps
  start : s.windowStart = (opener w ps).elim 0 PacketMeta.timestamp
  seen : ps ≠ [] → ∃ q, opener w ps = some q ∧ 0 < q.timestamp

theorem WindowInv.initial (w : ℚ) : WindowInv w [] (new w) where
  size := rfl
  counts := Counts.nil
  partition := rfl
  start := rfl
  seen h := absurd rfl h

/-- The elapsed time is measured from the reference packet. -/
theorem WindowInv.start_account {ps : List PacketMeta} {s : FlowTracker} (h : WindowInv w ps s)
    (p : PacketMeta) : (s.account p).windowStart = (reference w ps p).timestamp := by
  show (if s.windowStart = 0 then p.timestamp else s.windowStart) = _
  unfold reference
  by_cases hps : ps = []
  -- no packet yet: the mark is replaced by this packet's time
  · subst hps
    rw [h.start]
    rfl
  · obtain ⟨q, hq, hpos⟩ := h.seen hps
    rw [h.start, hq]
    -- a positive start is not taken for the mark
    exact if_neg (ne_of_gt hpos)

/-- **When a record is emitted.** -/
theorem WindowInv.update_eq {ps : List PacketMeta} {s : FlowTracker} (h : WindowInv w ps s)
    (p : PacketMeta) :
    s.update p =
      if w ≤ p.timestamp - (reference w ps p).timestamp then
        ((s.account p).closeWindow p.timestamp,
          some ((s.account p).record p (p.timestamp - (reference w ps p).timestamp)
            (updateFlow p (s.flows.get? (keyOf p)))))
      else (s.account p, none) := by
  have hsize : (s.account p).windowSizeSecs = w := h.size
  unfold update
  simp only [h.start_account p, hsize, ge_iff_le]

/-- A packet that closes a window opens the next. -/
theorem opener_concat_of_some {ps : List PacketMeta} {p : PacketMeta} {r : FeatureRecord}
    (hout : (machine w).out ((machine w).after ps) p = some r) :
    opener w (ps ++ [p]) = some p := by
  unfold opener
  rw [cut_concat, hout]
  simp [Cut.push]

theorem opener_concat_of_none {ps : List PacketMeta} {p : PacketMeta}
    (hout : (machine w).out ((machine w).after ps) p = none)
    (hseen : ps ≠ [] → ∃ q, opener w ps = some q) :
    opener w (ps ++ [p]) = some (reference w ps p) := by
  unfold reference
  by_cases hps : ps = []
  · subst hps
    unfold opener
    rw [cut_concat, hout]
    rfl
  -- neither the closed segments nor the first packet change
  · obtain ⟨q, hq⟩ := hseen hps
    have hhead : (ps ++ [p]).head? = ps.head? := by
      obtain ⟨y, ys, rfl⟩ := List.exists_cons_of_ne_nil hps
      rfl
    rw [hq]
    unfold opener at hq ⊢
    rw [cut_concat, hout, hhead]
    exact hq

/-- **One packet** keeps the invariant. -/
theorem WindowInv.step {ps : List PacketMeta} {p : PacketMeta}
    (h : WindowInv w ps ((machine w).after ps)) (hpos : ∀ q ∈ ps ++ [p], 0 < q.timestamp) :
    WindowInv w (ps ++ [p]) ((machine w).next ((machine w).after ps) p) := by
  have hp : 0 < p.timestamp := hpos p (by simp)
  have hupd := h.update_eq p
  have hcounts := h.counts.account p
  by_cases hclose : w ≤ p.timestamp - (reference w ps p).timestamp
  · -- the packet closes the window
    rw [if_pos hclose] at hupd
    have hnext : (machine w).next ((machine w).after ps) p =
        (((machine w).after ps).account p).closeWindow p.timestamp := congrArg Prod.fst hupd
    have hout : (machine w).out ((machine w).after ps) p = some _ := congrArg Prod.snd hupd
    have hopen := opener_concat_of_some hout
    have hcut := cut_concat (w := w) ps p
    rw [hout] at hcut
    rw [hnext]
    refine ⟨h.size, ?_, ?_, ?_, fun _ => ⟨p, hopen, hp⟩⟩
    · rw [hcut]
      exact Counts.closeWindow _ _
    · rw [hcut]
      simp only [Cut.push, List.map_append, List.map_cons, List.map_nil, List.flatten_append,
        List.flatten_cons, List.flatten_nil, List.append_nil]
      rw [← List.append_assoc, h.partition]
    · rw [hopen]
      rfl
  · -- the packet joins the live segment
    rw [if_neg hclose] at hupd
    have hnext : (machine w).next ((machine w).after ps) p = ((machine w).after ps).account p :=
      congrArg Prod.fst hupd
    have hout : (machine w).out ((machine w).after ps) p = none := congrArg Prod.snd hupd
    have hopen := opener_concat_of_none hout fun hne => (h.seen hne).imp fun q hq => hq.1
    have hcut := cut_concat (w := w) ps p
    rw [hout] at hcut
    rw [hnext]
    refine ⟨h.size, ?_, ?_, ?_, fun _ => ⟨_, hopen, ?_⟩⟩
    · rw [hcut]
      exact hcounts
    · rw [hcut]
      simp only [Cut.push]
      rw [← List.append_assoc, h.partition]
    · rw [hopen]
      exact h.start_account p
    · unfold reference
      by_cases hps : ps = []
      · subst hps
        exact hp
      · obtain ⟨q, hq, hqpos⟩ := h.seen hps
        rw [hq]
        exact hqpos

/-- What every run over packets of positive times preserves. -/
theorem windowInv_after (ps : List PacketMeta) (hpos : ∀ p ∈ ps, 0 < p.timestamp) :
    WindowInv w ps ((machine w).after ps) := by
  refine (machine w).invariant_of (fun ps => ∀ p ∈ ps, 0 < p.timestamp) (WindowInv w)
    ?_ (WindowInv.initial w) ?_ ps hpos
  · intro ps p hpos q hq
    exact hpos q (List.mem_append_left _ hq)
  · intro ps p hpos h
    exact h.step hpos

/-! ### The records -/

/-- A closed segment is one live segment with the packet that closed it. -/
theorem mem_closed {ps : List PacketMeta} {x : List PacketMeta × FeatureRecord}
    (hx : x ∈ (cut w ps).closed) :
    ∃ h p, h ++ [p] <+: ps ∧ x.1 = (cut w h).live ++ [p] ∧
      (machine w).out ((machine w).after h) p = some x.2 := by
  induction ps using List.reverseRecOn with
  | nil => exact absurd hx List.not_mem_nil
  | append_singleton ps p ih =>
    rw [cut_concat] at hx
    -- a segment closed earlier stays as it was
    have hold : x ∈ (cut w ps).closed → ∃ h q, h ++ [q] <+: ps ++ [p] ∧
        x.1 = (cut w h).live ++ [q] ∧ (machine w).out ((machine w).after h) q = some x.2 := by
      intro hmem
      obtain ⟨h, q, hpre, hseg, hout⟩ := ih hmem
      exact ⟨h, q, hpre.trans (List.prefix_append ps [p]), hseg, hout⟩
    cases hout : (machine w).out ((machine w).after ps) p with
    | none =>
      rw [hout] at hx
      exact hold hx
    | some r =>
      rw [hout] at hx
      rcases List.mem_append.mp hx with hx | hx
      · exact hold hx
      · -- this packet has closed it
        obtain rfl := List.mem_singleton.mp hx
        exact ⟨ps, p, List.prefix_refl _, rfl, hout⟩

/-- The closed segments carry the records of the run, in order. -/
theorem map_snd_closed (ps : List PacketMeta) :
    (cut w ps).closed.map Prod.snd = ((machine w).emits ps).filterMap id := by
  induction ps using List.reverseRecOn with
  | nil => rfl
  | append_singleton ps p ih =>
    rw [cut_concat, Machine.emits_concat, List.filterMap_append, ← ih]
    cases (machine w).out ((machine w).after ps) p with
    | none => simp [Cut.push]
    | some r => simp [Cut.push]

/-- A closed segment is what the counters had counted when its record was made. -/
theorem counts_of_mem_closed {ps : List PacketMeta} (hpos : ∀ p ∈ ps, 0 < p.timestamp)
    {x : List PacketMeta × FeatureRecord} (hx : x ∈ (cut w ps).closed) :
    ∃ h p flow, h ++ [p] <+: ps ∧ x.1 = (cut w h).live ++ [p] ∧
      w ≤ p.timestamp - (reference w h p).timestamp ∧
      Counts (((machine w).after h).account p) x.1 ∧
      x.2 = (((machine w).after h).account p).record p
        (p.timestamp - (reference w h p).timestamp) flow := by
  obtain ⟨h, p, hpre, hseg, hout⟩ := mem_closed hx
  have hI : WindowInv w h ((machine w).after h) := windowInv_after h fun q hq =>
    hpos q (hpre.subset (List.mem_append_left _ hq))
  have hupd : (machine w).out ((machine w).after h) p = _ := congrArg Prod.snd (hI.update_eq p)
  rw [hout] at hupd
  -- the record was emitted, so the window was due
  by_cases hclose : w ≤ p.timestamp - (reference w h p).timestamp
  · rw [if_pos hclose] at hupd
    refine ⟨h, p, _, hpre, hseg, hclose, ?_, Option.some.inj hupd⟩
    rw [hseg]
    exact hI.counts.account p
  · rw [if_neg hclose] at hupd
    exact absurd hupd (Option.some_ne_none _)

/-- **The windows partition the traffic.** Cut a run after each packet for which
`update` returns a record: the segments make up the run, one for each record and
the live one; each record is made of the counters of its segment, modulo `2 ^ 64`
and exactly if the segment fits, and of the time since the previous window's
closing packet (or the first packet); the live counters are those of the packets
since the last record and the window starts at its opener; and a record is emitted
for a packet exactly when it lies at least the window size after that reference
packet. -/
theorem windows_partition (w : ℚ) (ps : List PacketMeta) (hpos : ∀ p ∈ ps, 0 < p.timestamp) :
    ((cut w ps).closed.map Prod.fst).flatten ++ (cut w ps).live = ps ∧
    (cut w ps).closed.map Prod.snd = ((machine w).emits ps).filterMap id ∧
    (∀ x ∈ (cut w ps).closed, ∃ h p flow, h ++ [p] <+: ps ∧ x.1 = (cut w h).live ++ [p] ∧
      Counts (((machine w).after h).account p) x.1 ∧
      (Fits x.1 → CountsExactly (((machine w).after h).account p) x.1) ∧
      x.2 = (((machine w).after h).account p).record p
        (p.timestamp - (reference w h p).timestamp) flow ∧
      Describes x.2 x.1 (p.timestamp - (reference w h p).timestamp)) ∧
    Counts ((machine w).after ps) (cut w ps).live ∧
    (Fits (cut w ps).live → CountsExactly ((machine w).after ps) (cut w ps).live) ∧
    ((machine w).after ps).windowStart = (opener w ps).elim 0 PacketMeta.timestamp ∧
    (∀ h p, h ++ [p] <+: ps →
      (((machine w).out ((machine w).after h) p).isSome ↔
        w ≤ p.timestamp - (reference w h p).timestamp)) := by
  have hlast : WindowInv w ps ((machine w).after ps) := windowInv_after ps hpos
  refine ⟨hlast.partition, map_snd_closed ps, fun x hx => ?_, hlast.counts,
    hlast.counts.exactly, hlast.start, fun h p hpre => ?_⟩
  · obtain ⟨h, p, flow, hpre, hseg, -, hcounts, hrecord⟩ := counts_of_mem_closed hpos hx
    refine ⟨h, p, flow, hpre, hseg, hcounts, hcounts.exactly, hrecord, ?_⟩
    rw [hrecord]
    exact hcounts.describes p _ flow
  · -- the emission test is the one `update_eq` gives at the state before the packet
    have hI : WindowInv w h ((machine w).after h) := windowInv_after h fun q hq =>
      hpos q (hpre.subset (List.mem_append_left _ hq))
    have hupd : (machine w).out ((machine w).after h) p = _ :=
      congrArg Prod.snd (hI.update_eq p)
    rw [hupd]
    by_cases hclose : w ≤ p.timestamp - (reference w h p).timestamp
    · simp [hclose]
    · simp [hclose]

/-- A TCP packet to a port. -/
def tcpTo (dstPort : UInt16) (tcpFlags : UInt8) (timestamp : ℚ) : PacketMeta :=
  ⟨"10.0.0.5", "10.0.0.9", 40000, dstPort, "TCP", 60, tcpFlags, timestamp⟩

/-- Three packets within a second, the last of which closes a window, and one after it. -/
def fourPackets : List PacketMeta :=
  [tcpTo 22 2 10, tcpTo 80 16 (21 / 2), tcpTo 80 2 11, tcpTo 443 16 (23 / 2)]

theorem windows_partition_three_packets :
    (∃ x ∈ (cut 1 fourPackets).closed, x.1.length = 3 ∧ ∃ s, CountsExactly s x.1) ∧
    CountsExactly ((machine 1).after fourPackets) (cut 1 fourPackets).live ∧
    ((machine 1).out ((machine 1).after (fourPackets.take 2)) (tcpTo 80 2 11)).isSome := by
  have hpos : ∀ p ∈ fourPackets, 0 < p.timestamp := by decide +kernel
  obtain ⟨-, -, hclosed, -, hlive, -, hemit⟩ := windows_partition 1 fourPackets hpos
  -- the third packet closes the window, the fourth starts the next
  have hlengths : (cut 1 fourPackets).closed.map (fun x => x.1.length) = [3] := by decide +kernel
  have hthree : 3 ∈ (cut 1 fourPackets).closed.map fun x => x.1.length := by
    rw [hlengths]
    exact List.mem_singleton_self 3
  obtain ⟨x, hx, hlength⟩ := List.mem_map.mp hthree
  refine ⟨⟨x, hx, hlength, ?_⟩, hlive ?_, (hemit (fourPackets.take 2) (tcpTo 80 2 11) ?_).mpr ?_⟩
  · obtain ⟨h, p, -, -, -, -, hexact, -⟩ := hclosed x hx
    have hfits : ∀ y ∈ (cut 1 fourPackets).closed, bytesOf y.1 < 2 ^ 64 := by decide +kernel
    exact ⟨_, hexact ⟨by rw [hlength]; decide, hfits x hx⟩⟩
  · exact ⟨by decide +kernel, by decide +kernel⟩
  · exact List.take_prefix 3 fourPackets
  · decide +kernel

/-! ### Counters that wrap

Packets with one timestamp close no window, so the counters add up all of them. -/

/-- Packets of one time never close a window. -/
theorem cut_replicate {p : PacketMeta} (hw : 0 < w) (hp : 0 < p.timestamp) (n : ℕ) :
    cut w (List.replicate n p) = ⟨[], List.replicate n p⟩ := by
  induction n with
  | zero => rfl
  | succ n ih =>
    have hI : WindowInv w (List.replicate n p) ((machine w).after (List.replicate n p)) :=
      windowInv_after _ fun q hq => by rwa [List.eq_of_mem_replicate hq]
    -- the window started with one of these packets
    have href : reference w (List.replicate n p) p = p := by
      unfold reference opener
      rw [ih]
      cases n with
      | zero => rfl
      | succ n => rfl
    have hout : (machine w).out ((machine w).after (List.replicate n p)) p = none := by
      have hupd : (machine w).out ((machine w).after (List.replicate n p)) p = _ :=
        congrArg Prod.snd (hI.update_eq p)
      rw [hupd, href, sub_self, if_neg (not_le.mpr hw)]
    rw [List.replicate_succ', cut_concat, hout, ih]
    rfl

theorem bytesOf_replicate (n : ℕ) (p : PacketMeta) :
    bytesOf (List.replicate n p) = n * p.ipLen.toNat := by
  unfold bytesOf
  rw [List.map_replicate, List.sum_replicate_nat]

/-- A packet of `2 ^ 31` bytes. -/
def bulkyPacket : PacketMeta := { tcpTo 443 16 1 with ipLen := 2147483648 }

/-- So many bytes that the counter is back at zero. -/
theorem ofNat_bytesOf_bulky : UInt64.ofNat (bytesOf (List.replicate (2 ^ 33) bulkyPacket)) = 0 := by
  have hbytes : bytesOf (List.replicate (2 ^ 33) bulkyPacket) = 2 ^ 64 :=
    bytesOf_replicate (2 ^ 33) bulkyPacket
  rw [hbytes]
  decide

/-- **A window whose bytes do not fit.** After `2 ^ 33` packets of `2 ^ 31` bytes
the window has counted no bytes. -/
theorem window_bytes_wrap :
    ¬ ∀ (w : ℚ) (ps : List PacketMeta), 0 < w → (∀ p ∈ ps, 0 < p.timestamp) →
      (ps.Pairwise fun p q => p.timestamp ≤ q.timestamp) →
      CountsExactly ((machine w).after ps) (cut w ps).live := by
  intro hall
  have hpos : ∀ p ∈ List.replicate (2 ^ 33) bulkyPacket, 0 < p.timestamp := fun p hp => by
    rw [List.eq_of_mem_replicate hp]
    exact zero_lt_one
  have hord : (List.replicate (2 ^ 33) bulkyPacket).Pairwise
      fun p q => p.timestamp ≤ q.timestamp :=
    List.pairwise_replicate.mpr (Or.inr (le_refl _))
  have hexact := (hall 1 _ zero_lt_one hpos hord).bytes
  have hcounts := (windowInv_after (w := 1) _ hpos).counts.bytes
  -- packets of one time stay in one window, whatever their number
  have hcut := cut_replicate (w := 1) (p := bulkyPacket) zero_lt_one zero_lt_one (2 ^ 33)
  rw [hcounts, hcut, ofNat_bytesOf_bulky, bytesOf_replicate] at hexact
  exact absurd hexact (by decide)

end FlowTracker

end Sentrix
