import Sentrix.Ingest.Windows

/-!
# The flow table of the tracker

A flow is evicted when a window closes and its last packet is a minute or more
older than the closing one. Between evictions a flow's state counts its packets
(`FlowInv`), and a key that is not in the table has met an eviction since its
last packet, or has no packet at all (`SeenInv`). Eviction is decided by the
closing packet's time, so with nondecreasing times the table right after a
record holds exactly the flows of the last minute (`flow_table_log`). Like those
of the window, the counters of a flow have 64 bits.

The destination ports a flow has contacted are collected in the flow's state,
while the flow's key already fixes one. The list can therefore never have a
second element (`PortInv`), and the port-scan features of a record describe the
source only if all its tracked flows go to one port (`port_scan_seen_iff`).
-/

namespace Sentrix

namespace FlowTracker

variable {w : ℚ}

/-! ### The packets of a flow -/

/-- The packets of a list that belong to a flow. -/
def packetsOf (k : FlowKey) (ps : List PacketMeta) : List PacketMeta :=
  ps.filter fun p => decide (keyOf p = k)

theorem packetsOf_append (k : FlowKey) (ps qs : List PacketMeta) :
    packetsOf k (ps ++ qs) = packetsOf k ps ++ packetsOf k qs :=
  List.filter_append ps qs

theorem packetsOf_self (p : PacketMeta) : packetsOf (keyOf p) [p] = [p] := by
  simp [packetsOf]

theorem packetsOf_of_ne {k : FlowKey} {p : PacketMeta} (h : k ≠ keyOf p) :
    packetsOf k [p] = [] := by
  simp [packetsOf, h.symm]

/-- A flow's state is that of a non-empty list of packets, counted in 64 bits. -/
structure Logs (st : FlowState) (qs : List PacketMeta) : Prop where
  pkts : st.pktCount = UInt64.ofNat qs.length
  bytes : st.byteCount = UInt64.ofNat (bytesOf qs)
  syns : st.synCount = UInt64.ofNat (synsOf qs)
  first : qs.head?.map PacketMeta.timestamp = some st.firstSeen
  last : qs.getLast?.map PacketMeta.timestamp = some st.lastSeen

/-- A flow's counters are the packets, bytes and SYN packets of a list. -/
structure LogsExactly (st : FlowState) (qs : List PacketMeta) : Prop where
  pkts : st.pktCount.toNat = qs.length
  bytes : st.byteCount.toNat = bytesOf qs
  syns : st.synCount.toNat = synsOf qs

/-- Packets that fit are counted exactly. -/
theorem Logs.exactly {st : FlowState} {qs : List PacketMeta} (h : Logs st qs) (hfits : Fits qs) :
    LogsExactly st qs where
  pkts := by
    rw [h.pkts]
    exact UInt64.toNat_ofNat_of_lt hfits.pkts
  bytes := by
    rw [h.bytes]
    exact UInt64.toNat_ofNat_of_lt hfits.bytes
  syns := by
    rw [h.syns]
    exact UInt64.toNat_ofNat_of_lt (synsOf_lt hfits)

/-- The first packet of a flow opens its entry. -/
theorem Logs.new (p : PacketMeta) : Logs (updateFlow p none) [p] := by
  refine ⟨rfl, ?_, ?_, rfl, rfl⟩
  · exact (ofNat_bytesOf_concat [] p).symm
  · exact (ofNat_synsOf_concat [] p).symm

/-- One more packet of the flow. -/
theorem Logs.add {st : FlowState} {qs : List PacketMeta} (h : Logs st qs) (p : PacketMeta) :
    Logs (updateFlow p (some st)) (qs ++ [p]) := by
  refine ⟨?_, ?_, ?_, ?_, ?_⟩
  · show st.pktCount + 1 = _
    rw [h.pkts, ofNat_length_concat]
  · show st.byteCount + p.ipLen.toUInt64 = _
    rw [h.bytes, ofNat_bytesOf_concat]
  · show (if p.syn then st.synCount + 1 else st.synCount) = _
    rw [h.syns, ofNat_synsOf_concat]
  · -- there was a first packet before, and it stays the first
    have hne : qs ≠ [] := by
      rintro rfl
      exact absurd h.first (by simp)
    rw [List.head?_append_of_ne_nil _ hne]
    exact h.first
  · rw [List.getLast?_append, List.getLast?_singleton]
    rfl

/-! ### The table after one packet -/

/-- Accounting updates the packet's own entry. -/
theorem get?_account (s : FlowTracker) (p : PacketMeta) (k : FlowKey) :
    (s.account p).flows.get? k =
      if k = keyOf p then some (updateFlow p (s.flows.get? (keyOf p))) else s.flows.get? k :=
  Dict.get?_set _ _ _ _

/-- A packet that closes no window evicts nothing, and one that closes a window
evicts the flows idle for a minute. -/
theorem get?_update (s : FlowTracker) (p : PacketMeta) (k : FlowKey) :
    (s.update p).1.flows.get? k =
      if (s.update p).2.isSome then
        ((s.account p).flows.get? k).filter fun st => decide (p.timestamp - st.lastSeen < 60)
      else (s.account p).flows.get? k := by
  unfold update
  dsimp only
  split
  · exact Dict.get?_retain _ _ _
  · rfl

/-- The closing packet's own flow has just been refreshed. -/
theorem get?_update_self (s : FlowTracker) (p : PacketMeta) :
    (s.update p).1.flows.get? (keyOf p) = some (updateFlow p (s.flows.get? (keyOf p))) := by
  have hfresh : p.timestamp - (updateFlow p (s.flows.get? (keyOf p))).lastSeen < 60 := by
    show p.timestamp - p.timestamp < 60
    rw [sub_self]
    norm_num
  rw [get?_update, get?_account, if_pos rfl]
  split
  · rw [Option.filter_eq_some_iff]
    exact ⟨rfl, decide_eq_true hfresh⟩
  · rfl

/-- What is in the table after a packet was there once the packet was accounted. -/
theorem get?_account_of_update {s : FlowTracker} {p : PacketMeta} {k : FlowKey} {st : FlowState}
    (h : (s.update p).1.flows.get? k = some st) : (s.account p).flows.get? k = some st := by
  rw [get?_update] at h
  split at h
  · exact (Option.filter_eq_some_iff.mp h).1
  · exact h

/-! ### Evictions -/

/-- The packet `p`, fed after `h`, evicts the flow. -/
def Evicts (w : ℚ) (h : List PacketMeta) (p : PacketMeta) (k : FlowKey) : Prop :=
  (∃ st, (((machine w).after h).account p).flows.get? k = some st) ∧
    ((machine w).after (h ++ [p])).flows.get? k = none

/-- The run `ps` cut at the last eviction of the flow, or at its start. -/
structure SinceEviction (w : ℚ) (k : FlowKey) (ps pre post : List PacketMeta) : Prop where
  split : ps = pre ++ post
  start : pre = [] ∨ ∃ h p, pre = h ++ [p] ∧ Evicts w h p k
  kept : ∀ h p, pre ++ (h ++ [p]) <+: ps → ¬ Evicts w (pre ++ h) p k

/-- The flow has just been evicted. -/
theorem SinceEviction.evicted {h : List PacketMeta} {p : PacketMeta} {k : FlowKey}
    (hev : Evicts w h p k) : SinceEviction w k (h ++ [p]) (h ++ [p]) [] := by
  refine ⟨(List.append_nil _).symm, Or.inr ⟨h, p, rfl, hev⟩, ?_⟩
  intro h' p' hpre
  have hlen := hpre.length_le
  simp at hlen

/-- One more packet that does not evict the flow. -/
theorem SinceEviction.concat {h pre post : List PacketMeta} {p : PacketMeta} {k : FlowKey}
    (hs : SinceEviction w k h pre post) (hev : ¬ Evicts w h p k) :
    SinceEviction w k (h ++ [p]) pre (post ++ [p]) := by
  refine ⟨by rw [hs.split, List.append_assoc], hs.start, ?_⟩
  intro h' p' hpre
  rw [← List.append_assoc] at hpre
  obtain heq | hpre := List.prefix_concat_iff.mp hpre
  · -- the prefix is the whole run
    obtain ⟨hinit, hlast⟩ := List.append_inj' heq rfl
    obtain rfl : p' = p := (List.cons.inj hlast).1
    rw [hinit]
    exact hev
  · rw [List.append_assoc] at hpre
    exact hs.kept h' p' hpre

/-- What holds of a flow after the packets `ps`: cut at its last eviction, the
run's second part has no packet of the flow if the flow is not tracked, and the
packets its state counts if it is. -/
def FlowInv (w : ℚ) (ps : List PacketMeta) (s : FlowTracker) : Prop :=
  ∀ k, ∃ pre post, SinceEviction w k ps pre post ∧
    (s.flows.get? k = none → packetsOf k post = []) ∧
    ∀ st, s.flows.get? k = some st → Logs st (packetsOf k post)

/-- **One packet** keeps the account of every flow. -/
theorem FlowInv.step {ps : List PacketMeta} (h : FlowInv w ps ((machine w).after ps))
    (p : PacketMeta) :
    FlowInv w (ps ++ [p]) ((machine w).next ((machine w).after ps) p) := by
  intro k
  obtain ⟨pre, post, hs, hnone, hsome⟩ := h k
  have hafter : (machine w).after (ps ++ [p]) = (machine w).next ((machine w).after ps) p :=
    (machine w).after_concat ps p
  by_cases hev : Evicts w ps p k
  · refine ⟨ps ++ [p], [], SinceEviction.evicted hev, fun _ => rfl, fun st hst => ?_⟩
    rw [← hafter, hev.2] at hst
    cases hst
  · refine ⟨pre, post ++ [p], hs.concat hev, ?_, ?_⟩
    · intro hget
      rw [packetsOf_append]
      by_cases hk : k = keyOf p
      · subst hk
        change (update _ p).1.flows.get? (keyOf p) = none at hget
        rw [get?_update_self] at hget
        cases hget
      · -- not tracked now and not evicted now, so not tracked before
        have hacc : (((machine w).after ps).account p).flows.get? k = none := by
          cases hget' : (((machine w).after ps).account p).flows.get? k with
          | none => rfl
          | some st => exact absurd ⟨⟨st, hget'⟩, by rw [hafter]; exact hget⟩ hev
        rw [get?_account, if_neg hk] at hacc
        rw [hnone hacc, packetsOf_of_ne hk]
        rfl
    · intro st hst
      have hacc := get?_account_of_update hst
      rw [get?_account] at hacc
      rw [packetsOf_append]
      by_cases hk : k = keyOf p
      · subst hk
        rw [if_pos rfl] at hacc
        obtain rfl := Option.some.inj hacc
        rw [packetsOf_self]
        cases hget : ((machine w).after ps).flows.get? (keyOf p) with
        | none =>
          rw [hnone hget]
          exact Logs.new p
        | some st => exact (hsome st hget).add p
      · rw [if_neg hk] at hacc
        rw [packetsOf_of_ne hk, List.append_nil]
        exact hsome st hacc

/-- What every run preserves. -/
theorem flowInv_after (w : ℚ) (ps : List PacketMeta) : FlowInv w ps ((machine w).after ps) := by
  refine (machine w).invariant (FlowInv w) ?_ (fun h p ih => ih.step p) ps
  intro k
  refine ⟨[], [], ⟨rfl, Or.inl rfl, ?_⟩, fun _ => rfl, fun st hst => ?_⟩
  · intro h p hpre
    have hlen := hpre.length_le
    simp at hlen
  · exact absurd hst (Option.some_ne_none st).symm

/-! ### Flows of the last minute -/

/-- What the table says about the last packet of a flow, in any order of times:
a tracked flow was last seen with it, and a flow that is not tracked has met a
packet a minute or more younger. -/
def SeenInv (ps : List PacketMeta) (s : FlowTracker) : Prop :=
  ∀ k, (∀ st, s.flows.get? k = some st →
      (packetsOf k ps).getLast?.map PacketMeta.timestamp = some st.lastSeen) ∧
    (s.flows.get? k = none →
      ∀ q, (packetsOf k ps).getLast? = some q → ∃ c ∈ ps, 60 ≤ c.timestamp - q.timestamp)

/-- What one packet preserves. -/
theorem SeenInv.step {ps : List PacketMeta} {s : FlowTracker} (h : SeenInv ps s)
    (p : PacketMeta) : SeenInv (ps ++ [p]) (s.update p).1 := by
  intro k
  rw [packetsOf_append]
  by_cases hk : k = keyOf p
  · subst hk
    rw [packetsOf_self, List.getLast?_append, List.getLast?_singleton, get?_update_self]
    constructor
    · intro st hst
      obtain rfl := Option.some.inj hst
      rfl
    · intro hnone
      cases hnone
  · rw [packetsOf_of_ne hk, List.append_nil]
    obtain ⟨hsome, hnone⟩ := h k
    constructor
    · intro st hst
      have hacc := get?_account_of_update hst
      rw [get?_account, if_neg hk] at hacc
      exact hsome st hacc
    · intro hget q hq
      cases hold : s.flows.get? k with
      | none =>
        obtain ⟨c, hc, hage⟩ := hnone hold q hq
        exact ⟨c, List.mem_append_left _ hc, hage⟩
      | some st =>
        -- tracked before and not any more: this packet closed a window and is too young
        refine ⟨p, List.mem_append_right _ (List.mem_singleton_self p), ?_⟩
        rw [get?_update, get?_account, if_neg hk, hold] at hget
        have hlast := hsome st hold
        rw [hq] at hlast
        obtain hseen : q.timestamp = st.lastSeen := Option.some.inj hlast
        split at hget
        · rw [Option.filter_eq_none_iff] at hget
          have hstale := hget st rfl
          rw [decide_eq_true_eq, not_lt] at hstale
          rw [hseen]
          exact hstale
        · cases hget

/-- What every run preserves. -/
theorem seenInv_after (w : ℚ) (ps : List PacketMeta) : SeenInv ps ((machine w).after ps) := by
  refine (machine w).invariant SeenInv ?_ (fun h p ih => ih.step p) ps
  intro k
  refine ⟨fun st hst => absurd hst (Option.some_ne_none st).symm, fun _ q hq => ?_⟩
  cases hq

/-- Right after a record, the table holds the flows of the last minute. -/
theorem tracked_iff {h : List PacketMeta} {p : PacketMeta} {r : FeatureRecord}
    (hord : (h ++ [p]).Pairwise fun a b => a.timestamp ≤ b.timestamp)
    (hout : (machine w).out ((machine w).after h) p = some r) (k : FlowKey) :
    (∃ st, ((machine w).after (h ++ [p])).flows.get? k = some st) ↔
      ∃ q, (packetsOf k (h ++ [p])).getLast? = some q ∧ p.timestamp - q.timestamp < 60 := by
  obtain ⟨hsome, hnone⟩ := seenInv_after w (h ++ [p]) k
  constructor
  · rintro ⟨st, hst⟩
    obtain ⟨q, hq, hseen⟩ := Option.map_eq_some_iff.mp (hsome st hst)
    refine ⟨q, hq, ?_⟩
    rw [(machine w).after_concat] at hst
    change (update ((machine w).after h) p).1.flows.get? k = some st at hst
    have hclosed : (update ((machine w).after h) p).2.isSome = true := by
      rw [show (update ((machine w).after h) p).2 = some r from hout]
      rfl
    rw [get?_update, if_pos hclosed, Option.filter_eq_some_iff, decide_eq_true_eq] at hst
    rw [hseen]
    exact hst.2
  · rintro ⟨q, hq, hfresh⟩
    by_contra hcon
    have hget : ((machine w).after (h ++ [p])).flows.get? k = none := by
      cases hget : ((machine w).after (h ++ [p])).flows.get? k with
      | none => rfl
      | some st => exact absurd ⟨st, hget⟩ hcon
    obtain ⟨c, hc, hage⟩ := hnone hget q hq
    -- the packet that outdated the flow is no younger than the closing one
    have hcp : c.timestamp ≤ p.timestamp := by
      obtain hc | hc := List.mem_append.mp hc
      · exact (List.pairwise_append.mp hord).2.2 c hc p (List.mem_singleton_self p)
      · rw [List.mem_singleton.mp hc]
    linarith

/-- A record reports the entry of its packet's flow. -/
theorem record_flow {h : List PacketMeta} {p : PacketMeta} {r : FeatureRecord}
    (hout : (machine w).out ((machine w).after h) p = some r) :
    ∃ st, ((machine w).after (h ++ [p])).flows.get? (keyOf p) = some st ∧
      r.flowPktCount = st.pktCount ∧ r.flowByteCount = st.byteCount ∧
      r.flowDuration = st.lastSeen - st.firstSeen ∧
      r.uniquePortsScanned = UInt32.ofNat st.dstPortsSeen.length ∧
      r.isPortScan = decide (st.dstPortsSeen.length > 10) := by
  -- the entry was written before the record was made, and the eviction spares it
  refine ⟨updateFlow p (((machine w).after h).flows.get? (keyOf p)), ?_, ?_⟩
  · rw [(machine w).after_concat]
    exact get?_update_self _ p
  · change (update ((machine w).after h) p).2 = some r at hout
    unfold update at hout
    dsimp only at hout
    split at hout
    · obtain rfl := Option.some.inj hout
      exact ⟨rfl, rfl, rfl, rfl, rfl⟩
    · cases hout

/-- **The flow table is the log of the live flows.** For packets with
nondecreasing times: right after a record is emitted, a flow is tracked if and
only if its last packet is less than a minute older than the closing one; at
every moment the state of a tracked flow is that of exactly its packets since
its last eviction, or since the start, with the counters modulo `2 ^ 64` and exact
if these packets fit; and a record reports these values for the flow of the packet
that closed the window. -/
theorem flow_table_log (w : ℚ) (ps : List PacketMeta)
    (hord : ps.Pairwise fun a b => a.timestamp ≤ b.timestamp) :
    (∀ h p r, h ++ [p] <+: ps → (machine w).out ((machine w).after h) p = some r → ∀ k,
      ((∃ st, ((machine w).after (h ++ [p])).flows.get? k = some st) ↔
        ∃ q, (packetsOf k (h ++ [p])).getLast? = some q ∧ p.timestamp - q.timestamp < 60)) ∧
    (∀ h, h <+: ps → ∀ k st, ((machine w).after h).flows.get? k = some st →
      ∃ pre post, SinceEviction w k h pre post ∧ Logs st (packetsOf k post) ∧
        (Fits (packetsOf k post) → LogsExactly st (packetsOf k post))) ∧
    (∀ h p r, h ++ [p] <+: ps → (machine w).out ((machine w).after h) p = some r →
      ∃ pre post st, SinceEviction w (keyOf p) (h ++ [p]) pre post ∧
        Logs st (packetsOf (keyOf p) post) ∧
        (Fits (packetsOf (keyOf p) post) → LogsExactly st (packetsOf (keyOf p) post)) ∧
        r.flowPktCount = st.pktCount ∧ r.flowByteCount = st.byteCount ∧
        r.flowDuration = st.lastSeen - st.firstSeen) := by
  refine ⟨?_, ?_, ?_⟩
  · intro h p r hpre hout k
    exact tracked_iff (hord.sublist hpre.sublist) hout k
  · intro h _ k st hst
    obtain ⟨pre, post, hs, -, hlogs⟩ := flowInv_after w h k
    exact ⟨pre, post, hs, hlogs st hst, (hlogs st hst).exactly⟩
  · intro h p r _ hout
    obtain ⟨st, hst, hpkts, hbytes, hdur, -⟩ := record_flow hout
    obtain ⟨pre, post, hs, -, hlogs⟩ := flowInv_after w (h ++ [p]) (keyOf p)
    exact ⟨pre, post, st, hs, hlogs st hst, (hlogs st hst).exactly, hpkts, hbytes, hdur⟩

theorem flow_table_log_two_flows :
    ¬ ∃ st, ((machine 1).after [tcpTo 22 2 10, tcpTo 80 2 100]).flows.get? (keyOf (tcpTo 22 2 10))
      = some st := by
  have hord : [tcpTo 22 2 10, tcpTo 80 2 100].Pairwise fun a b => a.timestamp ≤ b.timestamp := by
    decide +kernel
  have hclosed : ((machine 1).out ((machine 1).after [tcpTo 22 2 10]) (tcpTo 80 2 100)).isSome := by
    decide +kernel
  obtain ⟨r, hr⟩ := Option.isSome_iff_exists.mp hclosed
  intro hst
  obtain ⟨q, hq, hage⟩ := ((flow_table_log 1 _ hord).1 [tcpTo 22 2 10] (tcpTo 80 2 100) r
    (List.prefix_refl _) hr (keyOf (tcpTo 22 2 10))).mp hst
  -- the first flow's last packet is ninety seconds old
  have hlast : (packetsOf (keyOf (tcpTo 22 2 10)) [tcpTo 22 2 10, tcpTo 80 2 100]).getLast? =
      some (tcpTo 22 2 10) := by
    have hself : packetsOf (keyOf (tcpTo 22 2 10)) [tcpTo 22 2 10] = [tcpTo 22 2 10] :=
      packetsOf_self _
    have hother : packetsOf (keyOf (tcpTo 22 2 10)) [tcpTo 80 2 100] = [] :=
      packetsOf_of_ne (by decide +kernel)
    rw [show [tcpTo 22 2 10, tcpTo 80 2 100] = [tcpTo 22 2 10] ++ [tcpTo 80 2 100] from rfl,
      packetsOf_append, hself, hother]
    rfl
  change (packetsOf _ [tcpTo 22 2 10, tcpTo 80 2 100]).getLast? = some q at hq
  rw [hlast] at hq
  obtain rfl := Option.some.inj hq
  have hlt : (100 : ℚ) - 10 < 60 := hage
  norm_num at hlt

/-- A flow is evicted by a packet that closes a window. -/
theorem Evicts.closes {h : List PacketMeta} {p : PacketMeta} {k : FlowKey}
    (hev : Evicts w h p k) : ((machine w).out ((machine w).after h) p).isSome := by
  obtain ⟨⟨st, hst⟩, hnone⟩ := hev
  rw [(machine w).after_concat] at hnone
  change (update ((machine w).after h) p).1.flows.get? k = none at hnone
  rw [get?_update] at hnone
  split at hnone
  · next hclosed => exact hclosed
  · rw [hst] at hnone
    cases hnone

/-- Packets with one timestamp evict no flow. -/
theorem eq_of_sinceEviction_replicate {p : PacketMeta} {k : FlowKey} {pre post : List PacketMeta}
    {n : ℕ} (hw : 0 < w) (hp : 0 < p.timestamp)
    (hs : SinceEviction w k (List.replicate n p) pre post) : post = List.replicate n p := by
  have hsplit := hs.split
  obtain rfl | ⟨h, q, rfl, hev⟩ := hs.start
  · exact hsplit.symm
  · -- the evicting packet would have closed a window
    have hpre : h ++ [q] <+: List.replicate n p := ⟨post, hsplit.symm⟩
    have hq : q = p := List.eq_of_mem_replicate (hpre.subset (by simp))
    have hh : h = List.replicate h.length p := List.eq_replicate_of_mem fun x hx =>
      List.eq_of_mem_replicate (hpre.subset (List.mem_append_left _ hx))
    have hclosed : (cut w (h ++ [q])).closed = [] := by
      rw [hq, hh, ← List.replicate_succ', cut_replicate hw hp]
    have hcut := cut_concat (w := w) h q
    obtain ⟨r, hr⟩ := Option.isSome_iff_exists.mp hev.closes
    rw [hr] at hcut
    rw [hcut] at hclosed
    exact absurd hclosed (List.concat_ne_nil _ _)

/-- **A flow whose bytes do not fit.** After `2 ^ 33` packets of `2 ^ 31` bytes the
flow has counted no bytes. -/
theorem flow_bytes_wrap :
    ¬ ∀ (w : ℚ) (ps : List PacketMeta), 0 < w →
      (ps.Pairwise fun p q => p.timestamp ≤ q.timestamp) →
      ∀ k st, ((machine w).after ps).flows.get? k = some st →
        ∃ pre post, SinceEviction w k ps pre post ∧ LogsExactly st (packetsOf k post) := by
  intro hall
  have hpos : 0 < bulkyPacket.timestamp := zero_lt_one
  have hord : (List.replicate (2 ^ 33) bulkyPacket).Pairwise
      fun p q => p.timestamp ≤ q.timestamp :=
    List.pairwise_replicate.mpr (Or.inr (le_refl _))
  have hpackets : packetsOf (keyOf bulkyPacket) (List.replicate (2 ^ 33) bulkyPacket) =
      List.replicate (2 ^ 33) bulkyPacket :=
    List.filter_eq_self.mpr fun p hp => by
      rw [List.eq_of_mem_replicate hp]
      exact decide_eq_true rfl
  obtain ⟨pre, post, hs, hnone, hlogs⟩ :=
    flowInv_after 1 (List.replicate (2 ^ 33) bulkyPacket) (keyOf bulkyPacket)
  obtain rfl := eq_of_sinceEviction_replicate zero_lt_one hpos hs
  rw [hpackets] at hnone hlogs
  -- the flow is tracked, for it has packets
  cases hget : ((machine 1).after (List.replicate (2 ^ 33) bulkyPacket)).flows.get?
      (keyOf bulkyPacket) with
  | none =>
    have hlength := congrArg List.length (hnone hget)
    rw [List.length_replicate] at hlength
    exact absurd hlength (by decide)
  | some st =>
    obtain ⟨pre', post', hs', hexact⟩ := hall 1 _ zero_lt_one hord _ st hget
    obtain rfl := eq_of_sinceEviction_replicate zero_lt_one hpos hs'
    have hbytes := hexact.bytes
    rw [hpackets, (hlogs st hget).bytes, ofNat_bytesOf_bulky, bytesOf_replicate] at hbytes
    exact absurd hbytes (by decide)

/-! ### Ports -/

/-- A tracked flow has contacted the port its key names and no other. -/
def PortInv (s : FlowTracker) : Prop :=
  ∀ k st, s.flows.get? k = some st → st.dstPortsSeen = [k.dstPort]

/-- No entry learns of a second port. -/
theorem PortInv.update {s : FlowTracker} (h : PortInv s) (p : PacketMeta) :
    PortInv (s.update p).1 := by
  intro k st hst
  have hacc := get?_account_of_update hst
  rw [get?_account] at hacc
  split at hacc
  · next hk =>
    subst hk
    obtain rfl := Option.some.inj hacc
    cases hget : s.flows.get? (keyOf p) with
    | none => rfl
    | some old =>
      -- the port is listed already
      have hold : old.dstPortsSeen = [p.dstPort] := h _ old hget
      show (if p.dstPort ∈ old.dstPortsSeen then old.dstPortsSeen
        else old.dstPortsSeen ++ [p.dstPort]) = [p.dstPort]
      rw [hold, if_pos (List.mem_singleton_self _)]
  · exact h k st hacc

/-- Every entry of every run has one port. -/
theorem portInv_after (w : ℚ) (ps : List PacketMeta) : PortInv ((machine w).after ps) :=
  (machine w).invariant (fun _ s => PortInv s)
    (fun _ st hst => absurd hst (Option.some_ne_none st).symm) (fun _ p ih => ih.update p) ps

/-- The destination ports a source has contacted in the flows of a table. -/
def portsContacted (flows : Dict FlowKey FlowState) (srcIp : List UInt8) : Finset UInt16 :=
  ((flows.keys.filter fun k => decide (k.srcIp = srcIp)).map FlowKey.dstPort).toFinset

/-- The record reports the ports its source has contacted in the flows that are
tracked when it is built. -/
def SeesScan (s : FlowTracker) (p : PacketMeta) (r : FeatureRecord) : Prop :=
  r.uniquePortsScanned.toNat = (portsContacted (s.account p).flows (keyOf p).srcIp).card ∧
    (r.isPortScan = true ↔ 10 < (portsContacted (s.account p).flows (keyOf p).srcIp).card)

/-- The flows tracked before the packet that have its source go to its port. -/
def OnePort (s : FlowTracker) (p : PacketMeta) : Prop :=
  ∀ k ∈ s.flows.keys, k.srcIp = (keyOf p).srcIp → k.dstPort = p.dstPort

/-- The ports contacted from a source: the packet's own, and those of its flows in the table. -/
theorem mem_portsContacted_account (s : FlowTracker) (p : PacketMeta) (port : UInt16) :
    port ∈ portsContacted (s.account p).flows (keyOf p).srcIp ↔
      port = p.dstPort ∨ ∃ k ∈ s.flows.keys, k.srcIp = (keyOf p).srcIp ∧ k.dstPort = port := by
  -- accounting adds the packet's own key and no other
  have hkeys : ∀ k, k ∈ (s.account p).flows.keys ↔ k = keyOf p ∨ k ∈ s.flows.keys := by
    intro k
    rw [Dict.mem_keys, Dict.mem_keys, get?_account]
    by_cases hk : k = keyOf p
    · simp [hk]
    · simp [hk]
  unfold portsContacted
  simp only [List.mem_toFinset, List.mem_map, List.mem_filter, decide_eq_true_eq, hkeys]
  constructor
  · rintro ⟨k, ⟨rfl | hk, hsrc⟩, rfl⟩
    · exact Or.inl rfl
    · exact Or.inr ⟨k, hk, hsrc, rfl⟩
  · rintro (rfl | ⟨k, hk, hsrc, rfl⟩)
    · exact ⟨keyOf p, ⟨Or.inl rfl, rfl⟩, rfl⟩
    · exact ⟨k, ⟨Or.inr hk, hsrc⟩, rfl⟩

/-- The source has contacted one port if and only if its tracked flows go there. -/
theorem card_portsContacted_eq_one_iff (s : FlowTracker) (p : PacketMeta) :
    (portsContacted (s.account p).flows (keyOf p).srcIp).card = 1 ↔ OnePort s p := by
  rw [Finset.card_eq_one]
  constructor
  · -- both ports are the one element
    rintro ⟨a, ha⟩ k hk hsrc
    have hself := (mem_portsContacted_account s p p.dstPort).mpr (Or.inl rfl)
    have hport := (mem_portsContacted_account s p k.dstPort).mpr (Or.inr ⟨k, hk, hsrc, rfl⟩)
    rw [ha, Finset.mem_singleton] at hself hport
    rw [hport, hself]
  · intro hone
    refine ⟨p.dstPort, ?_⟩
    ext port
    rw [mem_portsContacted_account, Finset.mem_singleton]
    constructor
    · rintro (rfl | ⟨k, hk, hsrc, rfl⟩)
      · rfl
      · exact hone k hk hsrc
    · exact Or.inl

/-- **When the port-scan features see the scan.** In every run, a record reports
the number of ports its source has contacted in the tracked flows, and a port
scan when there are more than ten, if and only if all these flows go to the port
of the packet that closed the window. -/
theorem port_scan_seen_iff (w : ℚ) (h : List PacketMeta) (p : PacketMeta) (r : FeatureRecord)
    (hout : (machine w).out ((machine w).after h) p = some r) :
    SeesScan ((machine w).after h) p r ↔ OnePort ((machine w).after h) p := by
  obtain ⟨st, hst, -, -, -, hunique, hscan⟩ := record_flow hout
  -- an entry's port set is made with one port and never extended
  have hports : st.dstPortsSeen.length = 1 := by
    rw [portInv_after w (h ++ [p]) _ st hst]
    rfl
  have hone : r.uniquePortsScanned.toNat = 1 := by
    rw [hunique, hports]
    rfl
  have hno : r.isPortScan = false := by
    rw [hscan, hports]
    rfl
  -- so the record says one port and no scan; the truth may differ
  rw [← card_portsContacted_eq_one_iff]
  unfold SeesScan
  rw [hone, hno]
  constructor
  · exact fun hsees => hsees.1.symm
  · intro hcard
    rw [hcard]
    exact ⟨rfl, by simp⟩

theorem port_scan_seen_iff_one_port :
    ∃ r, (machine 1).out ((machine 1).after [tcpTo 22 2 10]) (tcpTo 22 2 12) = some r ∧
      SeesScan ((machine 1).after [tcpTo 22 2 10]) (tcpTo 22 2 12) r := by
  have hclosed : ((machine 1).out ((machine 1).after [tcpTo 22 2 10]) (tcpTo 22 2 12)).isSome := by
    decide +kernel
  obtain ⟨r, hr⟩ := Option.isSome_iff_exists.mp hclosed
  refine ⟨r, hr, (port_scan_seen_iff 1 [tcpTo 22 2 10] (tcpTo 22 2 12) r hr).mpr ?_⟩
  unfold OnePort
  decide +kernel

/-- **A scan the features do not see.** Twelve SYNs of one source to twelve ports
in little over a second: the record reports one port and no scan. -/
theorem port_scan_not_seen :
    ¬ ∀ (w : ℚ) (h : List PacketMeta) (p : PacketMeta) (r : FeatureRecord),
      (machine w).out ((machine w).after h) p = some r → SeesScan ((machine w).after h) p r := by
  intro hall
  have hclosed : ((machine 1).out ((machine 1).after
      ([21, 22, 23, 25, 53, 80, 110, 143, 443, 445, 3306].map (tcpTo · 2 10)))
        (tcpTo 8080 2 12)).isSome := by
    decide +kernel
  obtain ⟨r, hr⟩ := Option.isSome_iff_exists.mp hclosed
  have hsees := hall 1 _ _ r hr
  have hcard : (portsContacted (((machine 1).after
      ([21, 22, 23, 25, 53, 80, 110, 143, 443, 445, 3306].map (tcpTo · 2 10))).account
        (tcpTo 8080 2 12)).flows (keyOf (tcpTo 8080 2 12)).srcIp).card = 12 := by
    decide +kernel
  -- twelve ports make a scan, but the record's flow has seen only its own
  have hscan : r.isPortScan = true := hsees.2.mpr (by rw [hcard]; norm_num)
  have hno : ((machine 1).out ((machine 1).after
      ([21, 22, 23, 25, 53, 80, 110, 143, 443, 445, 3306].map (tcpTo · 2 10)))
        (tcpTo 8080 2 12)).map FeatureRecord.isPortScan = some false := by
    decide +kernel
  rw [hr, Option.map_some, hscan] at hno
  exact absurd hno (by decide)

end FlowTracker

end Sentrix
