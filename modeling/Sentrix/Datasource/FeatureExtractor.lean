import Mathlib.Algebra.BigOperators.Group.List.Basic
import Mathlib.Algebra.BigOperators.Ring.List
import Mathlib.Algebra.Group.Action.Defs
import Mathlib.Tactic.FieldSimp
import Mathlib.Order.Bounds.Basic
import Sentrix.Features.OnlineStats
import Sentrix.Lib.Accumulators
import Sentrix.Lib.Rounding
import Sentrix.Lib.Value

/-!
# Flows of a capture

`_extract_scapy` of `datasource/feature_extractor.py` reads a capture packet by packet,
keeps an accumulator for each flow key, and answers a row for each accumulator.

A packet is what the layers of the decoded frame hold. One without an IP layer is passed
over. The key is directed, and its ports are 0 without a TCP or UDP layer. The accumulator
describes the packets of its key (`FlowEntry.Describes`), whatever packets of other flows stand
between them, so the rows partition the capture (`extractScapy_partition`).

The numbers are exact until they are rounded to their decimals, the root and the logarithm those
of a host.
-/

namespace Sentrix

/-- Mathematics that does without roots and logarithms. -/
def exactMath : PyMath ℚ := ⟨id, id⟩

/-- The fields read of a TCP layer. -/
structure TcpLayer where
  sport : ℕ
  dport : ℕ
  flags : ℕ

/-- The fields read of a UDP layer. -/
structure UdpLayer where
  sport : ℕ
  dport : ℕ

/-- A packet of the capture. -/
structure ScapyPacket where
  /-- Source and destination of the IP layer, if there is one. -/
  ip : Option (String × String)
  /-- Source and destination of the IPv6 layer, if there is one. -/
  ipv6 : Option (String × String)
  tcp : Option TcpLayer
  udp : Option UdpLayer
  /-- The length of the name asked for, if there is a DNS layer with a question. -/
  qname : Option ℕ
  time : ℚ
  len : ℕ

namespace FeatureExtractor

/-- The key of a flow: addresses, ports and protocol. -/
structure FlowKey where
  srcIp : String
  dstIp : String
  srcPort : ℕ
  dstPort : ℕ
  protocol : String
deriving DecidableEq

/-- The accumulator of a flow. -/
structure FlowEntry extends FlowKey where
  tStart : ℚ
  tEnd : ℚ
  pkts : ℕ
  bytes : ℕ
  iats : List ℚ
  prevTs : ℚ
  syn : ℕ
  ack : ℕ
  fin : ℕ
  rst : ℕ
  dnsLens : List ℕ

/-- A row of the extracted features. -/
structure FeatureRow where
  srcIp : String
  dstIp : String
  srcPort : ℕ
  dstPort : ℕ
  protocol : String
  timestamp : ℚ
  durationS : ℚ
  pktCount : ℕ
  byteCount : ℕ
  pktsPerSec : ℚ
  bytesPerSec : ℚ
  avgPktSize : ℚ
  iatMeanMs : ℚ
  iatStdMs : ℚ
  iatMinMs : ℚ
  iatMaxMs : ℚ
  synCount : ℕ
  ackCount : ℕ
  finCount : ℕ
  rstCount : ℕ
  synSynackRatio : ℚ
  dnsQueryLen : ℚ
  dnsEntropy : ℚ
  attackFamily : String
  /-- Text, or whatever a label gives. -/
  severity : Value
  generator : Value

/-- The flow a row is about. -/
def FeatureRow.key (row : FeatureRow) : FlowKey :=
  ⟨row.srcIp, row.dstIp, row.srcPort, row.dstPort, row.protocol⟩

/-! ### Packets -/

/-- Source and destination; `none` if the packet has no IP layer. -/
def addresses (p : ScapyPacket) : Option (String × String) :=
  match p.ip with
  | some ip => some ip
  | none => p.ipv6

/-- Ports and protocol. -/
def transport (p : ScapyPacket) : ℕ × ℕ × String :=
  match p.tcp, p.udp with
  | some l4, _ => (l4.sport, l4.dport, "TCP")
  | none, some l4 => (l4.sport, l4.dport, "UDP")
  | none, none => (0, 0, "ICMP")

/-- The key of a packet's flow; `none` for a packet that is passed over. -/
def flowKey (p : ScapyPacket) : Option FlowKey :=
  (addresses p).map fun ip =>
    let (sport, dport, proto) := transport p
    ⟨ip.1, ip.2, sport, dport, proto⟩

/-- Whether a packet has a TCP layer with a flag of the mask. -/
def hasFlag (mask : ℕ) (p : ScapyPacket) : Bool :=
  match p.tcp with
  | none => false
  | some l4 => decide (l4.flags &&& mask ≠ 0)

/-! ### The loop over the capture -/

/-- The accumulator that is made for the first packet of a flow. -/
def openFlow (key : FlowKey) (ts : ℚ) : FlowEntry where
  toFlowKey := key
  tStart := ts
  tEnd := ts
  pkts := 0
  bytes := 0
  iats := []
  prevTs := ts
  syn := 0
  ack := 0
  fin := 0
  rst := 0
  dnsLens := []

/-- Account for a packet in the accumulator of its flow. -/
def record (f : FlowEntry) (p : ScapyPacket) : FlowEntry where
  toFlowKey := f.toFlowKey
  tStart := f.tStart
  tEnd := max f.tEnd p.time
  pkts := f.pkts + 1
  bytes := f.bytes + p.len
  -- the first packet has no predecessor
  iats := if f.pkts > 0 then f.iats ++ [p.time - f.prevTs] else f.iats
  prevTs := p.time
  syn := f.syn + (hasFlag 0x02 p).toNat
  ack := f.ack + (hasFlag 0x10 p).toNat
  fin := f.fin + (hasFlag 0x01 p).toNat
  rst := f.rst + (hasFlag 0x04 p).toNat
  dnsLens := f.dnsLens ++ p.qname.toList

/-- Account for a packet in the accumulator of its key, which is made if there is none. -/
def recordFor (key : FlowKey) (f : Option FlowEntry) (p : ScapyPacket) : FlowEntry :=
  record (f.getD (openFlow key p.time)) p

/-- The accumulators at the end of a capture. -/
def flows (capture : List ScapyPacket) : Dict FlowKey FlowEntry :=
  Dict.accumulate flowKey recordFor capture

/-- The packets of a flow, in the order of the capture. -/
def packetsOf (key : FlowKey) (capture : List ScapyPacket) : List ScapyPacket :=
  Dict.withKey flowKey key capture

/-! ### Rows -/

/-- `dur_s`. -/
def FlowEntry.durS (f : FlowEntry) : ℚ := max (f.tEnd - f.tStart) (1 / 1000)

/-- `iats_ms`. -/
def FlowEntry.iatsMs (f : FlowEntry) : List ℚ := f.iats.map (· * 1000)

/-- `mean_iat`. -/
def FlowEntry.meanIat (f : FlowEntry) : ℚ :=
  if f.iatsMs ≠ [] then f.iatsMs.sum / f.iatsMs.length else 0

/-- `std_iat`. -/
def FlowEntry.stdIat (math : PyMath ℚ) (f : FlowEntry) : ℚ :=
  if f.iatsMs.length > 1 then
    math.sqrt ((f.iatsMs.map fun x => (x - f.meanIat) ^ 2).sum / f.iatsMs.length)
  else 0

/-- `probs`. -/
def probs (values : List ℕ) : List ℚ :=
  (values.filter (0 < ·)).map fun v => v / values.sum

/-- `_entropy`. -/
def entropy (math : PyMath ℚ) (values : List ℕ) : ℚ :=
  if values.sum = 0 then 0
  else -(((probs values).filter (0 < ·)).map fun p => p * math.log2 p).sum

/-- `dns_query_len`, before it is rounded. -/
def FlowEntry.dnsQueryLen (f : FlowEntry) : ℚ := f.dnsLens.sum / f.dnsLens.length

/-- The row of an accumulator. -/
def FlowEntry.toRow (math : PyMath ℚ) (f : FlowEntry) : FeatureRow where
  srcIp := f.srcIp
  dstIp := f.dstIp
  srcPort := f.srcPort
  dstPort := f.dstPort
  protocol := f.protocol
  timestamp := f.tStart
  durationS := roundDecimals f.durS 4
  pktCount := f.pkts
  byteCount := f.bytes
  pktsPerSec := roundDecimals (f.pkts / f.durS) 2
  bytesPerSec := roundDecimals (f.bytes / f.durS) 2
  avgPktSize := roundDecimals (f.bytes / max f.pkts 1) 2
  iatMeanMs := roundDecimals f.meanIat 3
  iatStdMs := roundDecimals (f.stdIat math) 3
  iatMinMs := roundDecimals (f.iatsMs.min?.getD 0) 3
  iatMaxMs := roundDecimals (f.iatsMs.max?.getD 0) 3
  synCount := f.syn
  ackCount := f.ack
  finCount := f.fin
  rstCount := f.rst
  synSynackRatio := roundDecimals (f.syn / max f.ack 1) 3
  dnsQueryLen := if f.dnsLens ≠ [] then roundDecimals f.dnsQueryLen 1 else 0
  dnsEntropy := roundDecimals (if f.dnsLens ≠ [] then entropy math f.dnsLens else 0) 3
  attackFamily := "BENIGN"
  severity := .str "LOW"
  generator := .str "scapy"

/-- `_extract_scapy`. -/
def extractScapy (math : PyMath ℚ) (capture : List ScapyPacket) : List FeatureRow :=
  (flows capture).entries.map fun e => e.2.toRow math

/-! ### What an accumulator holds -/

/-- **The invariant of an accumulator.** What it holds of the packets of its flow so far. -/
structure FlowEntry.Describes (key : FlowKey) (ps : List ScapyPacket) (f : FlowEntry) :
    Prop where
  key : f.toFlowKey = key
  pkts : f.pkts = ps.length
  bytes : f.bytes = (ps.map ScapyPacket.len).sum
  syn : f.syn = ps.countP (hasFlag 0x02)
  ack : f.ack = ps.countP (hasFlag 0x10)
  fin : f.fin = ps.countP (hasFlag 0x01)
  rst : f.rst = ps.countP (hasFlag 0x04)
  /-- The start is the time of the packet that came first. -/
  tStart : ps.head?.map ScapyPacket.time = some f.tStart
  /-- The end is the latest time. -/
  tEnd : IsGreatest {t | ∃ p ∈ ps, p.time = t} f.tEnd
  prevTs : ps.getLast?.map ScapyPacket.time = some f.prevTs
  iats_length : f.iats.length + 1 = ps.length
  /-- The gaps telescope. -/
  iats_sum : f.iats.sum = f.prevTs - f.tStart

theorem countP_hasFlag_singleton (mask : ℕ) (p : ScapyPacket) :
    [p].countP (hasFlag mask) = (hasFlag mask p).toNat := by
  rw [List.countP_singleton]
  cases hasFlag mask p <;> rfl

/-- The first packet of a flow. -/
theorem describes_first (key : FlowKey) (p : ScapyPacket) :
    (record (openFlow key p.time) p).Describes key [p] where
  key := rfl
  pkts := rfl
  bytes := (Nat.zero_add p.len).trans (Nat.add_zero p.len).symm
  syn := (Nat.zero_add _).trans (countP_hasFlag_singleton _ p).symm
  ack := (Nat.zero_add _).trans (countP_hasFlag_singleton _ p).symm
  fin := (Nat.zero_add _).trans (countP_hasFlag_singleton _ p).symm
  rst := (Nat.zero_add _).trans (countP_hasFlag_singleton _ p).symm
  tStart := rfl
  -- a flow of one packet starts and ends with it
  tEnd := by
    have hend : (record (openFlow key p.time) p).tEnd = p.time := max_self p.time
    rw [hend]
    refine ⟨⟨p, List.mem_singleton_self p, rfl⟩, ?_⟩
    rintro t ⟨q, hq, rfl⟩
    rw [List.mem_singleton.mp hq]
  prevTs := rfl
  iats_length := rfl
  iats_sum := (sub_self p.time).symm

/-- One more packet of the flow. -/
theorem FlowEntry.Describes.record {key : FlowKey} {ps : List ScapyPacket} {f : FlowEntry}
    (h : f.Describes key ps) (p : ScapyPacket) : (record f p).Describes key (ps ++ [p]) := by
  have hpos : f.pkts > 0 := by
    rw [h.pkts, ← h.iats_length]
    exact Nat.succ_pos _
  have hiats : (FeatureExtractor.record f p).iats = f.iats ++ [p.time - f.prevTs] := if_pos hpos
  have hflag (mask : ℕ) :
      (ps ++ [p]).countP (hasFlag mask) = ps.countP (hasFlag mask) + (hasFlag mask p).toNat := by
    rw [List.countP_append, countP_hasFlag_singleton]
  refine ⟨h.key, ?_, ?_, ?_, ?_, ?_, ?_, ?_, ?_, ?_, ?_, ?_⟩
  · rw [List.length_append, List.length_singleton, ← h.pkts]
    rfl
  · rw [List.map_append, List.sum_append, ← h.bytes]
    rfl
  · rw [hflag, ← h.syn]
    rfl
  · rw [hflag, ← h.ack]
    rfl
  · rw [hflag, ← h.fin]
    rfl
  · rw [hflag, ← h.rst]
    rfl
  · -- there was a packet before, and it stays the first
    have hne : ps ≠ [] := by
      rintro rfl
      exact absurd h.tStart (Option.some_ne_none _).symm
    rw [List.head?_append_of_ne_nil ps hne]
    exact h.tStart
  · constructor
    · rcases max_choice f.tEnd p.time with hmax | hmax
      · obtain ⟨q, hq, hqt⟩ := h.tEnd.1
        exact ⟨q, List.mem_append_left _ hq, hqt.trans hmax.symm⟩
      · exact ⟨p, List.mem_append_right _ (List.mem_singleton_self p), hmax.symm⟩
    · rintro t ⟨q, hq, rfl⟩
      rcases List.mem_append.mp hq with hold | hnew
      · exact (h.tEnd.2 ⟨q, hold, rfl⟩).trans (le_max_left _ _)
      · rw [List.mem_singleton.mp hnew]
        exact le_max_right _ _
  · rw [List.getLast?_concat]
    rfl
  · rw [hiats, List.length_append, List.length_append, List.length_singleton, h.iats_length,
      List.length_singleton]
  · rw [hiats, List.sum_append, List.sum_singleton, h.iats_sum]
    exact sub_add_sub_cancel' f.prevTs f.tStart p.time

/-- The accumulator of a run of packets of one flow. -/
theorem describes_account {key : FlowKey} {ps : List ScapyPacket} {f : FlowEntry}
    (h : Dict.account (recordFor key) ps = some f) : f.Describes key ps := by
  induction ps using List.reverseRecOn generalizing f with
  | nil => exact absurd h (Option.some_ne_none f).symm
  | append_singleton ps p ih =>
    rw [Dict.account_concat] at h
    obtain rfl := Option.some.inj h
    show (record ((Dict.account (recordFor key) ps).getD (openFlow key p.time)) p).Describes key _
    cases hold : Dict.account (recordFor key) ps with
    | none =>
      -- the first packet opens the flow, the later ones are recorded in it
      obtain rfl := (Dict.account_eq_none_iff _ ps).mp hold
      exact describes_first key p
    | some g => exact (ih hold).record p

/-- Each accumulator describes the packets of its key, wherever they stand in the capture. -/
theorem describes_of_mem {capture : List ScapyPacket} {e : FlowKey × FlowEntry}
    (he : e ∈ (flows capture).entries) : e.2.Describes e.1 (packetsOf e.1 capture) := by
  apply describes_account
  rw [packetsOf, ← Dict.get?_accumulate]
  exact ((flows capture).mem_entries e.1 e.2).mp he

/-! ### Rows of a capture -/

/-- Whether a packet has an IP layer. -/
def isIp (p : ScapyPacket) : Bool := p.ip.isSome || p.ipv6.isSome

/-- The packets with a key are those with an IP layer. -/
theorem isIp_eq : isIp = fun p => (flowKey p).isSome := by
  ext p
  rw [flowKey, Option.isSome_map]
  unfold addresses isIp
  cases p.ip <;> rfl

/-- The counts of a row are those of a list of packets. -/
structure FeatureRow.CountsOf (row : FeatureRow) (ps : List ScapyPacket) : Prop where
  pktCount : row.pktCount = ps.length
  byteCount : row.byteCount = (ps.map ScapyPacket.len).sum
  synCount : row.synCount = ps.countP (hasFlag 0x02)
  ackCount : row.ackCount = ps.countP (hasFlag 0x10)
  finCount : row.finCount = ps.countP (hasFlag 0x01)
  rstCount : row.rstCount = ps.countP (hasFlag 0x04)

section Describes

variable {key : FlowKey} {ps : List ScapyPacket} {f : FlowEntry} (h : f.Describes key ps)
include h

theorem FlowEntry.Describes.key_toRow (math : PyMath ℚ) : (f.toRow math).key = key := by
  rw [← h.key]
  rfl

theorem FlowEntry.Describes.countsOf (math : PyMath ℚ) : (f.toRow math).CountsOf ps :=
  ⟨h.pkts, h.bytes, h.syn, h.ack, h.fin, h.rst⟩

/-- The mean gap, once for each gap, is the time from the first packet to the last. -/
theorem FlowEntry.Describes.meanIat_mul :
    f.meanIat * (f.pkts - 1) = 1000 * (f.prevTs - f.tStart) := by
  have hlen : (f.pkts : ℚ) - 1 = f.iatsMs.length := by
    rw [FlowEntry.iatsMs, List.length_map, h.pkts, ← h.iats_length]
    push_cast
    exact add_sub_cancel_right _ _
  have hsum : f.iatsMs.sum = 1000 * (f.prevTs - f.tStart) :=
    calc f.iatsMs.sum = (f.iats.map id).sum * 1000 := List.sum_map_mul_right f.iats id 1000
      _ = f.iats.sum * 1000 := by rw [List.map_id]
      _ = 1000 * (f.prevTs - f.tStart) := by rw [h.iats_sum, mul_comm]
  rw [hlen, ← hsum]
  unfold FlowEntry.meanIat
  by_cases hne : f.iatsMs = []
  · -- a single packet has no gap
    rw [if_neg (not_not.mpr hne), hne, zero_mul]
    rfl
  · have hlen0 : (f.iatsMs.length : ℚ) ≠ 0 :=
      Nat.cast_ne_zero.mpr (mt List.length_eq_zero_iff.mp hne)
    rw [if_pos hne, div_mul_cancel₀ _ hlen0]

end Describes

theorem exists_entry_of_mem {math : PyMath ℚ} {capture : List ScapyPacket}
    {row : FeatureRow} (hrow : row ∈ extractScapy math capture) :
    ∃ f : FlowEntry, f.Describes row.key (packetsOf row.key capture) ∧ f.toRow math = row := by
  obtain ⟨e, he, rfl⟩ := List.mem_map.mp hrow
  have hdesc := describes_of_mem he
  refine ⟨e.2, ?_, rfl⟩
  rw [hdesc.key_toRow math]
  exact hdesc

/-- The rows are about the keys of the capture, in the order of their first packets. -/
theorem map_key_extractScapy (math : PyMath ℚ) (capture : List ScapyPacket) :
    (extractScapy math capture).map FeatureRow.key = (capture.filterMap flowKey).eraseDups := by
  rw [← Dict.keys_accumulate flowKey recordFor, extractScapy, List.map_map]
  exact List.map_congr_left fun e he => (describes_of_mem he).key_toRow math

theorem sum_pktCount_extractScapy (math : PyMath ℚ) (capture : List ScapyPacket) :
    ((extractScapy math capture).map FeatureRow.pktCount).sum =
      (capture.filter isIp).length := by
  have hadd (key : FlowKey) (o : Option FlowEntry) (p : ScapyPacket) :
      (recordFor key o p).pkts = (o.map FlowEntry.pkts).getD 0 + 1 := by
    cases o <;> rfl
  have htotal := Dict.sum_accumulate flowKey recordFor hadd capture
  rw [List.map_const', List.sum_replicate, smul_eq_mul, mul_one] at htotal
  rw [extractScapy, List.map_map, isIp_eq]
  exact htotal

theorem sum_byteCount_extractScapy (math : PyMath ℚ) (capture : List ScapyPacket) :
    ((extractScapy math capture).map FeatureRow.byteCount).sum =
      ((capture.filter isIp).map ScapyPacket.len).sum := by
  have hadd (key : FlowKey) (o : Option FlowEntry) (p : ScapyPacket) :
      (recordFor key o p).bytes = (o.map FlowEntry.bytes).getD 0 + p.len := by
    cases o <;> rfl
  have htotal := Dict.sum_accumulate flowKey recordFor hadd capture
  rw [extractScapy, List.map_map, isIp_eq]
  exact htotal

/-- **The rows partition the capture.** There is one row for each key of an IP packet, in
the order of the first packets; its counts are those of exactly the packets with its key, so
that packets and bytes add up to those of the IP packets. The unrounded mean gap, in
milliseconds, is the time from the first packet of the flow to its last, shared out among the
gaps. -/
theorem extractScapy_partition (math : PyMath ℚ) (capture : List ScapyPacket) :
    (extractScapy math capture).map FeatureRow.key = (capture.filterMap flowKey).eraseDups ∧
    (∀ row ∈ extractScapy math capture, row.CountsOf (packetsOf row.key capture)) ∧
    ((extractScapy math capture).map FeatureRow.pktCount).sum = (capture.filter isIp).length ∧
    ((extractScapy math capture).map FeatureRow.byteCount).sum =
      ((capture.filter isIp).map ScapyPacket.len).sum ∧
    ∀ row ∈ extractScapy math capture, ∃ f : FlowEntry, ∃ first last : ScapyPacket,
      f ∈ (flows capture).entries.map Prod.snd ∧ f.toRow math = row ∧
      (packetsOf row.key capture).head? = some first ∧
      (packetsOf row.key capture).getLast? = some last ∧
      f.meanIat * (row.pktCount - 1) = 1000 * (last.time - first.time) := by
  refine ⟨map_key_extractScapy math capture, ?_, sum_pktCount_extractScapy math capture,
    sum_byteCount_extractScapy math capture, ?_⟩
  · intro row hrow
    obtain ⟨f, hf, rfl⟩ := exists_entry_of_mem hrow
    exact hf.countsOf math
  · intro row hrow
    obtain ⟨e, he, rfl⟩ := List.mem_map.mp hrow
    have hdesc := describes_of_mem he
    rw [hdesc.key_toRow math]
    obtain ⟨first, hfirst, hstart⟩ := Option.map_eq_some_iff.mp hdesc.tStart
    obtain ⟨last, hlast, hend⟩ := Option.map_eq_some_iff.mp hdesc.prevTs
    refine ⟨e.2, first, last, List.mem_map_of_mem he, rfl, hfirst, hlast, ?_⟩
    -- the gaps add up to the time from the first packet to the last
    rw [hstart, hend]
    exact hdesc.meanIat_mul

end FeatureExtractor

end Sentrix
