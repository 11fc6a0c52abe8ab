import Sentrix.Datasource.FeatureExtractor

/-!
# Captures in another order

A capture need not be in time order: `generate_traffic.py` writes jittered timestamps in
the order in which it draws them. The end of a flow is the latest time of its packets in
whatever order they stand, and so are the counts, but its start is the time of the packet that
happens to come first. Two orders of the same packets give the same rows, with start and end
where the packets begin and end, if and only if each flow begins with an earliest packet in
both of them (`orderBlind_iff`). The duration has four decimals, so start and duration give the
end to within half of the last of them.
-/

namespace Sentrix

namespace FeatureExtractor

/-- Two rows say the same of a flow's packets. -/
structure FeatureRow.CountsAgree (row row' : FeatureRow) : Prop where
  key : row.key = row'.key
  pktCount : row.pktCount = row'.pktCount
  byteCount : row.byteCount = row'.byteCount
  synCount : row.synCount = row'.synCount
  ackCount : row.ackCount = row'.ackCount
  finCount : row.finCount = row'.finCount
  rstCount : row.rstCount = row'.rstCount

/-- Two rows say the same of a flow's packets and of its place in time. -/
structure FeatureRow.AgreesWith (row row' : FeatureRow) : Prop extends
    row.CountsAgree row' where
  timestamp : row.timestamp = row'.timestamp
  durationS : row.durationS = row'.durationS

/-- The times of a list of packets. -/
def times (ps : List ScapyPacket) : Set ℚ := {t | ∃ p ∈ ps, p.time = t}

/-- A row starts with the earliest of the packets and lasts until the latest, a duration below
a millisecond clamped, and with four decimals. -/
structure FeatureRow.Spans (row : FeatureRow) (ps : List ScapyPacket) : Prop where
  timestamp : IsLeast (times ps) row.timestamp
  durationS : ∃ latest, IsGreatest (times ps) latest ∧
    row.durationS = roundDecimals (max (latest - row.timestamp) (1 / 1000)) 4

/-- The duration of a row that spans packets: it ends with the latest of them to within half of
the fourth decimal, or is a millisecond. -/
theorem FeatureRow.Spans.ends {row : FeatureRow} {ps : List ScapyPacket} (h : row.Spans ps) :
    ∃ latest, IsGreatest (times ps) latest ∧
      (1 / 1000 ≤ latest - row.timestamp →
        |row.timestamp + row.durationS - latest| ≤ 1 / 20000) ∧
      (latest - row.timestamp ≤ 1 / 1000 → row.durationS = 1 / 1000) := by
  obtain ⟨latest, hlatest, hdur⟩ := h.durationS
  refine ⟨latest, hlatest, fun hlong => ?_, fun hshort => ?_⟩
  · rw [max_eq_left hlong] at hdur
    -- the end differs from the latest time by the rounding of the duration alone
    calc |row.timestamp + row.durationS - latest|
        = |roundDecimals (latest - row.timestamp) 4 - (latest - row.timestamp)| := by
          rw [hdur]
          ring_nf
      _ ≤ 1 / 10 ^ 4 / 2 := abs_roundDecimals_sub_le _ 4
      _ = 1 / 20000 := by norm_num
  · -- a flow of less than a millisecond is given a whole one
    rw [hdur, max_eq_right hshort]
    decide +kernel

/-- Two captures give rows that agree, and each row spans the packets of its flow. -/
structure OrderBlind (math : PyMath ℚ) (ps qs : List ScapyPacket) : Prop where
  left : ∀ row ∈ extractScapy math ps, ∃ row' ∈ extractScapy math qs, row.AgreesWith row'
  right : ∀ row' ∈ extractScapy math qs, ∃ row ∈ extractScapy math ps, row.AgreesWith row'
  spans_left : ∀ row ∈ extractScapy math ps, row.Spans (packetsOf row.key ps)
  spans_right : ∀ row ∈ extractScapy math qs, row.Spans (packetsOf row.key qs)

/-- Each flow of a capture begins with one of its earliest packets. -/
def StartsEarliest (capture : List ScapyPacket) : Prop :=
  ∀ key, ∀ first ∈ (packetsOf key capture).head?, ∀ p ∈ packetsOf key capture,
    first.time ≤ p.time

variable {ps qs capture : List ScapyPacket} (math : PyMath ℚ)

theorem times_congr (h : ps.Perm qs) : times ps = times qs := by
  ext t
  exact exists_congr fun p => and_congr_left' h.mem_iff

theorem packetsOf_perm (h : ps.Perm qs) (key : FlowKey) :
    (packetsOf key ps).Perm (packetsOf key qs) :=
  h.filter _

/-- A packet of a flow has a row with its key. -/
theorem exists_row_of_mem {key : FlowKey} {p : ScapyPacket} (hp : p ∈ packetsOf key capture) :
    ∃ row ∈ extractScapy math capture, row.key = key := by
  have hp' := List.mem_filter.mp hp
  have hkey : key ∈ (flows capture).keys :=
    (Dict.mem_keys_accumulate flowKey recordFor capture key).mpr
      ⟨p, hp'.1, of_decide_eq_true hp'.2⟩
  obtain ⟨e, he, rfl⟩ := List.mem_map.mp hkey
  exact ⟨e.2.toRow math, List.mem_map_of_mem he, (describes_of_mem he).key_toRow math⟩

/-- A row of one order has a counterpart in the other, about the same packets. -/
theorem exists_entry_of_perm (h : ps.Perm qs) {row : FeatureRow}
    (hrow : row ∈ extractScapy math ps) :
    ∃ g : FlowEntry, g.Describes row.key (packetsOf row.key qs) ∧
      g.toRow math ∈ extractScapy math qs := by
  obtain ⟨f, hf, -⟩ := exists_entry_of_mem hrow
  obtain ⟨p, hp, -⟩ := hf.tEnd.1
  have hp' : p ∈ packetsOf row.key qs := (packetsOf_perm h row.key).mem_iff.mp hp
  obtain ⟨row', hrow', hkey⟩ := exists_row_of_mem math hp'
  obtain ⟨g, hg, rfl⟩ := exists_entry_of_mem hrow'
  rw [hkey] at hg
  exact ⟨g, hg, hrow'⟩

/-! ### One flow -/

section Describes

variable {key : FlowKey} {f g : FlowEntry} (hf : f.Describes key ps)
include hf

/-- The row of a flow spans its packets just if the first of them is among the earliest. -/
theorem FlowEntry.Describes.spans_iff :
    (f.toRow math).Spans ps ↔ ∀ first ∈ ps.head?, ∀ p ∈ ps, first.time ≤ p.time := by
  obtain ⟨first, hfirst, hstart⟩ := Option.map_eq_some_iff.mp hf.tStart
  have htimestamp : (f.toRow math).timestamp = first.time := hstart.symm
  constructor
  · -- the timestamp of the row is the time of the first packet, whichever is earliest
    intro hspans first' hfirst' p hp
    obtain rfl : first' = first :=
      Option.some.inj ((Option.mem_def.mp hfirst').symm.trans hfirst)
    calc first'.time = (f.toRow math).timestamp := hstart
      _ ≤ p.time := hspans.timestamp.2 ⟨p, hp, rfl⟩
  · intro hearliest
    refine ⟨⟨?_, ?_⟩, f.tEnd, hf.tEnd, rfl⟩
    · exact ⟨first, List.mem_of_mem_head? hfirst, htimestamp.symm⟩
    · rintro t ⟨p, hp, rfl⟩
      rw [htimestamp]
      exact hearliest first hfirst p hp

/-- The counts of a row do not depend on the order of the packets. -/
theorem FlowEntry.Describes.countsAgree (hg : g.Describes key qs) (h : ps.Perm qs) :
    (f.toRow math).CountsAgree (g.toRow math) := by
  have hps := hf.countsOf math
  have hqs := hg.countsOf math
  -- a count does not look at the order
  have hflag (mask : ℕ) : ps.countP (hasFlag mask) = qs.countP (hasFlag mask) := h.countP_eq _
  refine ⟨?_, ?_, ?_, ?_, ?_, ?_, ?_⟩
  · rw [hf.key_toRow, hg.key_toRow]
  · rw [hps.pktCount, hqs.pktCount, h.length_eq]
  · rw [hps.byteCount, hqs.byteCount, (h.map ScapyPacket.len).sum_eq]
  · rw [hps.synCount, hqs.synCount, hflag]
  · rw [hps.ackCount, hqs.ackCount, hflag]
  · rw [hps.finCount, hqs.finCount, hflag]
  · rw [hps.rstCount, hqs.rstCount, hflag]

/-- The start is the only thing in a row that the order of the packets decides. -/
theorem FlowEntry.Describes.agreesWith (hg : g.Describes key qs) (h : ps.Perm qs)
    (hstart : (f.toRow math).timestamp = (g.toRow math).timestamp) :
    (f.toRow math).AgreesWith (g.toRow math) := by
  -- the latest time is one of a set, and the set has no order
  have hend : f.tEnd = g.tEnd := by
    apply hf.tEnd.unique
    rw [show {t | ∃ p ∈ ps, p.time = t} = {t | ∃ p ∈ qs, p.time = t} from times_congr h]
    exact hg.tEnd
  have hdur : f.durS = g.durS := by
    rw [FlowEntry.durS, FlowEntry.durS, hend, show f.tStart = g.tStart from hstart]
  exact ⟨hf.countsAgree math hg h, hstart, congrArg (roundDecimals · 4) hdur⟩

end Describes

/-! ### All flows -/

/-- The rows span the packets of their flows just if each flow begins with an earliest one. -/
theorem spans_iff_startsEarliest :
    (∀ row ∈ extractScapy math capture, row.Spans (packetsOf row.key capture)) ↔
      StartsEarliest capture := by
  constructor
  · -- every key of the capture has its row, so the rows tell all
    intro hspans key first hfirst
    obtain ⟨row, hrow, rfl⟩ :=
      exists_row_of_mem math (List.mem_of_mem_head? hfirst)
    have hrowSpans := hspans row hrow
    obtain ⟨f, hf, rfl⟩ := exists_entry_of_mem hrow
    exact (hf.spans_iff math).mp hrowSpans first hfirst
  · intro hearliest row hrow
    have hstart := hearliest row.key
    obtain ⟨f, hf, rfl⟩ := exists_entry_of_mem hrow
    exact (hf.spans_iff math).mpr hstart

/-- Rows that span their packets agree with those of any other order that do. -/
theorem exists_agreesWith (h : ps.Perm qs) (hps : StartsEarliest ps) (hqs : StartsEarliest qs)
    {row : FeatureRow} (hrow : row ∈ extractScapy math ps) :
    ∃ row' ∈ extractScapy math qs, row.AgreesWith row' := by
  obtain ⟨g, hg, hmem⟩ := exists_entry_of_perm math h hrow
  have hleast := ((spans_iff_startsEarliest math).mpr hps row hrow).timestamp
  have hleast' : IsLeast (times (packetsOf row.key qs)) (g.toRow math).timestamp :=
    ((hg.spans_iff math).mpr (hqs row.key)).timestamp
  rw [← times_congr (packetsOf_perm h row.key)] at hleast'
  -- both timestamps are the earliest of the same packets
  have hstart := hleast.unique hleast'
  refine ⟨g.toRow math, hmem, ?_⟩
  obtain ⟨f, hf, hrow'⟩ := exists_entry_of_mem hrow
  have hagrees := hf.agreesWith math hg (packetsOf_perm h row.key) (by rwa [hrow'])
  rwa [hrow'] at hagrees

theorem FeatureRow.CountsAgree.symm {row row' : FeatureRow} (h : row.CountsAgree row') :
    row'.CountsAgree row where
  key := h.key.symm
  pktCount := h.pktCount.symm
  byteCount := h.byteCount.symm
  synCount := h.synCount.symm
  ackCount := h.ackCount.symm
  finCount := h.finCount.symm
  rstCount := h.rstCount.symm

theorem FeatureRow.AgreesWith.symm {row row' : FeatureRow} (h : row.AgreesWith row') :
    row'.AgreesWith row :=
  ⟨h.toCountsAgree.symm, h.timestamp.symm, h.durationS.symm⟩

/-- In any order of the packets there is a row with the same counts. -/
theorem exists_countsAgree (h : ps.Perm qs) {row : FeatureRow}
    (hrow : row ∈ extractScapy math ps) :
    ∃ row' ∈ extractScapy math qs, row.CountsAgree row' := by
  obtain ⟨g, hg, hmem⟩ := exists_entry_of_perm math h hrow
  refine ⟨g.toRow math, hmem, ?_⟩
  obtain ⟨f, hf, hrow'⟩ := exists_entry_of_mem hrow
  have hagree := hf.countsAgree math hg (packetsOf_perm h row.key)
  rwa [hrow'] at hagree

/-- **When the order of a capture does not matter.** Two orders of the same packets give rows
that agree, each from the earliest packet of its flow to the latest, if and only if in both
orders every flow begins with one of its earliest packets. -/
theorem orderBlind_iff (h : ps.Perm qs) :
    OrderBlind math ps qs ↔ StartsEarliest ps ∧ StartsEarliest qs := by
  constructor
  · intro hblind
    exact ⟨(spans_iff_startsEarliest math).mp hblind.spans_left,
      (spans_iff_startsEarliest math).mp hblind.spans_right⟩
  · rintro ⟨hps, hqs⟩
    refine ⟨?_, ?_, (spans_iff_startsEarliest math).mpr hps,
      (spans_iff_startsEarliest math).mpr hqs⟩
    · -- each capture's row finds its partner, in one direction and in the other
      intro row hrow
      exact exists_agreesWith math h hps hqs hrow
    · intro row hrow
      obtain ⟨row', hrow', hagrees⟩ := exists_agreesWith math h.symm hqs hps hrow
      exact ⟨row', hrow', hagrees.symm⟩

/-- **Rows of a capture in another order.** Two orders of the same packets give rows for the
same flows, with the same counts. If in both orders each flow begins with one of its earliest
packets, the rows agree in start and duration as well, each starts with the earliest packet of
its flow and, to within half of the fourth decimal, ends with the latest, a duration below a
millisecond clamped. -/
theorem rows_of_perm (h : ps.Perm qs) :
    (∀ row ∈ extractScapy math ps, ∃ row' ∈ extractScapy math qs, row.CountsAgree row') ∧
    (∀ row' ∈ extractScapy math qs, ∃ row ∈ extractScapy math ps, row.CountsAgree row') ∧
    (StartsEarliest ps → StartsEarliest qs → OrderBlind math ps qs ∧
      ∀ row ∈ extractScapy math ps, ∃ latest, IsGreatest (times (packetsOf row.key ps)) latest ∧
        (1 / 1000 ≤ latest - row.timestamp →
          |row.timestamp + row.durationS - latest| ≤ 1 / 20000) ∧
        (latest - row.timestamp ≤ 1 / 1000 → row.durationS = 1 / 1000)) := by
  refine ⟨fun row hrow => exists_countsAgree math h hrow, fun row' hrow' => ?_,
    fun hps hqs => ?_⟩
  · obtain ⟨row, hrow, hagree⟩ := exists_countsAgree math h.symm hrow'
    exact ⟨row, hrow, hagree.symm⟩
  · -- where both captures start flows at their earliest packets, the times agree too
    have hblind := (orderBlind_iff math h).mpr ⟨hps, hqs⟩
    exact ⟨hblind, fun row hrow => (hblind.spans_left row hrow).ends⟩

/-! ### Beacons -/

/-- A beacon of 120 bytes to the control server. -/
def beaconAt (time : ℚ) : ScapyPacket where
  ip := some ("192.168.1.20", "203.0.113.9")
  ipv6 := none
  tcp := some ⟨50000, 443, 0x18⟩
  udp := none
  qname := none
  time := time
  len := 120

/-- All beacons are of one flow. -/
theorem packetsOf_beacons {key : FlowKey} {ts : List ℚ} {p : ScapyPacket}
    (hp : p ∈ packetsOf key (ts.map beaconAt)) :
    packetsOf key (ts.map beaconAt) = ts.map beaconAt := by
  obtain ⟨hmem, hkey⟩ := List.mem_filter.mp hp
  obtain ⟨t, -, rfl⟩ := List.mem_map.mp hmem
  refine List.filter_eq_self.mpr fun q hq => ?_
  obtain ⟨u, -, rfl⟩ := List.mem_map.mp hq
  exact hkey

theorem startsEarliest_beacons {ts : List ℚ} (h : ∀ first ∈ ts.head?, ∀ t ∈ ts, first ≤ t) :
    StartsEarliest (ts.map beaconAt) := by
  intro key first hfirst p hp
  rw [packetsOf_beacons hp] at hfirst hp
  rw [List.head?_map] at hfirst
  obtain ⟨t, ht, rfl⟩ := Option.map_eq_some_iff.mp (Option.mem_def.mp hfirst)
  obtain ⟨u, hu, rfl⟩ := List.mem_map.mp hp
  exact h t ht u hu

/-- Beacons of which only the first is where it belongs. -/
theorem rows_of_perm_beacons :
    OrderBlind exactMath ([29, 30, 59 / 2].map beaconAt) ([29, 59 / 2, 30].map beaconAt) :=
  ((rows_of_perm exactMath (((List.Perm.swap (59 / 2) 30 []).cons 29).map beaconAt)).2.2
    (startsEarliest_beacons (by decide +kernel)) (startsEarliest_beacons (by decide +kernel))).1

/-- A row starts with the earliest of the packets and ends with the latest, a duration below a
millisecond clamped, to the last digit. -/
structure FeatureRow.EndsExactly (row : FeatureRow) (ps : List ScapyPacket) : Prop where
  timestamp : IsLeast (times ps) row.timestamp
  ends : ∃ latest, IsGreatest (times ps) latest ∧
    row.timestamp + row.durationS = max latest (row.timestamp + 1 / 1000)

/-- What is known of the only row of a capture. -/
theorem exists_row_of_map_eq {α : Type} {rows : List FeatureRow} {f : FeatureRow → α} {x : α}
    (h : rows.map f = [x]) : ∃ row ∈ rows, f row = x := by
  rw [← List.mem_map, h]
  exact List.mem_singleton_self x

/-- A beacon that is captured before an earlier one gives the flow its start, and hides the
second that passed; and a beacon that comes 40 microseconds after a full second ends a flow of
one second. -/
theorem beacons_not_orderBlind :
    ([30, 29].map beaconAt).Perm ([29, 30].map beaconAt) ∧
      (¬ ∀ row ∈ extractScapy exactMath ([30, 29].map beaconAt),
        ∃ row' ∈ extractScapy exactMath ([29, 30].map beaconAt), row.AgreesWith row') ∧
      ¬ ∀ row ∈ extractScapy exactMath ([0, 1 + 4 / 100000].map beaconAt),
        row.EndsExactly (packetsOf row.key ([0, 1 + 4 / 100000].map beaconAt)) := by
  refine ⟨(List.Perm.swap 29 30 []).map beaconAt, fun hall => ?_, fun hall => ?_⟩
  · have hlate : (extractScapy exactMath ([30, 29].map beaconAt)).map
        (fun row => (row.timestamp, row.durationS)) = [(30, 1 / 1000)] := by decide +kernel
    have hearly : (extractScapy exactMath ([29, 30].map beaconAt)).map
        (fun row => (row.timestamp, row.durationS)) = [(29, 1)] := by decide +kernel
    obtain ⟨row, hrow, hstart⟩ := exists_row_of_map_eq hlate
    obtain ⟨row', hrow', hagree⟩ := hall row hrow
    have hstart' : (row'.timestamp, row'.durationS) ∈ [((29 : ℚ), (1 : ℚ))] := by
      rw [← hearly]
      exact List.mem_map_of_mem hrow'
    have htime := hagree.timestamp
    rw [(Prod.mk.inj hstart).1, (Prod.mk.inj (List.mem_singleton.mp hstart')).1] at htime
    exact absurd htime (by norm_num)
  · have hrounded : (extractScapy exactMath ([0, 1 + 4 / 100000].map beaconAt)).map
        (fun row => (row.timestamp, row.durationS)) = [(0, 1)] := by decide +kernel
    obtain ⟨row, hrow, heq⟩ := exists_row_of_map_eq hrounded
    obtain ⟨hstart, hdur⟩ := Prod.mk.inj heq
    obtain ⟨latest, ⟨⟨p, hp, -⟩, hgreatest⟩, hends⟩ := (hall row hrow).ends
    -- the second beacon is one of the flow
    have hlast : 1 + 4 / 100000 ≤ latest := by
      refine hgreatest ⟨beaconAt (1 + 4 / 100000), ?_, rfl⟩
      rw [packetsOf_beacons hp]
      exact List.mem_map_of_mem (List.mem_cons_of_mem _ (List.mem_singleton_self _))
    have hmax := le_max_left latest (row.timestamp + 1 / 1000)
    rw [← hends, hstart, hdur] at hmax
    linarith

end FeatureExtractor

end Sentrix
