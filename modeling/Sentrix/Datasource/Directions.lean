import Mathlib.Data.Finset.Card
import Mathlib.Data.Sym.Sym2
import Sentrix.Datasource.Labels

/-!
# Directions of extracted flows

`extract_features` promises rows that are bi-directional flows, which is what the columns of
the nfstream backend are. The key of `_extract_scapy` is directed: a packet and its answer
have different keys. So each conversation has one row if and only if no conversation of the
capture goes both ways (`bidirectional_iff`); a capture with an answered connection has two
rows for it.
-/

namespace Sentrix

namespace FeatureExtractor

/-- The same flow the other way. -/
def FlowKey.reverse (k : FlowKey) : FlowKey :=
  ⟨k.dstIp, k.srcIp, k.dstPort, k.srcPort, k.protocol⟩

/-- The protocol of a flow, and its endpoints in no order. -/
def FlowKey.conversation (k : FlowKey) : String × Sym2 (String × ℕ) :=
  (k.protocol, s((k.srcIp, k.srcPort), (k.dstIp, k.dstPort)))

/-- Two TCP or UDP packets with the same endpoints in exchanged places. -/
def Swapped (p q : ScapyPacket) : Prop :=
  ∃ k, flowKey p = some k ∧ flowKey q = some k.reverse ∧
    (k.protocol = "TCP" ∨ k.protocol = "UDP")

/-- The conversations of a capture. -/
def conversations (capture : List ScapyPacket) : Finset (String × Sym2 (String × ℕ)) :=
  ((capture.filterMap flowKey).map FlowKey.conversation).toFinset

/-- Each row is a conversation. -/
structure Bidirectional (capture : List ScapyPacket) (rows : List FeatureRow) : Prop where
  /-- Both directions are accounted for in one row. -/
  swapped : ∀ p ∈ capture, ∀ q ∈ capture, Swapped p q →
    ∃ row ∈ rows, p ∈ packetsOf row.key capture ∧ q ∈ packetsOf row.key capture
  length : rows.length = (conversations capture).card

/-- No two packets of a capture go between different endpoints in both directions. -/
def OneWay (capture : List ScapyPacket) : Prop :=
  ∀ p ∈ capture, ∀ q ∈ capture, ∀ k, flowKey p = some k → flowKey q = some k.reverse →
    k.reverse = k

/-- Two keys are of one conversation if they are the same or the reverse of each other. -/
theorem FlowKey.conversation_eq_iff (k l : FlowKey) :
    k.conversation = l.conversation ↔ l = k ∨ l = k.reverse := by
  obtain ⟨ksrc, kdst, ksport, kdport, kproto⟩ := k
  obtain ⟨lsrc, ldst, lsport, ldport, lproto⟩ := l
  simp only [conversation, reverse, Prod.mk.injEq, Sym2.eq_iff, FlowKey.mk.injEq]
  grind

variable {capture : List ScapyPacket}

theorem mem_filterMap_flowKey {k : FlowKey} :
    k ∈ capture.filterMap flowKey ↔ ∃ p ∈ capture, flowKey p = some k :=
  List.mem_filterMap

/-- A capture is one-way just if no two of its keys are of one conversation. -/
theorem oneWay_iff_injOn :
    OneWay capture ↔
      Set.InjOn FlowKey.conversation {k | k ∈ capture.filterMap flowKey} := by
  constructor
  · intro hone k hk l hl hconv
    obtain ⟨p, hp, hpk⟩ := mem_filterMap_flowKey.mp hk
    obtain ⟨q, hq, hql⟩ := mem_filterMap_flowKey.mp hl
    -- keys of one conversation are equal or each other's reverse
    rcases (k.conversation_eq_iff l).mp hconv with heq | hrev
    · exact heq.symm
    · rw [hrev] at hql ⊢
      exact (hone p hp q hq k hpk hql).symm
  · intro hinj p hp q hq k hpk hql
    have hconv : k.reverse.conversation = k.conversation :=
      ((k.conversation_eq_iff k.reverse).mpr (.inr rfl)).symm
    apply hinj _ _ hconv
    · exact mem_filterMap_flowKey.mpr ⟨q, hq, hql⟩
    · exact mem_filterMap_flowKey.mpr ⟨p, hp, hpk⟩

/-- The rows of a capture, labelled or not, are as many as its keys. -/
theorem length_extractFeatures (host : DatasetHost) (math : PyMath ℚ)
    (capture : List ScapyPacket) (label : Option (Option Value)) :
    (host.extractFeatures math capture label).length =
      (capture.filterMap flowKey).toFinset.card := by
  have hkeys : (host.extractFeatures math capture label).map FeatureRow.key =
      (flows capture).keys := by
    rw [DatasetHost.extractFeatures, DatasetHost.map_key_attachLabels, map_key_extractScapy]
    exact (Dict.keys_accumulate flowKey recordFor capture).symm
  -- the rows' keys are the packets' keys, each once
  have hset : (capture.filterMap flowKey).toFinset = (flows capture).keys.toFinset := by
    ext k
    rw [List.mem_toFinset, List.mem_toFinset, mem_filterMap_flowKey]
    exact (Dict.mem_keys_accumulate flowKey recordFor capture k).symm
  calc (host.extractFeatures math capture label).length
      = ((host.extractFeatures math capture label).map FeatureRow.key).length :=
        (List.length_map _).symm
    _ = (flows capture).keys.length := by rw [hkeys]
    _ = (flows capture).keys.toFinset.card :=
        (List.toFinset_card_of_nodup (flows capture).nodup_keys).symm
    _ = (capture.filterMap flowKey).toFinset.card := by rw [hset]

/-- **When each row is a conversation.** Both directions of every conversation share a row, and
there are as many rows as conversations, if and only if no conversation of the capture goes
both ways. -/
theorem bidirectional_iff (host : DatasetHost) (math : PyMath ℚ)
    (capture : List ScapyPacket) (label : Option (Option Value)) :
    Bidirectional capture (host.extractFeatures math capture label) ↔ OneWay capture := by
  have himage : conversations capture =
      (capture.filterMap flowKey).toFinset.image FlowKey.conversation := by
    ext c
    simp only [conversations, List.mem_toFinset, List.mem_map, Finset.mem_image]
  have hinj : OneWay capture ↔ Set.InjOn FlowKey.conversation
      ((capture.filterMap flowKey).toFinset : Set FlowKey) := by
    rw [oneWay_iff_injOn, List.coe_toFinset]
  constructor
  · intro hbi
    -- as many keys as conversations: no two keys are of one
    have hcard := hbi.length
    rw [length_extractFeatures, himage] at hcard
    rw [hinj]
    exact Finset.card_image_iff.mp hcard.symm
  · intro hone
    refine ⟨?_, ?_⟩
    · rintro p hp q hq ⟨k, hpk, hqk, -⟩
      -- the two packets have one key
      rw [hone p hp q hq k hpk hqk] at hqk
      have hkey : k ∈ (host.extractFeatures math capture label).map FeatureRow.key := by
        rw [DatasetHost.extractFeatures, DatasetHost.map_key_attachLabels, map_key_extractScapy,
          List.mem_eraseDups]
        exact mem_filterMap_flowKey.mpr ⟨p, hp, hpk⟩
      obtain ⟨row, hrow, rfl⟩ := List.mem_map.mp hkey
      exact ⟨row, hrow, List.mem_filter.mpr ⟨hp, decide_eq_true hpk⟩,
        List.mem_filter.mpr ⟨hq, decide_eq_true hqk⟩⟩
    · rw [length_extractFeatures, himage]
      exact (Finset.card_image_of_injOn (hinj.mp hone)).symm

/-! ### A connection that is answered -/

/-- The first packet of a connection. -/
def synPacket : ScapyPacket where
  ip := some ("192.168.1.20", "203.0.113.9")
  ipv6 := none
  tcp := some ⟨50000, 443, 0x02⟩
  udp := none
  qname := none
  time := 0
  len := 60

/-- Its answer. -/
def synAckPacket : ScapyPacket :=
  { synPacket with
    ip := some ("203.0.113.9", "192.168.1.20")
    tcp := some ⟨443, 50000, 0x12⟩ }

/-- One connection, two rows. -/
theorem answer_not_bidirectional :
    Swapped synPacket synAckPacket ∧
      (DatasetHost.plainHost.extractFeatures exactMath [synPacket, synAckPacket] none).length =
        2 ∧
      (conversations [synPacket, synAckPacket]).card = 1 ∧
      ¬ Bidirectional [synPacket, synAckPacket]
        (DatasetHost.plainHost.extractFeatures exactMath [synPacket, synAckPacket] none) := by
  have hrows :
      (DatasetHost.plainHost.extractFeatures exactMath [synPacket, synAckPacket] none).length =
        2 := by
    rfl
  have hconv : (conversations [synPacket, synAckPacket]).card = 1 := by decide +kernel
  refine ⟨⟨⟨"192.168.1.20", "203.0.113.9", 50000, 443, "TCP"⟩, rfl, rfl, .inl rfl⟩,
    hrows, hconv, ?_⟩
  intro hbi
  -- two rows for one conversation
  have hlength := hbi.length
  rw [hrows, hconv] at hlength
  exact absurd hlength (by decide)

end FeatureExtractor

end Sentrix
