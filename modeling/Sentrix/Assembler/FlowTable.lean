import Mathlib.Algebra.Order.Ring.Rat
import Mathlib.Data.String.Basic
import Mathlib.Data.Sym.Sym2.Order
import Sentrix.Lib.Dict
import Sentrix.Lib.Lists
import Sentrix.Lib.Machine

/-!
# The flow table of the assembler

`FlowAssembler` of `assembler/flow_session_tables.py` files each packet under a
5-tuple in a table of bounded size. The table is an ordered dictionary that is
kept in order of use: a key that is found moves to the end, and a new key evicts
the first one when the table is full.

The packets of a conversation travel in both directions, so the 5-tuple is
normalised: the two addresses are sorted, and so are the two ports. They are
sorted *separately*. The key of a packet therefore determines which addresses
and which ports it has, but not which port belongs to which address
(`make5tuple_eq_iff`), and two conversations that differ in nothing else get one
key (`flow_key_conversation_iff`).

A run answers entries, which are objects: they are mutated in place and an
evicted one is gone for good. An entry carries the number of entries created
before it, and the packets answered with one entry are exactly packets of one
key (`EntryInv`).
-/

namespace Sentrix

/-! ### The bounded table -/

/-- A dictionary stored in a `BoundedTable`: the object, the two times the table
keeps in it, and what the user of the table keeps in it. -/
structure TableEntry (ν : Type*) where
  /-- Which object this is: the number of entries created before it. -/
  serial : ℕ
  firstSeen : ℚ
  lastSeen : ℚ
  value : ν

/-- `BoundedTable`. -/
structure BoundedTable (κ ν : Type*) where
  maxSize : ℤ
  /-- `OrderedDict`, least recently used key first. -/
  table : Dict κ (TableEntry ν)
  evictedCount : ℕ
  /-- The number of entries created so far. -/
  created : ℕ

namespace BoundedTable

variable {κ ν : Type*} [DecidableEq κ]

/-- An empty table. -/
def new (maxSize : ℤ) : BoundedTable κ ν := ⟨maxSize, Dict.empty, 0, 0⟩

/-- `_evict_lru`: `popitem(last=False)`, if there is an item. -/
def evictLru (t : BoundedTable κ ν) : BoundedTable κ ν :=
  match t.table.keys with
  | [] => t
  | k :: _ => { t with table := t.table.erase k, evictedCount := t.evictedCount + 1 }

/-- `get_or_create` at a given time, which is the clock's when the argument is
`None`. -/
def getOrCreate (t : BoundedTable κ ν) (key : κ) (defaultFactory : ν) (currentTime : ℚ) :
    BoundedTable κ ν × TableEntry ν :=
  match t.table.get? key with
  | some entry =>
    -- `move_to_end`
    let entry' := { entry with lastSeen := currentTime }
    ({ t with table := (t.table.erase key).set key entry' }, entry')
  | none =>
    let t' := if (t.table.size : ℤ) ≥ t.maxSize then t.evictLru else t
    let entry := ⟨t.created, currentTime, currentTime, defaultFactory⟩
    ({ t' with table := t'.table.set key entry, created := t.created + 1 }, entry)

/-- `get`. -/
def get (t : BoundedTable κ ν) (key : κ) : BoundedTable κ ν × Option (TableEntry ν) :=
  match t.table.get? key with
  | some entry => ({ t with table := (t.table.erase key).set key entry }, some entry)
  | none => (t, none)

theorem get?_of_evictLru {t : BoundedTable κ ν} {k : κ} {e : TableEntry ν}
    (h : t.evictLru.table.get? k = some e) : t.table.get? k = some e := by
  unfold evictLru at h
  split at h
  · exact h
  · next k' _ _ =>
    by_cases hk : k = k'
    · subst hk
      rw [Dict.get?_erase_self] at h
      cases h
    · rwa [Dict.get?_erase_of_ne _ hk] at h

/-- The answered entry is in the table. -/
theorem get?_getOrCreate_self (t : BoundedTable κ ν) (key : κ) (v : ν) (now : ℚ) :
    (t.getOrCreate key v now).1.table.get? key = some (t.getOrCreate key v now).2 := by
  unfold getOrCreate
  split
  · exact Dict.get?_set_self _ _ _
  · exact Dict.get?_set_self _ _ _

/-- The other keys hold what they held, or nothing. -/
theorem get?_of_getOrCreate {t : BoundedTable κ ν} {key k : κ} {v : ν} {now : ℚ}
    {e : TableEntry ν} (hk : k ≠ key) (h : (t.getOrCreate key v now).1.table.get? k = some e) :
    t.table.get? k = some e := by
  unfold getOrCreate at h
  split at h
  · dsimp only at h
    rwa [Dict.get?_set_of_ne _ _ hk, Dict.get?_erase_of_ne _ hk] at h
  · dsimp only at h
    rw [Dict.get?_set_of_ne _ _ hk] at h
    split at h
    · exact get?_of_evictLru h
    · exact h

end BoundedTable

/-! ### The assembler -/

/-- The packet metadata `process_packet_meta` reads. -/
structure FlowMeta where
  srcIp : String
  dstIp : String
  srcPort : ℤ
  dstPort : ℤ
  protocol : Option String
  ipLen : Option ℤ
deriving DecidableEq

/-- A 5-tuple. -/
structure FiveTuple where
  ip1 : String
  port1 : ℤ
  ip2 : String
  port2 : ℤ
  protocol : Option String
deriving DecidableEq

/-- What `flow_factory` puts into an entry. -/
structure AssembledFlow where
  packetCount : ℕ
  byteCount : ℤ
  protocol : Option String
  srcIp : String
  dstIp : String
  srcPort : ℤ
  dstPort : ℤ

namespace FlowAssembler

/-- `sorted` of a list of two. -/
def sortedPair {α : Type*} [LinearOrder α] (a b : α) : α × α :=
  if b < a then (b, a) else (a, b)

/-- `_make_5tuple`. -/
def make5tuple (m : FlowMeta) : FiveTuple :=
  let ips := sortedPair m.srcIp m.dstIp
  let ports := sortedPair m.srcPort m.dstPort
  ⟨ips.1, ports.1, ips.2, ports.2, m.protocol⟩

/-- The packet has a protocol: `meta.get('protocol')` is neither missing, nor
`None`, nor empty. -/
def HasProtocol (m : FlowMeta) : Prop := m.protocol.getD "" ≠ ""

instance (m : FlowMeta) : Decidable (HasProtocol m) := inferInstanceAs (Decidable (_ ≠ _))

/-- `flow_factory`. -/
def flowFactory (m : FlowMeta) : AssembledFlow where
  packetCount := 0
  byteCount := 0
  protocol := m.protocol
  srcIp := m.srcIp
  dstIp := m.dstIp
  srcPort := m.srcPort
  dstPort := m.dstPort

/-- The packet is counted in its flow. -/
def countPacket (m : FlowMeta) (e : TableEntry AssembledFlow) : TableEntry AssembledFlow :=
  { e with value :=
      { e.value with
        packetCount := e.value.packetCount + 1
        byteCount := e.value.byteCount + m.ipLen.getD 0 } }

/-- `process_packet_meta`; the metadata is `none` where it is `None` or empty. -/
def processPacketMeta (t : BoundedTable FiveTuple AssembledFlow) (x : Option FlowMeta × ℚ) :
    BoundedTable FiveTuple AssembledFlow × Option (TableEntry AssembledFlow) :=
  match x.1 with
  | none => (t, none)
  | some m =>
    if HasProtocol m then
      let key := make5tuple m
      let r := t.getOrCreate key (flowFactory m) x.2
      -- the returned entry is the one in the table, and is updated there
      let flow := countPacket m r.2
      ({ r.1 with table := r.1.table.set key flow }, some flow)
    else (t, none)

/-- The assembler as a machine that is fed packets with the time they are
processed at. -/
def machine (maxFlows : ℤ) :
    Machine (BoundedTable FiveTuple AssembledFlow) (Option FlowMeta × ℚ)
      (Option (TableEntry AssembledFlow)) where
  init := BoundedTable.new maxFlows
  step := processPacketMeta

/-! ### What one packet does -/

theorem processPacketMeta_of_hasProtocol (t : BoundedTable FiveTuple AssembledFlow)
    {x : Option FlowMeta × ℚ} {m : FlowMeta} (hx : x.1 = some m) (hm : HasProtocol m) :
    processPacketMeta t x =
      ({ (t.getOrCreate (make5tuple m) (flowFactory m) x.2).1 with
          table := (t.getOrCreate (make5tuple m) (flowFactory m) x.2).1.table.set (make5tuple m)
            (countPacket m (t.getOrCreate (make5tuple m) (flowFactory m) x.2).2) },
        some (countPacket m (t.getOrCreate (make5tuple m) (flowFactory m) x.2).2)) := by
  unfold processPacketMeta
  rw [hx]
  dsimp only
  rw [if_pos hm]

theorem processPacketMeta_of_silent (t : BoundedTable FiveTuple AssembledFlow)
    {x : Option FlowMeta × ℚ} (hx : ∀ m, x.1 = some m → ¬ HasProtocol m) :
    processPacketMeta t x = (t, none) := by
  unfold processPacketMeta
  split
  · rfl
  · next m hm => rw [if_neg (hx m hm)]

/-- A packet has a protocol, or it leaves the table alone. -/
theorem hasProtocol_or_silent (x : Option FlowMeta × ℚ) :
    (∃ m, x.1 = some m ∧ HasProtocol m) ∨ ∀ m, x.1 = some m → ¬ HasProtocol m := by
  by_cases hx : ∃ m, x.1 = some m ∧ HasProtocol m
  · exact Or.inl hx
  · exact Or.inr fun m hm hproto => hx ⟨m, hm, hproto⟩

/-! ### The key of a conversation -/

/-- The conversation a packet belongs to: its protocol, and its two endpoints in
no order. -/
def conversation (m : FlowMeta) : Option String × Sym2 (String × ℤ) :=
  (m.protocol, s((m.srcIp, m.srcPort), (m.dstIp, m.dstPort)))

/-- The second packet has the addresses of the first in one direction and its
ports in the other, and both make a difference. -/
def Crossed (a b : FlowMeta) : Prop :=
  a.protocol = b.protocol ∧ a.srcIp ≠ a.dstIp ∧ a.srcPort ≠ a.dstPort ∧
    ((b.srcIp = a.srcIp ∧ b.dstIp = a.dstIp ∧ b.srcPort = a.dstPort ∧ b.dstPort = a.srcPort) ∨
      (b.srcIp = a.dstIp ∧ b.dstIp = a.srcIp ∧ b.srcPort = a.srcPort ∧ b.dstPort = a.dstPort))

/-- Sorting forgets the order of a pair and nothing else. -/
theorem sortedPair_eq_iff {α : Type*} [LinearOrder α] (a b c d : α) :
    sortedPair a b = sortedPair c d ↔ s(a, b) = s(c, d) := by
  have hsorted : ∀ x y : α, sortedPair x y = (s(x, y).inf, s(x, y).sup) := by
    intro x y
    rw [Sym2.inf_mk, Sym2.sup_mk]
    unfold sortedPair
    split
    · next h => rw [min_eq_right h.le, max_eq_left h.le]
    · next h => rw [min_eq_left (not_lt.mp h), max_eq_right (not_lt.mp h)]
  rw [hsorted, hsorted, Prod.mk.injEq, Sym2.inf_eq_inf_and_sup_eq_sup]

/-- A key is a protocol, a pair of addresses and a pair of ports. -/
theorem make5tuple_eq_iff (a b : FlowMeta) :
    make5tuple a = make5tuple b ↔ a.protocol = b.protocol ∧
      s(a.srcIp, a.dstIp) = s(b.srcIp, b.dstIp) ∧
      s(a.srcPort, a.dstPort) = s(b.srcPort, b.dstPort) := by
  rw [← sortedPair_eq_iff, ← sortedPair_eq_iff, Prod.ext_iff, Prod.ext_iff]
  simp only [make5tuple, FiveTuple.mk.injEq]
  tauto

/-- Two packets with one key belong to one conversation, unless they are crossed. -/
theorem conversation_eq_iff_of_key {a b : FlowMeta} (hkey : make5tuple a = make5tuple b) :
    conversation a = conversation b ↔ ¬ Crossed a b := by
  obtain ⟨hproto, hips, hports⟩ := (make5tuple_eq_iff a b).mp hkey
  simp only [conversation, Crossed, Prod.mk.injEq, Sym2.eq_iff] at *
  grind

/-- The key is at least symmetric. -/
theorem make5tuple_eq_of_conversation {a b : FlowMeta} (h : conversation a = conversation b) :
    make5tuple a = make5tuple b := by
  rw [make5tuple_eq_iff]
  simp only [conversation, Prod.mk.injEq, Sym2.eq_iff] at *
  grind

theorem make5tuple_eq_of_crossed {a b : FlowMeta} (h : Crossed a b) :
    make5tuple a = make5tuple b := by
  rw [make5tuple_eq_iff]
  simp only [Crossed, Sym2.eq_iff] at *
  grind

/-! ### The entries of a run -/

/-- What a call that answers `e` under `key` has done to the table: the entry is
there, the other keys hold what they held or nothing, and the entry is the one
the key had, or a new one. -/
structure Answered (t t' : BoundedTable FiveTuple AssembledFlow) (key : FiveTuple)
    (e : TableEntry AssembledFlow) : Prop where
  self : t'.table.get? key = some e
  others : ∀ k e', k ≠ key → t'.table.get? k = some e' → t.table.get? k = some e'
  object : (∃ e₀, t.table.get? key = some e₀ ∧ e.serial = e₀.serial ∧ t'.created = t.created) ∨
    (e.serial = t.created ∧ t'.created = t.created + 1)

theorem getOrCreate_answered (t : BoundedTable FiveTuple AssembledFlow) (key : FiveTuple)
    (v : AssembledFlow) (now : ℚ) :
    Answered t (t.getOrCreate key v now).1 key (t.getOrCreate key v now).2 := by
  refine ⟨t.get?_getOrCreate_self key v now, ?_, ?_⟩
  · intro k e' hk hget
    exact BoundedTable.get?_of_getOrCreate hk hget
  · unfold BoundedTable.getOrCreate
    split
    · next e₀ he₀ => exact Or.inl ⟨e₀, he₀, rfl, rfl⟩
    · exact Or.inr ⟨rfl, rfl⟩

/-- **What one packet does.** A packet without a protocol does nothing; any other
is answered with the entry of its key. -/
theorem processPacketMeta_cases (t : BoundedTable FiveTuple AssembledFlow)
    (x : Option FlowMeta × ℚ) :
    processPacketMeta t x = (t, none) ∨
      ∃ m e, x.1 = some m ∧ (processPacketMeta t x).2 = some e ∧
        Answered t (processPacketMeta t x).1 (make5tuple m) e := by
  obtain ⟨m, hm, hproto⟩ | hsilent := hasProtocol_or_silent x
  · -- a packet with a protocol is answered by its flow
    have hans := getOrCreate_answered t (make5tuple m) (flowFactory m) x.2
    rw [processPacketMeta_of_hasProtocol t hm hproto]
    refine Or.inr ⟨m, _, hm, rfl, Dict.get?_set_self _ _ _, ?_, hans.object⟩
    intro k e' hk hget
    rw [Dict.get?_set_of_ne _ _ hk] at hget
    exact hans.others k e' hk hget
  · exact Or.inl (processPacketMeta_of_silent t hsilent)

/-- A run's inputs with its answers. -/
def log (maxFlows : ℤ) (h : List (Option FlowMeta × ℚ)) :
    List ((Option FlowMeta × ℚ) × Option (TableEntry AssembledFlow)) :=
  h.zip ((machine maxFlows).emits h)

theorem log_concat (maxFlows : ℤ) (h : List (Option FlowMeta × ℚ)) (x : Option FlowMeta × ℚ) :
    log maxFlows (h ++ [x]) =
      log maxFlows h ++ [(x, (processPacketMeta ((machine maxFlows).after h) x).2)] := by
  unfold log
  rw [Machine.emits_concat, List.zip_append (Machine.length_emits _ h).symm]
  rfl

/-- Some packet of the run with the given key was answered with the given object. -/
def Filed (maxFlows : ℤ) (h : List (Option FlowMeta × ℚ)) (k : FiveTuple) (n : ℕ) : Prop :=
  ∃ m τ e, ((some m, τ), some e) ∈ log maxFlows h ∧ make5tuple m = k ∧ e.serial = n

/-- What holds of the objects after the packets `h`: they are counted, the
table's are among those answered, and none was answered under two keys. -/
structure EntryInv (maxFlows : ℤ) (h : List (Option FlowMeta × ℚ))
    (t : BoundedTable FiveTuple AssembledFlow) : Prop where
  counted : ∀ k n, Filed maxFlows h k n → n < t.created
  answered : ∀ k e, t.table.get? k = some e → Filed maxFlows h k e.serial
  oneKey : ∀ k k' n, Filed maxFlows h k n → Filed maxFlows h k' n → k = k'

variable {maxFlows : ℤ} {h : List (Option FlowMeta × ℚ)}

theorem filed_of_silent {x : Option FlowMeta × ℚ} {k : FiveTuple} {n : ℕ}
    (hout : (processPacketMeta ((machine maxFlows).after h) x).2 = none) :
    Filed maxFlows (h ++ [x]) k n ↔ Filed maxFlows h k n := by
  unfold Filed
  rw [log_concat, hout]
  simp

theorem filed_of_answered {x : Option FlowMeta × ℚ} {m : FlowMeta}
    {e : TableEntry AssembledFlow} {k : FiveTuple} {n : ℕ} (hx : x.1 = some m)
    (hout : (processPacketMeta ((machine maxFlows).after h) x).2 = some e) :
    Filed maxFlows (h ++ [x]) k n ↔
      Filed maxFlows h k n ∨ (k = make5tuple m ∧ n = e.serial) := by
  obtain ⟨o, τ⟩ := x
  obtain rfl : o = some m := hx
  unfold Filed
  rw [log_concat, hout]
  -- the log has one answer more
  simp only [List.mem_append, List.mem_singleton, Prod.mk.injEq, Option.some.injEq]
  constructor
  · rintro ⟨m', τ', e', hmem | ⟨⟨rfl, -⟩, rfl⟩, rfl, rfl⟩
    · exact Or.inl ⟨m', τ', e', hmem, rfl, rfl⟩
    · exact Or.inr ⟨rfl, rfl⟩
  · rintro (⟨m', τ', e', hmem, rfl, rfl⟩ | ⟨rfl, rfl⟩)
    · exact ⟨m', τ', e', Or.inl hmem, rfl, rfl⟩
    · exact ⟨m, τ, e, Or.inr ⟨⟨rfl, rfl⟩, rfl⟩, rfl, rfl⟩

/-- **One packet** keeps the account of the objects. -/
theorem EntryInv.step (hi : EntryInv maxFlows h ((machine maxFlows).after h))
    (x : Option FlowMeta × ℚ) :
    EntryInv maxFlows (h ++ [x]) (processPacketMeta ((machine maxFlows).after h) x).1 := by
  obtain heq | ⟨m, e, hx, hout, hans⟩ := processPacketMeta_cases ((machine maxFlows).after h) x
  · have hout : (processPacketMeta ((machine maxFlows).after h) x).2 = none := by rw [heq]
    rw [heq]
    refine ⟨?_, ?_, ?_⟩ <;> simp only [filed_of_silent hout]
    · exact hi.counted
    · exact hi.answered
    · exact hi.oneKey
  · -- an object filed before under some key, if it is the one answered now, had this key
    have hsame : ∀ k, Filed maxFlows h k e.serial → k = make5tuple m := by
      intro k hk
      obtain ⟨e₀, hget, hserial, -⟩ | ⟨hserial, -⟩ := hans.object
      · rw [hserial] at hk
        exact hi.oneKey _ _ _ hk (hi.answered _ _ hget)
      · exact absurd (hi.counted _ _ hk) (by rw [hserial]; exact lt_irrefl _)
    refine ⟨?_, ?_, ?_⟩ <;> simp only [filed_of_answered hx hout]
    · rintro k n (hk | ⟨-, rfl⟩)
      · have hlt := hi.counted k n hk
        obtain ⟨-, -, -, hcreated⟩ | ⟨-, hcreated⟩ := hans.object <;> omega
      · obtain ⟨e₀, hget, hserial, hcreated⟩ | ⟨hserial, hcreated⟩ := hans.object
        · rw [hserial, hcreated]
          exact hi.counted _ _ (hi.answered _ _ hget)
        · omega
    · intro k e' hget
      by_cases hk : k = make5tuple m
      · subst hk
        rw [hans.self] at hget
        obtain rfl := Option.some.inj hget
        exact Or.inr ⟨rfl, rfl⟩
      · exact Or.inl (hi.answered k e' (hans.others k e' hk hget))
    · rintro k k' n (hk | ⟨rfl, rfl⟩) (hk' | ⟨rfl, hn⟩)
      · exact hi.oneKey k k' n hk hk'
      · subst hn
        exact hsame k hk
      · exact (hsame k' hk').symm
      · rfl

theorem entryInv_after (maxFlows : ℤ) (h : List (Option FlowMeta × ℚ)) :
    EntryInv maxFlows h ((machine maxFlows).after h) := by
  refine (machine maxFlows).invariant (EntryInv maxFlows) ?_ (fun h x hi => hi.step x) h
  refine ⟨?_, ?_, ?_⟩
  · rintro k n ⟨m, τ, e, hmem, -⟩
    exact absurd hmem List.not_mem_nil
  · intro k e hget
    exact absurd hget (Option.some_ne_none e).symm
  · rintro k k' n ⟨m, τ, e, hmem, -⟩
    exact absurd hmem List.not_mem_nil

/-- Packets answered with one entry have one key, in every run. -/
theorem make5tuple_eq_of_entry {a b : FlowMeta} {τ τ' : ℚ} {e e' : TableEntry AssembledFlow}
    (ha : ((some a, τ), some e) ∈ log maxFlows h) (hb : ((some b, τ'), some e') ∈ log maxFlows h)
    (hobj : e.serial = e'.serial) : make5tuple a = make5tuple b :=
  (entryInv_after maxFlows h).oneKey _ _ e.serial ⟨a, τ, e, ha, rfl, rfl⟩
    ⟨b, τ', e', hb, rfl, hobj.symm⟩

/-- **When a flow key identifies the conversation.** Two packets, with a protocol
or not, get one key exactly when they belong to one conversation, if and only if
they are not crossed; and two packets that a run adds to one entry belong to one
conversation if and only if they are not crossed. -/
theorem flow_key_conversation_iff (maxFlows : ℤ) (h : List (Option FlowMeta × ℚ))
    (a b : FlowMeta) :
    ((make5tuple a = make5tuple b ↔ conversation a = conversation b) ↔ ¬ Crossed a b) ∧
    (∀ (τ τ' : ℚ) (e e' : TableEntry AssembledFlow), ((some a, τ), some e) ∈ log maxFlows h →
      ((some b, τ'), some e') ∈ log maxFlows h → e.serial = e'.serial →
      (conversation a = conversation b ↔ ¬ Crossed a b)) := by
  refine ⟨?_, ?_⟩
  · constructor
    · intro hiff hcross
      -- a crossed pair has one key and two conversations
      have hkey := make5tuple_eq_of_crossed hcross
      exact (conversation_eq_iff_of_key hkey).mp (hiff.mp hkey) hcross
    · intro hcross
      exact ⟨fun hkey => (conversation_eq_iff_of_key hkey).mpr hcross,
        make5tuple_eq_of_conversation⟩
  · intro τ τ' e e' hlog hlog' hobj
    exact conversation_eq_iff_of_key (make5tuple_eq_of_entry hlog hlog' hobj)

/-- A packet of a connection from port 40000 to port 443. -/
def request : FlowMeta := ⟨"10.0.0.1", "10.0.0.2", 40000, 443, some "TCP", some 60⟩

/-- A packet of the same connection, in the other direction. -/
def response : FlowMeta := ⟨"10.0.0.2", "10.0.0.1", 443, 40000, some "TCP", some 1500⟩

/-- A packet of a connection between the same hosts, from port 443 to port 40000. -/
def exchanged : FlowMeta := ⟨"10.0.0.1", "10.0.0.2", 443, 40000, some "TCP", some 60⟩

/-- The two directions of a connection are counted in one entry. -/
theorem flow_key_conversation_iff_one_flow : conversation request = conversation response := by
  have hanswers : ∃ e e', log 10000 [(some request, 0), (some response, 1)] =
      [((some request, 0), some e), ((some response, 1), some e')] ∧ e.serial = e'.serial :=
    ⟨_, _, rfl, rfl⟩
  obtain ⟨e, e', hlog, hobj⟩ := hanswers
  have hfirst := hlog.symm ▸ List.mem_cons_self
  have hsecond := hlog.symm ▸ List.mem_cons_of_mem _ List.mem_cons_self
  refine ((flow_key_conversation_iff 10000 _ _ _).2 0 1 e e' hfirst hsecond hobj).mpr ?_
  rintro ⟨-, -, -, ⟨hip, -⟩ | ⟨-, -, hport, -⟩⟩
  · exact absurd hip (by decide)
  · exact absurd hport (by decide)

/-- **Two conversations in one flow.** A connection from port 40000 to port 443
and one from port 443 to port 40000, between the same two hosts and in the same
direction, have one key and are counted in one entry. -/
theorem crossed_connections_share_flow :
    ¬ (∀ a b : FlowMeta, HasProtocol a → HasProtocol b →
      (make5tuple a = make5tuple b ↔ conversation a = conversation b)) ∧
    ¬ (∀ (maxFlows : ℤ) (h : List (Option FlowMeta × ℚ)) (a b : FlowMeta) (τ τ' : ℚ)
      (e e' : TableEntry AssembledFlow), ((some a, τ), some e) ∈ log maxFlows h →
      ((some b, τ'), some e') ∈ log maxFlows h → e.serial = e'.serial →
      conversation a = conversation b) := by
  -- the two connections exchange their ports, and sorting the ports apart from the addresses
  -- forgets it
  have hconv : conversation request ≠ conversation exchanged := by decide
  refine ⟨?_, ?_⟩
  · intro hkeys
    have hkey : make5tuple request = make5tuple exchanged := by decide
    exact hconv ((hkeys request exchanged (by decide) (by decide)).mp hkey)
  · intro hentries
    -- the second packet is answered with the entry of the first
    have hanswers : ∃ e e', log 10000 [(some request, 0), (some exchanged, 1)] =
        [((some request, 0), some e), ((some exchanged, 1), some e')] ∧ e.serial = e'.serial :=
      ⟨_, _, rfl, rfl⟩
    obtain ⟨e, e', hlog, hobj⟩ := hanswers
    have hfirst := hlog.symm ▸ List.mem_cons_self
    have hsecond := hlog.symm ▸ List.mem_cons_of_mem _ List.mem_cons_self
    exact hconv (hentries 10000 _ _ _ 0 1 e e' hfirst hsecond hobj)

end FlowAssembler

end Sentrix
