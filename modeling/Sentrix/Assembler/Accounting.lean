import Mathlib.Algebra.BigOperators.Group.List.Basic
import Mathlib.Algebra.GroupWithZero.Nat
import Sentrix.Assembler.FlowTable

/-!
# The accounts of the flows

`FlowAssembler.process_packet_meta` counts a packet on the object the table answers, and
the table may just have evicted another flow, or an earlier flow of the same key. No
packet is lost by that and none is counted twice: a flow in the table has counted exactly
the packets of its key since its entry was created (`Accounts`), and the counts of the
live flows, with those the evicted flows had at their eviction, are all packets that have
a protocol (`flow_accounts`).
-/

namespace Sentrix

namespace FlowAssembler

/-- The packets with a flow key, each with its time, in order. -/
def packetsOf (k : FiveTuple) (h : List (Option FlowMeta × ℚ)) : List (FlowMeta × ℚ) :=
  h.filterMap fun x => x.1.bind fun m =>
    if HasProtocol m ∧ make5tuple m = k then some (m, x.2) else none

/-- The packets that have a protocol. -/
def withProtocol (h : List (Option FlowMeta × ℚ)) : List (Option FlowMeta × ℚ) :=
  h.filter fun x => decide (∃ m ∈ x.1, HasProtocol m)

/-- The entry is the account of some packets. -/
structure Accounts (e : TableEntry AssembledFlow) (ps : List (FlowMeta × ℚ)) : Prop where
  packets : e.value.packetCount = ps.length
  bytes : e.value.byteCount = (ps.map fun p => p.1.ipLen.getD 0).sum
  first : ps.head?.map Prod.snd = some e.firstSeen
  last : ps.getLast?.map Prod.snd = some e.lastSeen

/-- The packet is answered with the object of the given number, which it creates. -/
def Creates (t : BoundedTable FiveTuple AssembledFlow) (x : Option FlowMeta × ℚ) (n : ℕ) : Prop :=
  n = t.created ∧ (processPacketMeta t x).2.map TableEntry.serial = some n

/-- The packets counted by the flows of a table. -/
def live (t : BoundedTable FiveTuple AssembledFlow) : ℕ :=
  (t.table.entries.map fun e => e.2.value.packetCount).sum

/-- The entries of a table that are not in the next one any more. -/
def evicted (t t' : BoundedTable FiveTuple AssembledFlow) : List (TableEntry AssembledFlow) :=
  (t.table.entries.filter fun e =>
    decide ((t'.table.get? e.1).map TableEntry.serial ≠ some e.2.serial)).map Prod.snd

/-- The entries evicted by the packets `h`, each as it was when it was evicted. -/
def evictedFrom (t : BoundedTable FiveTuple AssembledFlow) :
    List (Option FlowMeta × ℚ) → List (TableEntry AssembledFlow)
  | [] => []
  | x :: h => evicted t (processPacketMeta t x).1 ++ evictedFrom (processPacketMeta t x).1 h

/-- The flows evicted along a run. -/
def evictedFlows (maxFlows : ℤ) (h : List (Option FlowMeta × ℚ)) :
    List (TableEntry AssembledFlow) :=
  evictedFrom (BoundedTable.new maxFlows) h

theorem evictedFrom_append (t : BoundedTable FiveTuple AssembledFlow)
    (h k : List (Option FlowMeta × ℚ)) (maxFlows : ℤ) :
    evictedFrom t (h ++ k) = evictedFrom t h ++
      evictedFrom ((machine maxFlows).afterFrom t h) k := by
  induction h generalizing t with
  | nil => rfl
  | cons x h ih =>
    rw [List.cons_append, evictedFrom, evictedFrom, ih, List.append_assoc]
    rfl

theorem evictedFlows_concat (maxFlows : ℤ) (h : List (Option FlowMeta × ℚ))
    (x : Option FlowMeta × ℚ) :
    evictedFlows maxFlows (h ++ [x]) = evictedFlows maxFlows h ++
      evicted ((machine maxFlows).after h)
        (processPacketMeta ((machine maxFlows).after h) x).1 := by
  unfold evictedFlows
  rw [evictedFrom_append _ _ _ maxFlows, evictedFrom, evictedFrom, List.append_nil]
  rfl

/-! ### One packet -/

/-- How a packet is counted: on the entry of its key, or on a new one. -/
inductive Counted (t : BoundedTable FiveTuple AssembledFlow) (m : FlowMeta) (time : ℚ) :
    TableEntry AssembledFlow → Prop
  | again (e : TableEntry AssembledFlow) (hget : t.table.get? (make5tuple m) = some e) :
      Counted t m time (countPacket m { e with lastSeen := time })
  | first (hnone : t.table.get? (make5tuple m) = none) :
      Counted t m time (countPacket m ⟨t.created, time, time, flowFactory m⟩)

theorem processPacketMeta_counted (t : BoundedTable FiveTuple AssembledFlow)
    {x : Option FlowMeta × ℚ} {m : FlowMeta} (hx : x.1 = some m) (hm : HasProtocol m) :
    ∃ e, (processPacketMeta t x).2 = some e ∧ Counted t m x.2 e ∧
      Answered t (processPacketMeta t x).1 (make5tuple m) e := by
  have hans := getOrCreate_answered t (make5tuple m) (flowFactory m) x.2
  have hcount : Counted t m x.2
      (countPacket m (t.getOrCreate (make5tuple m) (flowFactory m) x.2).2) := by
    unfold BoundedTable.getOrCreate
    -- a flow that is there is counted on, another one begins with this packet
    cases hget : t.table.get? (make5tuple m) with
    | some e => exact .again e hget
    | none => exact .first hget
  rw [processPacketMeta_of_hasProtocol t hx hm]
  refine ⟨_, rfl, hcount, Dict.get?_set_self _ _ _, ?_, hans.object⟩
  -- counting writes to the packet's own key only
  intro k e' hk hget
  rw [Dict.get?_set_of_ne _ _ hk] at hget
  exact hans.others k e' hk hget

theorem packetsOf_append (k : FiveTuple) (h h' : List (Option FlowMeta × ℚ)) :
    packetsOf k (h ++ h') = packetsOf k h ++ packetsOf k h' :=
  List.filterMap_append

theorem packetsOf_self {x : Option FlowMeta × ℚ} {m : FlowMeta} (hx : x.1 = some m)
    (hm : HasProtocol m) : packetsOf (make5tuple m) [x] = [(m, x.2)] := by
  simp [packetsOf, hx, hm]

theorem packetsOf_other {x : Option FlowMeta × ℚ} {k : FiveTuple}
    (h : ∀ m, x.1 = some m → HasProtocol m → k ≠ make5tuple m) : packetsOf k [x] = [] := by
  cases hx : x.1 with
  | none => simp [packetsOf, hx]
  | some m =>
    have hnot : ¬ (HasProtocol m ∧ make5tuple m = k) := fun ⟨hm, hk⟩ => h m hx hm hk.symm
    simp [packetsOf, hx, hnot]

/-- A packet more on an account. -/
theorem Accounts.again {e : TableEntry AssembledFlow} {ps : List (FlowMeta × ℚ)}
    (ha : Accounts e ps) (m : FlowMeta) (time : ℚ) :
    Accounts (countPacket m { e with lastSeen := time }) (ps ++ [(m, time)]) := by
  -- the first packet stays the first
  obtain ⟨p, rest, rfl⟩ : ∃ p rest, ps = p :: rest := by
    cases ps with
    | nil => exact absurd ha.first (Option.some_ne_none _).symm
    | cons p rest => exact ⟨p, rest, rfl⟩
  refine ⟨?_, ?_, ha.first, ?_⟩
  · show e.value.packetCount + 1 = _
    rw [ha.packets, List.length_append, List.length_singleton]
  · show e.value.byteCount + m.ipLen.getD 0 = _
    rw [ha.bytes, List.map_append, List.sum_append, List.map_singleton, List.sum_singleton]
  · rw [List.getLast?_concat]
    rfl

/-- The first packet on an account. -/
theorem accounts_first (m : FlowMeta) (time : ℚ) (n : ℕ) :
    Accounts (countPacket m ⟨n, time, time, flowFactory m⟩) [(m, time)] := by
  refine ⟨rfl, ?_, rfl, rfl⟩
  show 0 + m.ipLen.getD 0 = _
  rw [List.map_singleton, List.sum_singleton, zero_add]

/-! ### The flows in the table -/

/-- What holds of the entries of the table after the packets `h`: each is the account of
the packets of its key from the one that created it on. -/
def FlowInv (maxFlows : ℤ) (h : List (Option FlowMeta × ℚ))
    (t : BoundedTable FiveTuple AssembledFlow) : Prop :=
  ∀ k e, t.table.get? k = some e → ∃ h₁ x h₂, h = h₁ ++ x :: h₂ ∧
    Creates ((machine maxFlows).after h₁) x e.serial ∧ Accounts e (packetsOf k (x :: h₂))

variable {maxFlows : ℤ} {h : List (Option FlowMeta × ℚ)}

/-- A packet of another flow, or of none, leaves an account as it is. -/
theorem FlowInv.other (hi : FlowInv maxFlows h ((machine maxFlows).after h))
    {x : Option FlowMeta × ℚ} {k : FiveTuple} {e : TableEntry AssembledFlow}
    (hget : ((machine maxFlows).after h).table.get? k = some e) (hnone : packetsOf k [x] = []) :
    ∃ h₁ y h₂, h ++ [x] = h₁ ++ y :: h₂ ∧ Creates ((machine maxFlows).after h₁) y e.serial ∧
      Accounts e (packetsOf k (y :: h₂)) := by
  obtain ⟨h₁, y, h₂, heq, hcreates, hacc⟩ := hi k e hget
  refine ⟨h₁, y, h₂ ++ [x], ?_, hcreates, ?_⟩
  · rw [heq, List.append_assoc, List.cons_append]
  · rw [← List.cons_append, packetsOf_append, hnone, List.append_nil]
    exact hacc

/-- **One packet** keeps the accounts. -/
theorem FlowInv.step (hi : FlowInv maxFlows h ((machine maxFlows).after h))
    (x : Option FlowMeta × ℚ) :
    FlowInv maxFlows (h ++ [x]) (processPacketMeta ((machine maxFlows).after h) x).1 := by
  obtain ⟨m, hm, hproto⟩ | hsilent := hasProtocol_or_silent x
  · obtain ⟨e, hout, hcounted, hans⟩ :=
      processPacketMeta_counted ((machine maxFlows).after h) hm hproto
    intro k e' hget
    by_cases hk : k = make5tuple m
    · subst hk
      rw [hans.self] at hget
      obtain rfl := Option.some.inj hget
      cases hcounted with
      | again e₀ hget₀ =>
        -- the account of the entry goes on
        obtain ⟨h₁, y, h₂, heq, hcreates, hacc⟩ := hi _ e₀ hget₀
        refine ⟨h₁, y, h₂ ++ [x], ?_, hcreates, ?_⟩
        · rw [heq, List.append_assoc, List.cons_append]
        · rw [← List.cons_append, packetsOf_append, packetsOf_self hm hproto]
          exact hacc.again m x.2
      | first hnone =>
        -- an account of this packet alone
        refine ⟨h, x, [], rfl, ⟨rfl, ?_⟩, ?_⟩
        · rw [hout]
          rfl
        · rw [packetsOf_self hm hproto]
          exact accounts_first m x.2 _
    · refine hi.other (hans.others k e' hk hget) (packetsOf_other fun m' hm' _ => ?_)
      obtain rfl := Option.some.inj (hm.symm.trans hm')
      exact hk
  · rw [processPacketMeta_of_silent _ hsilent]
    intro k e hget
    exact hi.other hget (packetsOf_other fun m hm hproto => absurd hproto (hsilent m hm))

theorem flowInv_after (maxFlows : ℤ) (h : List (Option FlowMeta × ℚ)) :
    FlowInv maxFlows h ((machine maxFlows).after h) := by
  refine (machine maxFlows).invariant (FlowInv maxFlows) ?_ (fun h x hi => hi.step x) h
  intro k e hget
  cases hget

/-! ### Conservation -/

variable {t t' : BoundedTable FiveTuple AssembledFlow} {m : FlowMeta} {time : ℚ}
  {e : TableEntry AssembledFlow}

/-- What is kept of a table is what is in the next one under the other keys, and the
entry of the key itself. -/
theorem kept_perm (hans : Answered t t' (make5tuple m) e) (hcounted : Counted t m time e) :
    (t.table.entries.filter fun d =>
      !decide ((t'.table.get? d.1).map TableEntry.serial ≠ some d.2.serial)).Perm
      ((t.table.get? (make5tuple m)).toList.map (fun d => (make5tuple m, d)) ++
        (t'.table.erase (make5tuple m)).entries) := by
  have hnodup : ((t.table.get? (make5tuple m)).toList.map (fun d => (make5tuple m, d)) ++
      (t'.table.erase (make5tuple m)).entries).Nodup := by
    refine List.nodup_append'.mpr ⟨?_, Dict.nodup_entries _, ?_⟩
    · cases t.table.get? (make5tuple m) with
      | none => exact List.nodup_nil
      | some d => exact List.nodup_singleton _
    · intro d hd hd'
      obtain ⟨d₀, -, rfl⟩ := List.mem_map.mp hd
      exact ((Dict.mem_entries_erase _ _ _).mp hd').2 rfl
  rw [List.perm_ext_iff_of_nodup (t.table.nodup_entries.filter _) hnodup]
  rintro ⟨k, d⟩
  rw [List.mem_filter, List.mem_append, List.mem_map, Dict.mem_entries_erase, Dict.mem_entries,
    Dict.mem_entries]
  simp only [ne_eq, decide_not, Bool.not_not, decide_eq_true_eq, Option.mem_toList,
    Prod.mk.injEq, Option.map_eq_some_iff]
  constructor
  · rintro ⟨hget, d', hget', hserial⟩
    by_cases hk : k = make5tuple m
    · exact Or.inl ⟨d, hk ▸ hget, hk.symm, rfl⟩
    · obtain rfl := Option.some.inj ((hans.others k d' hk hget').symm.trans hget)
      exact Or.inr ⟨hget', hk⟩
  · rintro (⟨d', hget, rfl, rfl⟩ | ⟨hget', hk⟩)
    · refine ⟨hget, e, hans.self, ?_⟩
      -- the entry that was there is the one that was counted on
      cases hcounted with
      | again e₀ hget₀ =>
        obtain rfl := Option.some.inj (hget₀.symm.trans hget)
        rfl
      | first hnone => exact absurd (hnone.symm.trans hget) (Option.some_ne_none _).symm
    · exact ⟨hans.others k d hk hget', d, hget', rfl⟩

/-- **One packet** is one packet more, on a live flow. -/
theorem live_step (hans : Answered t t' (make5tuple m) e) (hcounted : Counted t m time e) :
    live t' + ((evicted t t').map fun d => d.value.packetCount).sum = live t + 1 := by
  -- the entry of the key has one packet more than before, or is new
  have hentry : e.value.packetCount =
      ((t.table.get? (make5tuple m)).toList.map fun d => d.value.packetCount).sum + 1 := by
    cases hcounted with
    | again e₀ hget =>
      rw [hget]
      rfl
    | first hnone =>
      rw [hnone]
      rfl
  -- a flow of the table is evicted, or is that of the key, or stays as it is
  have hbefore : live t = ((evicted t t').map fun d => d.value.packetCount).sum +
      (((t.table.get? (make5tuple m)).toList.map fun d => d.value.packetCount).sum +
        ((t'.table.erase (make5tuple m)).entries.map fun d => d.2.value.packetCount).sum) := by
    have hparts := (List.filter_append_perm (fun d : FiveTuple × TableEntry AssembledFlow =>
      decide ((t'.table.get? d.1).map TableEntry.serial ≠ some d.2.serial))
      t.table.entries).map fun d => d.2.value.packetCount
    have hkept := (kept_perm hans hcounted).map fun d => d.2.value.packetCount
    unfold live evicted
    rw [← hparts.sum_eq, List.map_append, List.sum_append, hkept.sum_eq, List.map_append,
      List.sum_append, List.map_map, List.map_map]
    rfl
  have hafter : live t' = e.value.packetCount +
      ((t'.table.erase (make5tuple m)).entries.map fun d => d.2.value.packetCount).sum := by
    have hperm := (t'.table.entries_perm_erase hans.self).map fun d => d.2.value.packetCount
    unfold live
    rw [hperm.sum_eq, List.map_cons, List.sum_cons]
  omega

/-- A table from which nothing is missing has evicted nothing. -/
theorem evicted_self (t : BoundedTable FiveTuple AssembledFlow) : evicted t t = [] := by
  unfold evicted
  rw [List.map_eq_nil_iff, List.filter_eq_nil_iff]
  rintro ⟨k, d⟩ hd
  rw [(Dict.mem_entries _ _ _).mp hd]
  simp

theorem conserved_after (maxFlows : ℤ) (h : List (Option FlowMeta × ℚ)) :
    live ((machine maxFlows).after h) +
      ((evictedFlows maxFlows h).map fun d => d.value.packetCount).sum =
      (withProtocol h).length := by
  refine (machine maxFlows).invariant (fun h t => live t +
    ((evictedFlows maxFlows h).map fun d => d.value.packetCount).sum = (withProtocol h).length)
    rfl ?_ h
  intro h x hi
  show live (processPacketMeta ((machine maxFlows).after h) x).1 + _ = _
  have hsplit : withProtocol (h ++ [x]) = withProtocol h ++ withProtocol [x] :=
    List.filter_append _ _
  rw [evictedFlows_concat, List.map_append, List.sum_append, hsplit, List.length_append]
  -- a packet is one more on both sides, or on neither
  obtain ⟨m, hm, hproto⟩ | hsilent := hasProtocol_or_silent x
  · obtain ⟨e, -, hcounted, hans⟩ :=
      processPacketMeta_counted ((machine maxFlows).after h) hm hproto
    have hone : (withProtocol [x]).length = 1 := by
      simp [withProtocol, hm, hproto]
    have hstep := live_step hans hcounted
    omega
  · have hzero : (withProtocol [x]).length = 0 := by
      simp only [withProtocol, List.length_eq_zero_iff, List.filter_eq_nil_iff,
        List.mem_singleton, decide_eq_true_eq]
      rintro y rfl ⟨m, hm, hproto⟩
      exact hsilent m hm hproto
    rw [processPacketMeta_of_silent _ hsilent, evicted_self, hzero]
    exact hi

/-- **The accounts of the flows.** For every number of flows and every sequence of
packets, at whatever times: each flow in the table has the number of packets, the bytes,
and the first and last time of exactly the packets with its key since its entry was
created; the packets counted by the live flows and by the evicted ones at their eviction
are all packets with a protocol; and a packet without one is answered with nothing and
changes nothing. -/
theorem flow_accounts (maxFlows : ℤ) (h : List (Option FlowMeta × ℚ)) :
    (∀ k e, ((machine maxFlows).after h).table.get? k = some e →
      ∃ h₁ x h₂, h = h₁ ++ x :: h₂ ∧ Creates ((machine maxFlows).after h₁) x e.serial ∧
        Accounts e (packetsOf k (x :: h₂))) ∧
    live ((machine maxFlows).after h) +
      ((evictedFlows maxFlows h).map fun d => d.value.packetCount).sum =
      (withProtocol h).length ∧
    ∀ x, (∀ m, x.1 = some m → ¬ HasProtocol m) →
      processPacketMeta ((machine maxFlows).after h) x = ((machine maxFlows).after h, none) := by
  refine ⟨flowInv_after maxFlows h, conserved_after maxFlows h, ?_⟩
  intro x hsilent
  exact processPacketMeta_of_silent _ hsilent

end FlowAssembler

end Sentrix
