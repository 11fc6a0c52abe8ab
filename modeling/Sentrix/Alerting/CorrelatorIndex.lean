import Mathlib.Algebra.BigOperators.Group.List.Basic
import Mathlib.Algebra.Order.BigOperators.Group.List
import Sentrix.Lib.Lists
import Sentrix.Alerting.Correlator

/-!
# The index of the correlator

The index of `AlertCorrelator` is trimmed from its front when the window evicts an
alert, and one eviction trims the whole deque of an address. With timestamps out of
order it can so run ahead of the window: what a deque holds is an *end* of the
window's entries for its address (`IndexInv`), not all of them. It never falls
behind, and no key outlives its last entry (`index_within_window`).
-/

namespace Sentrix

namespace Correlator

/-- The entries a recent alert has under an address: one for each time the address
occurs in it. -/
def entriesOf (ip : String) (r : RecentAlert) : List (ℚ × String) :=
  (if r.srcIp = ip then [(r.timestamp, r.alertId)] else []) ++
    if r.dstIp = ip then [(r.timestamp, r.alertId)] else []

/-- The entries of the window for an address, in order. -/
def entriesFor (recent : List RecentAlert) (ip : String) : List (ℚ × String) :=
  recent.flatMap (entriesOf ip)

/-- The number of entries of an index. -/
def entryCount (index : Dict String (List (ℚ × String))) : ℕ :=
  (index.entries.map fun e => e.2.length).sum

theorem entriesOf_eq_nil {ip : String} {r : RecentAlert} (hsrc : r.srcIp ≠ ip)
    (hdst : r.dstIp ≠ ip) : entriesOf ip r = [] := by
  unfold entriesOf
  rw [if_neg hsrc, if_neg hdst, List.append_nil]

theorem fst_of_mem_entriesOf {ip : String} {r : RecentAlert} {e : ℚ × String}
    (he : e ∈ entriesOf ip r) : e.1 = r.timestamp := by
  unfold entriesOf at he
  rw [List.mem_append] at he
  obtain he | he := he
  · split at he
    · rw [List.mem_singleton.mp he]
    · exact absurd he List.not_mem_nil
  · split at he
    · rw [List.mem_singleton.mp he]
    · exact absurd he List.not_mem_nil

/-! ### Keys -/

/-- Every key is an address with entries. -/
def Keyed (index : Dict String (List (ℚ × String))) : Prop :=
  ∀ ip q, index.get? ip = some q → ip ≠ "" ∧ q ≠ []

theorem Keyed.deque_empty {index : Dict String (List (ℚ × String))} (hk : Keyed index) :
    deque index "" = [] := by
  unfold deque
  cases hget : index.get? "" with
  | none => rfl
  | some q => exact absurd rfl (hk "" q hget).1

/-- An address without entries has no key. -/
theorem Keyed.get?_eq_none {index : Dict String (List (ℚ × String))} (hk : Keyed index)
    {ip : String} (hnil : deque index ip = []) : index.get? ip = none := by
  unfold deque at hnil
  cases hget : index.get? ip with
  | none => rfl
  | some q =>
    rw [hget, Option.getD_some] at hnil
    exact absurd hnil (hk ip q hget).2

/-- Trimming removes what became empty. -/
theorem Keyed.trimIp {index : Dict String (List (ℚ × String))} (hk : Keyed index) (cutoff : ℚ)
    (ip : String) : Keyed (trimIp cutoff index ip) := by
  unfold Correlator.trimIp
  split
  · exact hk
  · next hne =>
    split
    · exact hk
    · next q hq =>
      dsimp only
      split
      · -- the trim has emptied the deque, and its key goes with it
        intro x q' hget
        by_cases hx : x = ip
        · rw [hx, Dict.get?_erase_self] at hget
          cases hget
        · rw [Dict.get?_erase_of_ne _ hx] at hget
          exact hk x q' hget
      · next hfull =>
        -- the key stays, with what is left of its deque
        intro x q' hget
        rw [Dict.get?_set] at hget
        split at hget
        · next hx =>
          obtain rfl := Option.some.inj hget
          exact ⟨hx ▸ hne, fun hnil => hfull (List.isEmpty_iff.mpr hnil)⟩
        · exact hk x q' hget

/-- Filing adds no empty deque. -/
theorem Keyed.fileUnder {index : Dict String (List (ℚ × String))} (hk : Keyed index) (ip : String)
    (e : ℚ × String) : Keyed (fileUnder index ip e) := by
  unfold Correlator.fileUnder
  split
  · exact hk
  · next hne =>
    intro x q hget
    rw [Dict.get?_set] at hget
    split at hget
    · -- the address filed under is not empty, and its deque has the new entry
      next hx =>
      obtain rfl := Option.some.inj hget
      exact ⟨hx ▸ hne, List.append_ne_nil_of_right_ne_nil _ (List.cons_ne_nil _ _)⟩
    · exact hk x q hget

/-! ### The window -/

/-- What holds of a correlator in any order of arrival. -/
structure IndexInv (s : Correlator) : Prop where
  keyed : Keyed s.ipToAlerts
  suffix : ∀ ip, deque s.ipToAlerts ip <:+ entriesFor s.recentAlerts ip

/-- The trims of a popped alert take its own entries out of every deque. -/
theorem suffix_trimIp {cutoff : ℚ} {index : Dict String (List (ℚ × String))} {r : RecentAlert}
    {rest : List RecentAlert} (hk : Keyed index) (hstale : r.timestamp < cutoff) {ip : String}
    (hsuffix : deque index ip <:+ entriesFor (r :: rest) ip) :
    deque (trimIp cutoff (trimIp cutoff index r.srcIp) r.dstIp) ip <:+ entriesFor rest ip := by
  have hsplit : entriesFor (r :: rest) ip = entriesOf ip r ++ entriesFor rest ip :=
    List.flatMap_cons
  rw [hsplit] at hsuffix
  -- one trim is enough: it drops at least the alert's own entries, which come first
  have hpopped : ((deque index ip).dropWhile fun e => decide (e.1 < cutoff)) <:+
      entriesFor rest ip := by
    refine dropWhile_suffix_of_append hsuffix fun e he => ?_
    rw [fst_of_mem_entriesOf he]
    exact decide_eq_true hstale
  by_cases hempty : ip = ""
  · -- nothing is filed under the empty address
    have hnil := ((hk.trimIp cutoff r.srcIp).trimIp cutoff r.dstIp).deque_empty
    rw [hempty, hnil]
    exact List.nil_suffix
  rw [deque_trimIp, deque_trimIp]
  by_cases hdst : ip = r.dstIp
  · rw [if_pos ⟨hdst, hdst ▸ hempty⟩]
    by_cases hsrc : ip = r.srcIp
    · -- a flow from an address to itself: its deque is trimmed twice
      rw [if_pos ⟨hsrc, hsrc ▸ hempty⟩]
      exact (List.dropWhile_suffix _).trans hpopped
    · rw [if_neg fun h => hsrc h.1]
      exact hpopped
  · rw [if_neg fun h => hdst h.1]
    by_cases hsrc : ip = r.srcIp
    · rw [if_pos ⟨hsrc, hsrc ▸ hempty⟩]
      exact hpopped
    · -- the alert has no entry under any other address
      rw [if_neg fun h => hsrc h.1]
      rw [entriesOf_eq_nil (Ne.symm hsrc) (Ne.symm hdst)] at hsuffix
      exact hsuffix

/-- The eviction loop keeps the invariant. -/
theorem IndexInv.evict {index : Dict String (List (ℚ × String))} {recent : List RecentAlert}
    (h : IndexInv ⟨index, recent⟩) (cutoff : ℚ) : IndexInv (evict cutoff index recent) := by
  -- along the window, whose first alert that is not stale ends the loop
  induction recent generalizing index with
  | nil => exact h
  | cons r rest ih =>
    unfold Correlator.evict
    split
    · next hstale =>
      refine ih ⟨(h.keyed.trimIp cutoff r.srcIp).trimIp cutoff r.dstIp, fun ip => ?_⟩
      exact suffix_trimIp h.keyed hstale (h.suffix ip)
    · exact h

/-- One alert is filed under its addresses and in the window. -/
theorem IndexInv.process {s : Correlator} (h : IndexInv s) (w : ℚ) (order : SetOrder String)
    (a : AlertRecord) : IndexInv (process w order s a).1 := by
  have hevicted : IndexInv (Correlator.evict (a.timestamp - w) s.ipToAlerts s.recentAlerts) :=
    IndexInv.evict h _
  have hkeyed : Keyed (Correlator.process w order s a).1.ipToAlerts :=
    (hevicted.keyed.fileUnder _ _).fileUnder _ _
  refine ⟨hkeyed, fun ip => ?_⟩
  by_cases hempty : ip = ""
  · rw [hempty, hkeyed.deque_empty]
    exact List.nil_suffix
  -- the window and the deque grow by the same entries, those of the new alert
  have hnew : entriesFor (Correlator.process w order s a).1.recentAlerts ip =
      entriesFor (Correlator.evict (a.timestamp - w) s.ipToAlerts s.recentAlerts).recentAlerts ip ++
        entriesOf ip ⟨a.timestamp, a.alertId, a.flowId.srcIp, a.flowId.dstIp⟩ := by
    unfold entriesFor
    rw [← List.flatMap_singleton (entriesOf ip), ← List.flatMap_append]
    rfl
  have hfiled : deque (Correlator.process w order s a).1.ipToAlerts ip =
      deque (Correlator.evict (a.timestamp - w) s.ipToAlerts s.recentAlerts).ipToAlerts ip ++
        entriesOf ip ⟨a.timestamp, a.alertId, a.flowId.srcIp, a.flowId.dstIp⟩ := by
    rw [deque_process, List.append_assoc]
    unfold entriesOf
    congr 2
    · by_cases hsrc : a.flowId.srcIp = ip
      · rw [if_pos ⟨hsrc.symm, hsrc.symm ▸ hempty⟩, if_pos hsrc]
      · rw [if_neg fun hc => hsrc hc.1.symm, if_neg hsrc]
    · by_cases hdst : a.flowId.dstIp = ip
      · rw [if_pos ⟨hdst.symm, hdst.symm ▸ hempty⟩, if_pos hdst]
      · rw [if_neg fun hc => hdst hc.1.symm, if_neg hdst]
  rw [hnew, hfiled, List.suffix_append_self_iff]
  exact hevicted.suffix ip

/-- What every run preserves. -/
theorem indexInv_after (w : ℚ) (order : SetOrder String) (h : List AlertRecord) :
    IndexInv ((machine w order).after h) := by
  refine (machine w order).invariant (fun _ s => IndexInv s) ?_ ?_ h
  · refine ⟨?_, fun ip => List.nil_suffix⟩
    intro ip q hget
    cases hget
  · intro h a hinv
    exact hinv.process w order a

/-! ### Counting -/

/-- Of distinct elements, one at most is a given one. -/
theorem sum_map_ite_le_one {α : Type*} [DecidableEq α] {l : List α} (hl : l.Nodup) (a : α) :
    (l.map fun b => if a = b then 1 else 0).sum ≤ 1 := by
  induction l with
  | nil => exact Nat.zero_le 1
  | cons b l ih =>
    rw [List.nodup_cons] at hl
    rw [List.map_cons, List.sum_cons]
    by_cases hb : a = b
    · -- the other occurrences would be repetitions
      have hzero : (l.map fun c => if a = c then 1 else 0).sum = 0 := by
        rw [List.sum_eq_zero_iff_forall_eq_nat]
        intro n hn
        obtain ⟨c, hc, rfl⟩ := List.mem_map.mp hn
        refine if_neg ?_
        rintro rfl
        exact hl.1 (hb ▸ hc)
      rw [hzero]
      split <;> omega
    · rw [if_neg hb, Nat.zero_add]
      exact ih hl.2

/-- An alert has two entries at most, under whatever addresses. -/
theorem sum_entriesFor_le {ips : List String} (hips : ips.Nodup) (recent : List RecentAlert) :
    (ips.map fun ip => (entriesFor recent ip).length).sum ≤ 2 * recent.length := by
  induction recent with
  | nil =>
    rw [List.length_nil, Nat.mul_zero, Nat.le_zero, List.sum_eq_zero_iff_forall_eq_nat]
    intro n hn
    obtain ⟨ip, -, rfl⟩ := List.mem_map.mp hn
    rfl
  | cons r rest ih =>
    -- an alert is filed under its source and under its destination
    have hsplit : ∀ ip, (entriesFor (r :: rest) ip).length =
        (if r.srcIp = ip then 1 else 0) + (if r.dstIp = ip then 1 else 0) +
          (entriesFor rest ip).length := by
      intro ip
      unfold entriesFor entriesOf
      rw [List.flatMap_cons, List.length_append, List.length_append, apply_ite List.length,
        apply_ite List.length]
      rfl
    simp only [hsplit, List.sum_map_add]
    -- over distinct addresses each of the two counts once at most
    have hsrc := sum_map_ite_le_one hips r.srcIp
    have hdst := sum_map_ite_le_one hips r.dstIp
    rw [List.length_cons]
    omega

/-- Each recent alert has at most two entries. -/
theorem IndexInv.entryCount_le {s : Correlator} (h : IndexInv s) :
    entryCount s.ipToAlerts ≤ 2 * s.recentAlerts.length := by
  -- what is filed under an address is no more than the window has of it
  have hle : entryCount s.ipToAlerts ≤
      (s.ipToAlerts.keys.map fun ip => (entriesFor s.recentAlerts ip).length).sum := by
    unfold entryCount Dict.keys
    rw [List.map_map]
    refine List.sum_le_sum fun e he => ?_
    have hget : s.ipToAlerts.get? e.1 = some e.2 := (Dict.mem_entries _ _ _).mp he
    have hdeque : deque s.ipToAlerts e.1 = e.2 := by
      unfold deque
      rw [hget, Option.getD_some]
    rw [← hdeque]
    exact (h.suffix e.1).length_le
  exact hle.trans (sum_entriesFor_le s.ipToAlerts.nodup_keys s.recentAlerts)

/-- **The index never outlives its window.** After alerts with any timestamps, in any
order: every key is a non-empty address with a non-empty deque, which is an end of the
window's entries for the address. So the index has at most two entries for each alert
of the window, and no key for an address that no alert of the window has. -/
theorem index_within_window (w : ℚ) (order : SetOrder String) (h : List AlertRecord) :
    (∀ ip q, ((machine w order).after h).ipToAlerts.get? ip = some q →
      ip ≠ "" ∧ q ≠ [] ∧ q <:+ entriesFor ((machine w order).after h).recentAlerts ip) ∧
    entryCount ((machine w order).after h).ipToAlerts ≤
      2 * ((machine w order).after h).recentAlerts.length ∧
    ∀ ip, (∀ r ∈ ((machine w order).after h).recentAlerts, r.srcIp ≠ ip ∧ r.dstIp ≠ ip) →
      ((machine w order).after h).ipToAlerts.get? ip = none := by
  have hinv := indexInv_after w order h
  refine ⟨fun ip q hget => ?_, hinv.entryCount_le, fun ip hnone => ?_⟩
  · -- what is filed under a key is not empty, and a suffix of the window's
    obtain ⟨hne, hfull⟩ := hinv.keyed ip q hget
    have hsuffix := hinv.suffix ip
    unfold deque at hsuffix
    rw [hget, Option.getD_some] at hsuffix
    exact ⟨hne, hfull, hsuffix⟩
  · -- an address of no recent alert has nothing to be filed
    refine hinv.keyed.get?_eq_none ?_
    have hnil : entriesFor ((machine w order).after h).recentAlerts ip = [] := by
      unfold entriesFor
      rw [List.flatMap_eq_nil_iff]
      intro r hr
      exact entriesOf_eq_nil (hnone r hr).1 (hnone r hr).2
    have hsuffix := hinv.suffix ip
    rw [hnil] at hsuffix
    exact List.suffix_nil.mp hsuffix

end Correlator

end Sentrix
