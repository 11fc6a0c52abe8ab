import Mathlib.Algebra.Order.Group.Unbundled.Abs
import Mathlib.Algebra.Order.Ring.Rat
import Sentrix.Lib.Lists
import Sentrix.Alerting.Correlator

/-!
# What correlation answers

The index of `Correlator` against the two scans it stands for:

* `naiveScan w h a` — the ids of the earlier alerts `h` that share a non-empty
  address with `a` and are not older than the window;
* `windowScan w h a` — the same, with the window read symmetrically: the two
  timestamps differ by at most `w`.

Both comparisons rest on `entry_or_evictor` and `origin_of_mem_deque`, which
describe the index after any history, in any order of arrival. When timestamps
never decrease, an evictor of an entry is no younger than the alert being
processed, so nothing in its window is missing and the indexed lookup is the
naive scan (`process_naiveScan`). When they do decrease, an alert late in time
evicts entries that a later-processed, earlier-stamped alert still needs, and
entries from its future stay filed (`late_alert_evicts`); the symmetric window
is met in every run whose alerts are not spread that far
(`correlation_of_spread`).
-/

namespace Sentrix

namespace Correlator

/-! ### The scans -/

/-- The naive scan: the ids of the earlier alerts from the window on that share
a non-empty address with the new one. -/
def naiveScan (w : ℚ) (h : List AlertRecord) (a : AlertRecord) : Finset String :=
  ((h.filter fun e => decide (a.timestamp - w ≤ e.timestamp ∧ e.SharesIp a)).map
    AlertRecord.alertId).toFinset

/-- The order-blind scan: the ids of the earlier alerts that share a non-empty
address with the new one and are at most `w` away in time. -/
def windowScan (w : ℚ) (h : List AlertRecord) (a : AlertRecord) : Finset String :=
  ((h.filter fun e => decide (|e.timestamp - a.timestamp| ≤ w ∧ e.SharesIp a)).map
    AlertRecord.alertId).toFinset

theorem mem_naiveScan {w : ℚ} {h : List AlertRecord} {a : AlertRecord} {y : String} :
    y ∈ naiveScan w h a ↔
      ∃ e ∈ h, (a.timestamp - w ≤ e.timestamp ∧ e.SharesIp a) ∧ e.alertId = y := by
  simp only [naiveScan, List.mem_toFinset, List.mem_map, List.mem_filter, decide_eq_true_eq,
    and_assoc]

theorem mem_windowScan {w : ℚ} {h : List AlertRecord} {a : AlertRecord} {y : String} :
    y ∈ windowScan w h a ↔
      ∃ e ∈ h, (|e.timestamp - a.timestamp| ≤ w ∧ e.SharesIp a) ∧ e.alertId = y := by
  simp only [windowScan, List.mem_toFinset, List.mem_map, List.mem_filter, decide_eq_true_eq,
    and_assoc]

/-! ### The index after any history -/

variable {w : ℚ} {order : SetOrder String}

/-- Every entry of the index is that of an alert processed before and filed
under one of its addresses. -/
theorem origin_of_mem_deque (h : List AlertRecord) :
    ∀ ip e, e ∈ deque ((machine w order).after h).ipToAlerts ip →
      ∃ b ∈ h, b.HasIp ip ∧ e = (b.timestamp, b.alertId) := by
  refine (machine w order).invariant
    (fun h s => ∀ ip e, e ∈ deque s.ipToAlerts ip →
      ∃ b ∈ h, b.HasIp ip ∧ e = (b.timestamp, b.alertId)) ?_ ?_ h
  · -- no index, no entries
    intro ip e he
    exact absurd he List.not_mem_nil
  · intro h a ih ip e he
    -- an entry of the new index is an old one or the new alert's
    rcases mem_deque_of_mem_process he with he | ⟨rfl, hip⟩
    -- an old entry: its origin is still in the longer history
    · obtain ⟨b, hb, hbip⟩ := ih ip e he
      exact ⟨b, List.mem_append_left _ hb, hbip⟩
    · exact ⟨a, List.mem_append_right _ (List.mem_singleton_self a), hip, rfl⟩

/-- **The index invariant, for any order of arrival.** An alert filed under an
address is still there, unless an alert processed after it is more than a
window younger. -/
theorem entry_or_evictor (w : ℚ) (order : SetOrder String) (h : List AlertRecord) :
    ∀ pre e post, h = pre ++ e :: post → ∀ ip, e.HasIp ip →
      (e.timestamp, e.alertId) ∈ deque ((machine w order).after h).ipToAlerts ip ∨
        ∃ k ∈ post, e.timestamp < k.timestamp - w := by
  refine (machine w order).invariant
    (fun h s => ∀ pre e post, h = pre ++ e :: post → ∀ ip, e.HasIp ip →
      (e.timestamp, e.alertId) ∈ deque s.ipToAlerts ip ∨
        ∃ k ∈ post, e.timestamp < k.timestamp - w) ?_ ?_ h
  · intro pre e post hs
    simp at hs
  · intro h a ih pre e post hs ip hip
    -- the alert in question is the new one, filed just now, or an earlier one
    rcases split_concat hs with ⟨rfl, rfl⟩ | ⟨post', rfl, hs'⟩
    · exact Or.inl (self_mem_process hip)
    · rcases ih pre e post' hs' ip hip with hmem | ⟨k, hk, hlt⟩
      · -- the new alert is the only possible evictor of an entry still filed
        by_cases hfresh : a.timestamp - w ≤ e.timestamp
        · exact Or.inl (mem_process_of_fresh hmem hfresh)
        · exact Or.inr ⟨a, by simp, not_le.mp hfresh⟩
      · exact Or.inr ⟨k, List.mem_append_left _ hk, hlt⟩

/-- The related ids are among the naive scan's, in any order of arrival. -/
theorem relatedIds_subset_naiveScan (h : List AlertRecord) (a : AlertRecord) :
    (relatedIds w ((machine w order).after h) a).toFinset ⊆ naiveScan w h a := by
  intro y hy
  rw [List.mem_toFinset, mem_relatedIds] at hy
  -- the entry found comes from an alert of the history, with the time looked at
  obtain ⟨ip, hip, t, hm, ht⟩ := hy
  obtain ⟨b, hb, hbip, heq⟩ := origin_of_mem_deque h ip _ hm
  obtain ⟨rfl, rfl⟩ := Prod.mk.inj heq
  exact mem_naiveScan.mpr ⟨b, hb, ⟨ht, ip, hbip, hip⟩, rfl⟩

/-- An earlier alert in the window is related as soon as no alert processed in
between is more than a window younger than it. -/
theorem mem_relatedIds_of_no_evictor {h pre post : List AlertRecord} {a e : AlertRecord}
    (hs : h = pre ++ e :: post) (hshare : e.SharesIp a)
    (hwin : a.timestamp - w ≤ e.timestamp) (hpost : ∀ k ∈ post, k.timestamp - w ≤ e.timestamp) :
    e.alertId ∈ relatedIds w ((machine w order).after h) a := by
  obtain ⟨ip, heip, haip⟩ := hshare
  rcases entry_or_evictor w order h pre e post hs ip heip with hmem | ⟨k, hk, hlt⟩
  · exact mem_relatedIds.mpr ⟨ip, haip, e.timestamp, hmem, hwin⟩
  · exact absurd (hpost k hk) (not_le.mpr hlt)

/-- Nothing is missing from the related ids when no entry `a` needs has met an
evictor. -/
theorem relatedIds_eq_of_no_evictor {h : List AlertRecord} {a : AlertRecord}
    (hno : ∀ pre e post, h = pre ++ e :: post → e.SharesIp a → a.timestamp - w ≤ e.timestamp →
      ∀ k ∈ post, k.timestamp - w ≤ e.timestamp) :
    (relatedIds w ((machine w order).after h) a).toFinset = naiveScan w h a := by
  apply (relatedIds_subset_naiveScan h a).antisymm
  intro y hy
  obtain ⟨e, he, ⟨hwin, hshare⟩, rfl⟩ := mem_naiveScan.mp hy
  obtain ⟨pre, post, hs⟩ := List.append_of_mem he
  rw [List.mem_toFinset]
  exact mem_relatedIds_of_no_evictor hs hshare hwin (hno pre e post hs hshare hwin)

/-! ### Nondecreasing timestamps -/

/-- Timestamps do not decrease along the list. -/
def InOrder (l : List AlertRecord) : Prop := l.Pairwise fun a b => a.timestamp ≤ b.timestamp

instance (l : List AlertRecord) : Decidable (InOrder l) :=
  inferInstanceAs (Decidable (List.Pairwise _ l))

theorem relatedIds_eq_naiveScan {h : List AlertRecord} {a : AlertRecord}
    (hord : InOrder (h ++ [a])) :
    (relatedIds w ((machine w order).after h) a).toFinset = naiveScan w h a := by
  apply relatedIds_eq_of_no_evictor
  intro pre e post hs _ hwin k hk
  -- an alert in between is no younger than `a`, whose window still holds `e`
  have hkh : k ∈ h := by
    rw [hs]
    exact List.mem_append_right _ (List.mem_cons_of_mem _ hk)
  have hka : k.timestamp ≤ a.timestamp :=
    (List.pairwise_append.mp hord).2.2 k hkh a (List.mem_singleton_self a)
  linarith

/-- **Indexed correlation is the naive scan.** Fed alerts whose timestamps never
decrease, `process` appends to each one, without repetition, the ids the naive
scan of the earlier alerts finds, or twenty of them when there are more, and
changes nothing else of it. -/
theorem process_naiveScan (w : ℚ) (order : SetOrder String)
    (h : List AlertRecord) (a : AlertRecord) (hord : InOrder (h ++ [a])) :
    ∃ ids : List String,
      (machine w order).out ((machine w order).after h) a =
        { a with relatedAlertIds := a.relatedAlertIds ++ ids } ∧
      ids.Nodup ∧
      ((naiveScan w h a).card ≤ 20 → ids.toFinset = naiveScan w h a) ∧
      (20 < (naiveScan w h a).card → ids.length = 20 ∧ ids.toFinset ⊆ naiveScan w h a) := by
  have hnd := nodup_relatedIds w ((machine w order).after h) a
  have hscan : (relatedIds w ((machine w order).after h) a).toFinset = naiveScan w h a :=
    relatedIds_eq_naiveScan hord
  -- the cap looks at the length of a list without repetitions, the scan at its card
  have hcard : (naiveScan w h a).card = (relatedIds w ((machine w order).after h) a).length := by
    rw [← hscan, List.toFinset_card_of_nodup hnd]
  obtain ⟨hcap, hsub, hall, htwenty⟩ := cap_spec order hnd
  refine ⟨appended w order h a, machine_out w order h a, hcap, fun hle => ?_, fun hlt => ?_⟩
  · rw [← hscan]
    exact hall (hcard ▸ hle)
  · rw [← hscan]
    exact ⟨htwenty (hcard ▸ hlt), hsub⟩

theorem process_naiveScan_three_alerts :
    InOrder [AlertRecord.between "A" 0 "10.0.0.1" "10.0.0.2",
      AlertRecord.between "B" 500 "10.0.0.3" "10.0.0.1",
      AlertRecord.between "C" 600 "10.0.0.1" "10.0.0.4"] ∧
    ∃ ids : List String, ids.Nodup ∧
      ids.toFinset = naiveScan 300
        [AlertRecord.between "A" 0 "10.0.0.1" "10.0.0.2",
          AlertRecord.between "B" 500 "10.0.0.3" "10.0.0.1"]
        (AlertRecord.between "C" 600 "10.0.0.1" "10.0.0.4") := by
  -- the first alert is too old for the third, which the scan sees as well
  refine ⟨by decide +kernel, ?_⟩
  obtain ⟨ids, -, hnd, hall, -⟩ := process_naiveScan 300 insertionOrder
    [AlertRecord.between "A" 0 "10.0.0.1" "10.0.0.2",
      AlertRecord.between "B" 500 "10.0.0.3" "10.0.0.1"]
    (AlertRecord.between "C" 600 "10.0.0.1" "10.0.0.4") (by decide +kernel)
  exact ⟨ids, hnd, hall (by decide +kernel)⟩

/-! ### Any order of arrival -/

/-- The alerts `h` are spread little enough for `a`: an earlier alert that shares
an address with `a` is at most a window younger than `a`, and if it is in the
window of `a`, then no alert processed between the two is more than a window
younger than it. -/
def SpreadWithin (w : ℚ) (h : List AlertRecord) (a : AlertRecord) : Prop :=
  ∀ pre e post, h = pre ++ e :: post → e.SharesIp a →
    e.timestamp ≤ a.timestamp + w ∧
      (a.timestamp - w ≤ e.timestamp → ∀ k ∈ post, k.timestamp ≤ e.timestamp + w)

/-- Alerts whose timestamps span at most a window meet the spread condition, in
whichever order they are processed. -/
theorem spreadWithin_of_range {h : List AlertRecord} {a : AlertRecord} (c : ℚ)
    (hr : ∀ b ∈ h ++ [a], c ≤ b.timestamp ∧ b.timestamp ≤ c + w) : SpreadWithin w h a := by
  intro pre e post hs _
  have ha := hr a (by simp)
  have he := hr e (by simp [hs])
  refine ⟨by linarith [he.2, ha.1], fun _ k hk => ?_⟩
  have hk' := hr k (by simp [hs, hk])
  linarith [he.1, hk'.2]

/-- Under the spread condition the two readings of the window agree. -/
theorem windowScan_eq_naiveScan {h : List AlertRecord} {a : AlertRecord}
    (hok : SpreadWithin w h a) : windowScan w h a = naiveScan w h a := by
  ext y
  rw [mem_windowScan, mem_naiveScan]
  refine exists_congr fun e => and_congr_right fun he => and_congr_left fun _ => ?_
  refine and_congr_left fun hshare => ?_
  obtain ⟨pre, post, hs⟩ := List.append_of_mem he
  -- the upper half of the window is what the condition promises
  have hle := (hok pre e post hs hshare).1
  rw [abs_le]
  exact ⟨fun hwin => by linarith [hwin.1], fun hwin => ⟨by linarith, by linarith⟩⟩

theorem relatedIds_eq_windowScan {h : List AlertRecord} {a : AlertRecord}
    (hok : SpreadWithin w h a) :
    (relatedIds w ((machine w order).after h) a).toFinset = windowScan w h a := by
  rw [windowScan_eq_naiveScan hok]
  apply relatedIds_eq_of_no_evictor
  intro pre e post hs hshare hwin k hk
  have hk' : k.timestamp ≤ e.timestamp + w := (hok pre e post hs hshare).2 hwin k hk
  linarith

/-- **Correlation in any order, for alerts spread within the window.** In every
run whose alerts all meet the spread condition, each alert with at most twenty
qualifying predecessors is given exactly the ids of the earlier alerts that
share a non-empty address with it and are at most `w` away in time. -/
theorem correlation_of_spread (w : ℚ) (order : SetOrder String) (alerts : List AlertRecord)
    (hok : ∀ h a, h ++ [a] <+: alerts → SpreadWithin w h a) :
    ∀ h a, h ++ [a] <+: alerts → (windowScan w h a).card ≤ 20 →
      (appended w order h a).toFinset = windowScan w h a := by
  intro h a hpre hcard
  have hnd := nodup_relatedIds w ((machine w order).after h) a
  have hscan : (relatedIds w ((machine w order).after h) a).toFinset = windowScan w h a :=
    relatedIds_eq_windowScan (hok h a hpre)
  have hlen : (relatedIds w ((machine w order).after h) a).length ≤ 20 := by
    rw [← List.toFinset_card_of_nodup hnd, hscan]
    exact hcard
  rw [← hscan]
  exact (cap_spec order hnd).2.2.1 hlen

theorem correlation_of_spread_three_alerts :
    (appended 300 insertionOrder
      [AlertRecord.between "A" 200 "10.0.0.1" "10.0.0.2",
        AlertRecord.between "B" 0 "10.0.0.2" "10.0.0.3"]
      (AlertRecord.between "C" 100 "10.0.0.2" "10.0.0.4")).toFinset = {"A", "B"} := by
  have hrange : ∀ b ∈ [AlertRecord.between "A" 200 "10.0.0.1" "10.0.0.2",
      AlertRecord.between "B" 0 "10.0.0.2" "10.0.0.3",
        AlertRecord.between "C" 100 "10.0.0.2" "10.0.0.4"],
      (0 : ℚ) ≤ b.timestamp ∧ b.timestamp ≤ 0 + 300 := by decide +kernel
  rw [correlation_of_spread 300 insertionOrder _
    (fun h a hpre => spreadWithin_of_range 0 fun b hb => hrange b (hpre.subset hb)) _ _
    (List.prefix_refl _) (by decide +kernel)]
  decide +kernel

/-- **Arrival order matters.** The alert stamped `1000` evicts the one stamped
`0`, although the alert stamped `100` that follows is in the window of the
latter, and stays filed although it is `900` seconds away from it. -/
theorem late_alert_evicts :
    windowScan 300
      [AlertRecord.between "A" 0 "10.0.0.1" "10.0.0.2",
        AlertRecord.between "B" 1000 "10.0.0.1" "10.0.0.3"]
      (AlertRecord.between "C" 100 "10.0.0.1" "10.0.0.4") = {"A"} ∧
    appended 300 insertionOrder
      [AlertRecord.between "A" 0 "10.0.0.1" "10.0.0.2",
        AlertRecord.between "B" 1000 "10.0.0.1" "10.0.0.3"]
      (AlertRecord.between "C" 100 "10.0.0.1" "10.0.0.4") = ["B"] ∧
    ¬ ∀ (w : ℚ) (order : SetOrder String) (h : List AlertRecord) (a : AlertRecord),
      (windowScan w h a).card ≤ 20 → (appended w order h a).toFinset = windowScan w h a := by
  have hscan : windowScan 300
      [AlertRecord.between "A" 0 "10.0.0.1" "10.0.0.2",
        AlertRecord.between "B" 1000 "10.0.0.1" "10.0.0.3"]
      (AlertRecord.between "C" 100 "10.0.0.1" "10.0.0.4") = {"A"} := by decide +kernel
  -- the second alert evicts the first, and has no upper bound against it itself
  have happ : appended 300 insertionOrder
      [AlertRecord.between "A" 0 "10.0.0.1" "10.0.0.2",
        AlertRecord.between "B" 1000 "10.0.0.1" "10.0.0.3"]
      (AlertRecord.between "C" 100 "10.0.0.1" "10.0.0.4") = ["B"] := by decide +kernel
  refine ⟨hscan, happ, fun hall => ?_⟩
  have heq := hall 300 insertionOrder _ _ (by rw [hscan]; decide)
  rw [hscan, happ] at heq
  exact absurd heq (by decide)

end Correlator

end Sentrix
