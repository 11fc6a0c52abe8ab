import Sentrix.Alerting.Store
import Sentrix.Lib.Dict
import Sentrix.Lib.Lists
import Sentrix.Lib.Queries

/-!
# The counts of the dashboard

`dashboard/app/app.js` counts alerts by threat class in two ways while it
streams. An alert event that brings a new id adds one to its class
(`handleIncomingLiveAlert`). A summary poll brings the server's own counts, and a
class for which the server has more is set to that (`fetchSummary`).

A run is an interleaving of alerts being stored, alert events for stored alerts,
summaries being computed, and summaries being merged; a summary is computed at
one moment and merged at a later one. An alert is then *covered* by the client's
count of its class if it was seen, or if a summary that raised the count had
counted it. The counts are bounded by what is covered (`CountInv`), as long as no
alert is covered both ways: an alert event for an alert that is covered already
adds one for nothing (`counts_bounded_of_single_path`).
-/

namespace Sentrix

namespace Counts

/-! ### The program -/

/-- `counts[k] || 0`. -/
def countOf (counts : Dict String ℕ) (k : String) : ℕ := (counts.get? k).getD 0

/-- `SELECT threat_class, COUNT(*) FROM alerts GROUP BY threat_class`. -/
def rateByClass (t : AlertTable) : Dict String ℕ :=
  t.rows.foldl (fun d a => d.set a.threatClass (countOf d a.threatClass + 1)) Dict.empty

/-- What the client keeps. -/
structure Client where
  seenAlertIds : List String
  classCounts : Dict String ℕ

/-- `handleIncomingLiveAlert`, up to what it draws. -/
def Client.handleIncomingLiveAlert (c : Client) (a : AlertRecord) : Client :=
  if a.alertId ∈ c.seenAlertIds then c
  else
    { seenAlertIds := c.seenAlertIds ++ [a.alertId]
      classCounts := c.classCounts.set a.threatClass (countOf c.classCounts a.threatClass + 1) }

/-- The loop of `fetchSummary` while streaming. -/
def mergeRates (counts : Dict String ℕ) (rates : Dict String ℕ) : Dict String ℕ :=
  rates.entries.foldl (fun d e => if countOf d e.1 < e.2 then d.set e.1 e.2 else d) counts

/-- The server's table, the client, the tables that summaries were computed from,
and the ids counted by the summaries that raised their class. -/
structure State where
  table : AlertTable
  client : Client
  summaries : List AlertTable
  counted : List String

/-- What can happen next. -/
inductive Event
  /-- The server stores an alert. -/
  | store (a : AlertRecord)
  /-- An alert event reaches the client. -/
  | deliver (a : AlertRecord)
  /-- The server computes a summary. -/
  | summarise
  /-- The client merges the `n`-th summary. -/
  | merge (n : ℕ)

/-- The alerts of a summary's table whose class the merge raises. -/
def raised (counts : Dict String ℕ) (t : AlertTable) : List AlertRecord :=
  t.rows.filter fun a =>
    decide (countOf counts a.threatClass < countOf (rateByClass t) a.threatClass)

/-- What one event does. -/
def step (s : State) : Event → State
  | .store a => { s with table := s.table.insertOrIgnore a }
  | .deliver a => { s with client := s.client.handleIncomingLiveAlert a }
  | .summarise => { s with summaries := s.summaries ++ [s.table] }
  | .merge n =>
    match s.summaries[n]? with
    | none => s
    | some t =>
      { s with
        client :=
          { s.client with classCounts := mergeRates s.client.classCounts (rateByClass t) }
        counted := s.counted ++ (raised s.client.classCounts t).map AlertRecord.alertId }

/-- A client without counts that has some alerts in its table, on a server with
some alerts. -/
def machine (table : AlertTable) (seenAlertIds : List String) : Machine State Event Unit where
  init := ⟨table, ⟨seenAlertIds, Dict.empty⟩, [], []⟩
  step s e := (step s e, ())

/-- The number of alerts of a class on the server. -/
def classSize (t : AlertTable) (k : String) : ℕ :=
  t.rows.countP fun a => decide (a.threatClass = k)

/-! ### Counting -/

theorem countOf_set (d : Dict String ℕ) (k k' : String) (v : ℕ) :
    countOf (d.set k v) k' = if k' = k then v else countOf d k' := by
  unfold countOf
  rw [Dict.get?_set]
  split <;> rfl

/-- The summary is the tally of the classes in the table. -/
theorem rateByClass_eq_tally (t : AlertTable) :
    rateByClass t = Dict.tally (t.rows.map AlertRecord.threatClass) := by
  unfold rateByClass Dict.tally
  rw [List.foldl_map]
  rfl

/-- The summary counts the rows of a class. -/
theorem countOf_rateByClass (t : AlertTable) (k : String) :
    countOf (rateByClass t) k = classSize t k := by
  calc countOf (rateByClass t) k
      = (t.rows.map AlertRecord.threatClass).count k := by
        rw [rateByClass_eq_tally]
        exact Dict.getD_tally _ _
    _ = classSize t k := List.countP_map

/-- A merge takes the larger of the two counts. -/
theorem countOf_foldl_merge {l : List (String × ℕ)} (hl : (l.map Prod.fst).Nodup)
    (d : Dict String ℕ) (k : String) :
    countOf (l.foldl (fun d e => if countOf d e.1 < e.2 then d.set e.1 e.2 else d) d) k =
      max (countOf d k) ((l.lookup k).getD 0) := by
  induction l generalizing d with
  | nil => exact (Nat.max_zero _).symm
  | cons e l ih =>
    obtain ⟨k₀, v₀⟩ := e
    rw [List.map_cons, List.nodup_cons] at hl
    rw [List.foldl_cons, ih hl.2, List.lookup_cons]
    dsimp only
    by_cases hk : k = k₀
    · subst hk
      -- a key occurs once, so that no later entry changes its count
      have hnone : l.lookup k = none := by
        cases hlook : l.lookup k with
        | none => rfl
        | some v =>
          have hmem := (Dict.lookup_eq_some_iff hl.2 k v).mp hlook
          exact absurd (List.mem_map_of_mem hmem) hl.1
      rw [hnone, beq_self_eq_true]
      show max _ 0 = max _ v₀
      split
      · next hlt =>
        rw [countOf_set, if_pos rfl]
        omega
      · omega
    · have hb : (k == k₀) = false := by simpa using hk
      rw [hb]
      split
      · rw [countOf_set, if_neg hk]
      · rfl

/-- The merge takes the larger count of each class. -/
theorem countOf_mergeRates (counts rates : Dict String ℕ) (k : String) :
    countOf (mergeRates counts rates) k = max (countOf counts k) (countOf rates k) :=
  countOf_foldl_merge rates.nodup counts k

/-! ### What the counts cover -/

/-- The alert was seen, or counted by a summary that raised its class. -/
def Covered (s : State) (a : AlertRecord) : Prop :=
  a.alertId ∈ s.client.seenAlertIds ∨ a.alertId ∈ s.counted

instance (s : State) (a : AlertRecord) : Decidable (Covered s a) :=
  inferInstanceAs (Decidable (_ ∨ _))

/-- The number of alerts of a class on the server that are covered. -/
def coveredSize (s : State) (k : String) : ℕ :=
  s.table.rows.countP fun a => decide (a.threatClass = k ∧ Covered s a)

/-- An alert event is for an alert that is stored. -/
def DeliversStored (s : State) : Event → Prop
  | .deliver a => a ∈ s.table.rows
  | _ => True

/-- An alert event for an alert the client has not seen does not come after a
summary that had counted the alert and raised its class. -/
def SinglePath (s : State) : Event → Prop
  | .deliver a => a.alertId ∉ s.client.seenAlertIds → a.alertId ∉ s.counted
  | _ => True

/-- What holds in every state: each count is bounded by what it covers, and each
summary was computed from rows that are still there. -/
structure CountInv (s : State) : Prop where
  bounded : ∀ k, countOf s.client.classCounts k ≤ coveredSize s k
  summaries : ∀ t ∈ s.summaries, t.rows.Sublist s.table.rows

variable {s : State}

theorem sublist_insertOrIgnore (t : AlertTable) (a : AlertRecord) :
    t.rows.Sublist (t.insertOrIgnore a).rows := by
  unfold AlertTable.insertOrIgnore
  split
  · exact List.Sublist.refl _
  · exact List.sublist_append_left _ _

/-- A stored alert raises the table's count only. -/
theorem CountInv.store (hi : CountInv s) (a : AlertRecord) : CountInv (step s (.store a)) := by
  refine ⟨?_, ?_⟩
  · intro k
    exact le_trans (hi.bounded k) (sublist_insertOrIgnore s.table a).countP_le
  · intro t ht
    exact (hi.summaries t ht).trans (sublist_insertOrIgnore s.table a)

/-- A summary counts the table of its time. -/
theorem CountInv.summarise (hi : CountInv s) : CountInv (step s .summarise) := by
  refine ⟨hi.bounded, ?_⟩
  intro t ht
  obtain ht | ht := List.mem_append.mp ht
  · exact hi.summaries t ht
  · rw [List.mem_singleton.mp ht]
    exact List.Sublist.refl _

/-- An alert event for an alert the client has seen changes nothing. -/
theorem step_deliver_of_mem {a : AlertRecord} (hseen : a.alertId ∈ s.client.seenAlertIds) :
    step s (.deliver a) = s := by
  unfold step Client.handleIncomingLiveAlert
  dsimp only
  rw [if_pos hseen]

theorem step_deliver_of_not_mem {a : AlertRecord} (hseen : a.alertId ∉ s.client.seenAlertIds) :
    step s (.deliver a) =
      { s with client :=
          { seenAlertIds := s.client.seenAlertIds ++ [a.alertId]
            classCounts := s.client.classCounts.set a.threatClass
              (countOf s.client.classCounts a.threatClass + 1) } } := by
  unfold step Client.handleIncomingLiveAlert
  dsimp only
  rw [if_neg hseen]

/-- The covered alerts of a class, as an alert event adds to them. -/
theorem le_coveredSize_deliver {a : AlertRecord} (hstored : a ∈ s.table.rows)
    (hseen : a.alertId ∉ s.client.seenAlertIds) (hcounted : a.alertId ∉ s.counted) (k : String) :
    coveredSize s k + (if k = a.threatClass then 1 else 0) ≤
      coveredSize (step s (.deliver a)) k := by
  have hgrows : ∀ b, Covered s b → Covered (step s (.deliver a)) b := by
    intro b hb
    rw [step_deliver_of_not_mem hseen]
    exact hb.imp_left (List.mem_append_left _)
  have hself : Covered (step s (.deliver a)) a := by
    rw [step_deliver_of_not_mem hseen]
    exact Or.inl (List.mem_append_right _ (List.mem_singleton_self _))
  have htable : (step s (.deliver a)).table = s.table := by rw [step_deliver_of_not_mem hseen]
  have himp : ∀ b ∈ s.table.rows, decide (b.threatClass = k ∧ Covered s b) = true →
      decide (b.threatClass = k ∧ Covered (step s (.deliver a)) b) = true := by
    intro b _ hb
    rw [decide_eq_true_eq] at hb ⊢
    exact ⟨hb.1, hgrows b hb.2⟩
  unfold coveredSize
  rw [htable]
  split
  · next hk =>
    -- the alert itself was not covered before
    subst hk
    refine countP_succ_le himp hstored ?_ ?_
    · rw [decide_eq_true_eq]
      rintro ⟨-, hb | hb⟩
      · exact hseen hb
      · exact hcounted hb
    · exact decide_eq_true ⟨rfl, hself⟩
  · exact List.countP_mono_left himp

/-- **An alert event** covers one alert more, and counts one more. -/
theorem CountInv.deliver {a : AlertRecord} (hi : CountInv s) (hstored : a ∈ s.table.rows)
    (hpath : a.alertId ∉ s.client.seenAlertIds → a.alertId ∉ s.counted) :
    CountInv (step s (.deliver a)) := by
  by_cases hseen : a.alertId ∈ s.client.seenAlertIds
  · rw [step_deliver_of_mem hseen]
    exact hi
  · -- a new alert is counted once more in its class, where it is now covered
    have hnew := step_deliver_of_not_mem hseen
    refine ⟨?_, ?_⟩
    · intro k
      have hcounts : countOf (step s (.deliver a)).client.classCounts k =
          if k = a.threatClass then countOf s.client.classCounts a.threatClass + 1
          else countOf s.client.classCounts k := by
        rw [hnew]
        exact countOf_set _ _ _ _
      have hbound := hi.bounded k
      have hcovered := le_coveredSize_deliver hstored hseen (hpath hseen) k
      rw [hcounts]
      split
      · next hk =>
        rw [← hk]
        rw [if_pos hk] at hcovered
        exact le_trans (Nat.add_le_add_right hbound 1) hcovered
      · next hk =>
        rw [if_neg hk] at hcovered
        exact le_trans hbound hcovered
    · intro t ht
      rw [hnew] at ht ⊢
      exact hi.summaries t ht

/-- **A merge** raises a class to the number of alerts it covers by that. -/
theorem CountInv.merge (hi : CountInv s) {n : ℕ} {t : AlertTable} (ht : s.summaries[n]? = some t) :
    CountInv (step s (.merge n)) := by
  have hnew : step s (.merge n) =
      { s with
        client := { s.client with classCounts := mergeRates s.client.classCounts (rateByClass t) }
        counted := s.counted ++ (raised s.client.classCounts t).map AlertRecord.alertId } := by
    simp only [step, ht]
  rw [hnew]
  refine ⟨?_, hi.summaries⟩
  intro k
  show countOf (mergeRates _ _) k ≤ s.table.rows.countP fun a =>
    decide (a.threatClass = k ∧ (a.alertId ∈ s.client.seenAlertIds ∨ a.alertId ∈ s.counted ++ _))
  rw [countOf_mergeRates]
  have hold : countOf s.client.classCounts k ≤ s.table.rows.countP fun a =>
      decide (a.threatClass = k ∧ (a.alertId ∈ s.client.seenAlertIds ∨
        a.alertId ∈ s.counted ++ (raised s.client.classCounts t).map AlertRecord.alertId)) := by
    refine le_trans (hi.bounded k) (List.countP_mono_left ?_)
    intro a _ ha
    rw [decide_eq_true_eq] at ha ⊢
    exact ⟨ha.1, ha.2.imp_right (List.mem_append_left _)⟩
  refine max_le hold ?_
  by_cases hraise : countOf s.client.classCounts k < countOf (rateByClass t) k
  · -- all the summary's alerts of the class are covered by it
    rw [countOf_rateByClass]
    refine le_trans (List.countP_mono_left ?_)
      (hi.summaries t (List.mem_of_getElem? ht)).countP_le
    intro a ha hk
    rw [decide_eq_true_eq] at hk
    subst hk
    have hmem : a ∈ raised s.client.classCounts t :=
      List.mem_filter.mpr ⟨ha, decide_eq_true hraise⟩
    exact decide_eq_true ⟨rfl, Or.inr (List.mem_append_right _ (List.mem_map_of_mem hmem))⟩
  · exact le_trans (not_lt.mp hraise) hold

/-- What one event on a single path preserves. -/
theorem CountInv.step (hi : CountInv s) {e : Event} (hstored : DeliversStored s e)
    (hpath : SinglePath s e) : CountInv (step s e) := by
  cases e with
  | store a => exact hi.store a
  | deliver a => exact hi.deliver hstored hpath
  | summarise => exact hi.summarise
  | merge n =>
    -- a summary that was never fetched merges nothing
    cases ht : s.summaries[n]? with
    | none =>
      have hsame : Counts.step s (.merge n) = s := by simp only [Counts.step, ht]
      rw [hsame]
      exact hi
    | some t => exact hi.merge ht

/-- **The dashboard does not overcount**, in every run in which alert events are
for stored alerts and no alert reaches the counts both ways: after every step the
count of a class is at most the number of its alerts on the server. -/
theorem counts_bounded_of_single_path (table : AlertTable) (seenAlertIds : List String)
    (h : List Event) (hstored : (machine table seenAlertIds).Along DeliversStored h)
    (hpath : (machine table seenAlertIds).Along SinglePath h) (k : String) :
    countOf ((machine table seenAlertIds).after h).client.classCounts k ≤
      classSize ((machine table seenAlertIds).after h).table k := by
  have hinv : CountInv ((machine table seenAlertIds).after h) := by
    refine (machine table seenAlertIds).invariant_along (fun _ s => CountInv s) ?_
      (fun _ _ hp hi => hi.step hp.1 hp.2) h (Machine.alongFrom_and _ hstored hpath)
    exact ⟨fun k => Nat.zero_le _, fun t ht => absurd ht List.not_mem_nil⟩
  -- each alert counted for the class is a row of the class
  refine le_trans (hinv.bounded k) (List.countP_mono_left ?_)
  intro a _ ha
  rw [decide_eq_true_eq] at ha ⊢
  exact ha.1

/-- An alert that is stored, delivered, and then counted by a summary. -/
theorem counts_bounded_of_single_path_one_alert :
    countOf ((machine AlertTable.empty []).after
        [.store (AlertRecord.between "A" 0 "10.0.0.1" "10.0.0.2"),
          .deliver (AlertRecord.between "A" 0 "10.0.0.1" "10.0.0.2"),
          .summarise, .merge 0]).client.classCounts "DDOS" ≤ 1 := by
  have hle := counts_bounded_of_single_path AlertTable.empty []
    [.store (AlertRecord.between "A" 0 "10.0.0.1" "10.0.0.2"),
      .deliver (AlertRecord.between "A" 0 "10.0.0.1" "10.0.0.2"), .summarise, .merge 0]
    ⟨trivial, List.mem_singleton_self _, trivial, trivial, trivial⟩
    ⟨trivial, fun _ => List.not_mem_nil, trivial, trivial, trivial⟩ "DDOS"
  exact hle

/-- The ids the alert events of a run bring. -/
def delivered : List Event → List String
  | [] => []
  | .deliver a :: h => a.alertId :: delivered h
  | .store _ :: h | .summarise :: h | .merge _ :: h => delivered h

/-- **An alert counted twice.** An alert is stored, a summary that counts it is
merged, and then its alert event arrives: one alert, and a count of two. -/
theorem summary_before_alert_overcounts :
    ¬ ∀ (table : AlertTable) (seenAlertIds : List String) (h : List Event),
      (machine table seenAlertIds).Along DeliversStored h → (delivered h).Nodup →
      ∀ k, countOf ((machine table seenAlertIds).after h).client.classCounts k ≤
        classSize ((machine table seenAlertIds).after h).table k := by
  intro hall
  have hle := hall AlertTable.empty []
    [.store (AlertRecord.between "A" 0 "10.0.0.1" "10.0.0.2"), .summarise, .merge 0,
      .deliver (AlertRecord.between "A" 0 "10.0.0.1" "10.0.0.2")]
    ⟨trivial, trivial, trivial, List.mem_singleton_self _, trivial⟩ (List.nodup_singleton _) "DDOS"
  exact absurd hle (by decide +kernel)

end Counts

end Sentrix
