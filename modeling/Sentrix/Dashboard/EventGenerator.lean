import Mathlib.Algebra.Order.Ring.Rat
import Sentrix.Lib.Lists
import Sentrix.Alerting.Correlator

/-!
# The alert loop of the event stream

`event_generator` of `dashboard/api/server.py` serves one client. It remembers a
time `last_ts` and a set `sent_alert_ids`. Each tick reads a list of alerts and
runs one loop over it: an alert whose id is not in the set is yielded, its id is
added and the time is moved to the alert's if that is later; after fifty alerts
the loop stops. The set is cut to five thousand of its elements when it has more
than ten thousand, and which ones is up to the iteration order of the set.

The loop is the same for the alerts of a dataset replay and for those of the
store, up to one test on the id (`sendable`). It yields the first fifty alerts
that are to be sent (`pushLoop_snd`) and moves the cursor over them
(`pushLoop_fst`).
-/

namespace Sentrix

/-- What `event_generator` remembers between two ticks. -/
structure Cursor where
  lastTs : ℚ
  /-- `sent_alert_ids`: its elements in the order they were added. -/
  sentAlertIds : List String

namespace EventGenerator

variable {α : Type*}

/-- How the loop reads an alert. -/
structure AlertView (α : Type*) where
  alertId : α → String
  timestamp : α → ℚ
  /-- The test on the id that precedes the one on the set. -/
  sendable : String → Bool

/-- The `for` loop over the alerts that were read, with `yielded_alerts` so far. -/
def pushLoop (v : AlertView α) (yieldedAlerts : ℕ) (c : Cursor) : List α → Cursor × List α
  | [] => (c, [])
  | a :: rest =>
    if v.sendable (v.alertId a) = true ∧ v.alertId a ∉ c.sentAlertIds then
      let c' : Cursor := ⟨max c.lastTs (v.timestamp a), c.sentAlertIds ++ [v.alertId a]⟩
      -- `break`
      if yieldedAlerts + 1 ≥ 50 then (c', [a])
      else
        let r := pushLoop v (yieldedAlerts + 1) c' rest
        (r.1, a :: r.2)
    else pushLoop v yieldedAlerts c rest

/-- `set(list(sent_alert_ids)[-5000:])`, once there are more than ten thousand. -/
def trimSent (order : SetOrder String) (c : Cursor) : Cursor :=
  if c.sentAlertIds.length > 10000 then
    { c with sentAlertIds :=
        (order.toList c.sentAlertIds).drop ((order.toList c.sentAlertIds).length - 5000) }
  else c

/-- The part of a tick that follows the read. -/
def push (v : AlertView α) (order : SetOrder String) (c : Cursor) (alerts : List α) :
    Cursor × List α :=
  let r := pushLoop v 0 c alerts
  (trimSent order r.1, r.2)

/-! ### What the loop does -/

/-- The cursor moved over the alerts `ys`. -/
def advance (v : AlertView α) (c : Cursor) (ys : List α) : Cursor where
  lastTs := ys.foldl (fun t a => max t (v.timestamp a)) c.lastTs
  sentAlertIds := c.sentAlertIds ++ ys.map v.alertId

/-- The alert is still to be sent. -/
def unsent (v : AlertView α) (c : Cursor) (a : α) : Bool :=
  v.sendable (v.alertId a) && decide (v.alertId a ∉ c.sentAlertIds)

variable {v : AlertView α}

theorem advance_cons (c : Cursor) (a : α) (ys : List α) :
    advance v c (a :: ys) =
      advance v ⟨max c.lastTs (v.timestamp a), c.sentAlertIds ++ [v.alertId a]⟩ ys := by
  unfold advance
  rw [List.foldl_cons, List.map_cons, List.append_assoc]
  rfl

/-- The loop moves the cursor over what it yields. -/
theorem pushLoop_fst (n : ℕ) (c : Cursor) (l : List α) :
    (pushLoop v n c l).1 = advance v c (pushLoop v n c l).2 := by
  induction l generalizing n c with
  | nil =>
    show c = advance v c []
    unfold advance
    rw [List.map_nil, List.append_nil]
    rfl
  | cons a rest ih =>
    unfold pushLoop
    -- an alert that is not sent leaves the cursor alone
    split
    · dsimp only
      split
      · -- the alert is the fiftieth, and the loop is left
        rw [advance_cons]
        unfold advance
        rw [List.map_nil, List.append_nil]
        rfl
      · rw [advance_cons]
        exact ih _ _
    · exact ih _ _

/-- **What the loop yields.** Of alerts with distinct ids, the first ones that
are still to be sent, up to the fiftieth. -/
theorem pushLoop_snd {n : ℕ} (hn : n < 50) (c : Cursor) {l : List α}
    (hids : (l.map v.alertId).Nodup) :
    (pushLoop v n c l).2 = (l.filter (unsent v c)).take (50 - n) := by
  induction l generalizing n c with
  | nil =>
    rw [List.filter_nil, List.take_nil]
    rfl
  | cons a rest ih =>
    rw [List.map_cons, List.nodup_cons] at hids
    unfold pushLoop
    by_cases hsend : v.sendable (v.alertId a) = true ∧ v.alertId a ∉ c.sentAlertIds
    · have hunsent : unsent v c a = true := by
        rw [unsent, Bool.and_eq_true, decide_eq_true_eq]
        exact hsend
      -- the alerts behind have other ids, so the longer set holds back the same ones
      have hrest : rest.filter (unsent v ⟨max c.lastTs (v.timestamp a),
          c.sentAlertIds ++ [v.alertId a]⟩) = rest.filter (unsent v c) := by
        refine List.filter_congr fun b hb => ?_
        have hne : v.alertId b ≠ v.alertId a := fun heq =>
          hids.1 (heq ▸ List.mem_map_of_mem hb)
        simp [unsent, hne]
      obtain ⟨k, hk⟩ : ∃ k, 50 - n = k + 1 := ⟨49 - n, by omega⟩
      rw [if_pos hsend, List.filter_cons_of_pos hunsent, hk, List.take_succ_cons]
      dsimp only
      split
      · next hlast =>
        obtain rfl : k = 0 := by omega
        rfl
      · next hlast =>
        have hk' : 50 - (n + 1) = k := by omega
        rw [ih (by omega) _ hids.2, hrest, hk']
    · have hunsent : ¬ unsent v c a = true := by
        rw [unsent, Bool.and_eq_true, decide_eq_true_eq]
        exact hsend
      rw [if_neg hsend, List.filter_cons_of_neg hunsent]
      exact ih hn c hids.2

/-- Of alerts with ids of their own, the first fifty that the cursor has not seen are sent. -/
theorem push_snd (order : SetOrder String) (c : Cursor) {l : List α}
    (hids : (l.map v.alertId).Nodup) :
    (push v order c l).2 = (l.filter (unsent v c)).take 50 :=
  pushLoop_snd (by norm_num) c hids

/-- The cursor after a push has seen what was sent, before the set is trimmed. -/
theorem push_fst (order : SetOrder String) (c : Cursor) (l : List α) :
    (push v order c l).1 = trimSent order (advance v c (push v order c l).2) := by
  unfold push
  rw [← pushLoop_fst]

@[simp] theorem lastTs_trimSent (order : SetOrder String) (c : Cursor) :
    (trimSent order c).lastTs = c.lastTs := by
  unfold trimSent
  split <;> rfl

/-- Trimming only forgets. -/
theorem mem_of_mem_trimSent {order : SetOrder String} {c : Cursor} {i : String}
    (h : i ∈ (trimSent order c).sentAlertIds) : i ∈ c.sentAlertIds := by
  unfold trimSent at h
  split at h
  · dsimp only at h
    exact (order.perm _).mem_iff.mp (List.mem_of_mem_drop h)
  · exact h

/-- A set of at most ten thousand ids is kept. -/
theorem trimSent_of_le {order : SetOrder String} {c : Cursor}
    (h : c.sentAlertIds.length ≤ 10000) : trimSent order c = c := by
  have hfew : ¬ c.sentAlertIds.length > 10000 := by omega
  unfold trimSent
  rw [if_neg hfew]

/-- A larger one keeps the last five thousand of the order in which it is listed. -/
theorem sentAlertIds_trimSent_of_gt {order : SetOrder String} {c : Cursor}
    (h : c.sentAlertIds.length > 10000) :
    (trimSent order c).sentAlertIds =
      (order.toList c.sentAlertIds).drop ((order.toList c.sentAlertIds).length - 5000) := by
  unfold trimSent
  rw [if_pos h]

/-! ### The time of the cursor -/

theorem lastTs_le_advance (c : Cursor) (ys : List α) : c.lastTs ≤ (advance v c ys).lastTs := by
  induction ys generalizing c with
  | nil => exact le_refl _
  | cons a ys ih =>
    rw [advance_cons]
    exact le_trans (le_max_left _ _) (ih _)

/-- The cursor stays, or moves to an alert that is yielded. -/
theorem lastTs_advance (c : Cursor) (ys : List α) :
    (advance v c ys).lastTs = c.lastTs ∨ ∃ a ∈ ys, (advance v c ys).lastTs = v.timestamp a := by
  induction ys generalizing c with
  | nil => exact Or.inl rfl
  | cons b ys ih =>
    rw [advance_cons]
    obtain heq | ⟨a, ha, heq⟩ := ih ⟨max c.lastTs (v.timestamp b), c.sentAlertIds ++ [v.alertId b]⟩
    · rw [heq]
      obtain hmax | hmax := max_choice c.lastTs (v.timestamp b)
      · exact Or.inl hmax
      · exact Or.inr ⟨b, List.mem_cons_self, hmax⟩
    · exact Or.inr ⟨a, List.mem_cons_of_mem _ ha, heq⟩

end EventGenerator

end Sentrix
