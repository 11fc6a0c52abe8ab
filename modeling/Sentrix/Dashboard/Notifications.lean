import Mathlib.Algebra.Order.Group.Int
import Sentrix.Dashboard.Page

/-!
# The counts and notifications of the page

The page notifies when the count of a class has got a threshold's worth ahead of what was notified
last. Counts are added to by live alerts and set by summaries, and the threshold can be changed at
any time, so a notification can pass over several thresholds; but the ones for a class go up, and
after an alert its class is less than one threshold ahead, unless the setting turns notifications
off (`notified_in_step`).

While a replay is counted by its alert events alone and the threshold is left alone, the counts are
those of the alerts, and the notifications of a class are for the multiples of the threshold up to
its count, each once (`notified_exactly`).
-/

namespace Sentrix

open Counts (countOf countOf_set)

namespace Page

variable {upper : String → String} {p : Page}

/-! ### One check -/

/-- The highest threshold crossed is less than one threshold behind the count. -/
theorem lt_crossed_add {n : ℕ} (hn : 0 < n) (c : ℕ) : c < c / n * n + n := by
  have hmod : c % n < n := Nat.mod_lt c hn
  have hdiv : c / n * n + c % n = c := Nat.div_add_mod' c n
  omega

/-- A count that is a threshold ahead crosses one that was not notified: the second test always
succeeds. -/
theorem last_lt_crossed {n last c : ℕ} (hn : 0 < n) (h : last + n ≤ c) : last < c / n * n := by
  have hcrossed := lt_crossed_add hn c
  omega

/-- What a check does: nothing, as the class is less than a threshold ahead or no threshold is
set, or it notifies the highest threshold crossed. -/
theorem checkAndTriggerNotification_cases (p : Page) (k : String) (c : ℕ) :
    (p.checkAndTriggerNotification k c = p ∧
      (0 < p.notificationThreshold → (c : ℤ) < countOf p.notifiedThresholds k +
        p.notificationThreshold)) ∨
    ∃ n : ℕ, 0 < n ∧ p.notificationThreshold = n ∧ countOf p.notifiedThresholds k + n ≤ c ∧
      p.checkAndTriggerNotification k c = p.notify k (c / n * n) c := by
  unfold Page.checkAndTriggerNotification
  by_cases hoff : p.notificationThreshold ≤ 0
  · -- a setting that is not positive switches the notifications off
    rw [if_pos hoff]
    exact Or.inl ⟨rfl, fun hpos => absurd hpos (not_lt.mpr hoff)⟩
  · rw [if_neg hoff]
    obtain ⟨n, hn⟩ : ∃ n : ℕ, p.notificationThreshold = n :=
      ⟨p.notificationThreshold.toNat, (Int.toNat_of_nonneg (by omega)).symm⟩
    have hpos : 0 < n := by omega
    dsimp only
    rw [hn, Int.toNat_natCast]
    by_cases hahead : (c : ℤ) - countOf p.notifiedThresholds k ≥ n
    · -- the class has run a whole step ahead of what it was notified for
      have hle : countOf p.notifiedThresholds k + n ≤ c := by omega
      rw [if_pos hahead, if_pos (last_lt_crossed hpos hle)]
      exact Or.inr ⟨n, hpos, rfl, hle, rfl⟩
    · rw [if_neg hahead]
      exact Or.inl ⟨rfl, fun _ => by omega⟩

/-- A notification records the threshold it was shown for, and only under its own key. -/
theorem countOf_notify (p : Page) (k k' : String) (x c : ℕ) :
    countOf (p.notify k x c).notifiedThresholds k' =
      if k' = k then x else countOf p.notifiedThresholds k' :=
  countOf_set p.notifiedThresholds k k' x

/-! ### The notifications of a run -/

/-- The notification is for a multiple of the threshold that was set, the last one up to the
count. -/
structure Notification.Sound (n : Notification) : Prop where
  positive : 0 < n.notificationThreshold
  multiple : n.notificationThreshold ∣ n.crossedThreshold
  reached : n.crossedThreshold ≤ n.currentCount
  highest : (n.currentCount : ℤ) < n.crossedThreshold + n.notificationThreshold
  nonzero : 0 < n.crossedThreshold

/-- The notifications since the last reset: those of a class go up to the last one, which the page
remembers. -/
structure NotifyInv (p : Page) : Prop where
  sound : ∀ n ∈ p.log.notifications, Notification.Sound n
  increasing : p.log.notifications.Pairwise fun m n =>
    m.threatClass = n.threatClass → m.crossedThreshold < n.crossedThreshold
  last : ∀ n ∈ p.log.notifications,
    n.crossedThreshold ≤ countOf p.notifiedThresholds n.threatClass
  remembered : ∀ k, countOf p.notifiedThresholds k = 0 ∨
    ∃ n ∈ p.log.notifications, n.threatClass = k ∧
      n.crossedThreshold = countOf p.notifiedThresholds k

/-- Only the recorded thresholds and the shown notifications bear on the invariant. -/
theorem NotifyInv.of_eq (hi : NotifyInv p) {q : Page}
    (hnotified : q.notifiedThresholds = p.notifiedThresholds)
    (hlog : q.log.notifications = p.log.notifications) : NotifyInv q := by
  refine ⟨?_, ?_, ?_, ?_⟩
  · rw [hlog]
    exact hi.sound
  · rw [hlog]
    exact hi.increasing
  · rw [hlog, hnotified]
    exact hi.last
  · rw [hlog, hnotified]
    exact hi.remembered

/-- The check keeps the invariant: what it shows is larger than what it had recorded. -/
theorem NotifyInv.checkAndTriggerNotification (hi : NotifyInv p) (k : String) (c : ℕ) :
    NotifyInv (p.checkAndTriggerNotification k c) := by
  obtain ⟨hsame, -⟩ | ⟨n, hn, hset, hahead, hnotify⟩ := checkAndTriggerNotification_cases p k c
  · rw [hsame]
    exact hi
  · have hlt : countOf p.notifiedThresholds k < c / n * n := last_lt_crossed hn hahead
    rw [hnotify]
    refine ⟨fun m hm => ?_, ?_, fun m hm => ?_, fun k' => ?_⟩
    · obtain hm | hm := List.mem_append.mp hm
      · exact hi.sound m hm
      · rw [List.mem_singleton.mp hm, hset]
        exact
          { positive := Int.natCast_pos.mpr hn
            multiple := Int.natCast_dvd_natCast.mpr (Nat.dvd_mul_left n (c / n))
            reached := Nat.div_mul_le_self c n
            highest := Int.ofNat_lt.mpr (lt_crossed_add hn c)
            nonzero := Nat.zero_lt_of_lt hlt }
    · -- the new threshold is above the last one of its class
      show (p.log.notifications ++ [_]).Pairwise _
      rw [List.pairwise_append]
      refine ⟨hi.increasing, List.pairwise_singleton _ _, fun m hm m' hm' hclass => ?_⟩
      rw [List.mem_singleton.mp hm'] at hclass ⊢
      exact (hclass ▸ hi.last m hm).trans_lt hlt
    · -- the class remembers the new threshold, the others what they had
      rw [countOf_notify]
      obtain hm | hm := List.mem_append.mp hm
      · split
        · next hclass => exact (hclass ▸ hi.last m hm).trans hlt.le
        · exact hi.last m hm
      · rw [List.mem_singleton.mp hm, if_pos rfl]
    · rw [countOf_notify]
      split
      · next hk =>
        exact Or.inr ⟨_, List.mem_append_right _ (List.mem_singleton_self _), hk.symm, rfl⟩
      · obtain hzero | ⟨m, hm, hclass, hcrossed⟩ := hi.remembered k'
        · exact Or.inl hzero
        · exact Or.inr ⟨m, List.mem_append_left _ hm, hclass, hcrossed⟩

/-- Counting a talker records no threshold. -/
theorem notifiedThresholds_countTalker (p : Page) (a : AlertRecord) :
    (p.countTalker a).notifiedThresholds = p.notifiedThresholds := by
  unfold Page.countTalker
  split
  · rfl
  · rfl

/-- Counting a talker shows nothing. -/
theorem log_countTalker (p : Page) (a : AlertRecord) : (p.countTalker a).log = p.log := by
  unfold Page.countTalker
  split
  · rfl
  · rfl

/-- A new alert is shown if it passes the filter, and counted, before the check. -/
def counted (upper : String → String) (p : Page) (a : AlertRecord) : Page :=
  (if passesFilter upper p.severityFilter a then p.appendAlertToTable a else p).count a

/-- An alert that the page has not seen is counted, checked against its class's count and added to
the talkers, in this order. -/
theorem handleIncomingLiveAlert_of_new {a : AlertRecord} (hnew : a.alertId ∉ p.seenAlertIds) :
    p.handleIncomingLiveAlert upper a =
      ((p.counted upper a).checkAndTriggerNotification a.threatClass
        (countOf (p.counted upper a).classCounts a.threatClass)).countTalker a :=
  if_neg hnew

/-- One live alert keeps the invariant. -/
theorem NotifyInv.handleIncomingLiveAlert (hi : NotifyInv p) (a : AlertRecord) :
    NotifyInv (p.handleIncomingLiveAlert upper a) := by
  by_cases hseen : a.alertId ∈ p.seenAlertIds
  · rw [Page.handleIncomingLiveAlert, if_pos hseen]
    exact hi
  · rw [handleIncomingLiveAlert_of_new hseen]
    have hcounted : NotifyInv (p.counted upper a) := by
      unfold counted
      split
      · exact hi.of_eq rfl rfl
      · exact hi.of_eq rfl rfl
    exact (hcounted.checkAndTriggerNotification _ _).of_eq (notifiedThresholds_countTalker _ a)
      (congrArg PageLog.notifications (log_countTalker _ a))

/-- A loaded alert table shows no notification. -/
theorem NotifyInv.fetchAlerts (hi : NotifyInv p) (alerts : List AlertRecord) :
    NotifyInv (p.fetchAlerts alerts) := by
  have hstart : NotifyInv { p with alertsTbody := [], log := { p.log with appended := [] } } :=
    hi.of_eq rfl rfl
  unfold Page.fetchAlerts
  generalize ({ p with alertsTbody := [], log := { p.log with appended := [] } } : Page) = q
    at hstart
  induction alerts generalizing q with
  | nil => exact hstart
  | cons a alerts ih => exact ih _ (hstart.of_eq rfl rfl)

/-- What one event of the page preserves. -/
theorem NotifyInv.step (hi : NotifyInv p) (e : PageEvent) : NotifyInv (p.step upper e) := by
  cases e with
  | alert a => exact hi.handleIncomingLiveAlert a
  | traffic now pktsPerSec mbps => exact hi.of_eq rfl rfl
  | alertsFetched newest t sev => exact hi.fetchAlerts _
  | summaryFetched stats sseOpen =>
    show NotifyInv (p.fetchSummary stats sseOpen)
    unfold fetchSummary
    split
    · exact hi.of_eq rfl rfl
    · exact hi.of_eq rfl rfl
  | filterChanged sev => exact hi.of_eq rfl rfl
  | dataSourceChanged mode => exact hi.of_eq rfl rfl
  | configSaved threshold => exact hi.of_eq rfl rfl
  | replayClicked custom value =>
    show NotifyInv (if p.btnReplayDisabled then p else p.triggerReplay _)
    split
    · exact hi
    · -- everything that was notified is forgotten
      exact ⟨List.forall_mem_nil _, List.Pairwise.nil, List.forall_mem_nil _, fun _ => Or.inl rfl⟩
  | replayAnswered => exact hi.of_eq rfl rfl
  | replayFailed =>
    show NotifyInv (if p.launching = 0 then p else _)
    split
    · exact hi
    · exact hi.of_eq rfl rfl
  | stopClicked =>
    show NotifyInv (if p.btnStopDisabled then p else _)
    split
    · exact hi
    · exact hi.of_eq rfl rfl
  | stopSettled =>
    show NotifyInv (if p.stopping = 0 then p else _)
    split
    · exact hi
    · exact hi.of_eq rfl rfl
  | tick interval =>
    show NotifyInv (if interval ∈ p.intervals then p.countDown else p)
    split
    · unfold countDown
      dsimp only
      split
      · exact hi.of_eq rfl rfl
      · exact hi.of_eq rfl rfl
    · exact hi

/-- What every run of the page preserves: thresholds are shown in increasing order for each class.
-/
theorem notifyInv_after (upper : String → String) (h : List PageEvent) :
    NotifyInv ((machine upper).after h) :=
  (machine upper).invariant (fun _ => NotifyInv)
    ⟨List.forall_mem_nil _, List.Pairwise.nil, List.forall_mem_nil _, fun _ => Or.inl rfl⟩
    (fun _ e hi => hi.step e) h

/-- The check does not touch the counts. -/
theorem classCounts_handleIncomingLiveAlert {a : AlertRecord} (hnew : a.alertId ∉ p.seenAlertIds) :
    (p.handleIncomingLiveAlert upper a).classCounts = (p.counted upper a).classCounts := by
  rw [handleIncomingLiveAlert_of_new hnew]
  unfold Page.countTalker Page.checkAndTriggerNotification
  dsimp only
  repeat' split
  all_goals rfl

/-- After a check the class is less than a threshold ahead of what was notified. -/
theorem lt_notified_add (p : Page) (k : String) (c : ℕ) (hpos : 0 < p.notificationThreshold) :
    (c : ℤ) < countOf (p.checkAndTriggerNotification k c).notifiedThresholds k +
      p.notificationThreshold := by
  obtain ⟨hsame, hbehind⟩ | ⟨n, hn, hset, hahead, hnotify⟩ :=
    checkAndTriggerNotification_cases p k c
  · rw [hsame]
    exact hbehind hpos
  · rw [hnotify, hset, countOf_notify, if_pos rfl]
    exact Int.ofNat_lt.mpr (lt_crossed_add hn c)

/-- **Notifications keep in step with the counts.** In every run, whatever summaries and settings
come in between, each notification since the last reset is for the highest multiple of the setting
up to the count, and those of a class go up; and when a live alert has been counted under a
positive setting, its class is less than one threshold ahead of a notification, or below the first
threshold. -/
theorem notified_in_step (upper : String → String) (h : List PageEvent) :
    let p := (machine upper).after h
    (∀ n ∈ p.log.notifications, Notification.Sound n) ∧
    (p.log.notifications.Pairwise fun m n =>
      m.threatClass = n.threatClass → m.crossedThreshold < n.crossedThreshold) ∧
    ∀ a : AlertRecord, a.alertId ∉ p.seenAlertIds → 0 < p.notificationThreshold →
      let q := p.handleIncomingLiveAlert upper a
      (countOf q.classCounts a.threatClass : ℤ) < p.notificationThreshold ∨
        ∃ n ∈ q.log.notifications, n.threatClass = a.threatClass ∧
          (countOf q.classCounts a.threatClass : ℤ) <
            n.crossedThreshold + p.notificationThreshold := by
  intro p
  have hi : NotifyInv p := notifyInv_after upper h
  refine ⟨hi.sound, hi.increasing, fun a hnew hpos => ?_⟩
  intro q
  have hq : NotifyInv q := hi.handleIncomingLiveAlert a
  -- the check reads the setting that the page had before the alert
  have hsetting : (p.counted upper a).notificationThreshold = p.notificationThreshold := by
    unfold counted
    split
    · rfl
    · rfl
  -- after the check the count is less than one step ahead of the remembered threshold
  have hlt : (countOf q.classCounts a.threatClass : ℤ) <
      countOf q.notifiedThresholds a.threatClass + p.notificationThreshold := by
    have hcheck := lt_notified_add (p.counted upper a) a.threatClass
      (countOf (p.counted upper a).classCounts a.threatClass) (by rwa [hsetting])
    rw [hsetting, ← notifiedThresholds_countTalker _ a,
      ← handleIncomingLiveAlert_of_new hnew] at hcheck
    rw [classCounts_handleIncomingLiveAlert hnew]
    exact hcheck
  -- that threshold is zero or was notified
  obtain hzero | ⟨n, hn, hclass, hcrossed⟩ := hq.remembered a.threatClass
  · rw [hzero, Nat.cast_zero, zero_add] at hlt
    exact Or.inl hlt
  · rw [← hcrossed] at hlt
    exact Or.inr ⟨n, hn, hclass, hlt⟩

/-! ### A replay that is counted by its alerts alone -/

/-- The alert events of a class since the last reset. -/
def alertsOf (p : Page) (k : String) : ℕ := (p.log.counted.map AlertRecord.threatClass).count k

/-- The thresholds notified for a class. -/
def notifiedFor (p : Page) (k : String) : List ℕ :=
  (p.log.notifications.filter fun n => decide (n.threatClass = k)).map Notification.crossedThreshold

/-- No summary is merged and the setting stays. -/
def Quiet : PageEvent → Prop
  | .summaryFetched _ _ => False
  | .configSaved _ => False
  | _ => True

/-- The counts are those of the alert events. -/
structure ExactCounts (p : Page) : Prop where
  classes : ∀ k, countOf p.classCounts k = p.alertsOf k
  talkers : ∀ ip, ip ≠ "" →
    countOf p.talkerCounts ip = (p.log.counted.map AlertRecord.srcIp).count ip

/-- Each class was notified at every multiple of the threshold `n`, in turn. -/
structure ExactNotices (n : ℕ) (p : Page) : Prop where
  setting : p.notificationThreshold = n
  fired : ∀ k, p.notifiedFor k = (List.range (p.alertsOf k / n)).map fun i => (i + 1) * n
  last : ∀ k, countOf p.notifiedThresholds k = p.alertsOf k / n * n

/-- Only the two count tables and the counted alerts bear on the counts' invariant. -/
theorem ExactCounts.of_eq (hi : ExactCounts p) {q : Page} (hclasses : q.classCounts = p.classCounts)
    (htalkers : q.talkerCounts = p.talkerCounts) (hlog : q.log.counted = p.log.counted) :
    ExactCounts q := by
  refine ⟨fun k => ?_, fun ip hip => ?_⟩
  · rw [hclasses, alertsOf, hlog]
    exact hi.classes k
  · rw [htalkers, hlog]
    exact hi.talkers ip hip

/-- Only the setting, the recorded thresholds and the two logs bear on the notices' invariant. -/
theorem ExactNotices.of_eq {n : ℕ} (hi : ExactNotices n p) {q : Page}
    (hsetting : q.notificationThreshold = p.notificationThreshold)
    (hnotified : q.notifiedThresholds = p.notifiedThresholds)
    (hcounted : q.log.counted = p.log.counted)
    (hlog : q.log.notifications = p.log.notifications) : ExactNotices n q := by
  refine ⟨hsetting.trans hi.setting, fun k => ?_, fun k => ?_⟩
  · rw [notifiedFor, hlog, alertsOf, hcounted]
    exact hi.fired k
  · rw [hnotified, alertsOf, hcounted]
    exact hi.last k

/-- One more name at the end of a list counts for itself alone. -/
theorem count_concat (l : List String) (x k : String) :
    (l ++ [x]).count k = l.count k + if k = x then 1 else 0 := by
  rw [List.count_append, List.count_singleton]
  congr 1
  by_cases h : k = x
  · rw [if_pos h, if_pos (by rw [h, beq_self_eq_true])]
  · rw [if_neg h, if_neg (by rw [beq_iff_eq]; exact Ne.symm h)]

/-- What is counted of an alert. -/
theorem counted_fields (upper : String → String) (p : Page) (a : AlertRecord) :
    (p.counted upper a).notificationThreshold = p.notificationThreshold ∧
    (p.counted upper a).notifiedThresholds = p.notifiedThresholds ∧
    (p.counted upper a).log.notifications = p.log.notifications ∧
    (p.counted upper a).log.counted = p.log.counted ++ [a] ∧
    (p.counted upper a).talkerCounts = p.talkerCounts ∧
    (p.counted upper a).classCounts =
      p.classCounts.set a.threatClass (countOf p.classCounts a.threatClass + 1) := by
  unfold counted
  split
  · exact ⟨rfl, rfl, rfl, rfl, rfl, rfl⟩
  · exact ⟨rfl, rfl, rfl, rfl, rfl, rfl⟩

/-- One more counted alert counts for its own class alone. -/
theorem alertsOf_of_counted {q : Page} {a : AlertRecord}
    (hlog : q.log.counted = p.log.counted ++ [a]) (k : String) :
    q.alertsOf k = p.alertsOf k + if k = a.threatClass then 1 else 0 := by
  rw [alertsOf, hlog, List.map_append, List.map_singleton, count_concat]
  rfl

/-- A live alert moves the two tables and the counted alerts together. -/
theorem ExactCounts.handleIncomingLiveAlert (hi : ExactCounts p) (a : AlertRecord) :
    ExactCounts (p.handleIncomingLiveAlert upper a) := by
  by_cases hseen : a.alertId ∈ p.seenAlertIds
  · rw [Page.handleIncomingLiveAlert, if_pos hseen]
    exact hi
  · obtain ⟨-, -, -, hlog, htalkers, hclasses⟩ := counted_fields upper p a
    rw [handleIncomingLiveAlert_of_new hseen]
    set q := p.counted upper a
    -- the check leaves the counts alone
    have hcheck : ∀ c, (q.checkAndTriggerNotification a.threatClass c).classCounts = q.classCounts ∧
        (q.checkAndTriggerNotification a.threatClass c).talkerCounts = q.talkerCounts ∧
        (q.checkAndTriggerNotification a.threatClass c).log.counted = q.log.counted := by
      intro c
      obtain ⟨hsame, -⟩ | ⟨n, -, -, -, hnotify⟩ :=
        checkAndTriggerNotification_cases q a.threatClass c
      · rw [hsame]
        exact ⟨rfl, rfl, rfl⟩
      · rw [hnotify]
        exact ⟨rfl, rfl, rfl⟩
    obtain ⟨hc₁, hc₂, hc₃⟩ := hcheck (countOf q.classCounts a.threatClass)
    set r := q.checkAndTriggerNotification a.threatClass (countOf q.classCounts a.threatClass)
    have hlog' : (r.countTalker a).log.counted = p.log.counted ++ [a] := by
      rw [log_countTalker, hc₃, hlog]
    have hclasses' : (r.countTalker a).classCounts = q.classCounts := by
      rw [← hc₁]
      unfold Page.countTalker
      split
      · rfl
      · rfl
    refine ⟨fun k => ?_, fun ip hip => ?_⟩
    · rw [hclasses', hclasses, countOf_set, alertsOf_of_counted hlog', hi.classes, hi.classes]
      split
      · next hk => rw [hk]
      · rfl
    · rw [hlog', List.map_append, List.map_singleton, count_concat, ← hi.talkers ip hip, ← htalkers,
        ← hc₂]
      unfold Page.countTalker
      by_cases hsrc : a.srcIp = ""
      · rw [if_pos hsrc, if_neg fun heq => hip (heq.trans hsrc)]
        rfl
      · rw [if_neg hsrc]
        show countOf (r.talkerCounts.set a.srcIp (countOf r.talkerCounts a.srcIp + 1)) ip = _
        rw [countOf_set]
        split
        · next hk => rw [hk]
        · rfl

/-- One count more does not reach the next multiple. -/
theorem div_succ_of_lt {n c : ℕ} (h : c + 1 < c / n * n + n) : (c + 1) / n = c / n := by
  have hlo : c / n * n ≤ c := Nat.div_mul_le_self c n
  refine Nat.div_eq_of_lt_le (by omega) ?_
  rw [Nat.succ_mul]
  exact h

/-- One count more reaches the next multiple. -/
theorem div_succ_of_le {n c : ℕ} (hn : 0 < n) (h : c / n * n + n ≤ c + 1) :
    (c + 1) / n = c / n + 1 := by
  have hhi : c < c / n * n + n := lt_crossed_add hn c
  refine Nat.div_eq_of_lt_le ?_ ?_
  · rw [Nat.succ_mul]
    exact h
  · rw [Nat.succ_mul, Nat.succ_mul]
    omega

/-- The check that follows the count of an alert: it notifies if one count more reaches the next
multiple, and it notifies that multiple. -/
theorem ExactNotices.check {n : ℕ} (hn : 0 < n) (hi : ExactNotices n p) {q : Page}
    {a : AlertRecord} (hsetting : q.notificationThreshold = p.notificationThreshold)
    (hnotified : q.notifiedThresholds = p.notifiedThresholds)
    (hnotices : q.log.notifications = p.log.notifications)
    (hlog : q.log.counted = p.log.counted ++ [a]) :
    ExactNotices n
      (q.checkAndTriggerNotification a.threatClass (p.alertsOf a.threatClass + 1)) := by
  set k₀ := a.threatClass
  have hlast := hi.last k₀
  have halerts : ∀ r : Page, r.log.counted = q.log.counted → ∀ k, r.alertsOf k =
      p.alertsOf k + if k = k₀ then 1 else 0 :=
    fun r hr k => alertsOf_of_counted (hr.trans hlog) k
  have hfor : ∀ k, q.notifiedFor k = p.notifiedFor k := fun k => by
    rw [notifiedFor, hnotices]
    rfl
  obtain ⟨hsame, hbehind⟩ | ⟨m, -, hm, hahead, hnotify⟩ :=
    checkAndTriggerNotification_cases q k₀ (p.alertsOf k₀ + 1)
  · rw [hsetting, hi.setting, hnotified, hlast] at hbehind
    have hdiv : (p.alertsOf k₀ + 1) / n = p.alertsOf k₀ / n :=
      div_succ_of_lt (by exact_mod_cast hbehind (Int.natCast_pos.mpr hn))
    -- the multiples reached are the same for every class
    have hmultiples : ∀ k, q.alertsOf k / n = p.alertsOf k / n := fun k => by
      rw [halerts q rfl]
      split
      · next hk => rw [hk, hdiv]
      · rfl
    rw [hsame]
    refine ⟨hsetting.trans hi.setting, fun k => ?_, fun k => ?_⟩
    · rw [hfor, hi.fired, hmultiples]
    · rw [hnotified, hi.last, hmultiples]
  · obtain rfl : m = n := by
      rw [hsetting, hi.setting] at hm
      exact_mod_cast hm.symm
    rw [hnotified, hlast] at hahead
    have hdiv : (p.alertsOf k₀ + 1) / m = p.alertsOf k₀ / m + 1 := div_succ_of_le hn hahead
    rw [hnotify, hdiv]
    refine ⟨hsetting.trans hi.setting, fun k => ?_, fun k => ?_⟩
    · rw [halerts (q.notify _ _ _) rfl]
      show ((q.log.notifications ++ [_]).filter _).map _ = _
      rw [List.filter_append, List.map_append, List.filter_singleton]
      show q.notifiedFor k ++ _ = _
      rw [hfor, hi.fired]
      by_cases hk : k = k₀
      · rw [hk, if_pos rfl, hdiv, List.range_succ, List.map_append]
        simp only [decide_true]
        rfl
      · rw [if_neg hk, Nat.add_zero]
        simp only [decide_eq_false (Ne.symm hk)]
        exact List.append_nil _
    · rw [halerts (q.notify _ _ _) rfl, countOf_notify, hnotified]
      by_cases hk : k = k₀
      · rw [if_pos hk, if_pos hk, hk, hdiv]
      · rw [if_neg hk, if_neg hk, Nat.add_zero, hi.last]

/-- A live alert shows a notification exactly if its class's count reaches a multiple of the
setting. -/
theorem ExactNotices.handleIncomingLiveAlert {n : ℕ} (hn : 0 < n) (hcounts : ExactCounts p)
    (hi : ExactNotices n p) (a : AlertRecord) :
    ExactNotices n (p.handleIncomingLiveAlert upper a) := by
  by_cases hseen : a.alertId ∈ p.seenAlertIds
  · rw [Page.handleIncomingLiveAlert, if_pos hseen]
    exact hi
  · obtain ⟨hsetting, hnotified, hnotices, hlog, -, hclasses⟩ := counted_fields upper p a
    -- the check sees the count with this alert in it
    have hcount : countOf (p.counted upper a).classCounts a.threatClass =
        p.alertsOf a.threatClass + 1 := by
      rw [hclasses, countOf_set, if_pos rfl, hcounts.classes]
    rw [handleIncomingLiveAlert_of_new hseen, hcount]
    refine (hi.check hn hsetting hnotified hnotices hlog).of_eq ?_
      (notifiedThresholds_countTalker _ a) (congrArg PageLog.counted (log_countTalker _ a))
      (congrArg PageLog.notifications (log_countTalker _ a))
    unfold Page.countTalker
    split
    · rfl
    · rfl

/-- What a replay's counts and notifications are while nothing else sets them. -/
structure ExactInv (n : ℕ) (p : Page) : Prop where
  counts : ExactCounts p
  notices : ExactNotices n p

/-- A replay click empties tables and logs alike. -/
theorem ExactInv.reset {n : ℕ} (hsetting : p.notificationThreshold = n) (duration : ℤ) :
    ExactInv n (p.triggerReplay duration) where
  counts := ⟨fun _ => rfl, fun _ _ => rfl⟩
  notices := by
    refine ⟨hsetting, fun k => ?_, fun k => ?_⟩
    · show [] = (List.range (0 / n)).map _
      rw [Nat.zero_div]
      rfl
    · show 0 = 0 / n * n
      rw [Nat.zero_div, Nat.zero_mul]

/-- Only these six fields of the page bear on the invariant. -/
theorem ExactInv.of_eq {n : ℕ} (hi : ExactInv n p) {q : Page}
    (hclasses : q.classCounts = p.classCounts) (htalkers : q.talkerCounts = p.talkerCounts)
    (hsetting : q.notificationThreshold = p.notificationThreshold)
    (hnotified : q.notifiedThresholds = p.notifiedThresholds)
    (hcounted : q.log.counted = p.log.counted)
    (hlog : q.log.notifications = p.log.notifications) : ExactInv n q :=
  ⟨hi.counts.of_eq hclasses htalkers hcounted, hi.notices.of_eq hsetting hnotified hcounted hlog⟩

/-- A loaded alert table leaves counts and notifications alone. -/
theorem ExactInv.fetchAlerts {n : ℕ} (hi : ExactInv n p) (alerts : List AlertRecord) :
    ExactInv n (p.fetchAlerts alerts) := by
  have hstart : ExactInv n { p with alertsTbody := [], log := { p.log with appended := [] } } :=
    hi.of_eq rfl rfl rfl rfl rfl rfl
  unfold Page.fetchAlerts
  generalize ({ p with alertsTbody := [], log := { p.log with appended := [] } } : Page) = q
    at hstart
  induction alerts generalizing q with
  | nil => exact hstart
  | cons a alerts ih => exact ih _ (hstart.of_eq rfl rfl rfl rfl rfl rfl)

/-- What one quiet event preserves. -/
theorem ExactInv.step {n : ℕ} (hn : 0 < n) (hi : ExactInv n p) {e : PageEvent} (he : Quiet e) :
    ExactInv n (p.step upper e) := by
  cases e with
  | alert a =>
    exact ⟨hi.counts.handleIncomingLiveAlert a,
      hi.notices.handleIncomingLiveAlert hn hi.counts a⟩
  | traffic now pktsPerSec mbps => exact hi.of_eq rfl rfl rfl rfl rfl rfl
  | alertsFetched newest t sev => exact hi.fetchAlerts _
  | summaryFetched stats sseOpen => exact absurd he id
  | filterChanged sev => exact hi.of_eq rfl rfl rfl rfl rfl rfl
  | dataSourceChanged mode => exact hi.of_eq rfl rfl rfl rfl rfl rfl
  | configSaved threshold => exact absurd he id
  | replayClicked custom value =>
    -- a click starts the counts anew, and a second one is disabled
    show ExactInv n (if p.btnReplayDisabled then p else p.triggerReplay _)
    split
    · exact hi
    · exact ExactInv.reset hi.notices.setting _
  | replayAnswered => exact hi.of_eq rfl rfl rfl rfl rfl rfl
  | replayFailed =>
    show ExactInv n (if p.launching = 0 then p else _)
    split
    · exact hi
    · exact hi.of_eq rfl rfl rfl rfl rfl rfl
  | stopClicked =>
    show ExactInv n (if p.btnStopDisabled then p else _)
    split
    · exact hi
    · exact hi.of_eq rfl rfl rfl rfl rfl rfl
  | stopSettled =>
    show ExactInv n (if p.stopping = 0 then p else _)
    split
    · exact hi
    · exact hi.of_eq rfl rfl rfl rfl rfl rfl
  | tick interval =>
    show ExactInv n (if interval ∈ p.intervals then p.countDown else p)
    split
    · unfold countDown
      dsimp only
      split
      · exact hi.of_eq rfl rfl rfl rfl rfl rfl
      · exact hi.of_eq rfl rfl rfl rfl rfl rfl
    · exact hi

/-- **A replay that is counted by its alerts alone.** From the click that starts a replay on, as
long as no summary is merged and the setting stays, each class and each talker is counted once for
each alert that was counted, and a class has been notified at exactly the multiples of the setting
up to its count, in order and each once. -/
theorem notified_exactly (upper : String → String) (h : List PageEvent) (custom : Bool)
    (value : Option ℤ) (k : List PageEvent)
    (hready : ((machine upper).after h).btnReplayDisabled = false)
    (hset : 0 < ((machine upper).after h).notificationThreshold) (hquiet : ∀ e ∈ k, Quiet e) :
    let p := (machine upper).after (h ++ .replayClicked custom value :: k)
    let n := ((machine upper).after h).notificationThreshold.toNat
    (∀ c, countOf p.classCounts c = (p.log.counted.map AlertRecord.threatClass).count c ∧
      (p.log.notifications.filter fun x => decide (x.threatClass = c)).map
          Notification.crossedThreshold =
        (List.range (countOf p.classCounts c / n)).map fun i => (i + 1) * n) ∧
    ∀ ip, ip ≠ "" → countOf p.talkerCounts ip = (p.log.counted.map AlertRecord.srcIp).count ip := by
  intro p n
  have hn : 0 < n := by omega
  have hsetting : ((machine upper).after h).notificationThreshold = n :=
    (Int.toNat_of_nonneg hset.le).symm
  have hi : ExactInv n p := by
    show ExactInv n ((machine upper).after (h ++ .replayClicked custom value :: k))
    rw [List.append_cons]
    clear_value n
    clear p
    -- from the click on, one quiet event after the other
    induction k using List.reverseRecOn with
    | nil =>
      rw [List.append_nil, Machine.after_concat]
      show ExactInv n (if ((machine upper).after h).btnReplayDisabled then _ else _)
      rw [hready]
      exact ExactInv.reset hsetting _
    | append_singleton k e ih =>
      rw [List.forall_mem_append] at hquiet
      rw [← List.append_assoc, Machine.after_concat]
      exact (ih hquiet.1).step hn (hquiet.2 e (List.mem_singleton_self e))
  refine ⟨fun c => ⟨hi.counts.classes c, ?_⟩, hi.counts.talkers⟩
  rw [hi.counts.classes c]
  exact hi.notices.fired c

/-- Four alerts of one class. -/
def fourAlerts : List PageEvent :=
  ["a", "b", "c", "d"].map fun id => .alert (AlertRecord.between id 1 "10.0.0.1" "10.0.0.2")

/-- Four live alerts with no summary, setting or click among them. -/
theorem quiet_fourAlerts : ∀ e ∈ fourAlerts, Quiet e := by
  intro e he
  obtain ⟨id, -, rfl⟩ := List.mem_map.mp he
  trivial

theorem notified_exactly_four_alerts :
    let p := (machine id).after ([.configSaved (some 2)] ++ .replayClicked true (some 20) ::
      fourAlerts)
    countOf p.classCounts "DDOS" = 4 ∧
    (p.log.notifications.filter fun x => decide (x.threatClass = "DDOS")).map
      Notification.crossedThreshold = [2, 4] ∧
    countOf p.talkerCounts "10.0.0.1" = 4 := by
  intro p
  obtain ⟨hclasses, htalkers⟩ := notified_exactly id [.configSaved (some 2)] true (some 20)
    fourAlerts rfl (by decide) quiet_fourAlerts
  obtain ⟨hcount, hnotified⟩ := hclasses "DDOS"
  have hfour : (p.log.counted.map AlertRecord.threatClass).count "DDOS" = 4 := by decide +kernel
  have htalker : (p.log.counted.map AlertRecord.srcIp).count "10.0.0.1" = 4 := by decide +kernel
  refine ⟨hcount.trans hfour, ?_, (htalkers "10.0.0.1" (by decide)).trans htalker⟩
  -- the multiples of two up to four
  rw [hcount.trans hfour] at hnotified
  exact hnotified

end Page

end Sentrix
