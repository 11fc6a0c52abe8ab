import Sentrix.Alerting.StoreQueries
import Sentrix.Dashboard.Counts
import Sentrix.Lib.Machine
import Sentrix.Lib.Recency

/-!
# The page of the dashboard

`dashboard/app/app.js` runs in the browser: one function at a time, each up to its next `await`.
Between them anything can happen: alert and telemetry events, answers of the server in any
order, clicks, and the callbacks of the countdown that a replay is started with. A run is a list
of these (`PageEvent`); a button takes no click while it is disabled, an answer comes to a
request that is under way, and a callback is one of an interval that was not cleared.

Here are the page (`Page`), its functions under their names, and its two rolling buffers: the
table of alerts and the curves of the traffic. Both show the newest entries since they were
emptied last (`rolling_buffers`). Notifications and the countdown are in modules of their own.

Next to what the page keeps, the state has a log of what happened to it (`PageLog`), which the
program does not read. The order of the tallies in the charts, the texts of the page and the
flags that say how a notification is shown are left out.
-/

namespace Sentrix

open Counts (countOf mergeRates countOf_set countOf_mergeRates)

/-- A notification: the class, the threshold it is for, and the count and the setting that it
was fired at. -/
structure Notification where
  threatClass : String
  crossedThreshold : ℕ
  currentCount : ℕ
  notificationThreshold : ℤ

/-- What happened to the page. -/
structure PageLog where
  /-- The alerts added to the table since it was emptied. -/
  appended : List AlertRecord
  /-- The points added to the curves since the last reset. -/
  traffic : List (String × ℚ × ℚ)
  /-- The alerts counted since the last reset. -/
  counted : List AlertRecord
  /-- The notifications fired since the last reset. -/
  notifications : List Notification
  /-- The duration the countdown was started with, and how often its interval has called back. -/
  countdown : Option (ℤ × ℕ)
  /-- The same for the countdowns that have come to their end. -/
  ended : List (ℤ × ℕ)

/-- The page and the browser's intervals and requests. -/
structure Page extends Counts.Client where
  talkerCounts : Dict String ℕ
  notificationThreshold : ℤ
  notifiedThresholds : Dict String ℕ
  /-- The rows of `alerts-tbody`, the top one first. -/
  alertsTbody : List AlertRecord
  trafficTimeLabels : List String
  trafficPpsData : List ℚ
  trafficMbpsData : List ℚ
  /-- The value of `filter-severity`. -/
  severityFilter : String
  currentDataSourceMode : String
  /-- An interval, by its id. -/
  replayCountdownTimer : Option ℕ
  replaySecondsRemaining : ℤ
  btnReplayDisabled : Bool
  btnStopDisabled : Bool
  /-- The intervals that are not cleared. -/
  intervals : List ℕ
  nextInterval : ℕ
  /-- The requests to `/replay` and to `/replay/stop` that are under way. -/
  launching : ℕ
  stopping : ℕ
  log : PageLog

/-- What can happen next. -/
inductive PageEvent
  /-- An alert event of the stream. -/
  | alert (a : AlertRecord)
  /-- A point for the curves, from a telemetry event or from `fetchTelemetry`. -/
  | traffic (now : String) (pktsPerSec mbps : ℚ)
  /-- The answer to `fetchAlerts`, read from a table. -/
  | alertsFetched (newest : NewestFirst) (t : AlertTable) (sev : String)
  /-- The answer to `fetchSummary`, and whether the stream is open. -/
  | summaryFetched (stats : SummaryStats) (sseOpen : Bool)
  | filterChanged (sev : String)
  | dataSourceChanged (mode : String)
  /-- `btn-save-config`, with what `parseInt` makes of the threshold. -/
  | configSaved (threshold : Option ℤ)
  /-- `btn-replay`, with what `parseInt` makes of the custom or of the selected duration. -/
  | replayClicked (custom : Bool) (value : Option ℤ)
  | replayAnswered
  | replayFailed
  /-- `btn-stop-replay`. -/
  | stopClicked
  | stopSettled
  /-- The callback of an interval. -/
  | tick (interval : ℕ)

namespace Page

/-! ### The functions of the page -/

/-- `appendAlertToTable`: a row on top, and no more than 150. -/
def appendAlertToTable (p : Page) (a : AlertRecord) : Page :=
  { p with
    alertsTbody := (a :: p.alertsTbody).take 150
    log := { p.log with appended := p.log.appended ++ [a] } }

/-- `fireNotification`, and the threshold kept. -/
def notify (p : Page) (threatClass : String) (crossedThreshold currentCount : ℕ) : Page :=
  { p with
    notifiedThresholds := p.notifiedThresholds.set threatClass crossedThreshold
    log :=
      { p.log with
        notifications := p.log.notifications ++
          [⟨threatClass, crossedThreshold, currentCount, p.notificationThreshold⟩] } }

/-- `checkAndTriggerNotification`. -/
def checkAndTriggerNotification (p : Page) (threatClass : String) (currentCount : ℕ) : Page :=
  if p.notificationThreshold ≤ 0 then p
  else
    let lastNotified := countOf p.notifiedThresholds threatClass
    if (currentCount : ℤ) - lastNotified ≥ p.notificationThreshold then
      -- the highest threshold that was crossed
      let n := p.notificationThreshold.toNat
      let crossedThreshold := currentCount / n * n
      if crossedThreshold > lastNotified then p.notify threatClass crossedThreshold currentCount
      else p
    else p

/-- The severity filter lets an alert into the table; `upper` is `toUpperCase`. -/
def passesFilter (upper : String → String) (sevFilter : String) (a : AlertRecord) : Bool :=
  !(sevFilter != "" && upper a.severity != upper sevFilter)

/-- The counts of an alert. -/
def count (p : Page) (a : AlertRecord) : Page :=
  { p with
    seenAlertIds := p.seenAlertIds ++ [a.alertId]
    classCounts := p.classCounts.set a.threatClass (countOf p.classCounts a.threatClass + 1)
    log := { p.log with counted := p.log.counted ++ [a] } }

/-- The talker of an alert. -/
def countTalker (p : Page) (a : AlertRecord) : Page :=
  if a.srcIp = "" then p
  else { p with talkerCounts := p.talkerCounts.set a.srcIp (countOf p.talkerCounts a.srcIp + 1) }

/-- `handleIncomingLiveAlert`. -/
def handleIncomingLiveAlert (upper : String → String) (p : Page) (a : AlertRecord) : Page :=
  if a.alertId ∈ p.seenAlertIds then p
  else
    let p := if passesFilter upper p.severityFilter a then p.appendAlertToTable a else p
    let p := p.count a
    (p.checkAndTriggerNotification a.threatClass (countOf p.classCounts a.threatClass)).countTalker
      a

/-- A point at the end of a curve, and the first one given up if asked to. -/
def pushPoint {α : Type} (shift : Bool) (points : List α) (x : α) : List α :=
  if shift then (points ++ [x]).tail else points ++ [x]

/-- `appendTrafficChartData`: the labels decide for all three curves. -/
def appendTrafficChartData (p : Page) (now : String) (pktsPerSec mbps : ℚ) : Page :=
  let shift := decide ((p.trafficTimeLabels ++ [now]).length > 60)
  { p with
    trafficTimeLabels := pushPoint shift p.trafficTimeLabels now
    trafficPpsData := pushPoint shift p.trafficPpsData pktsPerSec
    trafficMbpsData := pushPoint shift p.trafficMbpsData mbps
    log := { p.log with traffic := p.log.traffic ++ [(now, pktsPerSec, mbps)] } }

/-- What the server answers to `fetchAlerts`: fifty alerts, newest first. -/
def fetchedAlerts (newest : NewestFirst) (t : AlertTable) (sev : String) : List AlertRecord :=
  page 50 0 (newest.sort (t.rows.filter
    (AlertStore.pageWhere none (if sev = "" then none else some sev))))

/-- The body of the loop of `fetchAlerts`. -/
def addFetched (p : Page) (a : AlertRecord) : Page :=
  { p.appendAlertToTable a with seenAlertIds := p.seenAlertIds ++ [a.alertId] }

/-- `fetchAlerts`, once it has its answer. -/
def fetchAlerts (p : Page) (alerts : List AlertRecord) : Page :=
  alerts.foldl addFetched { p with alertsTbody := [], log := { p.log with appended := [] } }

/-- The streaming branch of `fetchSummary` for the talkers. -/
def mergeTalkers (counts : Dict String ℕ) (talkers : List (String × ℕ)) : Dict String ℕ :=
  talkers.foldl (fun d t => if countOf d t.1 < t.2 then d.set t.1 t.2 else d) counts

/-- `isStreaming`. -/
def isStreaming (p : Page) (sseOpen : Bool) : Bool :=
  sseOpen && (p.replayCountdownTimer.isSome || p.currentDataSourceMode == "dataset")

/-- `fetchSummary`, once it has its answer. -/
def fetchSummary (p : Page) (stats : SummaryStats) (sseOpen : Bool) : Page :=
  if p.isStreaming sseOpen then
    { p with
      classCounts := mergeRates p.classCounts stats.rateByClass
      talkerCounts := mergeTalkers p.talkerCounts stats.topTalkers }
  else
    -- `Object.assign`
    { p with
      classCounts := p.classCounts.update stats.rateByClass.entries
      talkerCounts := p.talkerCounts.update stats.topTalkers }

/-- `resetSessionState`. -/
def resetSessionState (p : Page) : Page :=
  { p with
    seenAlertIds := []
    classCounts := .empty
    talkerCounts := .empty
    notifiedThresholds := .empty
    trafficTimeLabels := []
    trafficPpsData := []
    trafficMbpsData := []
    alertsTbody := []
    log := { p.log with appended := [], traffic := [], counted := [], notifications := [] } }

/-- `clearInterval(replayCountdownTimer)`, if there is one, and the timer forgotten. -/
def clearCountdown (p : Page) : Page :=
  { p with
    intervals := p.intervals.filter fun i => decide (p.replayCountdownTimer ≠ some i)
    replayCountdownTimer := none
    log := { p.log with countdown := none } }

/-- `resetReplayUI`. -/
def resetReplayUI (p : Page) : Page :=
  { p.clearCountdown with
    replaySecondsRemaining := 0, btnReplayDisabled := false, btnStopDisabled := true }

/-- `stopReplay`, up to its request. -/
def stopReplay (p : Page) : Page :=
  { p with btnStopDisabled := true, stopping := p.stopping + 1 }

/-- `triggerReplay`, up to its request. -/
def triggerReplay (p : Page) (duration : ℤ) : Page :=
  let p := p.resetSessionState.clearCountdown
  { p with
    btnReplayDisabled := true
    btnStopDisabled := false
    replaySecondsRemaining := duration
    replayCountdownTimer := some p.nextInterval
    intervals := p.intervals ++ [p.nextInterval]
    nextInterval := p.nextInterval + 1
    launching := p.launching + 1
    log := { p.log with countdown := some (duration, 0) } }

/-- The callback of the countdown. -/
def countDown (p : Page) : Page :=
  let p :=
    { p with
      replaySecondsRemaining := p.replaySecondsRemaining - 1
      log := { p.log with countdown := p.log.countdown.map fun c => (c.1, c.2 + 1) } }
  if p.replaySecondsRemaining ≤ 0 then
    let ended := p.log.ended ++ p.log.countdown.toList
    let p := p.clearCountdown.stopReplay
    { p with log := { p.log with ended } }
  else p

/-- `getSelectedDuration`. -/
def getSelectedDuration (custom : Bool) (value : Option ℤ) : ℤ :=
  if custom then
    match value with
    | some val => if val > 0 then min val 7200 else 20
    | none => 20
  else
    match value with
    | some val => if val ≠ 0 then val else 20
    | none => 20

/-- What an event does. -/
def step (upper : String → String) (p : Page) : PageEvent → Page
  | .alert a => p.handleIncomingLiveAlert upper a
  | .traffic now pktsPerSec mbps => p.appendTrafficChartData now pktsPerSec mbps
  | .alertsFetched newest t sev => p.fetchAlerts (fetchedAlerts newest t sev)
  | .summaryFetched stats sseOpen => p.fetchSummary stats sseOpen
  | .filterChanged sev => { p with severityFilter := sev }
  | .dataSourceChanged mode => { p with currentDataSourceMode := mode }
  -- `parseInt(…) || 1000`
  | .configSaved threshold =>
    { p with notificationThreshold := (threshold.filter fun n => decide (n ≠ 0)).getD 1000 }
  | .replayClicked custom value =>
    if p.btnReplayDisabled then p else p.triggerReplay (getSelectedDuration custom value)
  | .replayAnswered => { p with launching := p.launching - 1 }
  | .replayFailed =>
    if p.launching = 0 then p else { p.resetReplayUI with launching := p.launching - 1 }
  | .stopClicked => if p.btnStopDisabled then p else p.stopReplay
  | .stopSettled =>
    if p.stopping = 0 then p else { p.resetReplayUI with stopping := p.stopping - 1 }
  | .tick interval => if interval ∈ p.intervals then p.countDown else p

/-- The page when it has been loaded. -/
def loaded : Page where
  seenAlertIds := []
  classCounts := .empty
  talkerCounts := .empty
  notificationThreshold := 1000
  notifiedThresholds := .empty
  alertsTbody := []
  trafficTimeLabels := []
  trafficPpsData := []
  trafficMbpsData := []
  severityFilter := ""
  currentDataSourceMode := "simulated"
  replayCountdownTimer := none
  replaySecondsRemaining := 0
  btnReplayDisabled := false
  btnStopDisabled := true
  intervals := []
  nextInterval := 1
  launching := 0
  stopping := 0
  log := ⟨[], [], [], [], none, []⟩

/-- The page as a machine. -/
def machine (upper : String → String) : Machine Page PageEvent Unit where
  init := loaded
  step p e := (p.step upper e, ())

/-! ### The rolling buffers -/

/-- A curve with one point more shows the last sixty points, if it gives up its first one when
it is full. -/
theorem pushPoint_rtake {α : Type} (l : List α) (x : α) {shift : Bool}
    (hshift : shift = decide ((l.rtake 60).length + 1 > 60)) :
    pushPoint shift (l.rtake 60) x = (l ++ [x]).rtake 60 := by
  have hlength := length_rtake l 60
  unfold pushPoint
  rw [hshift]
  simp only [decide_eq_true_eq]
  split
  · next hlong =>
    -- the curve is full and gives up its first point
    have hfull : 60 ≤ l.length := by omega
    obtain ⟨k, hk⟩ : ∃ k, l.length = k + 60 := ⟨l.length - 60, by omega⟩
    have hdrop : (l ++ [x]).rtake 60 = l.drop (k + 1) ++ [x] := by
      unfold List.rtake
      rw [List.length_append, List.length_singleton, hk, List.drop_append_of_le_length (by omega)]
      rfl
    have hne : l.rtake 60 ≠ [] := List.length_pos_iff.mp (by omega)
    rw [hdrop, List.tail_append_of_ne_nil hne]
    unfold List.rtake
    rw [hk, Nat.add_sub_cancel, List.tail_drop]
  · next hshort =>
    have hle : l.length ≤ 59 := by omega
    rw [rtake_of_length_le (by omega), rtake_of_length_le (by
      rw [List.length_append, List.length_singleton]
      omega)]

/-- What the buffers show: the newest of the entries since they were emptied; the rows have ids
of their own, and these were seen. -/
structure BufferInv (p : Page) : Prop where
  rows : p.alertsTbody = p.log.appended.reverse.take 150
  nodup : (p.log.appended.map AlertRecord.alertId).Nodup
  seen : ∀ a ∈ p.log.appended, a.alertId ∈ p.seenAlertIds
  labels : p.trafficTimeLabels = (p.log.traffic.map Prod.fst).rtake 60
  pps : p.trafficPpsData = (p.log.traffic.map fun x => x.2.1).rtake 60
  mbps : p.trafficMbpsData = (p.log.traffic.map fun x => x.2.2).rtake 60

variable {upper : String → String} {p : Page}

/-- An alert that is not in the table is added to it and to the seen ones. -/
theorem BufferInv.append (hi : BufferInv p) {a : AlertRecord}
    (hnew : a.alertId ∉ p.log.appended.map AlertRecord.alertId) :
    BufferInv (p.addFetched a) where
  rows := by
    show (a :: p.alertsTbody).take 150 = (p.log.appended ++ [a]).reverse.take 150
    -- the row that falls off the table is the oldest of 151
    rw [hi.rows, List.reverse_append, List.reverse_singleton, List.singleton_append,
      List.take_succ_cons, List.take_succ_cons, List.take_take]
    rfl
  nodup := by
    show ((p.log.appended ++ [a]).map AlertRecord.alertId).Nodup
    rw [List.map_append, List.map_singleton]
    exact hi.nodup.append (List.nodup_singleton _) (List.disjoint_singleton.mpr hnew)
  seen b hb := by
    obtain hb | hb := List.mem_append.mp hb
    · exact List.mem_append_left _ (hi.seen b hb)
    · rw [List.mem_singleton.mp hb]
      exact List.mem_append_right _ (List.mem_singleton_self _)
  labels := hi.labels
  pps := hi.pps
  mbps := hi.mbps

/-- The notification check reaches none of the buffers. -/
theorem BufferInv.checkAndTriggerNotification (hi : BufferInv p) (threatClass : String)
    (currentCount : ℕ) : BufferInv (p.checkAndTriggerNotification threatClass currentCount) := by
  unfold Page.checkAndTriggerNotification
  dsimp only
  repeat' split
  all_goals exact ⟨hi.rows, hi.nodup, hi.seen, hi.labels, hi.pps, hi.mbps⟩

/-- Counting a talker reaches none of the buffers. -/
theorem BufferInv.countTalker (hi : BufferInv p) (a : AlertRecord) :
    BufferInv (p.countTalker a) := by
  unfold Page.countTalker
  split
  · exact hi
  · exact ⟨hi.rows, hi.nodup, hi.seen, hi.labels, hi.pps, hi.mbps⟩

/-- A live alert goes to the front of the table once; a seen one changes nothing. -/
theorem BufferInv.handleIncomingLiveAlert (hi : BufferInv p) (a : AlertRecord) :
    BufferInv (p.handleIncomingLiveAlert upper a) := by
  unfold Page.handleIncomingLiveAlert
  split
  · exact hi
  · next hnew =>
    refine BufferInv.countTalker (BufferInv.checkAndTriggerNotification ?_ _ _) a
    split
    · -- an alert in the table would have been seen
      have hunshown : a.alertId ∉ p.log.appended.map AlertRecord.alertId := by
        intro hmem
        obtain ⟨b, hb, hid⟩ := List.mem_map.mp hmem
        exact hnew (hid ▸ hi.seen b hb)
      have happ := hi.append hunshown
      exact ⟨happ.rows, happ.nodup, happ.seen, happ.labels, happ.pps, happ.mbps⟩
    · -- filtered out: seen, but not shown
      exact ⟨hi.rows, hi.nodup, fun b hb => List.mem_append_left _ (hi.seen b hb), hi.labels,
        hi.pps, hi.mbps⟩

/-- The ids that the server answers with are distinct. -/
theorem nodup_fetchedAlerts (newest : NewestFirst) (t : AlertTable) (sev : String) :
    ((fetchedAlerts newest t sev).map AlertRecord.alertId).Nodup := by
  have hsort := newest.perm (t.rows.filter
    (AlertStore.pageWhere none (if sev = "" then none else some sev)))
  have hfilter : ((t.rows.filter (AlertStore.pageWhere none
      (if sev = "" then none else some sev))).map AlertRecord.alertId).Nodup :=
    t.primaryKey.sublist (List.filter_sublist.map AlertRecord.alertId)
  have hsorted := (hsort.map AlertRecord.alertId).nodup_iff.mpr hfilter
  unfold fetchedAlerts
  rw [← Nat.cast_ofNat, ← Nat.cast_zero, page_nat]
  exact hsorted.sublist ((List.take_sublist _ _).trans (List.drop_sublist _ _) |>.map _)

/-- Loaded alerts with ids of their own are appended in order. -/
theorem BufferInv.foldl_addFetched {alerts : List AlertRecord} (hi : BufferInv p)
    (hids : ((p.log.appended ++ alerts).map AlertRecord.alertId).Nodup) :
    BufferInv (alerts.foldl addFetched p) := by
  induction alerts generalizing p with
  | nil => exact hi
  | cons a alerts ih =>
    -- the ids of the rows so far and of the rows to come are distinct
    have hnew : a.alertId ∉ p.log.appended.map AlertRecord.alertId := by
      rw [List.map_append, List.map_cons, List.nodup_append] at hids
      exact fun hmem => hids.2.2 _ hmem _ List.mem_cons_self rfl
    refine ih (hi.append hnew) ?_
    show ((p.log.appended ++ [a] ++ alerts).map AlertRecord.alertId).Nodup
    rw [List.append_assoc]
    exact hids

/-- A loaded table replaces the rows, and its ids are seen from then on. -/
theorem BufferInv.fetchAlerts (hi : BufferInv p) {alerts : List AlertRecord}
    (halerts : (alerts.map AlertRecord.alertId).Nodup) : BufferInv (p.fetchAlerts alerts) := by
  have hempty : BufferInv { p with alertsTbody := [], log := { p.log with appended := [] } } :=
    ⟨rfl, List.nodup_nil, List.forall_mem_nil _, hi.labels, hi.pps, hi.mbps⟩
  exact hempty.foldl_addFetched halerts

/-- The curves are as long as the labels. -/
theorem BufferInv.length_curves (hi : BufferInv p) :
    p.trafficPpsData.length = p.trafficTimeLabels.length ∧
      p.trafficMbpsData.length = p.trafficTimeLabels.length := by
  rw [hi.labels, hi.pps, hi.mbps]
  simp only [length_rtake, List.length_map, and_self]

/-- So each of them gives up a point when it is full itself. -/
theorem BufferInv.shift_eq (hi : BufferInv p) (now : String) :
    decide ((p.trafficTimeLabels ++ [now]).length > 60) =
        decide (p.trafficPpsData.length + 1 > 60) ∧
      decide ((p.trafficTimeLabels ++ [now]).length > 60) =
        decide (p.trafficMbpsData.length + 1 > 60) := by
  obtain ⟨hpps, hmbps⟩ := hi.length_curves
  rw [List.length_append, List.length_singleton, hpps, hmbps]
  exact ⟨rfl, rfl⟩

/-- A telemetry point moves labels and curves alike. -/
theorem BufferInv.appendTrafficChartData (hi : BufferInv p) (now : String)
    (pktsPerSec mbps : ℚ) : BufferInv (p.appendTrafficChartData now pktsPerSec mbps) where
  rows := hi.rows
  nodup := hi.nodup
  seen := hi.seen
  labels := by
    show pushPoint _ p.trafficTimeLabels now = ((p.log.traffic ++ [_]).map _).rtake 60
    rw [hi.labels, List.length_append, List.length_singleton, pushPoint_rtake _ _ rfl,
      List.map_append]
    rfl
  -- the shift decided by the labels is the one the curve needs
  pps := by
    show pushPoint _ p.trafficPpsData pktsPerSec = ((p.log.traffic ++ [_]).map _).rtake 60
    rw [(hi.shift_eq now).1, hi.pps, pushPoint_rtake _ _ rfl, List.map_append]
    rfl
  mbps := by
    show pushPoint _ p.trafficMbpsData mbps = ((p.log.traffic ++ [_]).map _).rtake 60
    rw [(hi.shift_eq now).2, hi.mbps, pushPoint_rtake _ _ rfl, List.map_append]
    rfl

/-- What one event of the page preserves. -/
theorem BufferInv.step (hi : BufferInv p) (e : PageEvent) : BufferInv (p.step upper e) := by
  -- what touches neither buffer nor the seen ids
  have hkeep : ∀ q : Page, q.alertsTbody = p.alertsTbody → q.seenAlertIds = p.seenAlertIds →
      q.trafficTimeLabels = p.trafficTimeLabels → q.trafficPpsData = p.trafficPpsData →
      q.trafficMbpsData = p.trafficMbpsData → q.log.appended = p.log.appended →
      q.log.traffic = p.log.traffic → BufferInv q := by
    intro q hrows hseen hlabels hpps hmbps happended htraffic
    refine ⟨?_, ?_, ?_, ?_, ?_, ?_⟩
    · rw [hrows, happended]
      exact hi.rows
    · rw [happended]
      exact hi.nodup
    · rw [happended, hseen]
      exact hi.seen
    · rw [hlabels, htraffic]
      exact hi.labels
    · rw [hpps, htraffic]
      exact hi.pps
    · rw [hmbps, htraffic]
      exact hi.mbps
  cases e with
  | alert a => exact hi.handleIncomingLiveAlert a
  | traffic now pktsPerSec mbps => exact hi.appendTrafficChartData now pktsPerSec mbps
  | alertsFetched newest t sev => exact hi.fetchAlerts (nodup_fetchedAlerts newest t sev)
  | summaryFetched stats sseOpen =>
    show BufferInv (p.fetchSummary stats sseOpen)
    unfold fetchSummary
    split
    · exact hkeep _ rfl rfl rfl rfl rfl rfl rfl
    · exact hkeep _ rfl rfl rfl rfl rfl rfl rfl
  | filterChanged sev => exact hkeep _ rfl rfl rfl rfl rfl rfl rfl
  | dataSourceChanged mode => exact hkeep _ rfl rfl rfl rfl rfl rfl rfl
  | configSaved threshold => exact hkeep _ rfl rfl rfl rfl rfl rfl rfl
  | replayClicked custom value =>
    show BufferInv (if p.btnReplayDisabled then p else p.triggerReplay _)
    split
    · exact hi
    · exact ⟨rfl, List.nodup_nil, List.forall_mem_nil _, rfl, rfl, rfl⟩
  | replayAnswered => exact hkeep _ rfl rfl rfl rfl rfl rfl rfl
  | replayFailed =>
    show BufferInv (if p.launching = 0 then p else _)
    split
    · exact hi
    · exact hkeep _ rfl rfl rfl rfl rfl rfl rfl
  | stopClicked =>
    show BufferInv (if p.btnStopDisabled then p else _)
    split
    · exact hi
    · exact hkeep _ rfl rfl rfl rfl rfl rfl rfl
  | stopSettled =>
    show BufferInv (if p.stopping = 0 then p else _)
    split
    · exact hi
    · exact hkeep _ rfl rfl rfl rfl rfl rfl rfl
  | tick interval =>
    show BufferInv (if interval ∈ p.intervals then p.countDown else p)
    split
    · unfold countDown
      dsimp only
      split
      · exact hkeep _ rfl rfl rfl rfl rfl rfl rfl
      · exact hkeep _ rfl rfl rfl rfl rfl rfl rfl
    · exact hi

/-- What every run of the page preserves. -/
theorem bufferInv_after (upper : String → String) (h : List PageEvent) :
    BufferInv ((machine upper).after h) :=
  (machine upper).invariant (fun _ => BufferInv)
    ⟨rfl, List.nodup_nil, List.forall_mem_nil _, rfl, rfl, rfl⟩ (fun _ e hi => hi.step e) h

/-- **The rolling buffers.** In every run the table shows the newest alerts added since it was
emptied, the newest on top and at most 150 of them, no alert twice and none that was not seen;
each of the three curves shows the last sixty points since the last reset, and they are of one
length. -/
theorem rolling_buffers (upper : String → String) (h : List PageEvent) :
    let p := (machine upper).after h
    p.alertsTbody = p.log.appended.reverse.take 150 ∧ p.alertsTbody.length ≤ 150 ∧
    (p.alertsTbody.map AlertRecord.alertId).Nodup ∧
    (∀ a ∈ p.alertsTbody, a.alertId ∈ p.seenAlertIds) ∧
    p.trafficTimeLabels = (p.log.traffic.map fun x => x.1).rtake 60 ∧
    p.trafficPpsData = (p.log.traffic.map fun x => x.2.1).rtake 60 ∧
    p.trafficMbpsData = (p.log.traffic.map fun x => x.2.2).rtake 60 ∧
    p.trafficTimeLabels.length = min 60 p.log.traffic.length ∧
    p.trafficPpsData.length = p.trafficTimeLabels.length ∧
    p.trafficMbpsData.length = p.trafficTimeLabels.length := by
  intro p
  have hi : BufferInv p := bufferInv_after upper h
  have hsub : ∀ a ∈ p.alertsTbody, a ∈ p.log.appended := fun a ha => by
    rw [hi.rows] at ha
    exact List.mem_reverse.mp (List.mem_of_mem_take ha)
  refine ⟨hi.rows, ?_, ?_, fun a ha => hi.seen a (hsub a ha), hi.labels, hi.pps, hi.mbps, ?_,
    hi.length_curves⟩
  · rw [hi.rows]
    exact List.length_take_le _ _
  · -- the rows are some of the alerts appended
    have hnodup : (p.log.appended.reverse.map AlertRecord.alertId).Nodup := by
      rw [List.map_reverse, List.nodup_reverse]
      exact hi.nodup
    rw [hi.rows]
    exact hnodup.sublist ((List.take_sublist _ _).map _)
  · rw [hi.labels, length_rtake, List.length_map]

end Page

end Sentrix
