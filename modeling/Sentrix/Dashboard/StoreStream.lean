import Sentrix.Alerting.Store
import Sentrix.Dashboard.EventGenerator

/-!
# The event stream of a simulated replay

While a simulated replay runs, its process commits alerts to the store and each
tick of `event_generator` reads the alerts with `timestamp >= last_ts`, earliest
first, and sends the first fifty whose id is not in `sent_alert_ids`. A run is an
interleaving of commits and ticks, from the state at which the replay began.

The test of the read is not strict: alerts with the cursor's own timestamp are
read again by every tick, and it is the set of ids that holds back those already
sent. This has two sides:

* An alert that is waiting is never overtaken (`noSkip_after`): the cursor moves
  to an alert that was sent, and what was left behind in the sorted read is no
  older. That needs nothing of the set but that it holds ids of sent alerts. But
  an alert from before the replay may lie ahead of what the replay commits; once
  the cursor stands there, the commits are behind it (`stored_ahead_skips`).
* An alert that was sent is held back only as long as the set remembers it. The
  set is cut to five thousand elements of its own choice once it has more than
  ten thousand, and it may forget alerts the cursor still reads. As long as it
  has not (`CursorRemembered`), a tick sends exactly the earliest waiting alerts
  (`store_stream_skips_none`) and none is sent twice (`store_stream_sends_once`).
-/

namespace Sentrix

namespace StoreStream

open EventGenerator

/-- The committed alerts, the cursor of the client, and the ids the client has
been sent on this connection. -/
structure State where
  table : AlertTable
  cursor : Cursor
  sent : List String

/-- The state when the replay begins: the set holds ids that were sent, and no id
was sent twice so far. -/
structure Start extends State where
  remembers : ∀ i ∈ cursor.sentAlertIds, i ∈ sent
  distinct : sent.Nodup

/-- One step of the replay or of the generator. -/
inductive Event
  /-- The replay commits an alert. -/
  | commit (a : AlertRecord)
  /-- A tick, with the order the database gives to equal timestamps and the
  iteration order of the set it may trim. -/
  | tick (ord : OrderByTimestamp) (order : SetOrder String)

/-- `store.read_alerts(start_time=last_ts)`. -/
def recentAlerts (ord : OrderByTimestamp) (t : AlertTable) (lastTs : ℚ) : List AlertRecord :=
  AlertStore.select ord ⟨t, [], []⟩ ⟨some lastTs, none, none, none⟩

/-- The server's own store buffers nothing, so its `read_alerts` is one select. -/
theorem readAlerts_eq_recentAlerts (ord : OrderByTimestamp) (db : DbOutcome) (t : AlertTable)
    (lastTs : ℚ) :
    (AlertStore.readAlerts ord db ⟨t, [], []⟩ ⟨some lastTs, none, none, none⟩).2 =
      .ok (recentAlerts ord t lastTs) := rfl

/-- The loop reads stored alerts; any id is sent. -/
def view : AlertView AlertRecord where
  alertId := AlertRecord.alertId
  timestamp := AlertRecord.timestamp
  sendable _ := true

/-- One step, with the alerts it yields. -/
def step (s : State) : Event → State × List AlertRecord
  | .commit a => ({ s with table := s.table.insertOrIgnore a }, [])
  | .tick ord order =>
    let r := push view order s.cursor (recentAlerts ord s.table s.cursor.lastTs)
    ({ s with cursor := r.1, sent := s.sent ++ r.2.map AlertRecord.alertId }, r.2)

/-- The stream as a machine. -/
def machine (start : Start) : Machine State Event (List AlertRecord) where
  init := start.toState
  step := step

/-- The alerts committed in a run. -/
def commits : List Event → List AlertRecord
  | [] => []
  | .commit a :: h => a :: commits h
  | .tick _ _ :: h => commits h

/-- Alerts are committed in nondecreasing timestamp order. -/
def InOrder (h : List Event) : Prop :=
  (commits h).Pairwise fun a b => a.timestamp ≤ b.timestamp

/-- No alert that is stored when the replay begins lies ahead of one that it
commits, as far as the cursor reads them. -/
def NoneAhead (start : Start) (h : List Event) : Prop :=
  ∀ b ∈ start.table.rows, start.cursor.lastTs ≤ b.timestamp →
    ∀ a ∈ commits h, start.cursor.lastTs ≤ a.timestamp → b.timestamp ≤ a.timestamp

/-! ### The alerts that wait -/

/-- The alert is stored, was not sent, and is not older than the replay's start. -/
def Waiting (start : Start) (s : State) (a : AlertRecord) : Prop :=
  a ∈ s.table.rows ∧ a.alertId ∉ s.sent ∧ start.cursor.lastTs ≤ a.timestamp

/-- No alert that waits is older than the cursor. -/
def NoSkip (start : Start) (s : State) : Prop :=
  ∀ a, Waiting start s a → s.cursor.lastTs ≤ a.timestamp

/-- A tick in the state `s` that sends `ys` sends the earliest of the alerts that
wait, at most fifty, and at least one if there is one. -/
structure SendsEarliest (start : Start) (s : State) (ys : List AlertRecord) : Prop where
  waiting : ∀ y ∈ ys, Waiting start s y
  sorted : ys.Pairwise fun a b => a.timestamp ≤ b.timestamp
  earliest : ∀ y ∈ ys, ∀ a, Waiting start s a → a ∉ ys → y.timestamp ≤ a.timestamp
  atMost : ys.length ≤ 50
  progress : (∃ a, Waiting start s a) → ys ≠ []

/-- The set remembers the sent alerts that the cursor still reads. -/
def CursorRemembered (s : State) : Prop :=
  ∀ a ∈ s.table.rows, s.cursor.lastTs ≤ a.timestamp → a.alertId ∈ s.sent →
    a.alertId ∈ s.cursor.sentAlertIds

variable {start : Start} {s : State} {h : List Event} {ord : OrderByTimestamp}
  {order : SetOrder String}

/-! ### What a tick sends -/

/-- The alerts read are the rows from the cursor's time on. -/
theorem mem_recentAlerts {t : AlertTable} {lastTs : ℚ} {a : AlertRecord} :
    a ∈ recentAlerts ord t lastTs ↔ a ∈ t.rows ∧ lastTs ≤ a.timestamp := by
  unfold recentAlerts AlertStore.select
  rw [(ord.perm _).mem_iff, List.mem_filter, Query.matches_iff]
  simp [Query.Matches]

/-- No id is read twice. -/
theorem nodup_recentAlerts (ord : OrderByTimestamp) (t : AlertTable) (lastTs : ℚ) :
    ((recentAlerts ord t lastTs).map AlertRecord.alertId).Nodup := by
  unfold recentAlerts AlertStore.select
  rw [((ord.perm _).map _).nodup_iff]
  exact t.primaryKey.sublist (List.filter_sublist.map _)

/-- The alerts are read in the order of their timestamps. -/
theorem sorted_recentAlerts (ord : OrderByTimestamp) (t : AlertTable) (lastTs : ℚ) :
    (recentAlerts ord t lastTs).Pairwise fun a b => a.timestamp ≤ b.timestamp :=
  ord.sorted _

/-- The alerts of a read that the set does not hold back. -/
def candidates (ord : OrderByTimestamp) (s : State) : List AlertRecord :=
  (recentAlerts ord s.table s.cursor.lastTs).filter (unsent view s.cursor)

/-- The candidates are the rows read that the cursor does not remember. -/
theorem mem_candidates {a : AlertRecord} :
    a ∈ candidates ord s ↔ a ∈ s.table.rows ∧ s.cursor.lastTs ≤ a.timestamp ∧
      a.alertId ∉ s.cursor.sentAlertIds := by
  unfold candidates
  rw [List.mem_filter, mem_recentAlerts, and_assoc, unsent, Bool.and_eq_true, decide_eq_true_eq]
  simp [view]

theorem sorted_candidates (ord : OrderByTimestamp) (s : State) :
    (candidates ord s).Pairwise fun a b => a.timestamp ≤ b.timestamp :=
  (sorted_recentAlerts ord _ _).filter _

theorem nodup_candidates (ord : OrderByTimestamp) (s : State) :
    ((candidates ord s).map AlertRecord.alertId).Nodup :=
  (nodup_recentAlerts ord _ _).sublist (List.filter_sublist.map _)

/-- A tick sends the first fifty candidates. -/
theorem tick_snd (ord : OrderByTimestamp) (order : SetOrder String) (s : State) :
    (step s (.tick ord order)).2 = (candidates ord s).take 50 :=
  push_snd order s.cursor (nodup_recentAlerts ord _ _)

/-- After a tick the cursor has moved over what was sent, and its set is trimmed. -/
theorem tick_cursor (ord : OrderByTimestamp) (order : SetOrder String) (s : State) :
    (step s (.tick ord order)).1.cursor =
      trimSent order (advance view s.cursor (step s (.tick ord order)).2) :=
  push_fst order s.cursor _

theorem tick_sent (ord : OrderByTimestamp) (order : SetOrder String) (s : State) :
    (step s (.tick ord order)).1.sent =
      s.sent ++ (step s (.tick ord order)).2.map AlertRecord.alertId := rfl

/-- What is sent is in the order of the read. -/
theorem sorted_tick (ord : OrderByTimestamp) (order : SetOrder String) (s : State) :
    (step s (.tick ord order)).2.Pairwise fun a b => a.timestamp ≤ b.timestamp := by
  rw [tick_snd]
  exact (sorted_candidates ord s).sublist (List.take_sublist 50 _)

theorem mem_candidates_of_tick {y : AlertRecord} (hy : y ∈ (step s (.tick ord order)).2) :
    y ∈ candidates ord s := by
  rw [tick_snd] at hy
  exact List.mem_of_mem_take hy

/-! ### No alert is skipped -/

/-- What holds after the run `h`: the set holds ids that were sent, the cursor
stands at the start or later, at an alert that is stored, and the table holds
what it held and what was committed. -/
structure StreamInv (start : Start) (h : List Event) (s : State) : Prop where
  remembers : ∀ i ∈ s.cursor.sentAlertIds, i ∈ s.sent
  started : start.cursor.lastTs ≤ s.cursor.lastTs
  reached : s.cursor.lastTs = start.cursor.lastTs ∨
    ∃ a ∈ s.table.rows, s.cursor.lastTs = a.timestamp
  stored : ∀ a ∈ s.table.rows, a ∈ start.table.rows ∨ a ∈ commits h

/-- The commits of a run in two parts. -/
theorem commits_append (h k : List Event) : commits (h ++ k) = commits h ++ commits k := by
  induction h with
  | nil => rfl
  | cons x h ih =>
    cases x with
    | commit a => exact congrArg (a :: ·) ih
    | tick ord order => exact ih

/-- A row of the table was there or is the alert inserted. -/
theorem mem_insertOrIgnore {t : AlertTable} {a b : AlertRecord}
    (hb : b ∈ (t.insertOrIgnore a).rows) : b ∈ t.rows ∨ b = a := by
  unfold AlertTable.insertOrIgnore at hb
  split at hb
  · exact Or.inl hb
  · exact (List.mem_append.mp hb).imp_right List.mem_singleton.mp

/-- An insertion removes no row. -/
theorem mem_insertOrIgnore_of_mem {t : AlertTable} {a b : AlertRecord} (hb : b ∈ t.rows) :
    b ∈ (t.insertOrIgnore a).rows := by
  unfold AlertTable.insertOrIgnore
  split
  · exact hb
  · exact List.mem_append_left _ hb

/-- A commit moves the table alone. -/
theorem StreamInv.commit (hi : StreamInv start h s) (a : AlertRecord) :
    StreamInv start (h ++ [.commit a]) (step s (.commit a)).1 := by
  refine ⟨hi.remembers, hi.started, ?_, ?_⟩
  · refine hi.reached.imp_right ?_
    rintro ⟨b, hb, heq⟩
    exact ⟨b, mem_insertOrIgnore_of_mem hb, heq⟩
  · intro b hb
    rw [commits_append]
    obtain hb | rfl := mem_insertOrIgnore hb
    · exact (hi.stored b hb).imp_right (List.mem_append_left _)
    · exact Or.inr (List.mem_append_right _ (List.mem_singleton_self b))

/-- A tick moves the cursor to the last alert sent, if it sends any. -/
theorem StreamInv.tick (hi : StreamInv start h s) (ord : OrderByTimestamp)
    (order : SetOrder String) :
    StreamInv start (h ++ [.tick ord order]) (step s (.tick ord order)).1 := by
  refine ⟨?_, ?_, ?_, ?_⟩
  · -- a remembered id was sent: trimming the set only forgets
    intro i hmem
    rw [tick_cursor] at hmem
    rw [tick_sent, List.mem_append]
    obtain hmem | hmem := List.mem_append.mp (mem_of_mem_trimSent hmem)
    · exact Or.inl (hi.remembers i hmem)
    · exact Or.inr hmem
  · rw [tick_cursor, lastTs_trimSent]
    exact le_trans hi.started (lastTs_le_advance _ _)
  · rw [tick_cursor, lastTs_trimSent]
    -- the cursor's time is the old one or that of an alert just sent, which is a row
    obtain heq | ⟨y, hy, heq⟩ := lastTs_advance (v := view) s.cursor (step s (.tick ord order)).2
    · rw [heq]
      exact hi.reached
    · exact Or.inr ⟨y, (mem_candidates.mp (mem_candidates_of_tick hy)).1, heq⟩
  · rw [commits_append]
    intro a ha
    exact (hi.stored a ha).imp_right (List.mem_append_left _)

/-- What every run preserves. -/
theorem streamInv_after (start : Start) (h : List Event) :
    StreamInv start h ((machine start).after h) := by
  refine (machine start).invariant (StreamInv start) ?_ ?_ h
  · exact ⟨start.remembers, le_refl _, Or.inl rfl, fun a ha => Or.inl ha⟩
  · intro h x hi
    cases x with
    | commit a => exact hi.commit a
    | tick ord order => exact hi.tick ord order

/-- A waiting alert that the cursor has not passed is a candidate. -/
theorem StreamInv.candidate (hi : StreamInv start h s) (hno : NoSkip start s) {a : AlertRecord}
    (ha : Waiting start s a) : a ∈ candidates ord s :=
  mem_candidates.mpr ⟨ha.1, hno a ha, fun hset => ha.2.1 (hi.remembers _ hset)⟩

/-- What a tick sends is no younger than a waiting alert it does not send. -/
theorem StreamInv.earliest (hi : StreamInv start h s) (hno : NoSkip start s) {y a : AlertRecord}
    (hy : y ∈ (step s (.tick ord order)).2) (ha : Waiting start s a)
    (hnot : a ∉ (step s (.tick ord order)).2) : y.timestamp ≤ a.timestamp := by
  rw [tick_snd] at hy hnot
  exact rel_of_mem_take (sorted_candidates ord s) hy (hi.candidate hno ha) hnot

/-- **A tick overtakes nothing**: what it leaves waiting is behind all it sent. -/
theorem NoSkip.tick (hi : StreamInv start h s) (hno : NoSkip start s) :
    NoSkip start (step s (.tick ord order)).1 := by
  rintro a ⟨hrow, hsent, hstart⟩
  rw [tick_sent, List.mem_append, not_or] at hsent
  have hwait : Waiting start s a := ⟨hrow, hsent.1, hstart⟩
  have hnot : a ∉ (step s (.tick ord order)).2 := fun hmem =>
    hsent.2 (List.mem_map_of_mem hmem)
  rw [tick_cursor, lastTs_trimSent]
  obtain heq | ⟨y, hy, heq⟩ := lastTs_advance (v := view) s.cursor (step s (.tick ord order)).2
  · rw [heq]
    exact hno a hwait
  · rw [heq]
    exact hi.earliest hno hy hwait hnot

/-- **A commit is not behind the cursor**, which stands at an alert committed
earlier, at one that does not lie ahead, or at the start. -/
theorem NoSkip.commit {a : AlertRecord} (hi : StreamInv start h s)
    (hord : InOrder (h ++ [.commit a])) (hahead : NoneAhead start (h ++ [.commit a]))
    (hno : NoSkip start s) : NoSkip start (step s (.commit a)).1 := by
  rintro b ⟨hrow, hsent, hstart⟩
  obtain hrow | rfl := mem_insertOrIgnore hrow
  · exact hno b ⟨hrow, hsent, hstart⟩
  · -- the cursor stands where it started or at a row it has sent
    obtain heq | ⟨c, hc, heq⟩ := hi.reached
    · show s.cursor.lastTs ≤ b.timestamp
      rw [heq]
      exact hstart
    · show s.cursor.lastTs ≤ b.timestamp
      have hread : start.cursor.lastTs ≤ c.timestamp := hi.started.trans_eq heq
      rw [heq]
      unfold InOrder at hord
      rw [commits_append] at hord
      have hb : b ∈ commits [.commit b] := List.mem_singleton_self b
      -- that row was there at the start or was committed earlier; neither is ahead of the new one
      obtain hc | hc := hi.stored c hc
      · refine hahead c hc hread b ?_ hstart
        rw [commits_append]
        exact List.mem_append_right _ hb
      · exact (List.pairwise_append.mp hord).2.2 c hc b hb

/-- Commits in order are so up to any point. -/
theorem InOrder.of_append {k : List Event} (hord : InOrder (h ++ k)) : InOrder h := by
  unfold InOrder at hord
  rw [commits_append] at hord
  exact hord.sublist (List.sublist_append_left _ _)

/-- Where no row is ahead of a commit, none is up to any point. -/
theorem NoneAhead.of_append {k : List Event} (hahead : NoneAhead start (h ++ k)) :
    NoneAhead start h := by
  intro b hb hread a ha
  refine hahead b hb hread a ?_
  rw [commits_append]
  exact List.mem_append_left _ ha

/-- **No alert is skipped**, whatever the set has forgotten. -/
theorem noSkip_after (start : Start) (h : List Event) (hord : InOrder h)
    (hahead : NoneAhead start h) : NoSkip start ((machine start).after h) := by
  refine (machine start).invariant_of (fun h => InOrder h ∧ NoneAhead start h)
    (fun _ s => NoSkip start s) (fun h x hboth => ⟨hboth.1.of_append, hboth.2.of_append⟩)
    (fun a ha => ha.2.2) ?_ h ⟨hord, hahead⟩
  rintro h x ⟨hord, hahead⟩ hno
  cases x with
  | commit a => exact NoSkip.commit (streamInv_after start h) hord hahead hno
  | tick ord order => exact NoSkip.tick (streamInv_after start h) hno

/-! ### What the set remembers -/

/-- As long as the set remembers what the cursor reads, candidates wait. -/
theorem CursorRemembered.waiting (hr : CursorRemembered s) (hi : StreamInv start h s)
    {a : AlertRecord} (ha : a ∈ candidates ord s) : Waiting start s a := by
  obtain ⟨hrow, hts, hset⟩ := mem_candidates.mp ha
  exact ⟨hrow, fun hsent => hset (hr a hrow hts hsent), le_trans hi.started hts⟩

/-- **A tick from a state whose cursor is remembered** sends the earliest alerts
that wait. -/
theorem CursorRemembered.sendsEarliest (hr : CursorRemembered s) (hi : StreamInv start h s)
    (hno : NoSkip start s) : SendsEarliest start s (step s (.tick ord order)).2 where
  waiting y hy := hr.waiting hi (mem_candidates_of_tick hy)
  sorted := sorted_tick ord order s
  earliest y hy a ha hnot := hi.earliest hno hy ha hnot
  atMost := by
    rw [tick_snd]
    exact List.length_take_le 50 _
  -- an alert that waits is a candidate, so the tick's list is not empty
  progress := by
    rintro ⟨a, ha⟩ hnil
    have hcand : a ∈ candidates ord s := hi.candidate hno ha
    rw [tick_snd] at hnil
    cases hc : candidates ord s with
    | nil =>
      rw [hc] at hcand
      exact absurd hcand List.not_mem_nil
    | cons b rest =>
      rw [hc] at hnil
      cases hnil

/-- A tick finds its cursor remembered. -/
def RememberedAt (s : State) : Event → Prop
  | .commit _ => True
  | .tick _ _ => CursorRemembered s

/-- **The store stream skips no alert.** In every run with commits in timestamp
order, if no alert from before lies ahead of them, no waiting alert is ever older
than the cursor, and every tick that finds its cursor remembered sends the earliest
waiting alerts, at most fifty, and at least one if there is one. -/
theorem store_stream_skips_none (start : Start) (h : List Event) (hord : InOrder h)
    (hahead : NoneAhead start h) :
    (∀ pre, pre <+: h → NoSkip start ((machine start).after pre)) ∧
    (∀ pre ord order post, h = pre ++ .tick ord order :: post →
      CursorRemembered ((machine start).after pre) →
      SendsEarliest start ((machine start).after pre)
        ((machine start).out ((machine start).after pre) (.tick ord order))) := by
  refine ⟨?_, ?_⟩
  · rintro pre ⟨post, rfl⟩
    exact noSkip_after start pre hord.of_append hahead.of_append
  · rintro pre ord order post rfl hr
    exact hr.sendsEarliest (streamInv_after start pre)
      (noSkip_after start pre hord.of_append hahead.of_append)

/-- **The store stream sends no alert twice**, in every run whose ticks all find
their cursor remembered. -/
theorem store_stream_sends_once (start : Start) (h : List Event)
    (hrem : (machine start).Along RememberedAt h) :
    ((machine start).after h).sent.Nodup := by
  refine (machine start).invariant_along (fun _ s => s.sent.Nodup) start.distinct ?_ h hrem
  intro h x hnow hnodup
  cases x with
  | commit a => exact hnodup
  | tick ord order =>
    show (step ((machine start).after h) (.tick ord order)).1.sent.Nodup
    rw [tick_sent]
    have hremembered : CursorRemembered ((machine start).after h) := hnow
    refine hnodup.append ?_ ?_
    · rw [tick_snd, List.map_take]
      exact (nodup_candidates ord _).sublist (List.take_sublist 50 _)
    · -- what is sent now was waiting
      intro i hsent hi
      obtain ⟨y, hy, rfl⟩ := List.mem_map.mp hi
      exact (hremembered.waiting (streamInv_after start h) (mem_candidates_of_tick hy)).2.1 hsent

/-! ### Few alerts are remembered -/

/-- What was sent is never taken back. -/
theorem length_sent_le_next (s : State) (x : Event) :
    s.sent.length ≤ (step s x).1.sent.length := by
  cases x with
  | commit a => exact le_refl _
  | tick ord order =>
    rw [tick_sent, List.length_append]
    exact Nat.le_add_right _ _

/-- Up to ten thousand alerts the set is never trimmed. -/
theorem sentAlertIds_of_few (hstart : start.cursor.sentAlertIds = start.sent)
    (hfew : ((machine start).after h).sent.length ≤ 10000) :
    ((machine start).after h).cursor.sentAlertIds = ((machine start).after h).sent := by
  induction h using List.reverseRecOn with
  | nil => exact hstart
  | append_singleton h x ih =>
    rw [Machine.after_concat] at hfew ⊢
    have hbefore := ih (le_trans (length_sent_le_next _ x) hfew)
    cases x with
    | commit a => exact hbefore
    | tick ord order =>
      change (step _ (.tick ord order)).1.sent.length ≤ 10000 at hfew
      show (step _ (.tick ord order)).1.cursor.sentAlertIds = (step _ (.tick ord order)).1.sent
      -- before the trimming the cursor's set is all that was sent, which is still short
      have hlonger : (advance view ((machine start).after h).cursor
          (step ((machine start).after h) (.tick ord order)).2).sentAlertIds =
          (step ((machine start).after h) (.tick ord order)).1.sent := by
        rw [tick_sent, ← hbefore]
        rfl
      rw [tick_cursor, trimSent_of_le (by rw [hlonger]; exact hfew), hlonger]

/-- A run that has sent no more than ten thousand alerts remembers all of them. -/
theorem along_remembered_of_few (hstart : start.cursor.sentAlertIds = start.sent)
    (hfew : ((machine start).after h).sent.length ≤ 10000) :
    (machine start).Along RememberedAt h := by
  induction h using List.reverseRecOn with
  | nil => trivial
  | append_singleton h x ih =>
    rw [Machine.after_concat] at hfew
    have hbefore := le_trans (length_sent_le_next _ x) hfew
    rw [Machine.along_concat]
    refine ⟨ih hbefore, ?_⟩
    cases x with
    | commit a => trivial
    | tick ord order =>
      -- up to ten thousand ids nothing is forgotten
      intro a _ _ hsent
      rw [sentAlertIds_of_few hstart hbefore]
      exact hsent

/-! ### A run that forgets

Alerts with one timestamp, as many as it takes. The cursor stays at their time,
so the set alone tells which of them were sent, until it is cut. -/

/-- The `n`-th of the alerts with one timestamp. -/
def tie (n : ℕ) : AlertRecord :=
  AlertRecord.between (String.ofList (List.replicate n 'x')) 1 "10.0.0.1" "10.0.0.2"

theorem tie_injective : Function.Injective fun n => (tie n).alertId := by
  intro m n heq
  have hlen := congrArg (fun s => s.toList.length) heq
  simpa [tie, AlertRecord.between] using hlen

/-- The tied alerts have ids of their own. -/
theorem nodup_ties (n : ℕ) : (((List.range n).map tie).map AlertRecord.alertId).Nodup := by
  rw [List.map_map]
  exact List.nodup_range.map tie_injective

/-- A client that connects at time zero, while `n` alerts with one later timestamp
are stored. -/
def tiesStored (n : ℕ) : Start where
  table := ⟨(List.range n).map tie, nodup_ties n⟩
  cursor := ⟨0, []⟩
  sent := []
  remembers _ hi := absurd hi List.not_mem_nil
  distinct := List.nodup_nil

/-- A tick under the orders of insertion. -/
def plainTick : Event := .tick orderByTimestamp Correlator.insertionOrder

/-- The ids of the stored alerts. -/
def tieIds (n : ℕ) : List String := ((List.range n).map tie).map AlertRecord.alertId

theorem length_tieIds (n : ℕ) : (tieIds n).length = n := by
  unfold tieIds
  rw [List.length_map, List.length_map, List.length_range]

/-- All of the stored alerts are read, in their order. -/
theorem candidates_ties {n : ℕ} (htable : s.table = (tiesStored n).table)
    (hts : s.cursor.lastTs ≤ 1) :
    candidates orderByTimestamp s = ((List.range n).map tie).filter fun a =>
      decide (a.alertId ∉ s.cursor.sentAlertIds) := by
  -- every tied alert is at or after the cursor, in the order of its index
  have hread : recentAlerts orderByTimestamp s.table s.cursor.lastTs = (List.range n).map tie := by
    rw [htable]
    show List.mergeSort (((List.range n).map tie).filter _) _ = _
    have hall : ((List.range n).map tie).filter
        (Query.matches ⟨some s.cursor.lastTs, none, none, none⟩) = (List.range n).map tie := by
      rw [List.filter_eq_self]
      intro a ha
      obtain ⟨k, -, rfl⟩ := List.mem_map.mp ha
      rw [Query.matches_iff]
      simpa [Query.Matches, tie, AlertRecord.between] using hts
    rw [hall]
    refine List.mergeSort_of_pairwise ?_
    rw [List.pairwise_map]
    exact List.pairwise_lt_range.imp fun _ => decide_eq_true (le_refl _)
  unfold candidates
  rw [hread]
  refine List.filter_congr fun a _ => ?_
  rfl

/-- The first `k` alerts were sent and none of them is forgotten. -/
structure Tied (n k : ℕ) (s : State) : Prop where
  table : s.table = (tiesStored n).table
  lastTs : s.cursor.lastTs ≤ 1
  ids : s.cursor.sentAlertIds = (tieIds n).take k
  sent : s.sent = (tieIds n).take k

/-- The next tick sends the next fifty. -/
theorem Tied.yields {n k : ℕ} (ht : Tied n k s) :
    (step s plainTick).2 = (((List.range n).map tie).drop k).take 50 := by
  unfold plainTick
  rw [tick_snd, candidates_ties ht.table ht.lastTs, ht.ids, tieIds,
    filter_not_mem_take (nodup_ties n)]

theorem Tied.advance {n k : ℕ} (ht : Tied n k s) :
    (EventGenerator.advance view s.cursor (step s plainTick).2).sentAlertIds =
      (tieIds n).take (k + 50) := by
  show s.cursor.sentAlertIds ++ (step s plainTick).2.map AlertRecord.alertId = _
  rw [ht.yields, ht.ids, List.map_take, List.map_drop, List.take_add]
  rfl

theorem Tied.next_sent {n k : ℕ} (ht : Tied n k s) :
    (step s plainTick).1.sent = (tieIds n).take (k + 50) := by
  rw [← ht.advance]
  show s.sent ++ _ = s.cursor.sentAlertIds ++ _
  rw [ht.sent, ht.ids]
  rfl

theorem Tied.next_lastTs {n k : ℕ} (ht : Tied n k s) :
    (step s plainTick).1.cursor.lastTs ≤ 1 := by
  unfold plainTick
  rw [tick_cursor, lastTs_trimSent]
  obtain heq | ⟨y, hy, heq⟩ := lastTs_advance (v := view) s.cursor (step s plainTick).2
  · exact le_of_eq_of_le heq ht.lastTs
  · have hrow := (mem_candidates.mp (mem_candidates_of_tick hy)).1
    rw [ht.table] at hrow
    obtain ⟨m, -, rfl⟩ := List.mem_map.mp hrow
    exact le_of_eq heq

/-- A tick that leaves no more than ten thousand ids. -/
theorem Tied.next {n k : ℕ} (ht : Tied n k s) (hk : k + 50 ≤ 10000) :
    Tied n (k + 50) (step s plainTick).1 := by
  refine ⟨ht.table, ht.next_lastTs, ?_, ht.next_sent⟩
  have hshort : (EventGenerator.advance view s.cursor (step s plainTick).2).sentAlertIds.length
      ≤ 10000 := by
    rw [ht.advance, List.length_take]
    omega
  unfold plainTick at hshort ⊢
  rw [tick_cursor, trimSent_of_le hshort]
  exact ht.advance

/-- After j ticks over tied alerts the first 50 j of them were sent. -/
theorem tied_after (n : ℕ) {j : ℕ} (hj : j ≤ 200) :
    Tied n (50 * j) ((machine (tiesStored n)).after (List.replicate j plainTick)) := by
  induction j with
  | zero =>
    exact ⟨rfl, by norm_num [machine, Machine.after, Machine.afterFrom, tiesStored], rfl, rfl⟩
  | succ j ih =>
    rw [List.replicate_succ', Machine.after_concat]
    exact (ih (by omega)).next (by omega)

theorem map_tie_range_succ (m : ℕ) :
    (List.range (m + 1)).map tie = tie 0 :: ((List.range m).map Nat.succ).map tie := by
  rw [List.range_succ_eq_map, List.map_cons]

theorem tieIds_succ (m : ℕ) :
    tieIds (m + 1) = (tie 0).alertId ::
      (((List.range m).map Nat.succ).map tie).map AlertRecord.alertId := by
  unfold tieIds
  rw [map_tie_range_succ, List.map_cons]

/-- Two alerts are stored, a third is committed, and a tick sends them. -/
theorem store_stream_skips_none_three_alerts :
    SendsEarliest (tiesStored 2) ((machine (tiesStored 2)).after [.commit (tie 2)])
      ((machine (tiesStored 2)).out ((machine (tiesStored 2)).after [.commit (tie 2)])
        plainTick) := by
  have hord : InOrder [.commit (tie 2), plainTick] := List.pairwise_singleton _ _
  have hahead : NoneAhead (tiesStored 2) [.commit (tie 2), plainTick] := by
    intro b hb _ a ha _
    obtain ⟨m, -, rfl⟩ := List.mem_map.mp hb
    obtain rfl : a = tie 2 := List.mem_singleton.mp ha
    exact le_refl _
  refine (store_stream_skips_none (tiesStored 2) _ hord hahead).2 [.commit (tie 2)]
    orderByTimestamp Correlator.insertionOrder [] rfl ?_
  -- nothing was sent yet
  intro a _ _ hsent
  exact absurd hsent List.not_mem_nil

/-- Two ticks over three alerts. -/
theorem store_stream_sends_once_three_alerts :
    ((machine (tiesStored 3)).after (List.replicate 2 plainTick)).sent.Nodup := by
  refine store_stream_sends_once (tiesStored 3) _ (along_remembered_of_few rfl ?_)
  rw [(tied_after 3 (by norm_num : 2 ≤ 200)).sent, List.length_take, length_tieIds]
  norm_num

/-- A tick that takes the set over ten thousand ids makes it forget the first. -/
theorem Tied.forgets {m k : ℕ} (ht : Tied (m + 1) k s) (hk : k + 50 > 10000)
    (hm : k + 50 ≤ m + 1) :
    (tie 0).alertId ∉ (step s plainTick).1.cursor.sentAlertIds := by
  have hlen : ((tieIds (m + 1)).take (k + 50)).length = k + 50 := by
    rw [List.length_take, length_tieIds]
    exact Nat.min_eq_left hm
  -- the set has grown beyond ten thousand
  have hover : (EventGenerator.advance view s.cursor (step s plainTick).2).sentAlertIds.length
      > 10000 := by
    rw [ht.advance, hlen]
    exact hk
  have hset : (step s plainTick).1.cursor.sentAlertIds =
      ((tieIds (m + 1)).take (k + 50)).drop (((tieIds (m + 1)).take (k + 50)).length - 5000) := by
    rw [← ht.advance]
    unfold plainTick at hover ⊢
    rw [tick_cursor, sentAlertIds_trimSent_of_gt hover]
    rfl
  have hnodup : (tieIds (m + 1)).Nodup := nodup_ties (m + 1)
  -- the last five thousand ids do not reach back to the first
  rw [hset, hlen]
  rw [tieIds_succ] at hnodup ⊢
  exact head_not_mem_drop_take hnodup (k + 50) (by omega)

/-- ... and the next tick sends the first alert again. -/
theorem Tied.sendsAgain {m k : ℕ} (ht : Tied (m + 1) k s) (hk : k + 50 > 10000)
    (hm : k + 50 ≤ m + 1) :
    tie 0 ∈ (step (step s plainTick).1 plainTick).2 ∧
      (tie 0).alertId ∈ (step s plainTick).1.sent := by
  refine ⟨?_, ?_⟩
  · -- the forgotten alert is the first candidate of the next tick
    have hcand : candidates orderByTimestamp (step s plainTick).1 =
        tie 0 :: ((((List.range m).map Nat.succ).map tie).filter fun a =>
          decide (a.alertId ∉ (step s plainTick).1.cursor.sentAlertIds)) := by
      have htable : (step s plainTick).1.table = (tiesStored (m + 1)).table := ht.table
      rw [candidates_ties htable ht.next_lastTs, map_tie_range_succ]
      exact List.filter_cons_of_pos (decide_eq_true (ht.forgets hk hm))
    have hout := tick_snd orderByTimestamp Correlator.insertionOrder (step s plainTick).1
    rw [hcand, List.take_succ_cons] at hout
    show tie 0 ∈ (step (step s plainTick).1 (.tick orderByTimestamp _)).2
    rw [hout]
    exact List.mem_cons_self
  · rw [ht.next_sent, tieIds_succ, List.take_succ_cons]
    exact List.mem_cons_self

/-- Once two hundred and one ticks have sent that many alerts, the next one sends
an alert that was sent. -/
theorem ties_sent_again {m j : ℕ} (hj : j ≤ 200) (hover : 50 * j + 50 > 10000)
    (hm : 50 * j + 50 ≤ m + 1) :
    tie 0 ∈ (machine (tiesStored (m + 1))).out
        ((machine (tiesStored (m + 1))).after (List.replicate (j + 1) plainTick)) plainTick ∧
      (tie 0).alertId ∈
        ((machine (tiesStored (m + 1))).after (List.replicate (j + 1) plainTick)).sent := by
  rw [List.replicate_succ', Machine.after_concat]
  exact (tied_after (m + 1) hj).sendsAgain hover hm

theorem next_plainTick_sent (start : Start) (s : State) :
    ((machine start).next s plainTick).sent =
      s.sent ++ ((machine start).out s plainTick).map AlertRecord.alertId := rfl

theorem commits_ticks (j : ℕ) : commits (List.replicate j plainTick) = [] := by
  induction j with
  | zero => rfl
  | succ j ih => exact ih

/-- **A tick that sends what was sent.** Ten thousand and fifty-one alerts with
one timestamp are stored. The tick that takes the set to ten thousand and fifty
ids drops the first of them, and the next one sends these again while the last
alert waits. -/
theorem store_stream_resends :
    ¬ ∀ (start : Start) (h : List Event), InOrder h →
      (∀ pre, pre <+: h → NoSkip start ((machine start).after pre)) ∧
      (∀ pre ord order post, h = pre ++ .tick ord order :: post →
        SendsEarliest start ((machine start).after pre)
          ((machine start).out ((machine start).after pre) (.tick ord order))) := by
  intro hall
  have hticks : commits (List.replicate (200 + 1) plainTick ++ [plainTick]) = [] := by
    rw [← List.replicate_succ', commits_ticks]
  have hord : InOrder (List.replicate (200 + 1) plainTick ++ [plainTick]) := by
    unfold InOrder
    rw [hticks]
    exact List.Pairwise.nil
  -- ten thousand and fifty-one alerts of one timestamp, sent fifty a tick
  have hsends := (hall (tiesStored (10050 + 1)) _ hord).2 (List.replicate (200 + 1) plainTick)
    orderByTimestamp Correlator.insertionOrder [] rfl
  obtain ⟨hagain, hsent⟩ := ties_sent_again (m := 10050) (j := 200) (le_refl _) (by norm_num)
    (by norm_num)
  exact (hsends.waiting _ hagain).2.1 hsent

/-- An alert that the replay commits later and that is older than those stored. -/
def lateComer : AlertRecord := AlertRecord.between "late" (1 / 2) "10.0.0.1" "10.0.0.2"

/-- **A commit behind the cursor.** An alert with timestamp one is stored when the replay
begins, and the first tick takes the cursor there; the replay then commits an alert with
timestamp one half, and no read will find it. -/
theorem stored_ahead_skips :
    ¬ ∀ (start : Start) (h : List Event), InOrder h → NoSkip start ((machine start).after h) := by
  intro hall
  have hord : InOrder [plainTick, .commit lateComer] := List.pairwise_singleton _ _
  have hrow : lateComer ∈
      ((machine (tiesStored 1)).after [plainTick, .commit lateComer]).table.rows := by
    show lateComer ∈ ((tiesStored 1).table.insertOrIgnore lateComer).rows
    rw [AlertTable.insertOrIgnore, dif_neg (by decide +kernel)]
    exact List.mem_append_right _ (List.mem_singleton_self _)
  have hno := hall (tiesStored 1) [plainTick, .commit lateComer] hord lateComer
    ⟨hrow, by decide +kernel, by decide +kernel⟩
  exact absurd hno (by decide +kernel)

/-- **An alert sent twice**, in the run over ten thousand and fifty-one alerts. -/
theorem store_stream_duplicates :
    ¬ ∀ (start : Start) (h : List Event), ((machine start).after h).sent.Nodup := by
  intro hall
  obtain ⟨hagain, hsent⟩ := ties_sent_again (m := 10050) (j := 200) (le_refl _) (by norm_num)
    (by norm_num)
  have hnodup := hall (tiesStored (10050 + 1))
    (List.replicate (200 + 1) plainTick ++ [plainTick])
  rw [Machine.after_concat, next_plainTick_sent] at hnodup
  exact (List.nodup_append.mp hnodup).2.2 _ hsent _ (List.mem_map_of_mem hagain) rfl

end StoreStream

end Sentrix
