import Mathlib.Data.List.ReduceOption
import Mathlib.Tactic.Common
import Sentrix.Lib.Conveyor
import Sentrix.Lib.Machine
import Sentrix.Lib.Value

/-!
# The event stream behind Kafka

With `PIPELINE_MODE=kafka` the server of `dashboard/api/server.py` keeps two queues. A consumer
thread for each topic (`_consume`) puts what it decodes into its queue and gives it up if the
queue is full. The clients of the event stream and the requests for the telemetry take out of
these queues what they show: there is one queue for all of them, so what one takes the others
do not see.

A client (`event_generator`) first empties the telemetry queue and shows the last snapshot, then
takes up to fifty alerts and sends those whose id it has not sent before; this branch never cuts
`sent_alert_ids`. Alerts are taken by the event loop alone, but `get_telemetry` runs in threads of
its own: between `empty` and `get_nowait` another reader may take the snapshot
(`Drain.take`).

A step of the model is a poll of a consumer, a turn of a client up to its next access to a queue,
or such a turn of a request. Besides what the program keeps the state records what was
taken, and by whom, and what was given up.
-/

namespace Sentrix

/-- What a set tells its elements apart by; a truth value equals its number. -/
inductive HashKey
  | none
  | num (q : ℚ)
  | str (s : String)
  | object (repr : String)
  deriving DecidableEq

/-- `hash`, and `none` where it raises: lists and dictionaries cannot be in a set. -/
def Value.hashKey : Value → Option HashKey
  | .none => some .none
  | .bool b => some (.num (if b then 1 else 0))
  | .num q => some (.num q)
  | .str s => some (.str s)
  | .list _ => Option.none
  | .dict _ => Option.none
  | .object repr => some (.object repr)

namespace KafkaStream

open scoped List

/-- The loop that empties the telemetry queue, with `snap`. -/
inductive Drain
  /-- Before `empty()`. -/
  | test (snap : Option Value)
  /-- Before `get_nowait()`. -/
  | take (snap : Option Value)

/-- Where a client is in its tick. -/
inductive ClientPhase
  /-- Before `request.is_disconnected()`. -/
  | head
  | telemetry (drain : Drain)
  /-- In the loop over the alerts, with `drained`. -/
  | alerts (drained : ℕ)
  | gone

/-- A client of `/api/stream`. -/
structure StreamClient where
  phase : ClientPhase
  sentAlertIds : List HashKey
  /-- The alert events it was sent, in order. -/
  alerts : List Value
  /-- The telemetry events it was sent, `none` for `get_current_telemetry()`. -/
  telemetry : List (Option Value)

/-- A request to `/api/stats/telemetry`: under way, or answered. -/
inductive TelemetryRequest
  | draining (drain : Drain)
  | answered (telem : Option Value)

/-- Who takes from the telemetry queue: a client or a request. -/
abbrev Reader : Type := ℕ ⊕ ℕ

/-- The queues, the clients and the requests. -/
structure State where
  kafkaAlertQueue : BoundedQueue Value 2000
  kafkaTelemQueue : BoundedQueue Value 100
  clients : ℕ → StreamClient
  requests : ℕ → TelemetryRequest
  alertsTaken : List (ℕ × Value)
  alertsRefused : List Value
  telemTaken : List (Reader × Value)
  telemRefused : List Value

/-- A message that a consumer polls, by its body, or a turn of a client or a request. -/
inductive Event
  | alert (value : Option (List UInt8))
  | snapshot (value : Option (List UInt8))
  /-- A client that is at its head is told whether it is disconnected. -/
  | client (c : ℕ) (disconnected : Bool)
  /-- The response of a client is cancelled. -/
  | cancel (c : ℕ)
  | request (i : ℕ)

/-- Before anything. -/
def start : State where
  kafkaAlertQueue := .empty
  kafkaTelemQueue := .empty
  clients _ := ⟨.head, [], [], []⟩
  requests _ := .draining (.test none)
  alertsTaken := []
  alertsRefused := []
  telemTaken := []
  telemRefused := []

/-- `snap if snap else get_current_telemetry()`. -/
def shown (snap : Option Value) : Option Value := snap.filter Value.truthy

/-- The id that `sent_alert_ids` knows an alert by, for an alert with an id that is sent. -/
def alertId? (alert : Value) : Option HashKey :=
  (alert.get "alert_id" (.str "")).bind fun id => if id.truthy then id.hashKey else none

/-- The loop over the alerts goes on, and counts the alert. -/
def StreamClient.drain (s : StreamClient) (drained : ℕ) : StreamClient :=
  { s with phase := .alerts (drained + 1) }

/-- A client with an alert it has taken. -/
def StreamClient.push (s : StreamClient) (drained : ℕ) (alert : Value) : StreamClient :=
  match alert.get "alert_id" (.str "") with
  -- what is no dictionary has no `get`
  | none => { s with phase := .head }
  | some id =>
    if id.truthy then
      match id.hashKey with
      | none => { s with phase := .head }
      | some key =>
        if key ∈ s.sentAlertIds then s.drain drained
        else
          { s with
            phase := .alerts (drained + 1)
            sentAlertIds := s.sentAlertIds ++ [key]
            alerts := s.alerts ++ [alert] }
    else s.drain drained

/-- A turn of the loop over the telemetry queue, for a reader. -/
inductive DrainTurn
  | goOn (drain : Drain)
  | took (value : Value) (queue : BoundedQueue Value 100)
  /-- The loop is left, with `snap`. -/
  | left (snap : Option Value)

def Drain.turn (queue : BoundedQueue Value 100) : Drain → DrainTurn
  | .test snap => if queue.size = 0 then .left snap else .goOn (.take snap)
  | .take snap =>
    match queue.get with
    -- `except Exception: break`
    | none => .left snap
    | some (value, queue) => .took value queue

/-- A turn of a client. -/
def clientTurn (s : State) (c : ℕ) (disconnected : Bool) : State :=
  let me := s.clients c
  match me.phase with
  | .head =>
    let phase : ClientPhase := if disconnected then .gone else .telemetry (.test none)
    { s with clients := Function.update s.clients c { me with phase } }
  | .telemetry drain =>
    match drain.turn s.kafkaTelemQueue with
    | .goOn drain =>
      { s with clients := Function.update s.clients c { me with phase := .telemetry drain } }
    | .took value queue =>
      { s with
        kafkaTelemQueue := queue
        telemTaken := s.telemTaken ++ [(.inl c, value)]
        clients := Function.update s.clients c
          { me with phase := .telemetry (.test (some value)) } }
    | .left snap =>
      { s with
        clients := Function.update s.clients c
          { me with phase := .alerts 0, telemetry := me.telemetry ++ [shown snap] } }
  | .alerts drained =>
    if drained < 50 then
      match s.kafkaAlertQueue.get with
      | none => { s with clients := Function.update s.clients c { me with phase := .head } }
      | some (alert, queue) =>
        { s with
          kafkaAlertQueue := queue
          alertsTaken := s.alertsTaken ++ [(c, alert)]
          clients := Function.update s.clients c (me.push drained alert) }
    else { s with clients := Function.update s.clients c { me with phase := .head } }
  | .gone => s

/-- A turn of a request. -/
def requestTurn (s : State) (i : ℕ) : State :=
  match s.requests i with
  | .draining drain =>
    match drain.turn s.kafkaTelemQueue with
    | .goOn drain => { s with requests := Function.update s.requests i (.draining drain) }
    | .took value queue =>
      { s with
        kafkaTelemQueue := queue
        telemTaken := s.telemTaken ++ [(.inr i, value)]
        requests := Function.update s.requests i (.draining (.test (some value))) }
    | .left snap =>
      { s with requests := Function.update s.requests i (.answered (shown snap)) }
  | .answered _ => s

/-- `q.put_nowait(…)` on the queue of the alerts. -/
def putAlert (s : State) (alert : Value) : State :=
  match s.kafkaAlertQueue.put alert with
  | some queue => { s with kafkaAlertQueue := queue }
  | none => { s with alertsRefused := s.alertsRefused ++ [alert] }

/-- `q.put_nowait(…)` on the queue of the telemetry. -/
def putSnapshot (s : State) (snap : Value) : State :=
  match s.kafkaTelemQueue.put snap with
  | some queue => { s with kafkaTelemQueue := queue }
  | none => { s with telemRefused := s.telemRefused ++ [snap] }

/-- `json.loads`; `none` where it raises. -/
abbrev Loads : Type := Option (List UInt8) → Option Value

def step (loads : Loads) (s : State) : Event → State
  | .alert value => ((loads value).map (putAlert s)).getD s
  | .snapshot value => ((loads value).map (putSnapshot s)).getD s
  | .client c disconnected => clientTurn s c disconnected
  | .cancel c =>
    { s with clients := Function.update s.clients c { s.clients c with phase := .gone } }
  | .request i => requestTurn s i

def machine (loads : Loads) : Machine State Event Unit where
  init := start
  step s e := (step loads s e, ())

/-- The alerts that the consumer has decoded, in order. -/
def alertsPolled (loads : Loads) : List Event → List Value :=
  List.filterMap fun e =>
    match e with
    | .alert value => loads value
    | _ => none

/-- The snapshots that the consumer has decoded, in order. -/
def snapshotsPolled (loads : Loads) : List Event → List Value :=
  List.filterMap fun e =>
    match e with
    | .snapshot value => loads value
    | _ => none

/-- What a request answers with of the telemetry queue. -/
def TelemetryRequest.shown : TelemetryRequest → List Value
  | .draining _ => []
  | .answered telem => telem.toList

/-- What a reader was shown of the telemetry queue. -/
def State.shownTo (s : State) : Reader → List Value
  | .inl c => (s.clients c).telemetry.reduceOption
  | .inr i => (s.requests i).shown

variable {loads : Loads} {s : State} {h : List Event}

theorem alertsPolled_concat (loads : Loads) (h : List Event) (e : Event) :
    alertsPolled loads (h ++ [e]) = alertsPolled loads h ++ alertsPolled loads [e] :=
  List.filterMap_append

theorem snapshotsPolled_concat (loads : Loads) (h : List Event) (e : Event) :
    snapshotsPolled loads (h ++ [e]) = snapshotsPolled loads h ++ snapshotsPolled loads [e] :=
  List.filterMap_append

/-- A record that parses is one polled alert, any other none. -/
theorem alertsPolled_alert (value : Option (List UInt8)) :
    alertsPolled loads [.alert value] = (loads value).toList := by
  unfold alertsPolled
  rw [List.filterMap_cons, List.filterMap_nil]
  dsimp only
  cases loads value with
  | none => rfl
  | some alert => rfl

/-- A record that parses is one polled snapshot, any other none. -/
theorem snapshotsPolled_snapshot (value : Option (List UInt8)) :
    snapshotsPolled loads [.snapshot value] = (loads value).toList := by
  unfold snapshotsPolled
  rw [List.filterMap_cons, List.filterMap_nil]
  dsimp only
  cases loads value with
  | none => rfl
  | some snap => rfl

/-! ### The alerts -/

/-- What a client keeps of the alerts it has taken. -/
structure ClientBooks (took : List Value) (me : StreamClient) : Prop where
  sublist : me.alerts <+ took
  ids : me.alerts.map alertId? = me.sentAlertIds.map some
  nodup : me.sentAlertIds.Nodup
  complete : ∀ v ∈ took, ∀ key, alertId? v = some key → key ∈ me.sentAlertIds

/-- The books do not depend on the phase and the telemetry. -/
theorem ClientBooks.other {took : List Value} {me : StreamClient} (h : ClientBooks took me)
    (phase : ClientPhase) (telemetry : List (Option Value)) :
    ClientBooks took { me with phase, telemetry } :=
  ⟨h.sublist, h.ids, h.nodup, h.complete⟩

/-- An alert without an id that can be sent is taken and left aside. -/
theorem ClientBooks.skip {took : List Value} {me : StreamClient} (h : ClientBooks took me)
    (phase : ClientPhase) {alert : Value}
    (hid : ∀ key, alertId? alert = some key → key ∈ me.sentAlertIds) :
    ClientBooks (took ++ [alert]) { me with phase } where
  sublist := h.sublist.trans (List.sublist_append_left took [alert])
  ids := h.ids
  nodup := h.nodup
  complete v hv key hkey := by
    obtain hv | hv := List.mem_append.mp hv
    · exact h.complete v hv key hkey
    · rw [List.mem_singleton.mp hv] at hkey
      exact hid key hkey

/-- An alert with a new id is sent. -/
theorem ClientBooks.send {took : List Value} {me : StreamClient} (h : ClientBooks took me)
    (phase : ClientPhase) {alert : Value} {key : HashKey} (hid : alertId? alert = some key)
    (hnew : key ∉ me.sentAlertIds) :
    ClientBooks (took ++ [alert])
      { me with
        phase, sentAlertIds := me.sentAlertIds ++ [key], alerts := me.alerts ++ [alert] } where
  sublist := h.sublist.append (List.Sublist.refl [alert])
  ids := by
    rw [List.map_append, List.map_append, h.ids, List.map_singleton, List.map_singleton, hid]
  -- the key is new to the client, so its ids stay distinct
  nodup := List.nodup_append.mpr ⟨h.nodup, List.nodup_singleton key, fun a ha b hb => by
    rw [List.mem_singleton.mp hb]
    exact fun hab => hnew (hab ▸ ha)⟩
  complete v hv k hk := by
    obtain hv | hv := List.mem_append.mp hv
    · exact List.mem_append_left _ (h.complete v hv k hk)
    · rw [List.mem_singleton.mp hv, hid] at hk
      exact List.mem_append_right _ (List.mem_singleton.mpr (Option.some.inj hk).symm)

/-- What a client took under an id, it was sent under this id. -/
theorem ClientBooks.exists_sent {took : List Value} {me : StreamClient} (h : ClientBooks took me)
    {v : Value} (hv : v ∈ took) {key : HashKey} (hid : alertId? v = some key) :
    ∃ w ∈ me.alerts, alertId? w = some key := by
  have hkey : some key ∈ me.alerts.map alertId? := by
    rw [h.ids]
    exact List.mem_map_of_mem (h.complete v hv key hid)
  exact List.mem_map.mp hkey

/-- **What a client does with an alert.** -/
theorem ClientBooks.push {took : List Value} {me : StreamClient} (h : ClientBooks took me)
    (drained : ℕ) (alert : Value) : ClientBooks (took ++ [alert]) (me.push drained alert) := by
  unfold StreamClient.push
  cases hget : alert.get "alert_id" (.str "") with
  -- without an id there is nothing to remember or to send
  | none => exact h.skip _ fun key hkey => by rw [alertId?, hget] at hkey; cases hkey
  | some id =>
    have hid : alertId? alert = if id.truthy then id.hashKey else none := by
      rw [alertId?, hget]
      rfl
    dsimp only
    split
    · -- a truthy id counts, if it can be hashed
      next htruthy =>
      rw [if_pos htruthy] at hid
      cases hhash : id.hashKey with
      | none => exact h.skip _ fun key hkey => by rw [hid, hhash] at hkey; cases hkey
      | some key =>
        rw [hhash] at hid
        dsimp only
        split
        · -- an id that was sent before
          next hmem =>
          refine h.skip _ fun k hk => ?_
          rw [hid] at hk
          exact Option.some.inj hk ▸ hmem
        · next hnew => exact h.send _ hid hnew
    · next htruthy =>
      refine h.skip _ fun key hkey => ?_
      rw [hid, if_neg htruthy] at hkey
      cases hkey

theorem telemetry_push (me : StreamClient) (drained : ℕ) (alert : Value) :
    (me.push drained alert).telemetry = me.telemetry := by
  unfold StreamClient.push StreamClient.drain
  repeat' split
  all_goals rfl

/-- The client is in the loop with one alert more, or has left it. -/
theorem phase_push (me : StreamClient) (drained : ℕ) (alert : Value) :
    (me.push drained alert).phase = .alerts (drained + 1) ∨
      (me.push drained alert).phase = .head := by
  unfold StreamClient.push StreamClient.drain
  repeat' split
  all_goals simp

/-- What a run makes of the alerts. -/
structure AlertInv (loads : Loads) (h : List Event) (s : State) : Prop where
  books : Balanced (alertsPolled loads h) (s.alertsTaken.map Prod.snd) s.kafkaAlertQueue.items
    s.alertsRefused
  client : ∀ c, ClientBooks (share s.alertsTaken c) (s.clients c)

/-- A polled alert enters the queue, or is refused by a full one. -/
theorem AlertInv.putAlert (hi : AlertInv loads h s) (value : Option (List UInt8)) (alert : Value)
    (hloads : loads value = some alert) :
    AlertInv loads (h ++ [.alert value]) (putAlert s alert) := by
  have hpolled : alertsPolled loads [.alert value] = [alert] := by
    rw [alertsPolled_alert, hloads]
    rfl
  have henter := hi.books.enter [alert]
  rw [← hpolled, ← alertsPolled_concat, hpolled] at henter
  unfold KafkaStream.putAlert
  cases hput : s.kafkaAlertQueue.put alert with
  | none =>
    -- the queue is full: what entered is lost at once
    refine ⟨?_, hi.client⟩
    have hlose : Balanced _ _ (s.kafkaAlertQueue.items ++ []) (s.alertsRefused ++ [alert]) :=
      Balanced.lose (by rwa [List.append_nil])
    rwa [List.append_nil] at hlose
  | some queue =>
    refine ⟨?_, hi.client⟩
    rw [← BoundedQueue.items_put hput] at henter
    exact henter

/-- A snapshot is no alert. -/
theorem AlertInv.putSnapshot (hi : AlertInv loads h s) (snap : Value) :
    AlertInv loads h (putSnapshot s snap) := by
  unfold KafkaStream.putSnapshot
  split
  · exact ⟨hi.books, hi.client⟩
  · exact ⟨hi.books, hi.client⟩

/-- A client that takes no alert keeps its books. -/
theorem AlertInv.keep (hi : AlertInv loads h s) {c : ℕ} {me : StreamClient}
    (hclient : ClientBooks (share s.alertsTaken c) me) (kafkaTelemQueue : BoundedQueue Value 100)
    (telemTaken : List (Reader × Value)) :
    AlertInv loads h
      { s with kafkaTelemQueue, telemTaken, clients := Function.update s.clients c me } where
  books := hi.books
  client := (Function.forall_update_iff s.clients fun c => ClientBooks (share s.alertsTaken c)).mpr
    ⟨hclient, fun c' _ => hi.client c'⟩

/-- A client takes an alert. -/
theorem AlertInv.take (hi : AlertInv loads h s) (c drained : ℕ) {alert : Value}
    {queue : BoundedQueue Value 2000} (hget : s.kafkaAlertQueue.get = some (alert, queue)) :
    AlertInv loads h
      { s with
        kafkaAlertQueue := queue
        alertsTaken := s.alertsTaken ++ [(c, alert)]
        clients := Function.update s.clients c ((s.clients c).push drained alert) } where
  books := by
    rw [List.map_append, List.map_singleton]
    -- the oldest item leaves the queue, so the books stay in order
    have hbooks := hi.books
    rw [BoundedQueue.items_get hget, ← List.singleton_append] at hbooks
    exact hbooks.leave
  -- the client's own share grows by the alert, the other shares stay
  client := (Function.forall_update_iff s.clients fun c' =>
      ClientBooks (share (s.alertsTaken ++ [(c, alert)]) c')).mpr
    ⟨by rw [share_concat_self]; exact (hi.client c).push drained alert,
      fun c' hc => by rw [share_concat_of_ne hc.symm]; exact hi.client c'⟩

/-- A client's turn takes at most one alert, into its own share. -/
theorem AlertInv.clientTurn (hi : AlertInv loads h s) (c : ℕ) (disconnected : Bool) :
    AlertInv loads h (clientTurn s c disconnected) := by
  have hbooks := hi.client c
  unfold KafkaStream.clientTurn
  dsimp only
  cases (s.clients c).phase with
  | head => exact hi.keep (hbooks.other _ _) _ _
  | telemetry drain =>
    -- the telemetry half of a tick does not touch the alerts
    dsimp only
    cases drain.turn s.kafkaTelemQueue with
    | goOn drain => exact hi.keep (hbooks.other _ _) _ _
    | took value queue => exact hi.keep (hbooks.other _ _) _ _
    | left snap => exact hi.keep (hbooks.other _ _) _ _
  | alerts drained =>
    -- the other half takes one more, as long as the tick allows
    dsimp only
    split
    · cases hget : s.kafkaAlertQueue.get with
      | none => exact hi.keep (hbooks.other _ _) _ _
      | some taken => exact hi.take c drained hget
    · exact hi.keep (hbooks.other _ _) _ _
  | gone => exact hi

/-- The status endpoint takes no alert. -/
theorem AlertInv.requestTurn (hi : AlertInv loads h s) (i : ℕ) :
    AlertInv loads h (requestTurn s i) := by
  unfold KafkaStream.requestTurn
  repeat' split
  all_goals exact ⟨hi.books, hi.client⟩

/-- An event that decodes no alert. -/
theorem AlertInv.silent {e : Event} (hi : AlertInv loads h s) (he : alertsPolled loads [e] = []) :
    AlertInv loads (h ++ [e]) s :=
  ⟨by rw [alertsPolled_concat, he, List.append_nil]; exact hi.books, hi.client⟩

/-- What one event preserves. -/
theorem AlertInv.step (hi : AlertInv loads h s) (e : Event) :
    AlertInv loads (h ++ [e]) (step loads s e) := by
  cases e with
  | alert value =>
    show AlertInv loads _ (((loads value).map (KafkaStream.putAlert s)).getD s)
    cases hloads : loads value with
    | none => exact hi.silent (by rw [alertsPolled_alert, hloads]; rfl)
    | some alert => exact hi.putAlert value alert hloads
  | snapshot value =>
    show AlertInv loads _ (((loads value).map (KafkaStream.putSnapshot s)).getD s)
    cases hloads : loads value with
    | none => exact hi.silent rfl
    | some snap => exact (hi.silent rfl).putSnapshot snap
  -- the remaining events poll nothing
  | client c disconnected => exact (hi.silent rfl).clientTurn c disconnected
  | cancel c => exact (hi.silent rfl).keep ((hi.client c).other _ _) _ _
  | request i => exact (hi.silent rfl).requestTurn i

/-- What every run preserves. -/
theorem alertInv_after (loads : Loads) (h : List Event) :
    AlertInv loads h ((machine loads).after h) := by
  refine (machine loads).invariant (AlertInv loads) ?_ (fun _ e hi => hi.step e) h
  exact ⟨Balanced.nil, fun c => ⟨List.Sublist.refl _, rfl, List.nodup_nil,
    fun v hv => absurd hv List.not_mem_nil⟩⟩

/-- An alert is refused by a full queue only. -/
theorem alertsRefused_step (hroom : s.kafkaAlertQueue.size < 2000) (e : Event) :
    (step loads s e).alertsRefused = s.alertsRefused := by
  cases e with
  | alert value =>
    show (((loads value).map (putAlert s)).getD s).alertsRefused = _
    cases loads value with
    | none => rfl
    | some alert =>
      show (putAlert s alert).alertsRefused = _
      unfold putAlert
      cases hput : s.kafkaAlertQueue.put alert with
      -- only a full queue refuses
      | none => exact absurd (BoundedQueue.put_eq_none_iff.mp hput) (Nat.not_le.mpr hroom)
      | some queue => rfl
  | snapshot value =>
    show (((loads value).map (putSnapshot s)).getD s).alertsRefused = _
    cases loads value with
    | none => rfl
    | some snap =>
      show (putSnapshot s snap).alertsRefused = _
      unfold putSnapshot
      split <;> rfl
  | client c disconnected =>
    show (clientTurn s c disconnected).alertsRefused = _
    unfold clientTurn
    dsimp only
    repeat' split
    all_goals rfl
  | cancel c => rfl
  | request i =>
    show (requestTurn s i).alertsRefused = _
    unfold requestTurn
    repeat' split
    all_goals rfl

/-- How many alerts a client may still be sent in its tick. -/
def ClientPhase.budget : ClientPhase → ℕ
  | .alerts drained => 50 - drained
  | _ => 0

/-- No phase leaves more than fifty alerts of a tick. -/
theorem ClientPhase.budget_le (phase : ClientPhase) : phase.budget ≤ 50 := by
  cases phase with
  | alerts drained => exact Nat.sub_le 50 drained
  | _ => exact Nat.zero_le 50

/-- Between two states of a client: what it has been sent more was left of its tick, or is at
most fifty alerts for each telemetry event that is new. -/
def Paced (me me' : StreamClient) : Prop :=
  me'.alerts.length + me'.phase.budget + 50 * me.telemetry.length ≤
    me.alerts.length + me.phase.budget + 50 * me'.telemetry.length

theorem Paced.refl (me : StreamClient) : Paced me me := Nat.le_refl _

/-- Budgets along two parts of a run add up. -/
theorem Paced.trans {me me' me'' : StreamClient} (h : Paced me me') (h' : Paced me' me'') :
    Paced me me'' := by
  unfold Paced at h h' ⊢
  omega

/-- A tick that is left. -/
theorem Paced.leave (me : StreamClient) {phase : ClientPhase} (hphase : phase.budget = 0) :
    Paced me { me with phase } := by
  unfold Paced
  dsimp only
  omega

/-- A telemetry event begins a tick of fifty alerts. -/
theorem Paced.tick (me : StreamClient) (telem : Option Value) :
    Paced me { me with phase := .alerts 0, telemetry := me.telemetry ++ [telem] } := by
  unfold Paced
  dsimp only [ClientPhase.budget]
  rw [List.length_append, List.length_singleton]
  omega

/-- An alert that is taken is one of the fifty, whether it is sent or not. -/
theorem Paced.push {me : StreamClient} {drained : ℕ} (hphase : me.phase = .alerts drained)
    (hroom : drained < 50) (alert : Value) : Paced me (me.push drained alert) := by
  have hsent : (me.push drained alert).alerts.length + (me.push drained alert).phase.budget ≤
      me.alerts.length + (50 - drained) := by
    unfold StreamClient.push StreamClient.drain
    repeat' split
    all_goals
      dsimp only [ClientPhase.budget]
      try rw [List.length_append, List.length_singleton]
      omega
  unfold Paced
  rw [telemetry_push, hphase]
  exact Nat.add_le_add_right hsent _

/-- A turn that sends an alert spends one of the tick's fifty. -/
theorem paced_clientTurn (s : State) (c : ℕ) (disconnected : Bool) (c' : ℕ) :
    Paced (s.clients c') ((clientTurn s c disconnected).clients c') := by
  by_cases hc : c' = c
  · subst hc
    have hset : ∀ {me : StreamClient}, Paced (s.clients c') me →
        Paced (s.clients c') (Function.update s.clients c' me c') := by
      intro me hme
      rwa [Function.update_self]
    unfold clientTurn
    dsimp only
    cases hphase : (s.clients c').phase with
    | head =>
      cases disconnected with
      | false => exact hset (Paced.leave _ rfl)
      | true => exact hset (Paced.leave _ rfl)
    | telemetry drain =>
      dsimp only
      cases drain.turn s.kafkaTelemQueue with
      | goOn drain => exact hset (Paced.leave _ rfl)
      | took value queue => exact hset (Paced.leave _ rfl)
      | left snap => exact hset (Paced.tick _ _)
    | alerts drained =>
      dsimp only
      split
      · next hroom =>
        cases s.kafkaAlertQueue.get with
        | none => exact hset (Paced.leave _ rfl)
        | some taken => exact hset (Paced.push hphase hroom taken.1)
      · exact hset (Paced.leave _ rfl)
    | gone => exact Paced.refl _
  · -- a client's turn leaves the others alone
    have hsame : (clientTurn s c disconnected).clients c' = s.clients c' := by
      unfold clientTurn
      dsimp only
      repeat' split
      all_goals first
        | rfl
        | exact Function.update_of_ne hc _ _
    rw [hsame]
    exact Paced.refl _

/-- What one event spends of a client's budget. -/
theorem paced_step (loads : Loads) (s : State) (e : Event) (c : ℕ) :
    Paced (s.clients c) ((step loads s e).clients c) := by
  -- polls leave every client as it is
  have hput : ∀ (f : Value → State), (∀ v, (f v).clients = s.clients) →
      ∀ value : Option Value, Paced (s.clients c) (((value.map f).getD s).clients c) := by
    intro f hf value
    cases value with
    | none => exact Paced.refl _
    | some v =>
      rw [Option.map_some, Option.getD_some, hf]
      exact Paced.refl _
  cases e with
  | alert value =>
    refine hput (putAlert s) (fun v => ?_) (loads value)
    unfold putAlert
    split <;> rfl
  | snapshot value =>
    refine hput (putSnapshot s) (fun v => ?_) (loads value)
    unfold putSnapshot
    split <;> rfl
  | client c' disconnected => exact paced_clientTurn s c' disconnected c
  | cancel c' =>
    show Paced (s.clients c)
      (Function.update s.clients c' { s.clients c' with phase := .gone } c)
    -- leaving costs nothing
    by_cases hc : c = c'
    · subst hc
      rw [Function.update_self]
      exact Paced.leave _ rfl
    · rw [Function.update_of_ne hc]
      exact Paced.refl _
  | request i =>
    have hsame : (requestTurn s i).clients = s.clients := by
      unfold requestTurn
      repeat' split
      all_goals rfl
    show Paced (s.clients c) ((requestTurn s i).clients c)
    rw [hsame]
    exact Paced.refl _

/-- What a run spends of a client's budget. -/
theorem paced_after (loads : Loads) (h k : List Event) (c : ℕ) :
    Paced (((machine loads).after h).clients c) (((machine loads).after (h ++ k)).clients c) := by
  induction k using List.reverseRecOn with
  | nil =>
    rw [List.append_nil]
    exact Paced.refl _
  | append_singleton k e ih =>
    rw [← List.append_assoc, Machine.after_concat]
    exact ih.trans (paced_step loads _ e c)

/-- What the clients take are polled alerts, in their order. -/
theorem alertsTaken_sublist (loads : Loads) (h : List Event) :
    ((machine loads).after h).alertsTaken.map Prod.snd <+ alertsPolled loads h :=
  (List.sublist_append_left _ _).trans (alertInv_after loads h).books.order

/-- What distinct clients are sent is part of what was polled. -/
theorem alerts_subperm (loads : Loads) (h : List Event) {clients : List ℕ}
    (hclients : clients.Nodup) :
    clients.flatMap (fun c => (((machine loads).after h).clients c).alerts) <+~
      alertsPolled loads h := by
  have hpart : ∀ c, (((machine loads).after h).clients c).alerts <+
      share ((machine loads).after h).alertsTaken c :=
    fun c => ((alertInv_after loads h).client c).sublist
  exact (parts_subperm hpart hclients).trans (alertsTaken_sublist loads h).subperm

/-- **The alerts of a run.** Whatever the turns of the consumer and the clients, the alerts sent
to distinct clients are, together, some of the alerts polled, each at most once; a client is
sent its alerts in the order they were polled and no two of one id, none before its first
telemetry event and at most fifty from one such event to the next. An alert that was polled and
has an id is waiting, has been given up, or a client has been sent that id; and an event gives
up none when the queue has room. -/
theorem alerts_sent_once (loads : Loads) (h : List Event) :
    let s := (machine loads).after h
    (∀ clients : List ℕ, clients.Nodup →
      clients.flatMap (fun c => (s.clients c).alerts) <+~ alertsPolled loads h) ∧
    (∀ c, (s.clients c).alerts <+ alertsPolled loads h ∧
      (∃ ids : List HashKey, ids.Nodup ∧ (s.clients c).alerts.map alertId? = ids.map some) ∧
      (s.clients c).alerts.length ≤ 50 * (s.clients c).telemetry.length ∧
      ∀ k, let s' := (machine loads).after (h ++ k)
        (s'.clients c).telemetry = (s.clients c).telemetry →
          (s'.clients c).alerts.length ≤ (s.clients c).alerts.length + 50) ∧
    (∀ v ∈ alertsPolled loads h, alertId? v = none ∨ v ∈ s.kafkaAlertQueue.items ∨
      v ∈ s.alertsRefused ∨ ∃ c, ∃ w ∈ (s.clients c).alerts, alertId? w = alertId? v) ∧
    (s.kafkaAlertQueue.size < 2000 →
      ∀ e, ((machine loads).after (h ++ [e])).alertsRefused = s.alertsRefused) := by
  intro s
  have hi : AlertInv loads h s := alertInv_after loads h
  refine ⟨fun clients hclients => alerts_subperm loads h hclients, fun c => ⟨?_, ?_, ?_, ?_⟩,
    fun v hv => ?_, fun hroom e => ?_⟩
  · exact (hi.client c).sublist.trans
      ((share_sublist s.alertsTaken c).trans (alertsTaken_sublist loads h))
  · exact ⟨(s.clients c).sentAlertIds, (hi.client c).nodup, (hi.client c).ids⟩
  · -- at the start nothing is left of a tick
    have hpaced : (s.clients c).alerts.length + (s.clients c).phase.budget + 50 * 0 ≤
        0 + 0 + 50 * (s.clients c).telemetry.length := paced_after loads [] h c
    omega
  · intro k s' htelemetry
    have hpaced : Paced (s.clients c) (s'.clients c) := paced_after loads h k c
    have hbudget := (s.clients c).phase.budget_le
    unfold Paced at hpaced
    rw [htelemetry] at hpaced
    omega
  · cases hid : alertId? v with
    | none => exact Or.inl rfl
    | some key =>
      right
      obtain hthrough | hinside | hlost := (hi.books.mem_iff v).mp hv
      · obtain ⟨⟨c, v⟩, hmem, rfl⟩ := List.mem_map.mp hthrough
        have hshare : v ∈ share s.alertsTaken c :=
          List.mem_map.mpr ⟨(c, v), List.mem_filter.mpr ⟨hmem, decide_eq_true rfl⟩, rfl⟩
        obtain ⟨w, hw, hwkey⟩ := (hi.client c).exists_sent hshare hid
        exact Or.inr (Or.inr ⟨c, w, hw, hwkey⟩)
      · exact Or.inl hinside
      · exact Or.inr (Or.inl hlost)
  · rw [Machine.after_concat]
    exact alertsRefused_step hroom e

/-! ### The telemetry -/

/-- The snapshot that the loop has in hand. -/
def Drain.snap : Drain → Option Value
  | .test snap => snap
  | .take snap => snap

/-- The snapshot that a client has taken and not shown yet. -/
def ClientPhase.held : ClientPhase → Option Value
  | .telemetry drain => drain.snap
  | _ => none

/-- The snapshot that a request has taken and not answered with yet. -/
def TelemetryRequest.held : TelemetryRequest → Option Value
  | .draining drain => drain.snap
  | .answered _ => none

/-- What a reader has taken and not shown yet. -/
def State.held (s : State) : Reader → Option Value
  | .inl c => (s.clients c).phase.held
  | .inr i => (s.requests i).held

/-- What a turn of the loop does: it goes on with the snapshot it has, takes the oldest of the
queue, or is left when the queue is empty. -/
inductive Drain.Turned (queue : BoundedQueue Value 100) (drain : Drain) : DrainTurn → Prop
  | goOn (drain' : Drain) : drain'.snap = drain.snap → Turned queue drain (.goOn drain')
  | took (value : Value) (queue' : BoundedQueue Value 100) :
      queue.items = value :: queue'.items → Turned queue drain (.took value queue')
  | left : queue.items = [] → Turned queue drain (.left drain.snap)

/-- What one turn of a draining loop can do. -/
theorem Drain.turned (queue : BoundedQueue Value 100) (drain : Drain) :
    drain.Turned queue (drain.turn queue) := by
  cases drain with
  | test snap =>
    show Turned queue _ (if queue.size = 0 then DrainTurn.left snap else .goOn (.take snap))
    split
    · -- the loop is left only at an empty queue
      next hempty => exact .left (BoundedQueue.size_eq_zero_iff.mp hempty)
    · exact .goOn _ rfl
  | take snap =>
    show Turned queue _ (match queue.get with
      | none => DrainTurn.left snap
      | some (value, queue) => .took value queue)
    cases hget : queue.get with
    | none => exact .left (BoundedQueue.get_eq_none_iff.mp hget)
    | some taken => exact .took _ _ (BoundedQueue.items_get hget)

/-- What a run makes of the snapshots. -/
structure TelemInv (loads : Loads) (h : List Event) (s : State) : Prop where
  books : Balanced (snapshotsPolled loads h) (s.telemTaken.map Prod.snd) s.kafkaTelemQueue.items
    s.telemRefused
  reader : ∀ r, s.shownTo r ++ (s.held r).toList <+ share s.telemTaken r

/-- What is shown of a snapshot is the snapshot or nothing. -/
theorem shown_sublist (snap : Option Value) : (shown snap).toList <+ snap.toList := by
  cases snap with
  | none => exact List.Sublist.refl _
  | some v =>
    unfold shown
    rw [Option.filter_some]
    split
    · exact List.Sublist.refl _
    · exact List.nil_sublist _

/-- A reader shows the snapshot it has in hand, if that counts as one. -/
theorem append_shown_sublist {before took : List Value} {snap : Option Value}
    (h : before ++ snap.toList <+ took) : before ++ (shown snap).toList <+ took :=
  ((List.Sublist.refl before).append (shown_sublist snap)).trans h

/-- A client moves, and may take a snapshot. -/
theorem TelemInv.client (hi : TelemInv loads h s) {c : ℕ} {me : StreamClient}
    {kafkaTelemQueue : BoundedQueue Value 100} {telemTaken : List (Reader × Value)}
    (hbooks : Balanced (snapshotsPolled loads h) (telemTaken.map Prod.snd) kafkaTelemQueue.items
      s.telemRefused)
    (hothers : ∀ r, r ≠ .inl c → share telemTaken r = share s.telemTaken r)
    (hme : me.telemetry.reduceOption ++ me.phase.held.toList <+ share telemTaken (.inl c))
    (kafkaAlertQueue : BoundedQueue Value 2000) (alertsTaken : List (ℕ × Value)) :
    TelemInv loads h
      { s with
        kafkaAlertQueue, kafkaTelemQueue, alertsTaken, telemTaken
        clients := Function.update s.clients c me } where
  books := hbooks
  reader r := by
    -- the client at work answers for itself, the other readers by their unchanged shares
    by_cases hr : r = .inl c
    · subst hr
      show (Function.update s.clients c me c).telemetry.reduceOption ++
        (Function.update s.clients c me c).phase.held.toList <+ _
      rw [Function.update_self]
      exact hme
    · have hreader := hi.reader r
      rw [← hothers r hr] at hreader
      cases r with
      | inl c' =>
        have hc : c' ≠ c := fun hc => hr (congrArg Sum.inl hc)
        show (Function.update s.clients c me c').telemetry.reduceOption ++
          (Function.update s.clients c me c').phase.held.toList <+ _
        rw [Function.update_of_ne hc]
        exact hreader
      | inr i => exact hreader

/-- A request moves, and may take a snapshot. -/
theorem TelemInv.request (hi : TelemInv loads h s) {i : ℕ} {me : TelemetryRequest}
    {kafkaTelemQueue : BoundedQueue Value 100} {telemTaken : List (Reader × Value)}
    (hbooks : Balanced (snapshotsPolled loads h) (telemTaken.map Prod.snd) kafkaTelemQueue.items
      s.telemRefused)
    (hothers : ∀ r, r ≠ .inr i → share telemTaken r = share s.telemTaken r)
    (hme : me.shown ++ me.held.toList <+ share telemTaken (.inr i)) :
    TelemInv loads h
      { s with kafkaTelemQueue, telemTaken, requests := Function.update s.requests i me } where
  books := hbooks
  reader r := by
    -- as for a client
    by_cases hr : r = .inr i
    · subst hr
      show (Function.update s.requests i me i).shown ++
        (Function.update s.requests i me i).held.toList <+ _
      rw [Function.update_self]
      exact hme
    · have hreader := hi.reader r
      rw [← hothers r hr] at hreader
      cases r with
      | inl c => exact hreader
      | inr j =>
        have hj : j ≠ i := fun hj => hr (congrArg Sum.inr hj)
        show (Function.update s.requests i me j).shown ++
          (Function.update s.requests i me j).held.toList <+ _
        rw [Function.update_of_ne hj]
        exact hreader

/-- The books when a reader takes the oldest snapshot. -/
theorem TelemInv.take (hi : TelemInv loads h s) (r : Reader) {value : Value}
    {queue : BoundedQueue Value 100} (hitems : s.kafkaTelemQueue.items = value :: queue.items) :
    Balanced (snapshotsPolled loads h) ((s.telemTaken ++ [(r, value)]).map Prod.snd) queue.items
      s.telemRefused := by
  have hbooks := hi.books
  rw [hitems, ← List.singleton_append] at hbooks
  rw [List.map_append, List.map_singleton]
  exact hbooks.leave

/-- A reader that takes a snapshot lets go of the one it had in hand. -/
theorem TelemInv.hold (hi : TelemInv loads h s) (r : Reader) (value : Value) :
    s.shownTo r ++ [value] <+ share (s.telemTaken ++ [(r, value)]) r := by
  rw [share_concat_self]
  exact ((List.sublist_append_left _ _).trans (hi.reader r)).append (List.Sublist.refl [value])

/-- A client's turn takes at most one snapshot, and shows what it held last. -/
theorem TelemInv.clientTurn (hi : TelemInv loads h s) (c : ℕ) (disconnected : Bool) :
    TelemInv loads h (clientTurn s c disconnected) := by
  have hreader := hi.reader (.inl c)
  have hshown : (s.clients c).telemetry.reduceOption <+ share s.telemTaken (.inl c) :=
    (List.sublist_append_left _ _).trans hreader
  -- a phase in which nothing is held shows only what was shown
  have hidle : ∀ phase : ClientPhase, phase.held = none →
      (s.clients c).telemetry.reduceOption ++ phase.held.toList <+ share s.telemTaken (.inl c) := by
    intro phase hheld
    rw [hheld, Option.toList_none, List.append_nil]
    exact hshown
  unfold KafkaStream.clientTurn
  dsimp only
  cases hphase : (s.clients c).phase with
  | head =>
    cases disconnected with
    | false =>
      exact hi.client hi.books (fun _ _ => rfl) (hidle (.telemetry (.test none)) rfl) _ _
    | true => exact hi.client hi.books (fun _ _ => rfl) (hidle .gone rfl) _ _
  | telemetry drain =>
    have hheld : s.held (.inl c) = drain.snap := by
      show (s.clients c).phase.held = _
      rw [hphase]
      rfl
    rw [hheld] at hreader
    dsimp only
    have hturned := drain.turned s.kafkaTelemQueue
    generalize drain.turn s.kafkaTelemQueue = turn at hturned
    cases hturned with
    | goOn drain' hsnap =>
      -- the loop keeps the snapshot it held
      refine hi.client hi.books (fun _ _ => rfl) ?_ _ _
      show (s.clients c).telemetry.reduceOption ++ drain'.snap.toList <+ _
      rw [hsnap]
      exact hreader
    | took value queue hitems =>
      -- the newer snapshot replaces it; the older one is never shown
      refine hi.client (hi.take (.inl c) hitems) (fun r hr => share_concat_of_ne hr.symm value)
        ?_ _ _
      exact hi.hold (.inl c) value
    | left hempty =>
      -- what was held last is shown
      refine hi.client hi.books (fun _ _ => rfl) ?_ _ _
      show ((s.clients c).telemetry ++ [shown drain.snap]).reduceOption ++ [] <+ _
      rw [List.append_nil, List.reduceOption_append, List.reduceOption_singleton]
      exact append_shown_sublist hreader
  | alerts drained =>
    dsimp only
    split
    · -- the alerts' half moves no snapshot
      cases hget : s.kafkaAlertQueue.get with
      | none => exact hi.client hi.books (fun _ _ => rfl) (hidle .head rfl) _ _
      | some taken =>
        refine hi.client hi.books (fun _ _ => rfl) ?_ _ _
        have hheld : ((s.clients c).push drained taken.1).phase.held = none := by
          obtain hpush | hpush := phase_push (s.clients c) drained taken.1
          · rw [hpush]
            rfl
          · rw [hpush]
            rfl
        rw [telemetry_push]
        exact hidle _ hheld
    · exact hi.client hi.books (fun _ _ => rfl) (hidle .head rfl) _ _
  | gone => exact hi

/-- So does a turn of the status endpoint. -/
theorem TelemInv.requestTurn (hi : TelemInv loads h s) (i : ℕ) :
    TelemInv loads h (requestTurn s i) := by
  have hreader := hi.reader (.inr i)
  unfold KafkaStream.requestTurn
  cases hphase : s.requests i with
  | draining drain =>
    -- a request that drains has shown nothing yet
    have hnone : s.shownTo (.inr i) = [] := by
      show (s.requests i).shown = []
      rw [hphase]
      rfl
    have hheld : s.held (.inr i) = drain.snap := by
      show (s.requests i).held = _
      rw [hphase]
      rfl
    rw [hnone, hheld] at hreader
    dsimp only
    have hturned := drain.turned s.kafkaTelemQueue
    generalize drain.turn s.kafkaTelemQueue = turn at hturned
    cases hturned with
    | goOn drain' hsnap =>
      refine hi.request hi.books (fun _ _ => rfl) ?_
      show [] ++ drain'.snap.toList <+ _
      rw [hsnap]
      exact hreader
    | took value queue hitems =>
      have hhold := hi.hold (.inr i) value
      rw [hnone] at hhold
      refine hi.request (hi.take (.inr i) hitems) (fun r hr => share_concat_of_ne hr.symm value) ?_
      exact hhold
    | left hempty =>
      -- its answer is the snapshot held last
      refine hi.request hi.books (fun _ _ => rfl) ?_
      show (shown drain.snap).toList ++ [] <+ _
      rw [List.append_nil]
      exact (shown_sublist drain.snap).trans hreader
  | answered telem => exact hi

/-- An event that decodes no snapshot. -/
theorem TelemInv.silent {e : Event} (hi : TelemInv loads h s)
    (he : snapshotsPolled loads [e] = []) : TelemInv loads (h ++ [e]) s :=
  ⟨by rw [snapshotsPolled_concat, he, List.append_nil]; exact hi.books, hi.reader⟩

/-- A polled snapshot enters the queue, or is refused by a full one. -/
theorem TelemInv.putSnapshot (hi : TelemInv loads h s) (value : Option (List UInt8))
    (snap : Value) (hloads : loads value = some snap) :
    TelemInv loads (h ++ [.snapshot value]) (putSnapshot s snap) := by
  have hpolled : snapshotsPolled loads [.snapshot value] = [snap] := by
    rw [snapshotsPolled_snapshot, hloads]
    rfl
  have henter := hi.books.enter [snap]
  rw [← hpolled, ← snapshotsPolled_concat, hpolled] at henter
  unfold KafkaStream.putSnapshot
  cases hput : s.kafkaTelemQueue.put snap with
  | none =>
    -- the queue is full: what entered is lost at once
    refine ⟨?_, hi.reader⟩
    have hlose : Balanced _ _ (s.kafkaTelemQueue.items ++ []) (s.telemRefused ++ [snap]) :=
      Balanced.lose (by rwa [List.append_nil])
    rwa [List.append_nil] at hlose
  | some queue =>
    refine ⟨?_, hi.reader⟩
    rw [← BoundedQueue.items_put hput] at henter
    exact henter

/-- An alert is no snapshot. -/
theorem TelemInv.putAlert (hi : TelemInv loads h s) (alert : Value) :
    TelemInv loads h (putAlert s alert) := by
  unfold KafkaStream.putAlert
  split
  · exact ⟨hi.books, hi.reader⟩
  · exact ⟨hi.books, hi.reader⟩

/-- What one event preserves. -/
theorem TelemInv.step (hi : TelemInv loads h s) (e : Event) :
    TelemInv loads (h ++ [e]) (step loads s e) := by
  cases e with
  | alert value =>
    show TelemInv loads _ (((loads value).map (KafkaStream.putAlert s)).getD s)
    cases hloads : loads value with
    | none => exact hi.silent rfl
    | some alert => exact (hi.silent rfl).putAlert alert
  | snapshot value =>
    show TelemInv loads _ (((loads value).map (KafkaStream.putSnapshot s)).getD s)
    cases hloads : loads value with
    | none => exact hi.silent (by rw [snapshotsPolled_snapshot, hloads]; rfl)
    | some snap => exact hi.putSnapshot value snap hloads
  | client c disconnected => exact (hi.silent rfl).clientTurn c disconnected
  | cancel c =>
    -- a client that goes takes with it what it held
    refine (hi.silent rfl).client (hi.silent rfl).books (fun _ _ => rfl) ?_ _ _
    show (s.clients c).telemetry.reduceOption ++ [] <+ _
    rw [List.append_nil]
    exact (List.sublist_append_left _ _).trans (hi.reader (.inl c))
  | request i => exact (hi.silent rfl).requestTurn i

/-- What every run preserves. -/
theorem telemInv_after (loads : Loads) (h : List Event) :
    TelemInv loads h ((machine loads).after h) := by
  refine (machine loads).invariant (TelemInv loads) ?_ (fun _ e hi => hi.step e) h
  refine ⟨Balanced.nil, fun r => ?_⟩
  cases r with
  | inl c => exact List.Sublist.refl _
  | inr i => exact List.Sublist.refl _

/-- A consumer's poll, of either topic. -/
def Event.IsPoll : Event → Prop
  | .alert _ => True
  | .snapshot _ => True
  | _ => False

/-- A poll puts what it decodes into the telemetry queue, if there is room. -/
theorem telemQueue_poll {e : Event} (he : e.IsPoll) :
    (step loads s e).kafkaTelemQueue =
      (snapshotsPolled loads [e]).foldl BoundedQueue.offer s.kafkaTelemQueue := by
  cases e with
  | alert value =>
    -- an alert goes to the other queue
    show (((loads value).map (putAlert s)).getD s).kafkaTelemQueue = s.kafkaTelemQueue
    cases loads value with
    | none => rfl
    | some alert =>
      show (putAlert s alert).kafkaTelemQueue = _
      unfold putAlert
      split <;> rfl
  | snapshot value =>
    show (((loads value).map (putSnapshot s)).getD s).kafkaTelemQueue = _
    rw [snapshotsPolled_snapshot]
    cases loads value with
    | none => rfl
    | some snap =>
      show (putSnapshot s snap).kafkaTelemQueue = (s.kafkaTelemQueue.put snap).getD _
      unfold putSnapshot
      cases s.kafkaTelemQueue.put snap with
      | none => rfl
      | some queue => rfl
  | client c disconnected => exact absurd he id
  | cancel c => exact absurd he id
  | request i => exact absurd he id

/-- Polls alone fill the queue up to its capacity. -/
theorem telemQueue_polls (loads : Loads) (h k : List Event) (hk : ∀ e ∈ k, e.IsPoll) :
    ((machine loads).after (h ++ k)).kafkaTelemQueue =
      (snapshotsPolled loads k).foldl BoundedQueue.offer
        ((machine loads).after h).kafkaTelemQueue := by
  induction k using List.reverseRecOn with
  | nil => rw [List.append_nil]; rfl
  | append_singleton k e ih =>
    rw [List.forall_mem_append] at hk
    rw [← List.append_assoc, Machine.after_concat, snapshotsPolled_concat, List.foldl_append,
      ← ih hk.1]
    exact telemQueue_poll (hk.2 e (List.mem_singleton_self e))

/-- **The telemetry of a run.** Whatever the turns, the snapshots shown to distinct clients and
requests are, together, some of those polled, each at most once, and a reader is shown its own
in the order they were polled. While nobody reads it is the oldest snapshots that are kept: the
queue is filled up to a hundred and what comes later is given up. -/
theorem telemetry_shown_once (loads : Loads) (h : List Event) :
    let s := (machine loads).after h
    (∀ readers : List Reader, readers.Nodup →
      readers.flatMap s.shownTo <+~ snapshotsPolled loads h) ∧
    (∀ r, s.shownTo r <+ snapshotsPolled loads h) ∧
    ∀ k : List Event, (∀ e ∈ k, e.IsPoll) →
      ((machine loads).after (h ++ k)).kafkaTelemQueue.items =
        (s.kafkaTelemQueue.items ++ snapshotsPolled loads k).take 100 := by
  intro s
  have hi : TelemInv loads h s := telemInv_after loads h
  have htaken : s.telemTaken.map Prod.snd <+ snapshotsPolled loads h :=
    (List.sublist_append_left _ _).trans hi.books.order
  -- what a reader was shown is part of its share, and the shares are parts of what was polled
  have hshown : ∀ r, s.shownTo r <+ share s.telemTaken r := fun r =>
    (List.sublist_append_left _ _).trans (hi.reader r)
  refine ⟨fun readers hreaders => ?_, fun r => ?_, fun k hk => ?_⟩
  · exact (parts_subperm hshown hreaders).trans htaken.subperm
  · exact (hshown r).trans ((share_sublist s.telemTaken r).trans htaken)
  · rw [telemQueue_polls loads h k hk, BoundedQueue.items_foldl_offer]

end KafkaStream

end Sentrix
