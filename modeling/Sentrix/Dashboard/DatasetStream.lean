import Mathlib.Tactic.Positivity
import Sentrix.Dashboard.EventGenerator
import Sentrix.Datasource.Base

/-!
# The event stream of a dataset replay

The replay thread of `DatasetReplaySource` puts flow records into a bounded
queue; a tick of `event_generator` takes *all* of them out (`read_alerts`), keeps
those that are newer than the client's `last_ts` and not benign, gives each a new
alert id and hands them to the loop, which yields fifty at most. What the loop
leaves is neither in the queue nor in the cursor any more.

A run is an interleaving of puts and ticks. A record that is put while a tick
drains the queue is put before that tick, and what the tick does once the queue
was empty reads nothing the replay thread writes, so ticks are atomic here.

For records that arrive with increasing times, none newer than the client's
cursor is ever overtaken by it, and a fresh id is never among those sent
(`DatasetInv`). A tick therefore yields the first fifty of the records it takes
(`tick_yields`), and the stream loses nothing if and only if no tick finds more
(`dataset_delivery_iff`).
-/

namespace Sentrix

namespace DatasetStream

open EventGenerator

/-- What a run does not change. -/
structure Config where
  /-- `max_queue`; a queue of size zero or less is unbounded. -/
  maxQueue : ℤ
  /-- `last_ts` when the client connects. -/
  startTs : ℚ
  uuid : UuidSource
  /-- `str.upper`. -/
  upper : String → String

/-- The queue of the source, the cursor of the client, and the number of ids
drawn so far. -/
structure State where
  alertQueue : List FlowRecord
  cursor : Cursor
  drawn : ℕ

/-- One step of the replay thread or of the generator. -/
inductive Event
  /-- `put_nowait`. -/
  | put (r : FlowRecord)
  /-- A tick, with the iteration order of the set it may trim. -/
  | tick (order : SetOrder String)

/-- The records a step takes out of the queue, and the alerts it yields. -/
structure Delivery where
  taken : List FlowRecord
  yielded : List AlertDict

/-- The record passes the test of `read_alerts`. -/
def Passes (cfg : Config) (sinceTs : ℚ) (r : FlowRecord) : Prop :=
  r.timestamp > sinceTs ∧ cfg.upper r.attackFamily ≠ "BENIGN"

instance (cfg : Config) (sinceTs : ℚ) (r : FlowRecord) : Decidable (Passes cfg sinceTs r) :=
  inferInstanceAs (Decidable (_ ∧ _))

/-- `read_alerts` over the records of the queue, with the ids drawn so far. -/
def readAlerts (cfg : Config) (sinceTs : ℚ) (drawn : ℕ) : List FlowRecord → List AlertDict × ℕ
  | [] => ([], drawn)
  | r :: queue =>
    if Passes cfg sinceTs r then
      let rest := readAlerts cfg sinceTs (drawn + 1) queue
      (⟨cfg.uuid.draw drawn, r⟩ :: rest.1, rest.2)
    else readAlerts cfg sinceTs drawn queue

/-- The loop reads dictionaries; an empty id is not sent. -/
def view : AlertView AlertDict where
  alertId := AlertDict.alertId
  timestamp a := a.record.timestamp
  sendable i := decide (i ≠ "")

/-- The queue accepts another record. -/
def HasRoom (cfg : Config) (queue : List FlowRecord) : Prop :=
  cfg.maxQueue ≤ 0 ∨ (queue.length : ℤ) < cfg.maxQueue

instance (cfg : Config) (queue : List FlowRecord) : Decidable (HasRoom cfg queue) :=
  inferInstanceAs (Decidable (_ ∨ _))

/-- One step. -/
def step (cfg : Config) (s : State) : Event → State × Delivery
  | .put r =>
    -- `queue.Full` is ignored
    (if HasRoom cfg s.alertQueue then { s with alertQueue := s.alertQueue ++ [r] } else s, ⟨[], []⟩)
  | .tick order =>
    let read := readAlerts cfg s.cursor.lastTs s.drawn s.alertQueue
    let r := push view order s.cursor read.1
    (⟨[], r.1, read.2⟩, ⟨s.alertQueue, r.2⟩)

/-- The stream as a machine. -/
def machine (cfg : Config) : Machine State Event Delivery where
  init := ⟨[], ⟨cfg.startTs, []⟩, 0⟩
  step := step cfg

/-- The records put into the queue in a run. -/
def puts : List Event → List FlowRecord
  | [] => []
  | .put r :: h => r :: puts h
  | .tick _ :: h => puts h

/-- The records taken out of the queue by the ticks of a run. -/
def taken (cfg : Config) (h : List Event) : List FlowRecord :=
  ((machine cfg).emits h).flatMap Delivery.taken

/-- The records whose alerts the client was sent in a run, in that order. -/
def delivered (cfg : Config) (h : List Event) : List FlowRecord :=
  ((machine cfg).emits h).flatMap fun d => d.yielded.map AlertDict.record

/-! ### A tick -/

variable {cfg : Config}

/-- Where every record passes, `read_alerts` converts the whole queue, with the
next ids. -/
theorem readAlerts_of_passes {sinceTs : ℚ} (drawn : ℕ) {queue : List FlowRecord}
    (hpass : ∀ r ∈ queue, Passes cfg sinceTs r) :
    (readAlerts cfg sinceTs drawn queue).1.map AlertDict.record = queue ∧
      (readAlerts cfg sinceTs drawn queue).1.map AlertDict.alertId =
        (List.range' drawn queue.length).map cfg.uuid.draw ∧
      (readAlerts cfg sinceTs drawn queue).2 = drawn + queue.length := by
  induction queue generalizing drawn with
  | nil => exact ⟨rfl, rfl, rfl⟩
  | cons r queue ih =>
    obtain ⟨hrec, hids, hdrawn⟩ :=
      ih (drawn + 1) fun r' hr' => hpass r' (List.mem_cons_of_mem _ hr')
    unfold readAlerts
    -- the oldest record is answered with the next id
    rw [if_pos (hpass r List.mem_cons_self)]
    dsimp only
    refine ⟨?_, ?_, ?_⟩
    · rw [List.map_cons, hrec]
    · rw [List.map_cons, hids, List.length_cons, List.range'_succ, List.map_cons]
    · rw [hdrawn, List.length_cons]
      omega

/-! ### Runs -/

/-- The replay thread puts records that are not benign, with increasing times
that are newer than the client's start. -/
structure Admissible (cfg : Config) (h : List Event) : Prop where
  increasing : (puts h).Pairwise fun a b => a.timestamp < b.timestamp
  newer : ∀ r ∈ puts h, cfg.startTs < r.timestamp
  malicious : ∀ r ∈ puts h, cfg.upper r.attackFamily ≠ "BENIGN"

theorem puts_append (h k : List Event) : puts (h ++ k) = puts h ++ puts k := by
  induction h with
  | nil => rfl
  | cons x h ih =>
    cases x with
    | put r => exact congrArg (r :: ·) ih
    | tick order => exact ih

theorem Admissible.of_concat {h : List Event} {x : Event} (hadm : Admissible cfg (h ++ [x])) :
    Admissible cfg h := by
  obtain ⟨hinc, hnew, hmal⟩ := hadm
  rw [puts_append] at hinc hnew hmal
  exact ⟨hinc.sublist (List.sublist_append_left _ _),
    fun r hr => hnew r (List.mem_append_left _ hr),
    fun r hr => hmal r (List.mem_append_left _ hr)⟩

/-- What holds after the run `h`: the queue holds records of the run that pass
the test of `read_alerts`, the cursor stands at the start or at a record of the
run, and the ids sent were drawn. -/
structure DatasetInv (cfg : Config) (h : List Event) (s : State) : Prop where
  queued : ∀ r ∈ s.alertQueue, r ∈ puts h ∧ Passes cfg s.cursor.lastTs r
  reached : s.cursor.lastTs = cfg.startTs ∨ ∃ r ∈ puts h, s.cursor.lastTs = r.timestamp
  ids : ∀ i ∈ s.cursor.sentAlertIds, ∃ n, n < s.drawn ∧ i = cfg.uuid.draw n

variable {h : List Event} {s : State}

/-- None of the alerts a tick reads has been sent. -/
theorem DatasetInv.unsent (hi : DatasetInv cfg h s) :
    (readAlerts cfg s.cursor.lastTs s.drawn s.alertQueue).1.filter
        (EventGenerator.unsent view s.cursor) =
      (readAlerts cfg s.cursor.lastTs s.drawn s.alertQueue).1 := by
  obtain ⟨-, hids, -⟩ := readAlerts_of_passes s.drawn fun r hr => (hi.queued r hr).2
  rw [List.filter_eq_self]
  intro a ha
  have hid : a.alertId ∈ (List.range' s.drawn s.alertQueue.length).map cfg.uuid.draw := by
    rw [← hids]
    exact List.mem_map_of_mem ha
  obtain ⟨n, hn, hdraw⟩ := List.mem_map.mp hid
  -- an id that is drawn now was not drawn before
  have hfresh : a.alertId ∉ s.cursor.sentAlertIds := by
    intro hsent
    obtain ⟨m, hm, heq⟩ := hi.ids _ hsent
    obtain rfl : n = m := cfg.uuid.injective (hdraw.trans heq)
    exact absurd (List.mem_range'_1.mp hn).1 (not_le.mpr hm)
  -- and is never empty
  have hne : a.alertId ≠ "" := by
    rw [← hdraw]
    exact cfg.uuid.nonempty n
  rw [EventGenerator.unsent, Bool.and_eq_true, decide_eq_true_eq]
  exact ⟨decide_eq_true hne, hfresh⟩

/-- **What a tick yields**: the first fifty of the records it takes. -/
theorem DatasetInv.tick_yields (hi : DatasetInv cfg h s) (order : SetOrder String) :
    (step cfg s (.tick order)).2.yielded =
      (readAlerts cfg s.cursor.lastTs s.drawn s.alertQueue).1.take 50 := by
  obtain ⟨-, hids, -⟩ := readAlerts_of_passes s.drawn fun r hr => (hi.queued r hr).2
  have hnodup : ((readAlerts cfg s.cursor.lastTs s.drawn s.alertQueue).1.map
      view.alertId).Nodup := by
    show (List.map AlertDict.alertId _).Nodup
    rw [hids]
    exact (List.nodup_range' 1).map cfg.uuid.injective
  show (push view order s.cursor _).2 = _
  rw [push_snd order s.cursor hnodup, hi.unsent]

theorem DatasetInv.records (hi : DatasetInv cfg h s) (order : SetOrder String) :
    (step cfg s (.tick order)).2.yielded.map AlertDict.record = s.alertQueue.take 50 := by
  obtain ⟨hrec, -, -⟩ := readAlerts_of_passes s.drawn fun r hr => (hi.queued r hr).2
  rw [hi.tick_yields order, List.map_take, hrec]

/-- A record that is put is newer than the cursor. -/
theorem DatasetInv.put {r : FlowRecord} (hadm : Admissible cfg (h ++ [.put r]))
    (hi : DatasetInv cfg h s) : DatasetInv cfg (h ++ [.put r]) (step cfg s (.put r)).1 := by
  have hputs : puts (h ++ [.put r]) = puts h ++ [r] := puts_append h [.put r]
  have hmem : r ∈ puts (h ++ [.put r]) := by
    rw [hputs]
    exact List.mem_append_right _ (List.mem_singleton_self r)
  -- the cursor stands where it began, or at a record that was put before this one
  have hnewer : s.cursor.lastTs < r.timestamp := by
    obtain heq | ⟨r', hr', heq⟩ := hi.reached
    · rw [heq]
      exact hadm.newer r hmem
    · have hinc := hadm.increasing
      rw [hputs, List.pairwise_append] at hinc
      rw [heq]
      exact hinc.2.2 r' hr' r (List.mem_singleton_self r)
  have hreached : s.cursor.lastTs = cfg.startTs ∨
      ∃ r' ∈ puts (h ++ [.put r]), s.cursor.lastTs = r'.timestamp := by
    rw [hputs]
    refine hi.reached.imp_right ?_
    rintro ⟨r', hr', heq⟩
    exact ⟨r', List.mem_append_left _ hr', heq⟩
  have hold : ∀ r' ∈ s.alertQueue, r' ∈ puts (h ++ [.put r]) ∧ Passes cfg s.cursor.lastTs r' := by
    intro r' hr'
    rw [hputs]
    exact ⟨List.mem_append_left _ (hi.queued r' hr').1, (hi.queued r' hr').2⟩
  show DatasetInv cfg _ (if _ then _ else _)
  split
  · refine ⟨?_, hreached, hi.ids⟩
    intro r' hr'
    obtain hr' | hr' := List.mem_append.mp hr'
    · exact hold r' hr'
    · rw [List.mem_singleton.mp hr']
      exact ⟨hmem, hnewer, hadm.malicious r hmem⟩
  · exact ⟨hold, hreached, hi.ids⟩

/-- A tick empties the queue and moves the cursor to a record it took. -/
theorem DatasetInv.tick (hi : DatasetInv cfg h s) (order : SetOrder String) :
    DatasetInv cfg (h ++ [.tick order]) (step cfg s (.tick order)).1 := by
  obtain ⟨hrec, hids, hdrawn⟩ := readAlerts_of_passes s.drawn fun r hr => (hi.queued r hr).2
  have hputs : puts (h ++ [.tick order]) = puts h := by
    rw [puts_append]
    exact List.append_nil _
  have hyields : ∀ a ∈ (step cfg s (.tick order)).2.yielded,
      a ∈ (readAlerts cfg s.cursor.lastTs s.drawn s.alertQueue).1 := by
    intro a ha
    rw [hi.tick_yields order] at ha
    exact List.mem_of_mem_take ha
  have hcursor : (step cfg s (.tick order)).1.cursor =
      trimSent order (advance view s.cursor (step cfg s (.tick order)).2.yielded) :=
    push_fst order s.cursor _
  refine ⟨fun r hr => absurd hr List.not_mem_nil, ?_, ?_⟩
  · rw [hcursor, lastTs_trimSent, hputs]
    obtain heq | ⟨a, ha, heq⟩ := lastTs_advance (v := view) s.cursor
      (step cfg s (.tick order)).2.yielded
    · rw [heq]
      exact hi.reached
    · have hqueue : a.record ∈ s.alertQueue := by
        rw [← hrec]
        exact List.mem_map_of_mem (hyields a ha)
      exact Or.inr ⟨a.record, (hi.queued _ hqueue).1, heq⟩
  · intro i hi'
    change i ∈ (step cfg s (.tick order)).1.cursor.sentAlertIds at hi'
    rw [hcursor] at hi'
    show ∃ n, n < (readAlerts cfg s.cursor.lastTs s.drawn s.alertQueue).2 ∧ _
    rw [hdrawn]
    obtain hi' | hi' := List.mem_append.mp (mem_of_mem_trimSent hi')
    · obtain ⟨n, hn, heq⟩ := hi.ids i hi'
      exact ⟨n, by omega, heq⟩
    · -- a new id is one of those drawn for the queue
      obtain ⟨a, ha, rfl⟩ := List.mem_map.mp hi'
      have hid : a.alertId ∈ (List.range' s.drawn s.alertQueue.length).map cfg.uuid.draw := by
        rw [← hids]
        exact List.mem_map_of_mem (hyields a ha)
      obtain ⟨n, hn, hdraw⟩ := List.mem_map.mp hid
      exact ⟨n, (List.mem_range'_1.mp hn).2, hdraw.symm⟩

theorem datasetInv_after (hadm : Admissible cfg h) : DatasetInv cfg h ((machine cfg).after h) := by
  refine (machine cfg).invariant_of (Admissible cfg) (DatasetInv cfg)
    (fun h x hadm => hadm.of_concat) ?_ ?_ h hadm
  · exact ⟨fun r hr => absurd hr List.not_mem_nil, Or.inl rfl,
      fun i hi => absurd hi List.not_mem_nil⟩
  · intro h x hadm hi
    cases x with
    | put r => exact hi.put hadm
    | tick order => exact hi.tick order

/-! ### Delivery -/

/-- A tick finds no more than fifty records in the queue. -/
def NoBurst (s : State) : Event → Prop
  | .put _ => True
  | .tick _ => s.alertQueue.length ≤ 50

instance (s : State) : ∀ e, Decidable (NoBurst s e)
  | .put _ => isTrue trivial
  | .tick _ => inferInstanceAs (Decidable (_ ≤ _))

theorem taken_concat (x : Event) :
    taken cfg (h ++ [x]) = taken cfg h ++ (step cfg ((machine cfg).after h) x).2.taken := by
  unfold taken
  rw [Machine.emits_concat, List.flatMap_append, List.flatMap_singleton]
  rfl

theorem delivered_concat (x : Event) :
    delivered cfg (h ++ [x]) = delivered cfg h ++
      (step cfg ((machine cfg).after h) x).2.yielded.map AlertDict.record := by
  unfold delivered
  rw [Machine.emits_concat, List.flatMap_append, List.flatMap_singleton]
  rfl

/-- The stream never delivers more than was taken, and as much only without
bursts. -/
theorem delivered_account (hadm : Admissible cfg h) :
    (delivered cfg h).length ≤ (taken cfg h).length ∧
      (delivered cfg h = taken cfg h ↔ (machine cfg).Along NoBurst h) := by
  induction h using List.reverseRecOn with
  | nil => exact ⟨le_refl _, fun _ => trivial, fun _ => rfl⟩
  | append_singleton h x ih =>
    obtain ⟨hle, hiff⟩ := ih hadm.of_concat
    cases x with
    | put r =>
      have hd : delivered cfg (h ++ [.put r]) = delivered cfg h := by
        rw [delivered_concat]
        exact List.append_nil _
      have ht : taken cfg (h ++ [.put r]) = taken cfg h := by
        rw [taken_concat]
        exact List.append_nil _
      rw [hd, ht, Machine.along_concat]
      exact ⟨hle, hiff.trans (and_iff_left trivial).symm⟩
    | tick order =>
      have hi := datasetInv_after hadm.of_concat
      set queue := ((machine cfg).after h).alertQueue
      have hd : delivered cfg (h ++ [.tick order]) = delivered cfg h ++ queue.take 50 := by
        rw [delivered_concat, hi.records order]
      have ht : taken cfg (h ++ [.tick order]) = taken cfg h ++ queue := taken_concat _
      rw [hd, ht, Machine.along_concat, ← hiff]
      show _ ∧ (_ ↔ _ ∧ queue.length ≤ 50)
      have hshort : (queue.take 50).length ≤ queue.length := List.length_take_le' _ _
      refine ⟨by rw [List.length_append, List.length_append]; omega, ?_, ?_⟩
      · intro heq
        -- the lengths agree only if nothing was lost, neither before nor now
        have hlen := congrArg List.length heq
        rw [List.length_append, List.length_append] at hlen
        obtain ⟨hbefore, hnow⟩ := List.append_inj heq (by omega)
        exact ⟨hbefore, List.take_eq_self_iff queue |>.mp hnow⟩
      · rintro ⟨hbefore, hfew⟩
        rw [hbefore, List.take_of_length_le hfew]

/-- **When a dataset replay is delivered.** In every run in which records that
are not benign arrive with increasing times newer than the client's start, the
client is sent the records the ticks take out of the queue, each once and in
queue order, if and only if no tick finds more than fifty records in the queue. -/
theorem dataset_delivery_iff (cfg : Config) (h : List Event) (hadm : Admissible cfg h) :
    delivered cfg h = taken cfg h ↔ (machine cfg).Along NoBurst h :=
  (delivered_account hadm).2

/-- A record of a SYN flood at a given time. -/
def synFlood (timestamp : ℚ) : FlowRecord where
  timestamp := timestamp
  srcIp := "10.0.0.9"
  dstIp := "10.0.0.1"
  srcPort := 40000
  dstPort := 443
  protocol := "TCP"
  attackFamily := "SYN_FLOOD"
  severity := "CRITICAL"
  confidence := 97 / 100
  generator := "hping3"
  features := []
  explanation := ""
  pktCount := 1
  byteCount := 60
  durationS := 0

/-- Ids that count the draws. -/
def countingUuid : UuidSource where
  draw n := String.ofList (List.replicate (n + 1) 'x')
  injective m n h := by
    have hlen := congrArg (fun s => s.toList.length) h
    simpa using hlen
  nonempty n h := by
    have hlen := congrArg (fun s => s.toList.length) h
    simp at hlen

/-- The source as the server creates it, and a client that connects at time
zero. -/
def sampleConfig : Config := ⟨5000, 0, countingUuid, String.toUpper⟩

theorem dataset_delivery_iff_two_records :
    delivered sampleConfig
        [.put (synFlood 1), .put (synFlood 2), .tick Correlator.insertionOrder] =
      taken sampleConfig
        [.put (synFlood 1), .put (synFlood 2), .tick Correlator.insertionOrder] := by
  have hadm : Admissible sampleConfig
      [.put (synFlood 1), .put (synFlood 2), .tick Correlator.insertionOrder] := by
    refine ⟨?_, ?_, ?_⟩ <;> simp only [puts] <;> decide +kernel
  exact (dataset_delivery_iff sampleConfig _ hadm).mpr (by decide +kernel)

/-- The burst: fifty-one records of a SYN flood, one a second. -/
def burst : List Event := (List.range 51).map fun n => .put (synFlood (n + 1))

theorem puts_burst (order : SetOrder String) :
    puts (burst ++ [.tick order]) = (List.range 51).map fun n : ℕ => synFlood (n + 1) := by
  rw [puts_append]
  rfl

/-- **A lost alert.** Fifty-one records wait when a tick comes. It takes them
all, yields fifty, and nobody will send the last one. -/
theorem burst_not_delivered :
    ¬ ∀ (cfg : Config) (h : List Event), Admissible cfg h → delivered cfg h = taken cfg h := by
  intro hall
  have hadm : Admissible sampleConfig (burst ++ [.tick Correlator.insertionOrder]) := by
    refine ⟨?_, ?_, ?_⟩ <;> rw [puts_burst]
    · rw [List.pairwise_map]
      refine List.pairwise_lt_range.imp fun {m n} hmn => ?_
      show (m : ℚ) + 1 < n + 1
      exact_mod_cast Nat.succ_lt_succ hmn
    · intro r hr
      obtain ⟨n, -, rfl⟩ := List.mem_map.mp hr
      show (0 : ℚ) < n + 1
      positivity
    · intro r hr
      obtain ⟨n, -, rfl⟩ := List.mem_map.mp hr
      show String.toUpper "SYN_FLOOD" ≠ "BENIGN"
      decide +kernel
  have hrun := (delivered_account hadm).2.mp (hall _ _ hadm)
  rw [Machine.along_concat] at hrun
  have hno : ((machine sampleConfig).after burst).alertQueue.length ≤ 50 := hrun.2
  -- one alert more than a tick delivers
  have hlen : ((machine sampleConfig).after burst).alertQueue.length = 51 := by
    decide +kernel
  rw [hlen] at hno
  norm_num at hno

end DatasetStream

end Sentrix
