import Sentrix.Lib.Conveyor
import Sentrix.Lib.Machine

/-!
# The threads of the live pipeline

`run_e2e_pipeline` of the end-to-end test runs three threads. The main thread replays the
captures of a scenario, fires feature vectors and puts them into `task_queue` in batches of
fifty; the worker (`inference_worker`) takes the batches out, evaluates their tasks and puts
the alerts into `alert_queue`; the writer (`db_writer_thread`) appends the alerts to the
store. When the scenario is over, its time is up or a signal asks for it, the main thread sets
`stop_event`, empties `task_queue` and sends `"STOP"` down both queues.

What the threads do with a packet, a task and an alert is a parameter here
(`PipelineStages`). The threads only meet at the two queues and the event, so the unit of
interleaving is one access to these, with the local work before it. `Queue.put` with a timeout
looks at the queue whenever it is woken and gives up only if the queue is full at a look after
its time is over; what a thread learns from a clock is an argument of its step.

The state also keeps the books (`PipelineLog`), which no step reads.
-/

namespace Sentrix

/-- What the evaluation of a task comes to. -/
inductive WorkResult (α : Type*)
  /-- Nothing to report. -/
  | quiet
  | alert (a : α)
  /-- An exception, which ends the batch. -/
  | raised

/-- What the threads do with a packet `π`, a task `τ` and an alert `α`. The database answers
`δ` to a section of the store. -/
structure PipelineStages (π τ α σ ω ς δ : Type*) where
  /-- The tasks fired for a packet; `none` is an exception. -/
  fire : σ → π → Option (σ × List τ)
  work : ω → τ → ω × WorkResult α
  /-- `store.append`, and whether it returned. -/
  append : ς → δ → α → ς × Bool
  /-- `store.flush`, and whether it returned. -/
  flush : ς → δ → ς × Bool

/-- What a run is started with. -/
structure PipelineConfig (π : Type*) where
  plan : List (String × ℕ)
  /-- `pcap_cache.get(pcap_file, [])`. -/
  pcapCache : String → List π
  /-- Whether a duration is given. -/
  timed : Bool

/-- Where the replay of a capture is. -/
structure ReplayCursor (π : Type*) where
  packets : List π
  /-- `pkts_processed`, which `pcap_idx` equals at the head of the loop. -/
  processed : ℕ
  target : ℕ
  /-- The rest of the plan. -/
  rest : List (String × ℕ)
  nonempty : packets ≠ []

/-- `raw_packets[pcap_idx % n_pkts]`. -/
def ReplayCursor.packet {π : Type*} (c : ReplayCursor π) : π :=
  c.packets.get ⟨c.processed % c.packets.length,
    Nat.mod_lt _ (List.length_pos_of_ne_nil c.nonempty)⟩

def ReplayCursor.advance {π : Type*} (c : ReplayCursor π) : ReplayCursor π :=
  { c with processed := c.processed + 1 }

/-- Where the main thread is. -/
inductive MainPhase (π τ : Type*)
  /-- At the head of the `while` loop. -/
  | outer
  /-- At the head of the loop over the plan. -/
  | planning (rest : List (String × ℕ))
  /-- At the head of the loop over the packets. -/
  | replaying (c : ReplayCursor π)
  /-- In the loop over the vectors fired for a packet. -/
  | batching (todo : List τ) (c : ReplayCursor π)
  /-- In the loop that waits for `task_queue` to shrink. -/
  | pacing (todo : List τ) (c : ReplayCursor π)
  /-- Before the put of a full batch. -/
  | putting (todo : List τ) (c : ReplayCursor π)
  /-- Behind the loops. -/
  | replayed
  | stopping
  | draining
  /-- Before the `"STOP"` for the worker. -/
  | sentinel
  | joiningWorker
  /-- Before the `"STOP"` for the writer. -/
  | alertSentinel
  | joiningWriter
  | finished
  | crashed

/-- Where the worker is. -/
inductive WorkerPhase (τ α : Type*)
  /-- At the head of the loop. -/
  | checking
  /-- Before the get. -/
  | getting
  /-- With what it got, `none` being `"STOP"`. -/
  | received (item : Option (List τ))
  /-- With the rest of its batch. -/
  | working (batch : List τ)
  /-- Before the put of an alert. -/
  | sending (a : α) (batch : List τ)
  | ended

/-- Where the writer is. -/
inductive WriterPhase (α : Type*)
  | getting
  | storing (a : α)
  /-- Behind the loop. -/
  | closing
  | ended
  | crashed

/-- The books of a run. -/
structure PipelineLog (π τ α : Type*) where
  /-- The packets replayed, in order. -/
  replayed : List π
  /-- The tasks fired for them, in order. -/
  fired : List τ
  /-- The tasks the worker evaluated, in order. -/
  evaluated : List τ
  /-- The tasks that are never evaluated. -/
  skipped : List τ
  /-- The batches given up because `task_queue` was full. -/
  refused : List (List τ)
  /-- The tasks whose evaluation raised. -/
  failed : List τ
  /-- The alerts the worker raised, in order. -/
  raised : List α
  /-- The alerts given up because `alert_queue` was full. -/
  dropped : List α
  /-- The alerts the writer passed to the store, in order. -/
  appended : List α

/-- The state of a run. -/
structure PipelineState (π τ α σ ω ς : Type*) where
  main : MainPhase π τ
  running : Bool
  /-- The state that firing reads and writes. -/
  feed : σ
  localBatch : List τ
  stopEvent : Bool
  taskQueue : BoundedQueue (Option (List τ)) 25000
  worker : WorkerPhase τ α
  /-- The state that the evaluation of a task reads and writes. -/
  bench : ω
  alertQueue : BoundedQueue (Option α) 50000
  writer : WriterPhase α
  store : ς
  log : PipelineLog π τ α

/-- A step of one of the threads, or a signal that asks for a stop. -/
inductive PipelineStep (δ : Type*)
  /-- `late`: the deadline has passed, or the time of the put or join is over. -/
  | main (late : Bool)
  | worker (late : Bool)
  | writer (answer : δ)
  /-- `handle_stop`. -/
  | signal
deriving DecidableEq

namespace Pipeline

variable {π τ α σ ω ς δ : Type*}
variable (cfg : PipelineConfig π) (st : PipelineStages π τ α σ ω ς δ)

/-! ### The main thread -/

/-- A look at `task_queue` from inside the put of a full batch. -/
def putBatch (s : PipelineState π τ α σ ω ς) (todo : List τ) (c : ReplayCursor π) (late : Bool) :
    PipelineState π τ α σ ω ς :=
  match s.taskQueue.put (some s.localBatch) with
  | some q => { s with main := .batching todo c, taskQueue := q, localBatch := [] }
  | none =>
    -- `queue.Full`, which is passed over
    if late then
      { s with
        main := .batching todo c
        localBatch := []
        log := { s.log with
          skipped := s.log.skipped ++ s.localBatch, refused := s.log.refused ++ [s.localBatch] } }
    else s

/-- The same for the last batch, which need not be full; `local_batch` is not read again. -/
def putLastBatch (s : PipelineState π τ α σ ω ς) (late : Bool) : PipelineState π τ α σ ω ς :=
  if s.localBatch = [] then { s with main := .stopping }
  else
    match s.taskQueue.put (some s.localBatch) with
    | some q => { s with main := .stopping, taskQueue := q, localBatch := [] }
    | none =>
      if late then
        { s with
          main := .stopping
          localBatch := []
          log := { s.log with
            skipped := s.log.skipped ++ s.localBatch
            refused := s.log.refused ++ [s.localBatch] } }
      else s

/-- The next packet of a capture. -/
def firePacket (s : PipelineState π τ α σ ω ς) (c : ReplayCursor π) : PipelineState π τ α σ ω ς :=
  match st.fire s.feed c.packet with
  | none => { s with main := .crashed }
  | some (feed, tasks) =>
    { s with
      main := .batching tasks c.advance
      feed := feed
      log := { s.log with
        replayed := s.log.replayed ++ [c.packet], fired := s.log.fired ++ tasks } }

/-- A step of the main thread. -/
def mainStep (s : PipelineState π τ α σ ω ς) (late : Bool) : PipelineState π τ α σ ω ς :=
  -- `duration and (time.perf_counter() - t_start >= duration)`
  let expired := cfg.timed && late
  match s.main with
  | .outer =>
    if s.running && !s.stopEvent then { s with main := .planning cfg.plan }
    else { s with main := .replayed }
  | .planning [] =>
    if !s.running || !cfg.timed || expired then { s with main := .replayed }
    else { s with main := .outer }
  | .planning ((pcapFile, target) :: rest) =>
    -- the `break` leads to the test behind the loop
    if s.stopEvent || expired then { s with main := .planning [], running := false }
    else if h : cfg.pcapCache pcapFile ≠ [] then
      { s with main := .replaying ⟨cfg.pcapCache pcapFile, 0, target, rest, h⟩ }
    else { s with main := .planning rest }
  | .replaying c =>
    if c.processed < c.target then
      -- this `break` leaves the loop over the packets only
      if s.stopEvent || expired then { s with main := .planning c.rest, running := false }
      else firePacket st s c
    else { s with main := .planning c.rest }
  | .batching [] c => { s with main := .replaying c }
  | .batching (t :: todo) c =>
    let localBatch := s.localBatch ++ [t]
    { s with
      main := if localBatch.length ≥ 50 then .pacing todo c else .batching todo c
      localBatch := localBatch }
  | .pacing todo c =>
    if s.taskQueue.size > 40 && !s.stopEvent then s else { s with main := .putting todo c }
  | .putting todo c => putBatch s todo c late
  | .replayed => putLastBatch s late
  | .stopping => { s with main := .draining, stopEvent := true }
  | .draining =>
    match s.taskQueue.get with
    | none => { s with main := .sentinel }
    | some (item, q) =>
      { s with
        taskQueue := q
        log := { s.log with skipped := s.log.skipped ++ item.getD [] } }
  | .sentinel =>
    match s.taskQueue.put none with
    | some q => { s with main := .joiningWorker, taskQueue := q }
    | none => if late then { s with main := .joiningWorker } else s
  | .joiningWorker =>
    match s.worker with
    | .ended => { s with main := .alertSentinel }
    | _ => if late then { s with main := .alertSentinel } else s
  | .alertSentinel =>
    match s.alertQueue.put none with
    | some q => { s with main := .joiningWriter, alertQueue := q }
    | none => if late then { s with main := .joiningWriter } else s
  | .joiningWriter =>
    match s.writer with
    | .ended => { s with main := .finished }
    | .crashed => { s with main := .finished }
    | _ => if late then { s with main := .finished } else s
  | .finished => s
  | .crashed => s

/-! ### The worker and the writer -/

/-- The evaluation of a task. -/
def evaluate (s : PipelineState π τ α σ ω ς) (t : τ) (batch : List τ) :
    PipelineState π τ α σ ω ς :=
  let r := st.work s.bench t
  let evaluated := s.log.evaluated ++ [t]
  match r.2 with
  | .quiet =>
    { s with worker := .working batch, bench := r.1, log := { s.log with evaluated } }
  | .alert a =>
    { s with
      worker := .sending a batch
      bench := r.1
      log := { s.log with evaluated, raised := s.log.raised ++ [a] } }
  -- `[WORKER ERROR]`; the rest of the batch is not looked at
  | .raised =>
    { s with
      worker := .checking
      bench := r.1
      log := { s.log with
        evaluated, failed := s.log.failed ++ [t], skipped := s.log.skipped ++ batch } }

/-- A step of the worker. -/
def workerStep (s : PipelineState π τ α σ ω ς) (late : Bool) : PipelineState π τ α σ ω ς :=
  match s.worker with
  | .checking => { s with worker := if s.stopEvent then .ended else .getting }
  | .getting =>
    match s.taskQueue.get with
    -- `queue.Empty`
    | none => if late then { s with worker := .checking } else s
    | some (item, q) => { s with worker := .received item, taskQueue := q }
  | .received none => { s with worker := .ended }
  | .received (some batch) =>
    if s.stopEvent then
      { s with worker := .ended, log := { s.log with skipped := s.log.skipped ++ batch } }
    else { s with worker := .working batch }
  | .working [] => { s with worker := .checking }
  | .working (t :: batch) => evaluate st s t batch
  | .sending a batch =>
    match s.alertQueue.put (some a) with
    | some q => { s with worker := .working batch, alertQueue := q }
    | none =>
      -- `queue.Full`, which is passed over
      if late then
        { s with
          worker := .working batch
          log := { s.log with dropped := s.log.dropped ++ [a] } }
      else s
  | .ended => s

/-- A step of the writer; a get that finds nothing is tried again. -/
def writerStep (s : PipelineState π τ α σ ω ς) (answer : δ) : PipelineState π τ α σ ω ς :=
  match s.writer with
  | .getting =>
    match s.alertQueue.get with
    | none => s
    | some (none, q) => { s with writer := .closing, alertQueue := q }
    | some (some a, q) => { s with writer := .storing a, alertQueue := q }
  | .storing a =>
    let r := st.append s.store answer a
    { s with
      writer := if r.2 then .getting else .crashed
      store := r.1
      log := { s.log with appended := s.log.appended ++ [a] } }
  | .closing =>
    let r := st.flush s.store answer
    { s with writer := if r.2 then .ended else .crashed, store := r.1 }
  | .ended => s
  | .crashed => s

/-- One step of the pipeline. -/
def step (s : PipelineState π τ α σ ω ς) : PipelineStep δ → PipelineState π τ α σ ω ς
  | .main late => mainStep cfg st s late
  | .worker late => workerStep st s late
  | .writer answer => writerStep st s answer
  | .signal => { s with stopEvent := true }

/-- A run, from where the writer has cleared its store. -/
def machine (feed : σ) (bench : ω) (store : ς) :
    Machine (PipelineState π τ α σ ω ς) (PipelineStep δ) Unit where
  init := {
    main := .outer
    running := true
    feed := feed
    localBatch := []
    stopEvent := false
    taskQueue := .empty
    worker := .checking
    bench := bench
    alertQueue := .empty
    writer := .getting
    store := store
    log := ⟨[], [], [], [], [], [], [], [], []⟩ }
  step s i := (step cfg st s i, ())

/-! ### What a step does -/

/-- The main thread is at the head of a loop. -/
def Looping : MainPhase π τ → Prop
  | .outer => True
  | .planning _ => True
  | .replaying _ => True
  | _ => False

/-- Where the main thread is before and after it puts the batch. -/
inductive PutsBatch (batch : List τ) : MainPhase π τ → MainPhase π τ → Prop
  | full (todo : List τ) (c : ReplayCursor π) : PutsBatch batch (.putting todo c) (.batching todo c)
  | last (hne : batch ≠ []) : PutsBatch batch .replayed .stopping

/-- Everything a step of the main thread can do. -/
inductive MainMove (s : PipelineState π τ α σ ω ς) (late : Bool) : PipelineState π τ α σ ω ς → Prop
  | stays : MainMove s late s
  | walks (main : MainPhase π τ) (running : Bool) (hfrom : Looping s.main)
      (hto : Looping main ∨ main = .replayed) : MainMove s late { s with main, running }
  | fires (c : ReplayCursor π) (feed : σ) (tasks : List τ) (hmain : s.main = .replaying c)
      (hgo : s.stopEvent = false) (hfire : st.fire s.feed c.packet = some (feed, tasks)) :
      MainMove s late
        { s with
          main := .batching tasks c.advance
          feed
          log := { s.log with
            replayed := s.log.replayed ++ [c.packet], fired := s.log.fired ++ tasks } }
  | crashes (c : ReplayCursor π) (hmain : s.main = .replaying c) :
      MainMove s late { s with main := .crashed }
  | rests (c : ReplayCursor π) (hmain : s.main = .batching [] c) :
      MainMove s late { s with main := .replaying c }
  | collects (t : τ) (todo : List τ) (c : ReplayCursor π)
      (hmain : s.main = .batching (t :: todo) c) (hfew : s.localBatch.length + 1 < 50) :
      MainMove s late { s with main := .batching todo c, localBatch := s.localBatch ++ [t] }
  | fills (t : τ) (todo : List τ) (c : ReplayCursor π) (hmain : s.main = .batching (t :: todo) c)
      (hfull : 50 ≤ s.localBatch.length + 1) :
      MainMove s late { s with main := .pacing todo c, localBatch := s.localBatch ++ [t] }
  | paces (todo : List τ) (c : ReplayCursor π) (hmain : s.main = .pacing todo c)
      (hgo : s.taskQueue.size ≤ 40 ∨ s.stopEvent = true) :
      MainMove s late { s with main := .putting todo c }
  | puts (main : MainPhase π τ) (q : BoundedQueue (Option (List τ)) 25000)
      (hmain : PutsBatch s.localBatch s.main main)
      (hput : s.taskQueue.put (some s.localBatch) = some q) :
      MainMove s late { s with main, taskQueue := q, localBatch := [] }
  | givesUp (main : MainPhase π τ) (hmain : PutsBatch s.localBatch s.main main)
      (hfull : s.taskQueue.put (some s.localBatch) = none) :
      MainMove s late
        { s with
          main
          localBatch := []
          log := { s.log with
            skipped := s.log.skipped ++ s.localBatch
            refused := s.log.refused ++ [s.localBatch] } }
  | hasNone (hmain : s.main = .replayed) (hempty : s.localBatch = []) :
      MainMove s late { s with main := .stopping }
  | stops (hmain : s.main = .stopping) :
      MainMove s late { s with main := .draining, stopEvent := true }
  | drains (item : Option (List τ)) (q : BoundedQueue (Option (List τ)) 25000)
      (hmain : s.main = .draining) (hget : s.taskQueue.get = some (item, q)) :
      MainMove s late
        { s with
          main := .draining
          taskQueue := q
          log := { s.log with skipped := s.log.skipped ++ item.getD [] } }
  | drained (hmain : s.main = .draining) (hget : s.taskQueue.get = none) :
      MainMove s late { s with main := .sentinel }
  | stopsWorker (q : BoundedQueue (Option (List τ)) 25000) (hmain : s.main = .sentinel)
      (hput : s.taskQueue.put none = some q) :
      MainMove s late { s with main := .joiningWorker, taskQueue := q }
  | leavesWorker (hmain : s.main = .sentinel) (hfull : s.taskQueue.put none = none) :
      MainMove s late { s with main := .joiningWorker }
  | joinsWorker (hmain : s.main = .joiningWorker) (hwhy : s.worker = .ended ∨ late = true) :
      MainMove s late { s with main := .alertSentinel }
  | stopsWriter (q : BoundedQueue (Option α) 50000) (hmain : s.main = .alertSentinel)
      (hput : s.alertQueue.put none = some q) :
      MainMove s late { s with main := .joiningWriter, alertQueue := q }
  | leavesWriter (hmain : s.main = .alertSentinel) (hfull : s.alertQueue.put none = none) :
      MainMove s late { s with main := .joiningWriter }
  | finishes (hmain : s.main = .joiningWriter) : MainMove s late { s with main := .finished }

variable {cfg st}
variable {s : PipelineState π τ α σ ω ς} {late : Bool}

theorem firePacket_moves {c : ReplayCursor π} (hmain : s.main = .replaying c)
    (hgo : s.stopEvent = false) : MainMove st s late (firePacket st s c) := by
  unfold firePacket
  split
  · exact .crashes c hmain
  · next feed tasks hfire => exact .fires c feed tasks hmain hgo hfire

theorem putBatch_moves {todo : List τ} {c : ReplayCursor π} (hmain : s.main = .putting todo c) :
    MainMove st s late (putBatch s todo c late) := by
  unfold putBatch
  have hputs : PutsBatch s.localBatch s.main (.batching todo c) := by
    rw [hmain]
    exact .full todo c
  split
  · next q hput => exact .puts _ q hputs hput
  · next hfull =>
    split
    · exact .givesUp _ hputs hfull
    · exact .stays

theorem putLastBatch_moves (hmain : s.main = .replayed) :
    MainMove st s late (putLastBatch s late) := by
  unfold putLastBatch
  split
  · next hempty => exact .hasNone hmain hempty
  · next hne =>
    -- what is left over is put like a full batch
    have hputs : PutsBatch s.localBatch s.main .stopping := by
      rw [hmain]
      exact .last hne
    split
    · next q hput => exact .puts _ q hputs hput
    · next hfull =>
      split
      · exact .givesUp _ hputs hfull
      · exact .stays

/-- **What a step of the main thread does.** -/
theorem mainStep_moves (cfg : PipelineConfig π) (st : PipelineStages π τ α σ ω ς δ)
    (s : PipelineState π τ α σ ω ς) (late : Bool) :
    MainMove st s late (mainStep cfg st s late) := by
  unfold mainStep
  cases hmain : s.main with
  | outer =>
    have hfrom : Looping s.main := by rw [hmain]; trivial
    dsimp only
    split
    · exact .walks _ s.running hfrom (Or.inl trivial)
    · exact .walks _ s.running hfrom (Or.inr rfl)
  | planning rest =>
    have hfrom : Looping s.main := by rw [hmain]; trivial
    cases rest with
    | nil =>
      dsimp only
      split
      · exact .walks _ s.running hfrom (Or.inr rfl)
      · exact .walks _ s.running hfrom (Or.inl trivial)
    | cons entry rest =>
      -- a capture without packets is passed over; the stop and the deadline end the pass
      dsimp only
      split
      · exact .walks _ false hfrom (Or.inl trivial)
      · split
        · exact .walks _ s.running hfrom (Or.inl trivial)
        · exact .walks _ s.running hfrom (Or.inl trivial)
  | replaying c =>
    have hfrom : Looping s.main := by rw [hmain]; trivial
    dsimp only
    split
    · split
      · exact .walks _ false hfrom (Or.inl trivial)
      · next hgo =>
        rw [Bool.or_eq_true, not_or, Bool.not_eq_true] at hgo
        exact firePacket_moves hmain hgo.1
    · exact .walks _ s.running hfrom (Or.inl trivial)
  | batching todo c =>
    -- a full batch is put before another task joins
    cases todo with
    | nil => exact .rests c hmain
    | cons t todo =>
      dsimp only
      by_cases hfull : 50 ≤ s.localBatch.length + 1
      · rw [if_pos (by rwa [List.length_append, List.length_singleton])]
        exact .fills t todo c hmain hfull
      · rw [if_neg (by rwa [List.length_append, List.length_singleton])]
        exact .collects t todo c hmain (Nat.lt_of_not_le hfull)
  | pacing todo c =>
    -- the main thread waits while the queue is long, unless it is told to stop
    dsimp only
    split
    · exact .stays
    · next hgo =>
      refine .paces todo c hmain ?_
      rw [Bool.and_eq_true, decide_eq_true_eq, not_and_or, Nat.not_lt, Bool.not_eq_true',
        Bool.not_eq_false] at hgo
      exact hgo
  | putting todo c => exact putBatch_moves hmain
  | replayed => exact putLastBatch_moves hmain
  | stopping => exact .stops hmain
  | draining =>
    dsimp only
    split
    · next hget => exact .drained hmain hget
    · next item q hget => exact .drains item q hmain hget
  | sentinel =>
    -- from here on the shutdown: each wait ends by success or by its timeout
    dsimp only
    split
    · next q hput => exact .stopsWorker q hmain hput
    · next hfull =>
      split
      · exact .leavesWorker hmain hfull
      · exact .stays
  | joiningWorker =>
    dsimp only
    split
    · next hended => exact .joinsWorker hmain (Or.inl hended)
    · split
      · next hlate => exact .joinsWorker hmain (Or.inr hlate)
      · exact .stays
  | alertSentinel =>
    dsimp only
    split
    · next q hput => exact .stopsWriter q hmain hput
    · next hfull =>
      split
      · exact .leavesWriter hmain hfull
      · exact .stays
  | joiningWriter =>
    dsimp only
    split
    · exact .finishes hmain
    · exact .finishes hmain
    · split
      · exact .finishes hmain
      · exact .stays
  | finished => exact .stays
  | crashed => exact .stays

variable (st) in
/-- Everything a step of the worker can do. -/
inductive WorkerMove (s : PipelineState π τ α σ ω ς) : PipelineState π τ α σ ω ς → Prop
  | stays : WorkerMove s s
  | looks (hworker : s.worker = .checking ∧ s.stopEvent = false ∨ s.worker = .getting)
      (worker : WorkerPhase τ α) (hto : worker = .getting ∨ worker = .checking) :
      WorkerMove s { s with worker }
  | ends (hworker : s.worker = .checking ∧ s.stopEvent = true ∨ s.worker = .received none) :
      WorkerMove s { s with worker := .ended }
  | gets (item : Option (List τ)) (q : BoundedQueue (Option (List τ)) 25000)
      (hworker : s.worker = .getting) (hget : s.taskQueue.get = some (item, q)) :
      WorkerMove s { s with worker := .received item, taskQueue := q }
  | skips (batch : List τ) (hworker : s.worker = .received (some batch))
      (hstop : s.stopEvent = true) :
      WorkerMove s
        { s with worker := .ended, log := { s.log with skipped := s.log.skipped ++ batch } }
  | accepts (batch : List τ) (hworker : s.worker = .received (some batch))
      (hgo : s.stopEvent = false) : WorkerMove s { s with worker := .working batch }
  | rests (hworker : s.worker = .working []) : WorkerMove s { s with worker := .checking }
  | quiet (t : τ) (batch : List τ) (hworker : s.worker = .working (t :: batch))
      (hwork : (st.work s.bench t).2 = .quiet) :
      WorkerMove s
        { s with
          worker := .working batch
          bench := (st.work s.bench t).1
          log := { s.log with evaluated := s.log.evaluated ++ [t] } }
  | alerts (t : τ) (batch : List τ) (a : α) (hworker : s.worker = .working (t :: batch))
      (hwork : (st.work s.bench t).2 = .alert a) :
      WorkerMove s
        { s with
          worker := .sending a batch
          bench := (st.work s.bench t).1
          log := { s.log with
            evaluated := s.log.evaluated ++ [t], raised := s.log.raised ++ [a] } }
  | fails (t : τ) (batch : List τ) (hworker : s.worker = .working (t :: batch))
      (hwork : (st.work s.bench t).2 = .raised) :
      WorkerMove s
        { s with
          worker := .checking
          bench := (st.work s.bench t).1
          log := { s.log with
            evaluated := s.log.evaluated ++ [t]
            failed := s.log.failed ++ [t]
            skipped := s.log.skipped ++ batch } }
  | sends (a : α) (batch : List τ) (q : BoundedQueue (Option α) 50000)
      (hworker : s.worker = .sending a batch) (hput : s.alertQueue.put (some a) = some q) :
      WorkerMove s { s with worker := .working batch, alertQueue := q }
  | drops (a : α) (batch : List τ) (hworker : s.worker = .sending a batch)
      (hfull : s.alertQueue.put (some a) = none) :
      WorkerMove s
        { s with
          worker := .working batch
          log := { s.log with dropped := s.log.dropped ++ [a] } }

/-- **What a step of the worker does.** -/
theorem workerStep_moves (st : PipelineStages π τ α σ ω ς δ) (s : PipelineState π τ α σ ω ς)
    (late : Bool) : WorkerMove st s (workerStep st s late) := by
  unfold workerStep
  cases hworker : s.worker with
  | checking =>
    dsimp only
    split
    · next hstop => exact .ends (Or.inl ⟨hworker, hstop⟩)
    · next hgo =>
      exact .looks (Or.inl ⟨hworker, Bool.of_not_eq_true hgo⟩) _ (Or.inl rfl)
  | getting =>
    dsimp only
    split
    · split
      · exact .looks (Or.inr hworker) _ (Or.inr rfl)
      · exact .stays
    · next item q hget => exact .gets item q hworker hget
  | received item =>
    -- the sentinel ends the worker, a batch is looked at once more
    cases item with
    | none => exact .ends (Or.inr hworker)
    | some batch =>
      dsimp only
      split
      · next hstop => exact .skips batch hworker hstop
      · next hgo => exact .accepts batch hworker (Bool.of_not_eq_true hgo)
  | working batch =>
    cases batch with
    | nil => exact .rests hworker
    | cons t batch =>
      unfold evaluate
      dsimp only
      split
      · next hwork => exact .quiet t batch hworker hwork
      · next a hwork => exact .alerts t batch a hworker hwork
      · next hwork => exact .fails t batch hworker hwork
  | sending a batch =>
    -- a full alert queue makes the worker wait, then drop
    dsimp only
    split
    · next q hput => exact .sends a batch q hworker hput
    · next hfull =>
      split
      · exact .drops a batch hworker hfull
      · exact .stays
  | ended => exact .stays

variable (st) in
/-- Everything a step of the writer can do. -/
inductive WriterMove (s : PipelineState π τ α σ ω ς) (answer : δ) :
    PipelineState π τ α σ ω ς → Prop
  | stays : WriterMove s answer s
  | takes (a : α) (q : BoundedQueue (Option α) 50000) (hwriter : s.writer = .getting)
      (hget : s.alertQueue.get = some (some a, q)) :
      WriterMove s answer { s with writer := .storing a, alertQueue := q }
  | closes (q : BoundedQueue (Option α) 50000) (hwriter : s.writer = .getting)
      (hget : s.alertQueue.get = some (none, q)) :
      WriterMove s answer { s with writer := .closing, alertQueue := q }
  | appends (a : α) (hwriter : s.writer = .storing a) (writer : WriterPhase α)
      (hto : (st.append s.store answer a).2 = true ∧ writer = .getting ∨
        (st.append s.store answer a).2 = false ∧ writer = .crashed) :
      WriterMove s answer
        { s with
          writer
          store := (st.append s.store answer a).1
          log := { s.log with appended := s.log.appended ++ [a] } }
  | flushes (hwriter : s.writer = .closing) (writer : WriterPhase α)
      (hto : (st.flush s.store answer).2 = true ∧ writer = .ended ∨
        (st.flush s.store answer).2 = false ∧ writer = .crashed) :
      WriterMove s answer { s with writer, store := (st.flush s.store answer).1 }

/-- **What a step of the writer does.** -/
theorem writerStep_moves (st : PipelineStages π τ α σ ω ς δ) (s : PipelineState π τ α σ ω ς)
    (answer : δ) : WriterMove st s answer (writerStep st s answer) := by
  unfold writerStep
  cases hwriter : s.writer with
  | getting =>
    dsimp only
    split
    · exact .stays
    · next q hget => exact .closes q hwriter hget
    · next a q hget => exact .takes a q hwriter hget
  | storing a =>
    -- an append that raises ends the writer
    refine .appends a hwriter _ ?_
    cases (st.append s.store answer a).2 with
    | true => exact Or.inl ⟨rfl, rfl⟩
    | false => exact Or.inr ⟨rfl, rfl⟩
  | closing =>
    refine .flushes hwriter _ ?_
    cases (st.flush s.store answer).2 with
    | true => exact Or.inl ⟨rfl, rfl⟩
    | false => exact Or.inr ⟨rfl, rfl⟩
  | ended => exact .stays
  | crashed => exact .stays

end Pipeline

end Sentrix
