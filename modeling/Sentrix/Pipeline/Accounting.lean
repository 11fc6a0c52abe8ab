import Mathlib.Data.List.ReduceOption
import Sentrix.Pipeline.Threads

/-!
# What becomes of the tasks and alerts of a live run

The tasks that the main thread fires and the alerts that the worker raises are the items of
two lines. The tasks go through the batch that is being collected, `task_queue` and the batch
in the worker's hand, and come through when they are evaluated; the alerts go through
`alert_queue` and come through when the writer appends them to the store. In every
interleaving the books of both lines balance (`taskBooks_after`, `alertBooks_after`).

What can be lost of the tasks is lost in one piece as long as no evaluation raises: those
evaluated are the first of those fired (`PrefixInv`). Tasks are given up before the stop only
if `task_queue` is full.
-/

namespace Sentrix

namespace Pipeline

variable {π τ α σ ω ς δ : Type*}
variable {cfg : PipelineConfig π} {st : PipelineStages π τ α σ ω ς δ}
variable {s s' : PipelineState π τ α σ ω ς}

/-! ### Where the tasks are -/

/-- The tasks fired for the packet at hand that are not in a batch yet. -/
def pendingTasks : MainPhase π τ → List τ
  | .batching todo _ => todo
  | .pacing todo _ => todo
  | .putting todo _ => todo
  | _ => []

/-- The tasks of the batch the worker holds. -/
def tasksInHand : WorkerPhase τ α → List τ
  | .received (some batch) => batch
  | .working batch => batch
  | .sending _ batch => batch
  | _ => []

def tasksQueued {n : ℕ} (q : BoundedQueue (Option (List τ)) n) : List τ :=
  q.items.flatMap fun item => item.getD []

/-- The tasks on their way, the oldest first. -/
def tasksInside (s : PipelineState π τ α σ ω ς) : List τ :=
  tasksInHand s.worker ++ tasksQueued s.taskQueue ++ s.localBatch ++ pendingTasks s.main

/-- Every task fired is accounted for. -/
def TaskBooks (s : PipelineState π τ α σ ω ς) : Prop :=
  Balanced s.log.fired s.log.evaluated (tasksInside s) s.log.skipped

/-- A put adds its batch's tasks behind those in the queue. -/
theorem tasksQueued_put {n : ℕ} {q q' : BoundedQueue (Option (List τ)) n}
    {item : Option (List τ)} (hput : q.put item = some q') :
    tasksQueued q' = tasksQueued q ++ item.getD [] := by
  rw [tasksQueued, BoundedQueue.items_put hput, List.flatMap_append, List.flatMap_singleton]
  rfl

/-- A get takes the oldest batch's tasks from the front. -/
theorem tasksQueued_get {n : ℕ} {q q' : BoundedQueue (Option (List τ)) n}
    {item : Option (List τ)} (hget : q.get = some (item, q')) :
    tasksQueued q = item.getD [] ++ tasksQueued q' := by
  rw [tasksQueued, BoundedQueue.items_get hget, List.flatMap_cons]
  rfl

/-- Between two packets the main thread holds no task outside the batch. -/
theorem pendingTasks_of_looping {main : MainPhase π τ} (h : Looping main) :
    pendingTasks main = [] := by
  cases main with
  | batching todo c => exact h.elim
  | pacing todo c => exact h.elim
  | putting todo c => exact h.elim
  | _ => rfl

/-- Putting the batch leaves the tasks behind it as they are. -/
theorem PutsBatch.pendingTasks_eq {batch : List τ} {main main' : MainPhase π τ}
    (h : PutsBatch batch main main') :
    pendingTasks main' = pendingTasks main := by
  cases h with
  | full todo c => rfl
  | last hne => rfl

/-- A step that does nothing to the books and keeps the tasks on their way. -/
theorem TaskBooks.keep (h : TaskBooks s) (hlog : s'.log = s.log)
    (hinside : tasksInside s' = tasksInside s) : TaskBooks s' := by
  unfold TaskBooks
  rw [hlog, hinside]
  exact h

/-- The main thread passes tasks on from place to place; what it gives up is logged as skipped. -/
theorem TaskBooks.mainMove {late : Bool} (h : TaskBooks s)
    (hmove : MainMove st s late s') : TaskBooks s' := by
  cases hmove with
  | stays => exact h
  | walks main running hfrom hto =>
    have hpending : pendingTasks main = [] := by
      obtain hto | rfl := hto
      · exact pendingTasks_of_looping hto
      · rfl
    refine h.keep rfl ?_
    simp only [tasksInside, hpending, pendingTasks_of_looping hfrom]
  | fires c feed tasks hmain hgo hfire =>
    -- the packet's tasks enter at the far end
    have henter := Balanced.enter h tasks
    unfold TaskBooks
    simpa [tasksInside, hmain, pendingTasks] using henter
  | crashes c hmain => exact h.keep rfl (by simp [tasksInside, hmain, pendingTasks])
  | rests c hmain => exact h.keep rfl (by simp [tasksInside, hmain, pendingTasks])
  | collects t todo c hmain hfew =>
    exact h.keep rfl (by simp [tasksInside, hmain, pendingTasks])
  | fills t todo c hmain hfull =>
    exact h.keep rfl (by simp [tasksInside, hmain, pendingTasks])
  | paces todo c hmain hgo => exact h.keep rfl (by simp [tasksInside, hmain, pendingTasks])
  | puts main q hmain hput =>
    refine h.keep rfl ?_
    simp [tasksInside, hmain.pendingTasks_eq, tasksQueued_put hput]
  | givesUp main hmain hfull =>
    -- the batch goes from between the queue and the pending tasks
    have hlose := Balanced.lose h
    unfold TaskBooks
    simpa [tasksInside, hmain.pendingTasks_eq] using hlose
  | hasNone hmain hempty => exact h.keep rfl (by simp [tasksInside, hmain, pendingTasks])
  | stops hmain => exact h.keep rfl (by simp [tasksInside, hmain, pendingTasks])
  | drains item q hmain hget =>
    -- the drained batch is the oldest in the queue: it is given up from between the worker's hand
    -- and the rest
    have hsplit : tasksInside s =
        tasksInHand s.worker ++ item.getD [] ++ (tasksQueued q ++ s.localBatch) := by
      simp [tasksInside, hmain, pendingTasks, tasksQueued_get hget]
    rw [TaskBooks, hsplit] at h
    have hlose := Balanced.lose h
    unfold TaskBooks
    simpa [tasksInside, pendingTasks] using hlose
  | drained hmain hget => exact h.keep rfl (by simp [tasksInside, hmain, pendingTasks])
  | stopsWorker q hmain hput =>
    exact h.keep rfl (by simp [tasksInside, hmain, pendingTasks, tasksQueued_put hput])
  | leavesWorker hmain hfull => exact h.keep rfl (by simp [tasksInside, hmain, pendingTasks])
  | joinsWorker hmain hwhy => exact h.keep rfl (by simp [tasksInside, hmain, pendingTasks])
  | stopsWriter q hmain hput => exact h.keep rfl (by simp [tasksInside, hmain, pendingTasks])
  | leavesWriter hmain hfull => exact h.keep rfl (by simp [tasksInside, hmain, pendingTasks])
  | finishes hmain => exact h.keep rfl (by simp [tasksInside, hmain, pendingTasks])

/-- The worker evaluates the oldest task on its way, or gives up a batch as a whole. -/
theorem TaskBooks.workerMove (h : TaskBooks s) (hmove : WorkerMove st s s') : TaskBooks s' := by
  cases hmove with
  | stays => exact h
  | looks hworker worker hto =>
    have hhand : tasksInHand s.worker = [] := by
      obtain ⟨hworker, -⟩ | hworker := hworker <;> rw [hworker] <;> rfl
    have hhand' : tasksInHand worker = [] := by
      obtain rfl | rfl := hto <;> rfl
    exact h.keep rfl (by simp only [tasksInside, hhand, hhand'])
  | ends hworker =>
    have hhand : tasksInHand s.worker = [] := by
      obtain ⟨hworker, -⟩ | hworker := hworker <;> rw [hworker] <;> rfl
    have hhand' : tasksInHand (.ended : WorkerPhase τ α) = [] := rfl
    exact h.keep rfl (by simp only [tasksInside, hhand, hhand'])
  | gets item q hworker hget =>
    refine h.keep rfl ?_
    cases item with
    | none => simp [tasksInside, hworker, tasksInHand, tasksQueued_get hget]
    | some batch => simp [tasksInside, hworker, tasksInHand, tasksQueued_get hget]
  | skips batch hworker hstop =>
    -- after the stop a batch in hand is given up untouched
    have hsplit : tasksInside s = [] ++ batch ++
        (tasksQueued s.taskQueue ++ s.localBatch ++ pendingTasks s.main) := by
      simp [tasksInside, hworker, tasksInHand]
    rw [TaskBooks, hsplit] at h
    have hlose := Balanced.lose h
    unfold TaskBooks
    simpa [tasksInside, tasksInHand] using hlose
  | accepts batch hworker hgo => exact h.keep rfl (by simp [tasksInside, hworker, tasksInHand])
  | rests hworker => exact h.keep rfl (by simp [tasksInside, hworker, tasksInHand])
  | quiet t batch hworker hwork =>
    -- the task is the oldest on its way, so it leaves at the front
    have hsplit : tasksInside s = [t] ++
        (batch ++ tasksQueued s.taskQueue ++ s.localBatch ++ pendingTasks s.main) := by
      simp [tasksInside, hworker, tasksInHand]
    rw [TaskBooks, hsplit] at h
    exact Balanced.leave h
  | alerts t batch a hworker hwork =>
    have hsplit : tasksInside s = [t] ++
        (batch ++ tasksQueued s.taskQueue ++ s.localBatch ++ pendingTasks s.main) := by
      simp [tasksInside, hworker, tasksInHand]
    rw [TaskBooks, hsplit] at h
    exact Balanced.leave h
  | fails t batch hworker hwork =>
    -- the task itself was evaluated, the rest of its batch is lost
    have hsplit : tasksInside s = [t] ++ ([] ++ batch ++
        (tasksQueued s.taskQueue ++ s.localBatch ++ pendingTasks s.main)) := by
      simp [tasksInside, hworker, tasksInHand]
    rw [TaskBooks, hsplit] at h
    have hlose := Balanced.lose (Balanced.leave h)
    unfold TaskBooks
    simpa [tasksInside, tasksInHand] using hlose
  | sends a batch q hworker hput =>
    exact h.keep rfl (by simp [tasksInside, hworker, tasksInHand])
  | drops a batch hworker hfull =>
    have hinside : tasksInside s = tasksInside { s with worker := .working batch } := by
      simp [tasksInside, hworker, tasksInHand]
    rw [TaskBooks, hinside] at h
    exact h

/-- The writer thread touches no task. -/
theorem TaskBooks.writerMove {answer : δ} (h : TaskBooks s)
    (hmove : WriterMove st s answer s') : TaskBooks s' := by
  cases hmove with
  | stays => exact h
  | takes a q hwriter hget => exact h
  | closes q hwriter hget => exact h
  | appends a hwriter writer hto => exact h
  | flushes hwriter writer hto => exact h

/-- **One step** keeps the tasks' books. -/
theorem TaskBooks.step (h : TaskBooks s) (i : PipelineStep δ) :
    TaskBooks (step cfg st s i) := by
  cases i with
  | main late => exact h.mainMove (mainStep_moves cfg st s late)
  | worker late => exact h.workerMove (workerStep_moves st s late)
  | writer answer => exact h.writerMove (writerStep_moves st s answer)
  | signal => exact h

/-- Tasks are accounted for after every run. -/
theorem taskBooks_after (cfg : PipelineConfig π) (st : PipelineStages π τ α σ ω ς δ) (feed : σ)
    (bench : ω) (store : ς) (h : List (PipelineStep δ)) :
    TaskBooks ((machine cfg st feed bench store).after h) :=
  (machine cfg st feed bench store).invariant (fun _ s => TaskBooks s) Balanced.nil
    (fun _ i hbooks => hbooks.step i) h

/-! ### Where the alerts are -/

/-- The alert the worker is about to put. -/
def alertInHand : WorkerPhase τ α → List α
  | .sending a _ => [a]
  | _ => []

/-- The alert the writer is about to append. -/
def alertTaken : WriterPhase α → List α
  | .storing a => [a]
  | _ => []

/-- The alerts on their way, the oldest first. -/
def alertsInside (s : PipelineState π τ α σ ω ς) : List α :=
  alertTaken s.writer ++ s.alertQueue.items.reduceOption ++ alertInHand s.worker

/-- Every alert raised is accounted for. -/
def AlertBooks (s : PipelineState π τ α σ ω ς) : Prop :=
  Balanced s.log.raised s.log.appended (alertsInside s) s.log.dropped

/-- A step that neither raises, stores nor drops an alert keeps the books when the alerts inside
stay the same. -/
theorem AlertBooks.keep (h : AlertBooks s) (hlog : s'.log.raised = s.log.raised ∧
    s'.log.appended = s.log.appended ∧ s'.log.dropped = s.log.dropped)
    (hinside : alertsInside s' = alertsInside s) : AlertBooks s' := by
  unfold AlertBooks
  rw [hlog.1, hlog.2.1, hlog.2.2, hinside]
  exact h

/-- The main thread touches no alert. -/
theorem AlertBooks.mainMove {late : Bool} (h : AlertBooks s)
    (hmove : MainMove st s late s') : AlertBooks s' := by
  cases hmove with
  | stopsWriter q hmain hput =>
    -- the sentinel is no alert
    refine h.keep ⟨rfl, rfl, rfl⟩ ?_
    simp [alertsInside, BoundedQueue.items_put hput, List.reduceOption_append]
  | _ => exact h

/-- A raised alert is in the worker's hand until it is queued or dropped. -/
theorem AlertBooks.workerMove (h : AlertBooks s) (hmove : WorkerMove st s s') :
    AlertBooks s' := by
  cases hmove with
  | stays => exact h
  | looks hworker worker hto =>
    have hhand : alertInHand s.worker = [] := by
      obtain ⟨hworker, -⟩ | hworker := hworker <;> rw [hworker] <;> rfl
    have hhand' : alertInHand worker = [] := by
      obtain rfl | rfl := hto <;> rfl
    exact h.keep ⟨rfl, rfl, rfl⟩ (by simp only [alertsInside, hhand, hhand'])
  | ends hworker =>
    have hhand : alertInHand s.worker = [] := by
      obtain ⟨hworker, -⟩ | hworker := hworker <;> rw [hworker] <;> rfl
    have hhand' : alertInHand (.ended : WorkerPhase τ α) = [] := rfl
    exact h.keep ⟨rfl, rfl, rfl⟩ (by simp only [alertsInside, hhand, hhand'])
  | gets item q hworker hget =>
    exact h.keep ⟨rfl, rfl, rfl⟩ (by simp [alertsInside, hworker, alertInHand])
  | skips batch hworker hstop =>
    exact h.keep ⟨rfl, rfl, rfl⟩ (by simp [alertsInside, hworker, alertInHand])
  | accepts batch hworker hgo =>
    exact h.keep ⟨rfl, rfl, rfl⟩ (by simp [alertsInside, hworker, alertInHand])
  | rests hworker =>
    exact h.keep ⟨rfl, rfl, rfl⟩ (by simp [alertsInside, hworker, alertInHand])
  | quiet t batch hworker hwork =>
    exact h.keep ⟨rfl, rfl, rfl⟩ (by simp [alertsInside, hworker, alertInHand])
  | alerts t batch a hworker hwork =>
    -- the alert enters behind those in the queue
    have henter := Balanced.enter h [a]
    unfold AlertBooks
    simpa [alertsInside, hworker, alertInHand] using henter
  | fails t batch hworker hwork =>
    exact h.keep ⟨rfl, rfl, rfl⟩ (by simp [alertsInside, hworker, alertInHand])
  | sends a batch q hworker hput =>
    refine h.keep ⟨rfl, rfl, rfl⟩ ?_
    simp [alertsInside, hworker, alertInHand, BoundedQueue.items_put hput,
      List.reduceOption_append]
  | drops a batch hworker hfull =>
    -- it is the newest alert, and is lost from the end
    have hsplit : alertsInside s =
        alertTaken s.writer ++ s.alertQueue.items.reduceOption ++ [a] ++ [] := by
      simp [alertsInside, hworker, alertInHand]
    rw [AlertBooks, hsplit] at h
    exact Balanced.lose h

/-- The writer takes alerts out of the queue and logs what becomes of each. -/
theorem AlertBooks.writerMove {answer : δ} (h : AlertBooks s)
    (hmove : WriterMove st s answer s') : AlertBooks s' := by
  cases hmove with
  | stays => exact h
  | takes a q hwriter hget =>
    refine h.keep ⟨rfl, rfl, rfl⟩ ?_
    simp [alertsInside, hwriter, alertTaken, BoundedQueue.items_get hget]
  | closes q hwriter hget =>
    refine h.keep ⟨rfl, rfl, rfl⟩ ?_
    simp [alertsInside, hwriter, alertTaken, BoundedQueue.items_get hget]
  | appends a hwriter writer hto =>
    -- the alert taken is the oldest, so it leaves at the front
    have htaken : alertTaken writer = [] := by
      obtain ⟨-, rfl⟩ | ⟨-, rfl⟩ := hto <;> rfl
    have hsplit : alertsInside s =
        [a] ++ (s.alertQueue.items.reduceOption ++ alertInHand s.worker) := by
      simp [alertsInside, hwriter, alertTaken]
    rw [AlertBooks, hsplit] at h
    have hleave := Balanced.leave h
    unfold AlertBooks
    simpa [alertsInside, htaken] using hleave
  | flushes hwriter writer hto =>
    have htaken : alertTaken writer = [] := by
      obtain ⟨-, rfl⟩ | ⟨-, rfl⟩ := hto <;> rfl
    have htaken' : alertTaken s.writer = [] := by
      rw [hwriter]
      rfl
    exact h.keep ⟨rfl, rfl, rfl⟩ (by simp only [alertsInside, htaken, htaken'])

/-- **One step** keeps the alerts' books. -/
theorem AlertBooks.step (h : AlertBooks s) (i : PipelineStep δ) :
    AlertBooks (step cfg st s i) := by
  cases i with
  | main late => exact h.mainMove (mainStep_moves cfg st s late)
  | worker late => exact h.workerMove (workerStep_moves st s late)
  | writer answer => exact h.writerMove (writerStep_moves st s answer)
  | signal => exact h

/-- Alerts are accounted for after every run. -/
theorem alertBooks_after (cfg : PipelineConfig π) (st : PipelineStages π τ α σ ω ς δ) (feed : σ)
    (bench : ω) (store : ς) (h : List (PipelineStep δ)) :
    AlertBooks ((machine cfg st feed bench store).after h) :=
  (machine cfg st feed bench store).invariant (fun _ s => AlertBooks s) Balanced.nil
    (fun _ i hbooks => hbooks.step i) h

/-! ### The stages run one packet and one task after the other -/

/-- Firing, as a machine that is fed packets; one that raises fires nothing. -/
def firing (st : PipelineStages π τ α σ ω ς δ) (feed : σ) : Machine σ π (List τ) where
  init := feed
  step s p := (st.fire s p).getD (s, [])

/-- The worker's bench, as a machine that is fed tasks. -/
def working (st : PipelineStages π τ α σ ω ς δ) (bench : ω) : Machine ω τ (WorkResult α) where
  init := bench
  step := st.work

/-- The alert a result carries. -/
def alert? : WorkResult α → Option α
  | .alert a => some a
  | _ => none

/-- The stages have seen what the books say, in this order and nothing else. -/
structure Sequential (st : PipelineStages π τ α σ ω ς δ) (feed : σ) (bench : ω)
    (s : PipelineState π τ α σ ω ς) : Prop where
  feed_eq : s.feed = (firing st feed).after s.log.replayed
  fired_eq : s.log.fired = ((firing st feed).emits s.log.replayed).flatten
  bench_eq : s.bench = (working st bench).after s.log.evaluated
  raised_eq : s.log.raised = ((working st bench).emits s.log.evaluated).filterMap alert?

section Sequential

variable {feed : σ} {bench : ω}

/-- What one more evaluation does to the worker's account. -/
theorem Sequential.evaluate (h : Sequential st feed bench s) (t : τ) :
    (st.work s.bench t).1 = (working st bench).after (s.log.evaluated ++ [t]) ∧
      ((working st bench).emits (s.log.evaluated ++ [t])).filterMap alert? =
        s.log.raised ++ (alert? (st.work s.bench t).2).toList := by
  constructor
  · rw [Machine.after_concat, ← h.bench_eq]
    rfl
  · rw [Machine.emits_concat, ← h.bench_eq, List.filterMap_append, ← h.raised_eq]
    cases hwork : (st.work s.bench t).2 with
    | quiet => simp [Machine.out, working, hwork, alert?]
    | alert a => simp [Machine.out, working, hwork, alert?]
    | raised => simp [Machine.out, working, hwork, alert?]

/-- Only firing a packet's tasks moves the feed, by that packet. -/
theorem Sequential.mainMove {late : Bool} (h : Sequential st feed bench s)
    (hmove : MainMove st s late s') : Sequential st feed bench s' := by
  cases hmove with
  | fires c feed' tasks hmain hgo hfire =>
    have hstep : (firing st feed).step s.feed c.packet = (feed', tasks) := by
      simp [firing, hfire]
    refine ⟨?_, ?_, h.bench_eq, h.raised_eq⟩
    · show feed' = (firing st feed).after (s.log.replayed ++ [c.packet])
      rw [Machine.after_concat, ← h.feed_eq, Machine.next, hstep]
    · show s.log.fired ++ tasks =
        ((firing st feed).emits (s.log.replayed ++ [c.packet])).flatten
      rw [Machine.emits_concat, ← h.feed_eq, Machine.out, hstep, List.flatten_append,
        List.flatten_singleton, ← h.fired_eq]
  -- no other move fires or replays
  | _ => exact ⟨h.feed_eq, h.fired_eq, h.bench_eq, h.raised_eq⟩

/-- Only an evaluation moves the bench, by the task it evaluates. -/
theorem Sequential.workerMove (h : Sequential st feed bench s) (hmove : WorkerMove st s s') :
    Sequential st feed bench s' := by
  cases hmove with
  | quiet t batch hworker hwork =>
    obtain ⟨hbench, hraised⟩ := h.evaluate t
    rw [hwork] at hraised
    exact ⟨h.feed_eq, h.fired_eq, hbench, by simpa [alert?] using hraised.symm⟩
  | alerts t batch a hworker hwork =>
    obtain ⟨hbench, hraised⟩ := h.evaluate t
    rw [hwork] at hraised
    exact ⟨h.feed_eq, h.fired_eq, hbench, hraised.symm⟩
  | fails t batch hworker hwork =>
    obtain ⟨hbench, hraised⟩ := h.evaluate t
    rw [hwork] at hraised
    exact ⟨h.feed_eq, h.fired_eq, hbench, by simpa [alert?] using hraised.symm⟩
  -- no other move evaluates
  | _ => exact ⟨h.feed_eq, h.fired_eq, h.bench_eq, h.raised_eq⟩

/-- The writer changes neither the feed nor the bench. -/
theorem Sequential.writerMove {answer : δ} (h : Sequential st feed bench s)
    (hmove : WriterMove st s answer s') : Sequential st feed bench s' := by
  cases hmove with
  | _ => exact ⟨h.feed_eq, h.fired_eq, h.bench_eq, h.raised_eq⟩

/-- What one step of any thread preserves. -/
theorem Sequential.step (h : Sequential st feed bench s) (i : PipelineStep δ) :
    Sequential st feed bench (step cfg st s i) := by
  cases i with
  | main late => exact h.mainMove (mainStep_moves cfg st s late)
  | worker late => exact h.workerMove (workerStep_moves st s late)
  | writer answer => exact h.writerMove (writerStep_moves st s answer)
  | signal => exact ⟨h.feed_eq, h.fired_eq, h.bench_eq, h.raised_eq⟩

end Sequential

/-- The threads' stages have worked as if one packet and one task came after the other. -/
theorem sequential_after (cfg : PipelineConfig π) (st : PipelineStages π τ α σ ω ς δ) (feed : σ)
    (bench : ω) (store : ς) (h : List (PipelineStep δ)) :
    Sequential st feed bench ((machine cfg st feed bench store).after h) :=
  (machine cfg st feed bench store).invariant (fun _ s => Sequential st feed bench s)
    ⟨rfl, rfl, rfl, rfl⟩ (fun _ i hseq => hseq.step i) h

/-- **The books of a run.** In every interleaving of the threads, every task fired is in one
place, and so is every alert raised; nothing is evaluated or appended twice, and nothing
overtakes. The tasks fired are those of the packets replayed, and the alerts raised are those
of the tasks evaluated, one after the other. -/
theorem pipeline_books (cfg : PipelineConfig π) (st : PipelineStages π τ α σ ω ς δ) (feed : σ)
    (bench : ω) (store : ς) (h : List (PipelineStep δ)) :
    let s := (machine cfg st feed bench store).after h
    s.log.fired = ((firing st feed).emits s.log.replayed).flatten ∧
    s.log.raised = ((working st bench).emits s.log.evaluated).filterMap alert? ∧
    Balanced s.log.fired s.log.evaluated (tasksInside s) s.log.skipped ∧
    Balanced s.log.raised s.log.appended (alertsInside s) s.log.dropped := by
  have hseq := sequential_after cfg st feed bench store h
  exact ⟨hseq.fired_eq, hseq.raised_eq, taskBooks_after cfg st feed bench store h,
    alertBooks_after cfg st feed bench store h⟩

/-! ### What is lost is lost in one piece -/

/-- The tasks the worker goes through unless one of them raises. -/
def tasksAccepted : WorkerPhase τ α → List τ
  | .working batch => batch
  | .sending _ batch => batch
  | _ => []

/-- No evaluation has raised, and no batch was given up because the queue was full. -/
def Undisturbed (s : PipelineState π τ α σ ω ς) : Prop := s.log.failed = [] ∧ s.log.refused = []

/-- In an undisturbed run nothing is lost before the stop, and what is evaluated or accepted
is the first of what was fired. -/
structure PrefixInv (s : PipelineState π τ α σ ω ς) : Prop where
  books : TaskBooks s
  accepted : Undisturbed s → s.log.evaluated ++ tasksAccepted s.worker <+: s.log.fired
  skipped : Undisturbed s → s.stopEvent = false → s.log.skipped = []
  draining : s.main = .draining → s.stopEvent = true

/-- A step that neither loses nor accepts a task, and does not set the event. -/
theorem PrefixInv.keep (h : PrefixInv s) (hbooks : TaskBooks s')
    (hcalm : Undisturbed s' → Undisturbed s)
    (haccepted : s'.log.evaluated ++ tasksAccepted s'.worker =
      s.log.evaluated ++ tasksAccepted s.worker)
    (hfired : s.log.fired <+: s'.log.fired) (hskipped : s'.log.skipped = s.log.skipped)
    (hstop : s.stopEvent = true → s'.stopEvent = true)
    (hmain : s'.main = .draining → s.main = .draining ∨ s'.stopEvent = true) : PrefixInv s' where
  books := hbooks
  accepted hc := by
    rw [haccepted]
    exact (h.accepted (hcalm hc)).trans hfired
  skipped hc hgo := by
    rw [hskipped]
    refine h.skipped (hcalm hc) ?_
    cases hs : s.stopEvent with
    | false => rfl
    | true => exact absurd (hstop hs) (by rw [hgo]; nofun)
  draining hdraining := (hmain hdraining).elim (fun hm => hstop (h.draining hm)) id

/-- Once an evaluation has raised or a batch was given up, nothing is said any more. -/
theorem PrefixInv.of_disturbed (hbooks : TaskBooks s) (hnot : ¬ Undisturbed s)
    (hmain : s.main = .draining → s.stopEvent = true) : PrefixInv s :=
  ⟨hbooks, fun hc => absurd hc hnot, fun hc => absurd hc hnot, hmain⟩

/-- A batch that was put leads on to the loop or to the shutdown, not straight to the draining. -/
theorem PutsBatch.ne_draining {batch : List τ} {main main' : MainPhase π τ}
    (h : PutsBatch batch main main') :
    main' ≠ .draining := by
  cases h with
  | full todo c => nofun
  | last hne => nofun

/-- The main thread adds to the end of the tasks fired, and drains only after the stop. -/
theorem PrefixInv.mainMove {late : Bool} (h : PrefixInv s) (hmove : MainMove st s late s') :
    PrefixInv s' := by
  have hbooks := h.books.mainMove hmove
  cases hmove with
  | stays => exact h
  | walks main running hfrom hto =>
    refine h.keep hbooks id rfl (List.prefix_refl _) rfl id fun hmain => ?_
    obtain hto | hto := hto
    · rw [show main = .draining from hmain] at hto
      exact hto.elim
    · cases hto.symm.trans hmain
  | fires c feed tasks hmain hgo hfire =>
    exact h.keep hbooks id rfl (List.prefix_append _ _) rfl id nofun
  | puts main q hmain hput =>
    exact h.keep hbooks id rfl (List.prefix_refl _) rfl id fun hm => absurd hm hmain.ne_draining
  | givesUp main hmain hfull =>
    -- a refused batch disturbs the run
    refine .of_disturbed hbooks (fun hc => ?_) fun hm => absurd hm hmain.ne_draining
    exact List.concat_ne_nil _ _ hc.2
  | stops hmain =>
    exact h.keep hbooks id rfl (List.prefix_refl _) rfl (fun _ => rfl) fun _ => Or.inr rfl
  | drains item q hmain hget =>
    -- what is given up is given up after the stop
    have hstop := h.draining hmain
    exact ⟨hbooks, h.accepted, fun _ hgo => absurd (hstop.symm.trans hgo) nofun, fun _ => hstop⟩
  | _ => exact h.keep hbooks id rfl (List.prefix_refl _) rfl id nofun

/-- The batch the worker accepts is the oldest on its way, so the prefix grows in one piece. -/
theorem PrefixInv.workerMove (h : PrefixInv s) (hmove : WorkerMove st s s') : PrefixInv s' := by
  have hbooks := h.books.workerMove hmove
  cases hmove with
  | stays => exact h
  | looks hworker worker hto =>
    have haccepted : tasksAccepted s.worker = [] := by
      obtain ⟨hworker, -⟩ | hworker := hworker <;> rw [hworker] <;> rfl
    have haccepted' : tasksAccepted worker = [] := by
      obtain rfl | rfl := hto <;> rfl
    refine h.keep hbooks id ?_ (List.prefix_refl _) rfl id Or.inl
    simp only [haccepted, haccepted']
  | ends hworker =>
    have haccepted : tasksAccepted s.worker = [] := by
      obtain ⟨hworker, -⟩ | hworker := hworker <;> rw [hworker] <;> rfl
    refine h.keep hbooks id ?_ (List.prefix_refl _) rfl id Or.inl
    rw [haccepted]
    rfl
  | gets item q hworker hget =>
    exact h.keep hbooks id (by rw [hworker]; rfl) (List.prefix_refl _) rfl id Or.inl
  | skips batch hworker hstop =>
    refine ⟨hbooks, fun hc => ?_, fun _ hgo => absurd (hstop.symm.trans hgo) nofun, h.draining⟩
    have haccepted := h.accepted hc
    rwa [hworker] at haccepted
  | accepts batch hworker hgo =>
    refine ⟨hbooks, fun hc => ?_, h.skipped, h.draining⟩
    -- nothing is lost yet, and the batch is the oldest of what is inside
    have hall := h.books
    rw [TaskBooks, h.skipped hc hgo] at hall
    have hinside : tasksInside s =
        batch ++ (tasksQueued s.taskQueue ++ s.localBatch ++ pendingTasks s.main) := by
      simp [tasksInside, hworker, tasksInHand]
    rw [hall.eq_of_no_loss, hinside, ← List.append_assoc]
    exact List.prefix_append _ _
  | rests hworker =>
    exact h.keep hbooks id (by rw [hworker]; rfl) (List.prefix_refl _) rfl id Or.inl
  | quiet t batch hworker hwork =>
    refine h.keep hbooks id ?_ (List.prefix_refl _) rfl id Or.inl
    simp [hworker, tasksAccepted]
  | alerts t batch a hworker hwork =>
    refine h.keep hbooks id ?_ (List.prefix_refl _) rfl id Or.inl
    simp [hworker, tasksAccepted]
  | fails t batch hworker hwork =>
    -- so does an evaluation that raises
    refine .of_disturbed hbooks (fun hc => ?_) h.draining
    exact List.concat_ne_nil _ _ hc.1
  | sends a batch q hworker hput =>
    exact h.keep hbooks id (by rw [hworker]; rfl) (List.prefix_refl _) rfl id Or.inl
  | drops a batch hworker hfull =>
    exact h.keep hbooks id (by rw [hworker]; rfl) (List.prefix_refl _) rfl id Or.inl

/-- The writer is no part of the tasks' line. -/
theorem PrefixInv.writerMove {answer : δ} (h : PrefixInv s)
    (hmove : WriterMove st s answer s') : PrefixInv s' := by
  cases hmove with
  | _ => exact ⟨h.books, h.accepted, h.skipped, h.draining⟩

/-- What one step of any thread preserves. -/
theorem PrefixInv.step (h : PrefixInv s) (i : PipelineStep δ) : PrefixInv (step cfg st s i) := by
  cases i with
  | main late => exact h.mainMove (mainStep_moves cfg st s late)
  | worker late => exact h.workerMove (workerStep_moves st s late)
  | writer answer => exact h.writerMove (writerStep_moves st s answer)
  | signal => exact ⟨h.books, h.accepted, fun _ hgo => absurd hgo nofun, fun _ => rfl⟩

/-- In every interleaving, an undisturbed run has evaluated the first of the tasks it fired. -/
theorem prefixInv_after (cfg : PipelineConfig π) (st : PipelineStages π τ α σ ω ς δ) (feed : σ)
    (bench : ω) (store : ς) (h : List (PipelineStep δ)) :
    PrefixInv ((machine cfg st feed bench store).after h) :=
  (machine cfg st feed bench store).invariant (fun _ s => PrefixInv s)
    ⟨Balanced.nil, fun _ => List.prefix_refl _, fun _ _ => rfl, nofun⟩
    (fun _ i hinv => hinv.step i) h

end Pipeline

end Sentrix
