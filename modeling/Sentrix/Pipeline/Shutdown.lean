import Sentrix.Pipeline.Accounting

/-!
# The shutdown of the live pipeline

When the replay is over the main thread waits for the worker, for a second, and only then sends
`"STOP"` to the writer. If the wait does not end early, nothing is put into `alert_queue`
behind the `"STOP"` (`Orderly`), so the writer has appended every alert that got into the queue
when it ends. If the wait ends early the worker may go on raising alerts, and those behind the
`"STOP"` stay in the queue.
-/

namespace Sentrix

namespace Pipeline

variable {π τ α σ ω ς δ : Type*}
variable {cfg : PipelineConfig π} {st : PipelineStages π τ α σ ω ς δ}
variable {s s' : PipelineState π τ α σ ω ς}

/-- The main thread stops waiting for the worker although it has not ended. -/
def LeavesWorker (s : PipelineState π τ α σ ω ς) (i : PipelineStep δ) : Prop :=
  i = .main true ∧ s.main = .joiningWorker ∧ s.worker ≠ .ended

/-- The main thread has joined the worker. -/
def PastJoin : MainPhase π τ → Prop
  | .alertSentinel => True
  | .joiningWriter => True
  | .finished => True
  | _ => False

/-- The main thread has sent `"STOP"` to the writer, or given up on it. -/
def StopSent : MainPhase π τ → Prop
  | .joiningWriter => True
  | .finished => True
  | _ => False

/-- The writer has left its loop. -/
def LeftLoop : WriterPhase α → Prop
  | .closing => True
  | .ended => True
  | _ => False

theorem StopSent.pastJoin {main : MainPhase π τ} (h : StopSent main) : PastJoin main := by
  cases main with
  | joiningWriter => trivial
  | finished => trivial
  | _ => exact h.elim

/-- What `alert_queue` holds: alerts, and behind them the sentinel if it has been sent and not
taken. -/
def EndsWithStop (main : MainPhase π τ) (items : List (Option α)) : Prop :=
  (∃ as : List α, items = as.map some) ∨
    StopSent main ∧ ∃ as : List α, items = as.map some ++ [none]

/-- The worker ends before `"STOP"` is sent, and nothing is behind the `"STOP"`. -/
structure Orderly (s : PipelineState π τ α σ ω ς) : Prop where
  worker : PastJoin s.main → s.worker = .ended
  queue : EndsWithStop s.main s.alertQueue.items
  closed : LeftLoop s.writer → StopSent s.main ∧ s.alertQueue.items = []

/-- A get from a queue that ends with the sentinel leaves it so. -/
theorem EndsWithStop.tail {main : MainPhase π τ} {item : Option α} {items : List (Option α)}
    (h : EndsWithStop main (item :: items)) : EndsWithStop main items := by
  obtain ⟨as, heq⟩ | ⟨hsent, as, heq⟩ := h
  · cases as with
    | nil => cases heq
    | cons a as => exact Or.inl ⟨as, (List.cons.inj heq).2⟩
  · cases as with
    | nil => exact Or.inl ⟨[], (List.cons.inj heq).2⟩
    | cons a as => exact Or.inr ⟨hsent, as, (List.cons.inj heq).2⟩

/-- A `"STOP"` at the head is alone. -/
theorem EndsWithStop.of_stop {main : MainPhase π τ} {items : List (Option α)}
    (h : EndsWithStop main (none :: items)) : StopSent main ∧ items = [] := by
  obtain ⟨as, heq⟩ | ⟨hsent, as, heq⟩ := h
  · cases as with
    | nil => cases heq
    | cons a as => cases heq
  · cases as with
    | nil => exact ⟨hsent, (List.cons.inj heq).2⟩
    | cons a as => cases heq

/-- Before `"STOP"` is sent the queue holds alerts only. -/
theorem EndsWithStop.of_not_sent {main : MainPhase π τ} {items : List (Option α)}
    (h : EndsWithStop main items) (hnot : ¬ StopSent main) :
    ∃ as : List α, items = as.map some :=
  h.resolve_right fun hsent => hnot hsent.1

/-- The main thread moves on between places that are both before the join. -/
theorem Orderly.early (h : Orderly s) (hfrom : ¬ PastJoin s.main) (hmain : ¬ PastJoin s'.main)
    (hqueue : s'.alertQueue = s.alertQueue) (hwriter : s'.writer = s.writer) : Orderly s' where
  worker hpast := absurd hpast hmain
  queue := by
    rw [hqueue]
    exact Or.inl (h.queue.of_not_sent fun hsent => hfrom hsent.pastJoin)
  closed hleft := by
    rw [hwriter] at hleft
    exact absurd (h.closed hleft).1.pastJoin hfrom

/-- A main thread in the loop has not joined the worker. -/
theorem not_pastJoin_of_looping {main : MainPhase π τ} (h : Looping main) : ¬ PastJoin main := by
  cases main with
  | outer => exact id
  | planning rest => exact id
  | replaying c => exact id
  | _ => exact h.elim

/-- Nor has one that puts a batch, before and after. -/
theorem PutsBatch.not_pastJoin {batch : List τ} {main main' : MainPhase π τ}
    (h : PutsBatch batch main main') : ¬ PastJoin main ∧ ¬ PastJoin main' := by
  cases h with
  | full todo c => exact ⟨id, id⟩
  | last hne => exact ⟨id, id⟩

/-- The main thread sends the sentinel once, after it has waited for the worker. -/
theorem Orderly.mainMove {late : Bool} (h : Orderly s) (hmove : MainMove st s late s')
    (hwaits : late = true → s.main = .joiningWorker → s.worker = .ended) : Orderly s' := by
  cases hmove with
  | stays => exact h
  | walks main running hfrom hto =>
    refine h.early (not_pastJoin_of_looping hfrom) ?_ rfl rfl
    obtain hto | rfl := hto
    · exact not_pastJoin_of_looping hto
    · exact id
  | puts main q hmain hput => exact h.early hmain.not_pastJoin.1 hmain.not_pastJoin.2 rfl rfl
  | givesUp main hmain hfull => exact h.early hmain.not_pastJoin.1 hmain.not_pastJoin.2 rfl rfl
  | joinsWorker hmain hwhy =>
    -- the worker has ended, in time
    have hended : s.worker = .ended := hwhy.elim id fun hlate => hwaits hlate hmain
    have hnot : ¬ StopSent s.main := by
      rw [hmain]
      exact id
    exact ⟨fun _ => hended, Or.inl (h.queue.of_not_sent hnot),
      fun hleft => absurd (h.closed hleft).1 hnot⟩
  | stopsWriter q hmain hput =>
    -- behind the alerts, and the only sentinel
    have hnot : ¬ StopSent s.main := by
      rw [hmain]
      exact id
    have hended : s.worker = .ended := by
      refine h.worker ?_
      rw [hmain]
      trivial
    obtain ⟨as, heq⟩ := h.queue.of_not_sent hnot
    refine ⟨fun _ => hended, Or.inr ⟨trivial, as, ?_⟩, fun hleft => absurd (h.closed hleft).1 hnot⟩
    rw [BoundedQueue.items_put hput, heq]
  | leavesWriter hmain hfull =>
    -- the sentinel is not sent, and the writer never ends
    have hnot : ¬ StopSent s.main := by
      rw [hmain]
      exact id
    have hended : s.worker = .ended := by
      refine h.worker ?_
      rw [hmain]
      trivial
    exact ⟨fun _ => hended, Or.inl (h.queue.of_not_sent hnot),
      fun hleft => absurd (h.closed hleft).1 hnot⟩
  | finishes hmain =>
    have hended : s.worker = .ended := by
      refine h.worker ?_
      rw [hmain]
      trivial
    exact ⟨fun _ => hended, h.queue.imp id fun hsent => ⟨trivial, hsent.2⟩,
      fun hleft => ⟨trivial, (h.closed hleft).2⟩⟩
  -- the phases before the join say nothing about the alerts
  | fires c feed tasks hmain hgo hfire => exact h.early (by rw [hmain]; exact id) id rfl rfl
  | crashes c hmain => exact h.early (by rw [hmain]; exact id) id rfl rfl
  | rests c hmain => exact h.early (by rw [hmain]; exact id) id rfl rfl
  | collects t todo c hmain hfew => exact h.early (by rw [hmain]; exact id) id rfl rfl
  | fills t todo c hmain hfull => exact h.early (by rw [hmain]; exact id) id rfl rfl
  | paces todo c hmain hgo => exact h.early (by rw [hmain]; exact id) id rfl rfl
  | hasNone hmain hempty => exact h.early (by rw [hmain]; exact id) id rfl rfl
  | stops hmain => exact h.early (by rw [hmain]; exact id) id rfl rfl
  | drains item q hmain hget => exact h.early (by rw [hmain]; exact id) id rfl rfl
  | drained hmain hget => exact h.early (by rw [hmain]; exact id) id rfl rfl
  | stopsWorker q hmain hput => exact h.early (by rw [hmain]; exact id) id rfl rfl
  | leavesWorker hmain hfull => exact h.early (by rw [hmain]; exact id) id rfl rfl

/-- The worker does not come back. -/
theorem Orderly.workerMove (h : Orderly s) (hmove : WorkerMove st s s') : Orderly s' := by
  by_cases hpast : PastJoin s.main
  · -- past the join the worker has ended and does not move
    have hended := h.worker hpast
    cases hmove with
    | stays => exact h
    | looks hworker worker hto => simp [hended] at hworker
    | ends hworker => simp [hended] at hworker
    | gets item q hworker hget => simp [hended] at hworker
    | skips batch hworker hstop => simp [hended] at hworker
    | accepts batch hworker hgo => simp [hended] at hworker
    | rests hworker => simp [hended] at hworker
    | quiet t batch hworker hwork => simp [hended] at hworker
    | alerts t batch a hworker hwork => simp [hended] at hworker
    | fails t batch hworker hwork => simp [hended] at hworker
    | sends a batch q hworker hput => simp [hended] at hworker
    | drops a batch hworker hfull => simp [hended] at hworker
  · have hnot : ¬ StopSent s.main := fun hsent => hpast hsent.pastJoin
    cases hmove with
    | stays => exact h
    | sends a batch q hworker hput =>
      -- before it there is no sentinel for an alert to overtake
      obtain ⟨as, heq⟩ := h.queue.of_not_sent hnot
      refine ⟨fun hp => absurd hp hpast, Or.inl ⟨as ++ [a], ?_⟩,
        fun hleft => absurd (h.closed hleft).1 hnot⟩
      rw [BoundedQueue.items_put hput, heq, List.map_append]
      rfl
    | _ => exact h.early hpast hpast rfl rfl

/-- The writer takes what is in front, and ends at the sentinel. -/
theorem Orderly.writerMove {answer : δ} (h : Orderly s) (hmove : WriterMove st s answer s') :
    Orderly s' := by
  have hqueue := h.queue
  cases hmove with
  | stays => exact h
  | takes a q hwriter hget =>
    rw [BoundedQueue.items_get hget] at hqueue
    exact ⟨h.worker, hqueue.tail, False.elim⟩
  | closes q hwriter hget =>
    -- the sentinel was the last item
    rw [BoundedQueue.items_get hget] at hqueue
    exact ⟨h.worker, hqueue.tail, fun _ => hqueue.of_stop⟩
  | appends a hwriter writer hto =>
    refine ⟨h.worker, h.queue, fun hleft => ?_⟩
    obtain ⟨-, rfl⟩ | ⟨-, rfl⟩ := hto
    · exact hleft.elim
    · exact hleft.elim
  | flushes hwriter writer hto =>
    refine ⟨h.worker, h.queue, fun _ => h.closed ?_⟩
    rw [hwriter]
    trivial

/-- What one step preserves that does not leave the worker behind. -/
theorem Orderly.step (h : Orderly s) {i : PipelineStep δ} (hwaits : ¬ LeavesWorker s i) :
    Orderly (step cfg st s i) := by
  cases i with
  | main late =>
    refine h.mainMove (mainStep_moves cfg st s late) fun hlate hmain => ?_
    by_contra hrunning
    exact hwaits ⟨by rw [hlate], hmain, hrunning⟩
  | worker late => exact h.workerMove (workerStep_moves st s late)
  | writer answer => exact h.writerMove (writerStep_moves st s answer)
  | signal => exact ⟨h.worker, h.queue, h.closed⟩

/-- What every run preserves in which the worker is waited for. -/
theorem orderly_after (cfg : PipelineConfig π) (st : PipelineStages π τ α σ ω ς δ) (feed : σ)
    (bench : ω) (store : ς) (h : List (PipelineStep δ))
    (hwaits : (machine cfg st feed bench store).Along (fun s i => ¬ LeavesWorker s i) h) :
    Orderly ((machine cfg st feed bench store).after h) :=
  (machine cfg st feed bench store).invariant_along (fun _ s => Orderly s)
    ⟨False.elim, Or.inl ⟨[], rfl⟩, False.elim⟩ (fun _ _ hw hinv => hinv.step hw) h hwaits

/-- **An orderly shutdown loses no alert.** If the main thread does not stop waiting for the
worker early then, once the writer has ended, every alert the worker raised has been appended,
in order, but for those given up on a full queue. -/
theorem appended_of_ended {h : List (PipelineStep δ)} {feed : σ} {bench : ω} {store : ς}
    (hwaits : (machine cfg st feed bench store).Along (fun s i => ¬ LeavesWorker s i) h)
    (hended : ((machine cfg st feed bench store).after h).writer = .ended) :
    let s := (machine cfg st feed bench store).after h
    s.worker = .ended ∧ Balanced s.log.raised s.log.appended [] s.log.dropped := by
  intro s
  have hinv := orderly_after cfg st feed bench store h hwaits
  have hclosed : StopSent s.main ∧ s.alertQueue.items = [] := by
    refine hinv.closed ?_
    rw [hended]
    trivial
  have hworker : s.worker = .ended := hinv.worker hclosed.1.pastJoin
  have hbooks := alertBooks_after cfg st feed bench store h
  -- worker and writer are gone and the queue is empty, so no alert is on its way
  have hinside : alertsInside s = [] := by
    simp only [alertsInside, hclosed.2, hworker, show s.writer = .ended from hended]
    rfl
  rw [AlertBooks, show alertsInside ((machine cfg st feed bench store).after h) = [] from hinside]
    at hbooks
  exact ⟨hworker, hbooks⟩

end Pipeline

end Sentrix
