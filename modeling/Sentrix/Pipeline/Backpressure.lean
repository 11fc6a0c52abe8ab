import Sentrix.Pipeline.Accounting

/-!
# How full the task queue gets

Before it puts a full batch the main thread waits until `task_queue` holds at most forty
items or a stop is asked for. It is the only thread that puts, so the queue never gets near
its capacity: it holds at most forty-one items before the stop, and afterwards one more batch
that was already full and the last one (`Room`). The branch on `queue.Full` is never taken,
so an undisturbed run is one in which no evaluation raises.

This rests on a packet firing at most fifty tasks, so that no second batch fills up between a
stop and the next test of the event.
-/

namespace Sentrix

namespace Pipeline

variable {π τ α σ ω ς δ : Type*}
variable {cfg : PipelineConfig π} {st : PipelineStages π τ α σ ω ς δ}
variable {s s' : PipelineState π τ α σ ω ς}

/-- How many items `task_queue` may hold, by where the main thread is; `collected` is the
length of the batch being collected. -/
def Room (main : MainPhase π τ) (stop : Bool) (collected size : ℕ) : Prop :=
  match main with
  | .outer => size ≤ 41 + stop.toNat
  | .planning _ => size ≤ 41 + stop.toNat
  | .replaying _ => size ≤ 41 + stop.toNat
  | .batching todo _ =>
    -- once the batch that was full at the stop is put, no other gets full
    todo.length ≤ 50 ∧
      (size ≤ 41 ∨ size ≤ 41 + stop.toNat ∧ collected + todo.length < 50)
  | .pacing todo _ => todo.length < 50 ∧ size ≤ 41
  | .putting todo _ => todo.length < 50 ∧ size ≤ 40 + stop.toNat
  | .replayed => size ≤ 42
  | .sentinel => size = 0
  | _ => size ≤ 43

/-- In the loop the bound is the loop's own. -/
theorem Room.of_looping {main : MainPhase π τ} {stop : Bool} {collected size : ℕ}
    (h : Room main stop collected size) (hmain : Looping main) : size ≤ 41 + stop.toNat := by
  cases main with
  | outer => exact h
  | planning rest => exact h
  | replaying c => exact h
  | _ => exact hmain.elim

/-- A main thread back in the loop keeps the room it had. -/
theorem Room.looping {main : MainPhase π τ} {stop : Bool} {size : ℕ}
    (h : size ≤ 41 + stop.toNat) (hmain : Looping main ∨ main = .replayed) (collected : ℕ) :
    Room main stop collected size := by
  have hstop := stop.toNat_le
  cases main with
  | outer => exact h
  | planning rest => exact h
  | replaying c => exact h
  | replayed =>
    show size ≤ 42
    omega
  | _ => exact hmain.elim False.elim nofun

/-- Less in the queue, or a stop, leaves more room. -/
theorem Room.mono {main : MainPhase π τ} {stop stop' : Bool} {collected size size' : ℕ}
    (h : Room main stop collected size) (hsize : size' ≤ size)
    (hstop : stop.toNat ≤ stop'.toNat) : Room main stop' collected size' := by
  cases main with
  | _ =>
    simp only [Room] at h ⊢
    omega

/-- Whatever the main thread is about to put, the items stay within 43. -/
theorem Room.le {main : MainPhase π τ} {stop : Bool} {collected size : ℕ}
    (h : Room main stop collected size) : size ≤ 43 := by
  have hstop := stop.toNat_le
  cases main with
  | _ =>
    simp only [Room] at h
    omega

/-- The main thread is between filling a batch and putting it. -/
def HoldsFull : MainPhase π τ → Prop
  | .pacing _ _ => True
  | .putting _ _ => True
  | _ => False

/-- The queue has room, and the batches are of the right size. -/
structure Paced (s : PipelineState π τ α σ ω ς) : Prop where
  room : Room s.main s.stopEvent s.localBatch.length s.taskQueue.size
  full : HoldsFull s.main → s.localBatch.length = 50
  few : ¬ HoldsFull s.main → s.localBatch.length < 50
  batches : ∀ batch, some batch ∈ s.taskQueue.items → batch ≠ [] ∧ batch.length ≤ 50
  refused : s.log.refused = []

/-- Only the main thread puts into the queue. -/
theorem Paced.of_less (h : Paced s) (hmain : s'.main = s.main)
    (hbatch : s'.localBatch = s.localBatch) (hstop : s.stopEvent.toNat ≤ s'.stopEvent.toNat)
    (hqueue : s'.taskQueue.items <:+ s.taskQueue.items)
    (hrefused : s'.log.refused = s.log.refused) : Paced s' where
  room := by
    rw [hmain, hbatch]
    exact h.room.mono hqueue.length_le hstop
  full := by
    rw [hmain, hbatch]
    exact h.full
  few := by
    rw [hmain, hbatch]
    exact h.few
  batches batch hmem := h.batches batch (hqueue.subset hmem)
  refused := hrefused.trans h.refused

/-- A get leaves the later items. -/
theorem items_suffix_of_get {β : Type*} {n : ℕ} {q q' : BoundedQueue β n} {b : β}
    (hget : q.get = some (b, q')) : q'.items <:+ q.items := by
  rw [BoundedQueue.items_get hget]
  exact List.suffix_cons _ _

/-- A queue with room for thousands of batches accepts what the main thread puts. -/
theorem Paced.put_ne_none (h : Paced s) (item : Option (List τ)) :
    s.taskQueue.put item ≠ none := by
  intro hfull
  have hle := h.room.le
  have hcap := BoundedQueue.put_eq_none_iff.mp hfull
  omega

/-- The main thread puts the batch it holds. -/
theorem Paced.put (h : Paced s) {main : MainPhase π τ}
    {q : BoundedQueue (Option (List τ)) 25000}
    (hput : s.taskQueue.put (some s.localBatch) = some q)
    (hlength : s.localBatch ≠ [] ∧ s.localBatch.length ≤ 50) (hto : ¬ HoldsFull main)
    (hroom : Room main s.stopEvent 0 (s.taskQueue.size + 1)) :
    Paced { s with main, taskQueue := q, localBatch := [] } where
  room := by
    show Room main s.stopEvent 0 q.size
    rw [BoundedQueue.size_put hput]
    exact hroom
  full hholds := absurd hholds hto
  few _ := Nat.succ_pos _
  batches batch hmem := by
    rw [BoundedQueue.items_put hput, List.mem_append, List.mem_singleton,
      Option.some.injEq] at hmem
    -- the batches in the queue were fine, and this one is
    obtain hmem | rfl := hmem
    · exact h.batches batch hmem
    · exact hlength
  refused := h.refused

/-- The main thread moves on without touching the queue or the batch. -/
theorem Paced.idle (h : Paced s) (main : MainPhase π τ) (hfrom : ¬ HoldsFull s.main)
    (hto : ¬ HoldsFull main)
    (hroom : ∀ collected, Room main s.stopEvent collected s.taskQueue.size) :
    Paced { s with main } :=
  ⟨hroom _, fun hholds => absurd hholds hto, fun _ => h.few hfrom, h.batches, h.refused⟩

/-- The main thread puts a batch before it collects beyond fifty. -/
theorem Paced.mainMove {late : Bool} (h : Paced s) (hmove : MainMove st s late s')
    (hfires : ∀ feed p r, st.fire feed p = some r → r.2.length ≤ 50) : Paced s' := by
  have hstop := s.stopEvent.toNat_le
  cases hmove with
  | stays => exact h
  | walks main running hfrom hto =>
    have hnot : ¬ HoldsFull s.main := by
      intro hholds
      cases hmain : s.main <;> rw [hmain] at hholds hfrom <;> first | exact hfrom | exact hholds
    refine ⟨.looping (h.room.of_looping hfrom) hto _, fun hholds => ?_, fun _ => h.few hnot,
      h.batches, h.refused⟩
    cases main <;> first | exact hholds.elim | exact (hto.elim id nofun).elim
  | fires c feed tasks hmain hgo hfire =>
    -- at most fifty more tasks, so at most one batch gets full among them
    have hroom := h.room
    have hfew := h.few
    rw [hmain] at hroom hfew
    rw [hgo] at hroom
    have htasks : tasks.length ≤ 50 := hfires _ _ _ hfire
    exact ⟨⟨htasks, Or.inl hroom⟩, False.elim, hfew, h.batches, h.refused⟩
  | crashes c hmain =>
    have hfew := h.few
    rw [hmain] at hfew
    exact ⟨h.room.le, False.elim, hfew, h.batches, h.refused⟩
  | rests c hmain =>
    have hroom := h.room
    have hfew := h.few
    rw [hmain] at hroom hfew
    refine ⟨?_, False.elim, hfew, h.batches, h.refused⟩
    simp only [Room] at hroom ⊢
    omega
  | collects t todo c hmain hfew =>
    have hroom := h.room
    rw [hmain] at hroom
    refine ⟨?_, False.elim, fun _ => ?_, h.batches, h.refused⟩
    · simp only [Room, List.length_cons, List.length_append, List.length_nil] at hroom ⊢
      omega
    · rw [List.length_append]
      exact hfew
  | fills t todo c hmain hfull =>
    -- the fiftieth task of the batch
    have hroom := h.room
    have hfew := h.few
    rw [hmain] at hroom hfew
    refine ⟨?_, fun _ => ?_, fun hnot => absurd trivial hnot, h.batches, h.refused⟩
    · simp only [Room, List.length_cons] at hroom ⊢
      omega
    · have hlt : s.localBatch.length < 50 := hfew id
      rw [List.length_append, List.length_singleton]
      omega
  | paces todo c hmain hgo =>
    -- either the queue is short, or the stop allows for one item more
    have hroom := h.room
    have hfull := h.full
    rw [hmain] at hroom hfull
    refine ⟨⟨hroom.1, ?_⟩, hfull, fun hnot => absurd trivial hnot, h.batches, h.refused⟩
    obtain hgo | hgo := hgo
    · exact Nat.le_add_right_of_le hgo
    · rw [hgo]
      exact hroom.2
  | puts main q hmain hput =>
    have hroom := h.room
    have hfull := h.full
    have hfew := h.few
    refine h.put hput ?_ ?_ ?_
    · generalize s.main = before at hmain hfull hfew
      cases hmain with
      | full todo c =>
        have hlength : s.localBatch.length = 50 := hfull trivial
        exact ⟨List.ne_nil_of_length_pos (by omega), Nat.le_of_eq hlength⟩
      | last hne => exact ⟨hne, Nat.le_of_lt (hfew id)⟩
    · generalize s.main = before at hmain
      cases hmain with
      | full todo c => exact id
      | last hne => exact id
    · -- the batch takes one of the places the phase has kept for it
      generalize s.main = before at hmain hroom
      cases hmain with
      | full todo c =>
        simp only [Room] at hroom ⊢
        omega
      | last hne =>
        simp only [Room] at hroom ⊢
        omega
  -- with at most 43 items a put is never refused
  | givesUp main hmain hfull => exact absurd hfull (h.put_ne_none _)
  | hasNone hmain hempty =>
    exact h.idle _ (by rw [hmain]; exact id) id fun _ => h.room.le
  | stops hmain =>
    have hidle := h.idle .draining (by rw [hmain]; exact id) id fun _ => h.room.le
    exact hidle.of_less rfl rfl s.stopEvent.toNat_le (List.suffix_refl _) rfl
  | drains item q hmain hget =>
    have hidle := h.idle .draining (by rw [hmain]; exact id) id fun _ => h.room.le
    exact hidle.of_less rfl rfl (Nat.le_refl _) (items_suffix_of_get hget) rfl
  | drained hmain hget =>
    refine h.idle _ (by rw [hmain]; exact id) id fun _ => ?_
    exact List.length_eq_zero_iff.mpr (BoundedQueue.get_eq_none_iff.mp hget)
  | stopsWorker q hmain hput =>
    -- the sentinel goes into an emptied queue
    have hroom := h.room
    have hfew := h.few
    rw [hmain] at hroom hfew
    have hempty : s.taskQueue.items = [] := List.length_eq_zero_iff.mp hroom
    refine ⟨?_, False.elim, hfew, fun batch hmem => ?_, h.refused⟩
    · show q.size ≤ 43
      rw [BoundedQueue.size_put hput, show s.taskQueue.size = 0 from hroom]
      omega
    · rw [BoundedQueue.items_put hput, hempty, List.nil_append, List.mem_singleton] at hmem
      cases hmem
  | leavesWorker hmain hfull => exact absurd hfull (h.put_ne_none _)
  | joinsWorker hmain hwhy =>
    exact h.idle _ (by rw [hmain]; exact id) id fun _ => h.room.le
  | stopsWriter q hmain hput =>
    have hidle := h.idle .joiningWriter (by rw [hmain]; exact id) id fun _ => h.room.le
    exact hidle.of_less rfl rfl (Nat.le_refl _) (List.suffix_refl _) rfl
  | leavesWriter hmain hfull =>
    exact h.idle _ (by rw [hmain]; exact id) id fun _ => h.room.le
  | finishes hmain =>
    exact h.idle _ (by rw [hmain]; exact id) id fun _ => h.room.le

/-- The worker only takes from the queue. -/
theorem Paced.workerMove (h : Paced s) (hmove : WorkerMove st s s') : Paced s' := by
  cases hmove with
  | stays => exact h
  | gets item q hworker hget =>
    exact h.of_less rfl rfl (Nat.le_refl _) (items_suffix_of_get hget) rfl
  | _ => exact h.of_less rfl rfl (Nat.le_refl _) (List.suffix_refl _) rfl

/-- The writer does not touch the tasks' queue. -/
theorem Paced.writerMove {answer : δ} (h : Paced s) (hmove : WriterMove st s answer s') :
    Paced s' := by
  cases hmove with
  | _ => exact h.of_less rfl rfl (Nat.le_refl _) (List.suffix_refl _) rfl

/-- What one step of any thread preserves. -/
theorem Paced.step (h : Paced s)
    (hfires : ∀ feed p r, st.fire feed p = some r → r.2.length ≤ 50) (i : PipelineStep δ) :
    Paced (step cfg st s i) := by
  cases i with
  | main late => exact h.mainMove (mainStep_moves cfg st s late) hfires
  | worker late => exact h.workerMove (workerStep_moves st s late)
  | writer answer => exact h.writerMove (writerStep_moves st s answer)
  | signal => exact h.of_less rfl rfl s.stopEvent.toNat_le (List.suffix_refl _) rfl

/-- What every run preserves, for stages that fire at most fifty tasks a packet. -/
theorem paced_after (cfg : PipelineConfig π) (st : PipelineStages π τ α σ ω ς δ) (feed : σ)
    (bench : ω) (store : ς) (hfires : ∀ feed p r, st.fire feed p = some r → r.2.length ≤ 50)
    (h : List (PipelineStep δ)) : Paced ((machine cfg st feed bench store).after h) := by
  refine (machine cfg st feed bench store).invariant (fun _ s => Paced s) ?_
    (fun _ i hpaced => hpaced.step hfires i) h
  exact ⟨Nat.zero_le _, False.elim, fun _ => Nat.succ_pos _, nofun, rfl⟩

end Pipeline

end Sentrix
