import Mathlib.Algebra.Order.Ring.Int
import Mathlib.Data.List.ReduceOption
import Mathlib.Tactic.Common
import Sentrix.Lib.Machine

/-!
# The bounded reader of captures

`BoundedPcapReader` of `ingest/pcap_reader.py`: a producer thread reads the packets of a
capture into a bounded queue, and a consumer takes them out. When the queue is more than
80% full the producer keeps only every tenth packet, and it never waits for room; it does
wait to put the sentinel `(None, None)` behind the last packet, for one second.

The unit of interleaving is an access to what the threads share (`ReaderStep`). The producer
looks at the queue's length in one step, puts in another, and counts a packet it has given up
in a third, so that the consumer can take packets in between. `Queue.put` with a timeout looks
at the queue whenever it is woken and gives up only if the queue is full at a look after its
time is over (`ReaderStep.putSentinel`).

A capture is the list of the packets that `dpkt` reads from it before its end or before
it raises: the loop is left either way. A packet is never looked into.
-/

namespace Sentrix

/-- What the constructor of a `BoundedPcapReader` fixes. -/
structure ReaderConfig where
  maxBufferSize : ℤ
  /-- `int(1.0 / sample_rate_on_pressure)`, and `none` where the division raises. -/
  keepEvery : Option ℤ

/-- A reader with the default sampling rate: `1.0 / 0.1` is `10.0`. -/
def ReaderConfig.ofSize (maxBufferSize : ℤ) : ReaderConfig := ⟨maxBufferSize, some 10⟩

/-- Where the producer is. -/
inductive ReaderPhase (α : Type*)
  /-- At the head of the loop, with the packets that are still to be read. -/
  | reading (rest : List α)
  /-- Before `qsize`, with the packet counted. -/
  | looking (packet : α) (rest : List α)
  /-- Before `put_nowait`. -/
  | putting (packet : α) (rest : List α)
  /-- Before `dropped_packets += 1`. -/
  | dropping (packet : α) (rest : List α)
  /-- Before the sentinel. -/
  | sentinel
  | terminated

/-- A reader and its consumer. -/
structure ReaderState (α : Type*) where
  phase : ReaderPhase α
  packetCount : ℕ
  /-- The queue; the sentinel is `none`. -/
  buffer : List (Option α)
  droppedPackets : ℕ
  /-- `_stop_event.is_set()`. -/
  stopped : Bool
  /-- What the consumer has taken, in order. -/
  consumed : List (Option α)

/-- A step of the producer, of the consumer, or of the thread that stops the reader. -/
inductive ReaderStep
  | next
  /-- The producer looks at the queue's length. -/
  | look
  | put
  | drop
  /-- The producer looks whether there is room for the sentinel. -/
  | putSentinel (timedOut : Bool)
  | get
  | stop
deriving DecidableEq

namespace PcapReader

variable {α : Type*} {cfg : ReaderConfig} {capture : List α} {s : ReaderState α}

/-- The queue is full; a queue without a positive size never is. -/
def Full (cfg : ReaderConfig) (s : ReaderState α) : Prop :=
  0 < cfg.maxBufferSize ∧ cfg.maxBufferSize ≤ s.buffer.length

/-- `buffer.qsize() > max_buffer_size * 0.8`. -/
def Pressure (cfg : ReaderConfig) (s : ReaderState α) : Prop :=
  5 * (s.buffer.length : ℤ) > 4 * cfg.maxBufferSize

instance (cfg : ReaderConfig) (s : ReaderState α) : Decidable (Full cfg s) :=
  inferInstanceAs (Decidable (_ ∧ _))

instance (cfg : ReaderConfig) (s : ReaderState α) : Decidable (Pressure cfg s) :=
  inferInstanceAs (Decidable (_ > _))

/-- Whether the packet with the given number is kept under pressure; `none` is a
`ZeroDivisionError`. -/
def keeps (cfg : ReaderConfig) (packetCount : ℕ) : Option Bool :=
  match cfg.keepEvery with
  | none => none
  | some n => if n = 0 then none else some (decide ((packetCount : ℤ) % n = 0))

/-- The head of the loop of `_ingest_loop`. -/
def next (s : ReaderState α) : ReaderState α :=
  match s.phase with
  | .reading [] => { s with phase := .sentinel }
  | .reading (p :: rest) =>
    if s.stopped then { s with phase := .sentinel }
    else { s with phase := .looking p rest, packetCount := s.packetCount + 1 }
  | _ => s

/-- `qsize`, and the decision to keep the packet or not. -/
def look (cfg : ReaderConfig) (s : ReaderState α) : ReaderState α :=
  match s.phase with
  | .looking p rest =>
    if Pressure cfg s then
      match keeps cfg s.packetCount with
      -- the exception is logged
      | none => { s with phase := .sentinel }
      | some true => { s with phase := .putting p rest }
      | some false => { s with phase := .dropping p rest }
    else { s with phase := .putting p rest }
  | _ => s

/-- `put_nowait`. -/
def put (cfg : ReaderConfig) (s : ReaderState α) : ReaderState α :=
  match s.phase with
  | .putting p rest =>
    -- `queue.Full`
    if Full cfg s then { s with phase := .dropping p rest }
    else { s with phase := .reading rest, buffer := s.buffer ++ [some p] }
  | _ => s

/-- `dropped_packets += 1`. -/
def drop (s : ReaderState α) : ReaderState α :=
  match s.phase with
  | .dropping _ rest =>
    { s with phase := .reading rest, droppedPackets := s.droppedPackets + 1 }
  | _ => s

/-- A look at the queue from inside `put((None, None), timeout=1)`. -/
def putSentinel (cfg : ReaderConfig) (s : ReaderState α) (timedOut : Bool) : ReaderState α :=
  match s.phase with
  | .sentinel =>
    if Full cfg s then
      -- `queue.Full`, which is passed over
      if timedOut then { s with phase := .terminated } else s
    else { s with phase := .terminated, buffer := s.buffer ++ [none] }
  | _ => s

/-- `get_packet`; on an empty queue it raises `queue.Empty`. -/
def get (s : ReaderState α) : ReaderState α :=
  match s.buffer with
  | [] => s
  | x :: xs => { s with buffer := xs, consumed := s.consumed ++ [x] }

/-- One step. -/
def step (cfg : ReaderConfig) (s : ReaderState α) : ReaderStep → ReaderState α
  | .next => next s
  | .look => look cfg s
  | .put => put cfg s
  | .drop => drop s
  | .putSentinel timedOut => putSentinel cfg s timedOut
  | .get => get s
  | .stop => { s with stopped := true }

/-- A reader that has been started on a capture, as a machine. -/
def machine (cfg : ReaderConfig) (capture : List α) :
    Machine (ReaderState α) ReaderStep Unit where
  init := ⟨.reading capture, 0, [], 0, false, []⟩
  step s i := (step cfg s i, ())

/-- What has been put into the queue, in order. -/
def items (s : ReaderState α) : List (Option α) := s.consumed ++ s.buffer

/-- The producer gives up on the sentinel. -/
def GivesUp (cfg : ReaderConfig) (s : ReaderState α) (i : ReaderStep) : Prop :=
  i = .putSentinel true ∧ s.phase = .sentinel ∧ Full cfg s

/-! ### What a step does -/

/-- Everything a step can do. -/
inductive Moved (cfg : ReaderConfig) (s : ReaderState α) : ReaderStep → ReaderState α → Prop
  | stays (i : ReaderStep) : Moved cfg s i s
  | ended (rest : List α) (hphase : s.phase = .reading rest)
      (hwhy : rest = [] ∨ s.stopped = true) : Moved cfg s .next { s with phase := .sentinel }
  | counted (p : α) (rest : List α) (hphase : s.phase = .reading (p :: rest)) :
      Moved cfg s .next { s with phase := .looking p rest, packetCount := s.packetCount + 1 }
  | raised (p : α) (rest : List α) (hphase : s.phase = .looking p rest)
      (hwhy : keeps cfg s.packetCount = none) : Moved cfg s .look { s with phase := .sentinel }
  | sampledOut (p : α) (rest : List α) (hphase : s.phase = .looking p rest)
      (hpressure : Pressure cfg s) : Moved cfg s .look { s with phase := .dropping p rest }
  | taken (p : α) (rest : List α) (hphase : s.phase = .looking p rest) :
      Moved cfg s .look { s with phase := .putting p rest }
  | refused (p : α) (rest : List α) (hphase : s.phase = .putting p rest) (hfull : Full cfg s) :
      Moved cfg s .put { s with phase := .dropping p rest }
  | buffered (p : α) (rest : List α) (hphase : s.phase = .putting p rest)
      (hroom : ¬ Full cfg s) :
      Moved cfg s .put { s with phase := .reading rest, buffer := s.buffer ++ [some p] }
  | dropped (p : α) (rest : List α) (hphase : s.phase = .dropping p rest) :
      Moved cfg s .drop { s with phase := .reading rest, droppedPackets := s.droppedPackets + 1 }
  | delivered (timedOut : Bool) (hphase : s.phase = .sentinel) (hroom : ¬ Full cfg s) :
      Moved cfg s (.putSentinel timedOut)
        { s with phase := .terminated, buffer := s.buffer ++ [none] }
  | gaveUp (hphase : s.phase = .sentinel) (hfull : Full cfg s) :
      Moved cfg s (.putSentinel true) { s with phase := .terminated }
  | received (x : Option α) (xs : List (Option α)) (hbuffer : s.buffer = x :: xs) :
      Moved cfg s .get { s with buffer := xs, consumed := s.consumed ++ [x] }
  | stopped : Moved cfg s .stop { s with stopped := true }

theorem next_moved (cfg : ReaderConfig) (s : ReaderState α) : Moved cfg s .next (next s) := by
  unfold next
  cases hphase : s.phase with
  | reading packets =>
    cases packets with
    | nil => exact .ended [] hphase (Or.inl rfl)
    | cons p rest =>
      dsimp only
      split
      · next hstop => exact .ended _ hphase (Or.inr hstop)
      · exact .counted p rest hphase
  | _ => exact .stays _

theorem look_moved (cfg : ReaderConfig) (s : ReaderState α) : Moved cfg s .look (look cfg s) := by
  unfold look
  cases hphase : s.phase with
  | looking p rest =>
    dsimp only
    split
    · next hpressure =>
      split
      · next hraise => exact .raised p rest hphase hraise
      · exact .taken p rest hphase
      · exact .sampledOut p rest hphase hpressure
    · exact .taken p rest hphase
  | _ => exact .stays _

theorem put_moved (cfg : ReaderConfig) (s : ReaderState α) : Moved cfg s .put (put cfg s) := by
  unfold put
  cases hphase : s.phase with
  | putting p rest =>
    dsimp only
    split
    · next hfull => exact .refused p rest hphase hfull
    · next hroom => exact .buffered p rest hphase hroom
  | _ => exact .stays _

theorem drop_moved (cfg : ReaderConfig) (s : ReaderState α) : Moved cfg s .drop (drop s) := by
  unfold drop
  cases hphase : s.phase with
  | dropping p rest => exact .dropped p rest hphase
  | _ => exact .stays _

theorem putSentinel_moved (cfg : ReaderConfig) (s : ReaderState α) (timedOut : Bool) :
    Moved cfg s (.putSentinel timedOut) (putSentinel cfg s timedOut) := by
  unfold putSentinel
  cases hphase : s.phase with
  | sentinel =>
    dsimp only
    split
    · next hfull =>
      cases timedOut with
      | false => exact .stays _
      | true => exact .gaveUp hphase hfull
    · next hroom => exact .delivered timedOut hphase hroom
  | _ => exact .stays _

theorem get_moved (cfg : ReaderConfig) (s : ReaderState α) : Moved cfg s .get (get s) := by
  unfold get
  cases hbuffer : s.buffer with
  | nil => exact .stays _
  | cons x xs => exact .received x xs hbuffer

/-- **What one step does.** -/
theorem step_moved (cfg : ReaderConfig) (s : ReaderState α) (i : ReaderStep) :
    Moved cfg s i (step cfg s i) := by
  cases i with
  | next => exact next_moved cfg s
  | look => exact look_moved cfg s
  | put => exact put_moved cfg s
  | drop => exact drop_moved cfg s
  | putSentinel timedOut => exact putSentinel_moved cfg s timedOut
  | get => exact get_moved cfg s
  | stop => exact .stopped

/-- Taking an item out of the queue is no change to what has been put. -/
theorem items_received {x : Option α} {xs : List (Option α)} (hbuffer : s.buffer = x :: xs) :
    items { s with buffer := xs, consumed := s.consumed ++ [x] } = items s := by
  show s.consumed ++ [x] ++ xs = s.consumed ++ s.buffer
  rw [hbuffer, List.append_assoc, List.singleton_append]

theorem items_put (s : ReaderState α) (phase : ReaderPhase α) (x : Option α) :
    items { s with phase, buffer := s.buffer ++ [x] } = items s ++ [x] := by
  show s.consumed ++ (s.buffer ++ [x]) = s.consumed ++ s.buffer ++ [x]
  rw [List.append_assoc]

/-! ### The sentinel -/

/-- Once the producer has terminated, the sentinel is in the queue or was taken. -/
def Delivered (s : ReaderState α) : Prop :=
  s.phase = .terminated → none ∈ s.buffer ∨ none ∈ s.consumed

/-- What holds of the sentinel: it is not put before the end, and at the end it is put if
the producer did not give up. -/
structure SentinelInv (cfg : ReaderConfig) (capture : List α) (h : List ReaderStep)
    (s : ReaderState α) : Prop where
  before : s.phase ≠ .terminated →
    none ∉ items s ∧ (machine cfg capture).Along (fun s i => ¬ GivesUp cfg s i) h
  after : s.phase = .terminated →
    (none ∈ items s ↔ (machine cfg capture).Along (fun s i => ¬ GivesUp cfg s i) h)

/-- A step that puts nothing and does not terminate the producer keeps the account. -/
theorem SentinelInv.keep {h : List ReaderStep} {i : ReaderStep} {s s' : ReaderState α}
    (hi : SentinelInv cfg capture h s)
    (halong : (machine cfg capture).Along (fun s i => ¬ GivesUp cfg s i) (h ++ [i]) ↔
      (machine cfg capture).Along (fun s i => ¬ GivesUp cfg s i) h)
    (hitems : items s' = items s) (hphase : s'.phase = .terminated ↔ s.phase = .terminated) :
    SentinelInv cfg capture (h ++ [i]) s' := by
  refine ⟨fun hp => ?_, fun hp => ?_⟩
  · rw [hitems, halong]
    exact hi.before (mt hphase.mpr hp)
  · rw [hitems, halong]
    exact hi.after (hphase.mp hp)

/-- Giving up puts nothing. -/
theorem step_of_givesUp {i : ReaderStep} (hgives : GivesUp cfg s i) :
    step cfg s i = { s with phase := .terminated } := by
  obtain ⟨rfl, hphase, hfull⟩ := hgives
  show putSentinel cfg s true = _
  unfold putSentinel
  rw [hphase]
  dsimp only
  rw [if_pos hfull, if_pos rfl]

/-- **One step** keeps the sentinel's account. -/
theorem SentinelInv.step {h : List ReaderStep}
    (hi : SentinelInv cfg capture h ((machine cfg capture).after h)) (i : ReaderStep) :
    SentinelInv cfg capture (h ++ [i]) (step cfg ((machine cfg capture).after h) i) := by
  have halong := (machine cfg capture).along_concat (P := fun s i => ¬ GivesUp cfg s i) h i
  have hmoved := step_moved cfg ((machine cfg capture).after h) i
  set s := (machine cfg capture).after h
  by_cases hgives : GivesUp cfg s i
  · -- the sentinel was not put before, and is not now
    have hphase : s.phase ≠ .terminated := by
      rw [hgives.2.1]
      nofun
    rw [step_of_givesUp hgives]
    refine ⟨fun hp => absurd rfl hp, fun _ => ?_⟩
    exact iff_of_false (hi.before hphase).1 fun hal => (halong.mp hal).2 hgives
  · have hsame := halong.trans (and_iff_left hgives)
    -- a step from one place in the loop to another
    have hmoves : ∀ s' : ReaderState α, s.phase ≠ .terminated → items s' = items s →
        s'.phase ≠ .terminated → SentinelInv cfg capture (h ++ [i]) s' :=
      fun s' hbefore hitems hafter => hi.keep hsame hitems (iff_of_false hafter hbefore)
    generalize PcapReader.step cfg s i = s' at hmoved
    cases hmoved with
    | stays i => exact hi.keep hsame rfl Iff.rfl
    | stopped => exact hi.keep hsame rfl Iff.rfl
    | received x xs hbuffer => exact hi.keep hsame (items_received hbuffer) Iff.rfl
    | ended rest hphase hwhy => exact hmoves _ (by rw [hphase]; nofun) rfl nofun
    | counted p rest hphase => exact hmoves _ (by rw [hphase]; nofun) rfl nofun
    | raised p rest hphase hwhy => exact hmoves _ (by rw [hphase]; nofun) rfl nofun
    | sampledOut p rest hphase hpressure => exact hmoves _ (by rw [hphase]; nofun) rfl nofun
    | taken p rest hphase => exact hmoves _ (by rw [hphase]; nofun) rfl nofun
    | refused p rest hphase hfull => exact hmoves _ (by rw [hphase]; nofun) rfl nofun
    | dropped p rest hphase => exact hmoves _ (by rw [hphase]; nofun) rfl nofun
    | buffered p rest hphase hroom =>
      have hrunning : s.phase ≠ .terminated := by
        rw [hphase]
        nofun
      refine ⟨fun _ => ?_, nofun⟩
      obtain ⟨hnone, hal⟩ := hi.before hrunning
      rw [hsame, items_put, List.mem_append, List.mem_singleton]
      -- a packet is not the sentinel
      exact ⟨not_or.mpr ⟨hnone, (Option.some_ne_none p).symm⟩, hal⟩
    | delivered timedOut hphase hroom =>
      have hrunning : s.phase ≠ .terminated := by
        rw [hphase]
        nofun
      refine ⟨fun hp => absurd rfl hp, fun _ => ?_⟩
      rw [hsame, items_put]
      exact iff_of_true (List.mem_append_right _ (List.mem_singleton_self none))
        (hi.before hrunning).2
    | gaveUp hphase hfull => exact absurd ⟨rfl, hphase, hfull⟩ hgives

theorem sentinelInv_after (cfg : ReaderConfig) (capture : List α) (h : List ReaderStep) :
    SentinelInv cfg capture h ((machine cfg capture).after h) := by
  refine (machine cfg capture).invariant (SentinelInv cfg capture) ?_ (fun _ i hi => hi.step i) h
  refine ⟨fun _ => ⟨List.not_mem_nil, trivial⟩, fun hp => ?_⟩
  cases hp

/-- The producer has delivered the sentinel when it terminates exactly if it has not given
up on it. -/
theorem delivered_iff_along (cfg : ReaderConfig) (capture : List α) (h : List ReaderStep) :
    Delivered ((machine cfg capture).after h) ↔
      (machine cfg capture).Along (fun s i => ¬ GivesUp cfg s i) h := by
  have hi := sentinelInv_after cfg capture h
  have hitems : ∀ s : ReaderState α,
      (none ∈ s.buffer ∨ none ∈ s.consumed) ↔ none ∈ items s := by
    intro s
    rw [items, List.mem_append, or_comm]
  unfold Delivered
  rw [hitems]
  -- a thread that has not ended yet has not given the sentinel up
  by_cases hphase : ((machine cfg capture).after h).phase = .terminated
  · rw [hi.after hphase]
    exact forall_prop_of_true hphase
  · exact iff_of_true (fun hp => absurd hp hphase) (hi.before hphase).2

/-! ### A consumer that goes on reading -/

/-- A `get` takes the first item, if there is one. -/
theorem get_fields (s : ReaderState α) :
    (get s).buffer = s.buffer.tail ∧ (get s).consumed = s.consumed ++ s.buffer.head?.toList := by
  unfold get
  cases hbuffer : s.buffer with
  | nil => exact ⟨hbuffer, by rw [List.head?_nil, Option.toList_none, List.append_nil]⟩
  | cons x xs => exact ⟨rfl, rfl⟩

/-- As many `get`s as there are items take all of them. -/
theorem consumed_afterFrom_gets (cfg : ReaderConfig) (capture : List α) (n : ℕ)
    (s : ReaderState α) (hn : s.buffer.length ≤ n) :
    ((machine cfg capture).afterFrom s (List.replicate n .get)).consumed = items s := by
  induction n generalizing s with
  | zero =>
    have hnil : s.buffer = [] := List.length_eq_zero_iff.mp (Nat.le_zero.mp hn)
    show s.consumed = s.consumed ++ s.buffer
    rw [hnil, List.append_nil]
  | succ n ih =>
    obtain ⟨hbuffer, hconsumed⟩ := get_fields s
    -- each get takes the first item, and as many gets as items empty the buffer
    have hlen : (get s).buffer.length ≤ n := by
      rw [hbuffer, List.length_tail]
      omega
    rw [List.replicate_succ, Machine.afterFrom_cons]
    show ((machine cfg capture).afterFrom (get s) (List.replicate n .get)).consumed = _
    rw [ih (get s) hlen, items, items, hbuffer, hconsumed, List.append_assoc]
    congr 1
    cases s.buffer with
    | nil => rfl
    | cons x xs => rfl

/-- **When the end of the capture is delivered.** In every interleaving, the producer has
delivered the sentinel when it terminates exactly if it did not give up, that is, if the
queue was never full at the end of its wait; and then a consumer that goes on reading
reaches the sentinel. -/
theorem sentinel_delivered_iff (cfg : ReaderConfig) (capture : List α) (h : List ReaderStep) :
    (Delivered ((machine cfg capture).after h) ↔
      (machine cfg capture).Along (fun s i => ¬ GivesUp cfg s i) h) ∧
    ((machine cfg capture).Along (fun s i => ¬ GivesUp cfg s i) h →
      ((machine cfg capture).after h).phase = .terminated →
      ∀ n, ((machine cfg capture).after h).buffer.length ≤ n →
        none ∈ ((machine cfg capture).after (h ++ List.replicate n .get)).consumed) := by
  refine ⟨delivered_iff_along cfg capture h, ?_⟩
  intro halong hphase n hn
  rw [Machine.after_append, consumed_afterFrom_gets cfg capture n _ hn]
  exact ((sentinelInv_after cfg capture h).after hphase).mpr halong

/-- The producer reads a capture of one packet into a queue for one. -/
def onePacket (afterwards : List ReaderStep) : List ReaderStep :=
  [.next, .look, .put, .next] ++ afterwards

/-- The consumer takes the packet, and then the sentinel. -/
theorem sentinel_delivered_iff_prompt :
    none ∈ ((machine (.ofSize 1) [()]).after
      (onePacket [.get, .putSentinel false] ++ List.replicate 1 .get)).consumed := by
  have hdelivered : Delivered ((machine (.ofSize 1) [()]).after
      (onePacket [.get, .putSentinel false])) := fun _ => Or.inl List.mem_cons_self
  obtain ⟨hiff, hreads⟩ := sentinel_delivered_iff (.ofSize 1) [()]
    (onePacket [.get, .putSentinel false])
  exact hreads (hiff.mp hdelivered) rfl 1 (Nat.le_refl 1)

/-- **A consumer that pauses for too long never sees the end.** The queue is full when the
producer reaches the end of the capture, and still is a second later. -/
theorem sentinel_lost :
    ¬ (∀ (cfg : ReaderConfig) (capture : List Unit) (h : List ReaderStep),
      Delivered ((machine cfg capture).after h)) := by
  intro hall
  have hdelivered := hall (.ofSize 1) [()] (onePacket [.putSentinel true]) rfl
  have hbuffer : ((machine (.ofSize 1) [()]).after (onePacket [.putSentinel true])).buffer =
      [some ()] := rfl
  have hconsumed : ((machine (.ofSize 1) [()]).after (onePacket [.putSentinel true])).consumed =
      [] := rfl
  rw [hbuffer, hconsumed] at hdelivered
  obtain hmem | hmem := hdelivered
  · cases List.mem_singleton.mp hmem
  · exact absurd hmem List.not_mem_nil

/-! ### The packets -/

/-- The packets among what has been put. -/
def packets (s : ReaderState α) : List α := (items s).reduceOption

/-- The packets that are still to be put or dropped. -/
def remaining (s : ReaderState α) : List α :=
  match s.phase with
  | .reading rest => rest
  | .looking p rest => p :: rest
  | .putting p rest => p :: rest
  | .dropping p rest => p :: rest
  | .sentinel => []
  | .terminated => []

theorem packets_put (s : ReaderState α) (phase : ReaderPhase α) (x : Option α) :
    packets { s with phase, buffer := s.buffer ++ [x] } = packets s ++ x.toList := by
  unfold packets
  rw [items_put, List.reduceOption_append]
  cases x with
  | none => rfl
  | some p => rfl

/-- What holds of a reader with the default rate that is not stopped: the packets read so
far have been put in their order or counted as dropped, and the queue is within its size. -/
structure CountInv (maxBufferSize : ℤ) (capture : List α) (s : ReaderState α) : Prop where
  running : s.stopped = false
  read : ∃ done, capture = done ++ remaining s ∧ (packets s).Sublist done ∧
    (packets s).length + s.droppedPackets = done.length
  bounded : (s.buffer.length : ℤ) ≤ maxBufferSize

theorem remaining_of_phase {phase : ReaderPhase α} (h : s.phase = phase) :
    remaining s = remaining { s with phase } := by
  unfold remaining
  rw [h]

/-- A packet that is dropped has been read. -/
theorem CountInv.drop {m : ℤ} {s s' : ReaderState α} (hi : CountInv m capture s) {p : α}
    (hremaining : remaining s = p :: remaining s') (hstopped : s'.stopped = s.stopped)
    (hbuffer : s'.buffer = s.buffer) (hconsumed : s'.consumed = s.consumed)
    (hdropped : s'.droppedPackets = s.droppedPackets + 1) : CountInv m capture s' := by
  obtain ⟨done, hsplit, hsub, hcount⟩ := hi.read
  -- the packet dropped never reaches the buffer
  have hpackets : packets s' = packets s := by
    unfold packets items
    rw [hbuffer, hconsumed]
  refine ⟨hstopped.trans hi.running, ⟨done ++ [p], ?_, ?_, ?_⟩, ?_⟩
  · rw [hsplit, hremaining, List.append_assoc, List.singleton_append]
  · rw [hpackets]
    exact hsub.trans (List.sublist_append_left done [p])
  · rw [hpackets, hdropped, List.length_append, List.length_singleton, ← hcount, Nat.add_assoc]
  · rw [hbuffer]
    exact hi.bounded

/-- A step that puts and drops nothing. -/
theorem CountInv.keep {m : ℤ} {s s' : ReaderState α} (hi : CountInv m capture s)
    (hremaining : remaining s' = remaining s) (hstopped : s'.stopped = s.stopped)
    (hitems : items s' = items s) (hdropped : s'.droppedPackets = s.droppedPackets)
    (hlen : s'.buffer.length ≤ s.buffer.length) : CountInv m capture s' := by
  have hpackets : packets s' = packets s := by
    unfold packets
    rw [hitems]
  refine ⟨hstopped.trans hi.running, ?_, ?_⟩
  · rw [hremaining, hpackets, hdropped]
    exact hi.read
  · exact le_trans (Int.ofNat_le.mpr hlen) hi.bounded

/-- An item is put only if there is room. -/
theorem length_le_of_not_full {m : ℤ} (hm : 1 ≤ m) (hroom : ¬ Full (.ofSize m) s) (x : Option α) :
    ((s.buffer ++ [x]).length : ℤ) ≤ m := by
  have hlt : ¬ m ≤ s.buffer.length := fun hle => hroom ⟨hm, hle⟩
  rw [List.length_append, List.length_singleton]
  omega

/-- **One step** puts a packet that was read, or counts it as dropped. -/
theorem CountInv.step {m : ℤ} (hm : 1 ≤ m) (hi : CountInv m capture s) {i : ReaderStep}
    (hstop : i ≠ .stop) : CountInv m capture (step (.ofSize m) s i) := by
  have hmoved := step_moved (.ofSize m) s i
  generalize PcapReader.step (.ofSize m) s i = s' at hmoved
  cases hmoved with
  | stays i => exact hi
  | stopped => exact absurd rfl hstop
  | ended rest hphase hwhy =>
    -- nobody stops the reader, so this is the end of the file
    have hrest : rest = [] := by
      obtain hnil | hstopped := hwhy
      · exact hnil
      · rw [hi.running] at hstopped
        cases hstopped
    refine hi.keep ?_ rfl rfl rfl le_rfl
    rw [remaining_of_phase hphase, hrest]
    rfl
  | raised p rest hphase hwhy =>
    -- the default rate is not zero
    cases hwhy
  | counted p rest hphase => exact hi.keep (remaining_of_phase hphase).symm rfl rfl rfl le_rfl
  | sampledOut p rest hphase hpressure =>
    exact hi.keep (remaining_of_phase hphase).symm rfl rfl rfl le_rfl
  | taken p rest hphase => exact hi.keep (remaining_of_phase hphase).symm rfl rfl rfl le_rfl
  | refused p rest hphase hfull => exact hi.keep (remaining_of_phase hphase).symm rfl rfl rfl le_rfl
  | dropped p rest hphase =>
    exact hi.drop (p := p) (remaining_of_phase hphase) rfl rfl rfl rfl
  | buffered p rest hphase hroom =>
    obtain ⟨done, hsplit, hsub, hcount⟩ := hi.read
    refine ⟨hi.running, ⟨done ++ [p], ?_, ?_, ?_⟩, length_le_of_not_full hm hroom _⟩
    · rw [hsplit, remaining_of_phase hphase, List.append_assoc, List.singleton_append]
      rfl
    · rw [packets_put]
      exact hsub.append (List.Sublist.refl [p])
    · rw [packets_put, List.length_append, List.length_append, ← hcount]
      show (packets s).length + 1 + s.droppedPackets = (packets s).length + s.droppedPackets + 1
      omega
  | delivered timedOut hphase hroom =>
    obtain ⟨done, hsplit, hsub, hcount⟩ := hi.read
    rw [remaining_of_phase hphase] at hsplit
    refine ⟨hi.running, ⟨done, hsplit, ?_, ?_⟩, length_le_of_not_full hm hroom _⟩
    · rw [packets_put, Option.toList_none, List.append_nil]
      exact hsub
    · rw [packets_put, Option.toList_none, List.append_nil]
      exact hcount
  | gaveUp hphase hfull =>
    exact hi.keep (remaining_of_phase hphase).symm rfl rfl rfl le_rfl
  | received x xs hbuffer =>
    refine hi.keep rfl rfl (items_received hbuffer) rfl ?_
    rw [hbuffer, List.length_cons]
    exact Nat.le_succ _

theorem countInv_after {m : ℤ} (hm : 1 ≤ m) (capture : List α) (h : List ReaderStep)
    (hstop : .stop ∉ h) : CountInv m capture ((machine (.ofSize m) capture).after h) := by
  refine (machine (.ofSize m) capture).invariant_of (fun h => ReaderStep.stop ∉ h)
    (fun _ => CountInv m capture) ?_ ?_ ?_ h hstop
  · intro h i hnot hmem
    exact hnot (List.mem_append_left _ hmem)
  · refine ⟨rfl, ⟨[], rfl, List.Sublist.refl _, rfl⟩, ?_⟩
    show ((0 : ℕ) : ℤ) ≤ m
    omega
  · intro h i hnot hi
    exact hi.step hm fun hi => hnot (List.mem_append_right _ (List.mem_singleton.mpr hi.symm))

/-! ### When a packet is dropped -/

/-- A full queue is under pressure. -/
theorem Full.pressure {m : ℤ} (hm : 1 ≤ m) (hfull : Full (.ofSize m) s) :
    Pressure (.ofSize m) s := by
  obtain ⟨-, hle⟩ := hfull
  show 5 * (s.buffer.length : ℤ) > 4 * m
  change m ≤ s.buffer.length at hle
  omega

/-- The producer's last look at the queue, by `qsize` or in `put_nowait`, found it under
pressure: since then it has been about to count a packet as dropped. -/
def LookedUnderPressure (cfg : ReaderConfig) (capture : List α) (h : List ReaderStep) : Prop :=
  ∃ pre i post, h = pre ++ i :: post ∧ (i = .look ∨ i = .put) ∧
    Pressure cfg ((machine cfg capture).after pre) ∧
    ∀ k, k <+: post → ∃ p rest,
      ((machine cfg capture).after (pre ++ i :: k)).phase = .dropping p rest

/-- A producer that is about to count a packet as dropped has been so before the step, or
has just looked at the queue. -/
theorem dropping_of_step {m : ℤ} (hm : 1 ≤ m) {i : ReaderStep} {p : α} {rest : List α}
    (hdropping : (step (.ofSize m) s i).phase = .dropping p rest) :
    s.phase = .dropping p rest ∨ (i = .look ∨ i = .put) ∧ Pressure (.ofSize m) s := by
  have hmoved := step_moved (.ofSize m) s i
  generalize PcapReader.step (.ofSize m) s i = s' at hmoved hdropping
  cases hmoved with
  | sampledOut p rest hphase hpressure => exact Or.inr ⟨Or.inl rfl, hpressure⟩
  | refused p rest hphase hfull => exact Or.inr ⟨Or.inr rfl, hfull.pressure hm⟩
  | stays i => exact Or.inl hdropping
  | received x xs hbuffer => exact Or.inl hdropping
  | stopped => exact Or.inl hdropping
  | _ => cases hdropping

theorem lookedUnderPressure_of_dropping {m : ℤ} (hm : 1 ≤ m) (capture : List α)
    (h : List ReaderStep) {p : α} {rest : List α}
    (hdropping : ((machine (.ofSize m) capture).after h).phase = .dropping p rest) :
    LookedUnderPressure (.ofSize m) capture h := by
  induction h using List.reverseRecOn with
  | nil => cases hdropping
  | append_singleton h i ih =>
    have hafter : ((machine (.ofSize m) capture).after (h ++ [i])).phase = .dropping p rest :=
      hdropping
    rw [Machine.after_concat] at hdropping
    obtain hbefore | ⟨hlook, hpressure⟩ := dropping_of_step hm hdropping
    · -- the look is the one of before
      obtain ⟨pre, j, post, rfl, hj, hpressure, hsince⟩ := ih hbefore
      refine ⟨pre, j, post ++ [i], by rw [List.append_assoc, List.cons_append], hj, hpressure,
        fun k hk => ?_⟩
      obtain rfl | hk := List.prefix_concat_iff.mp hk
      · exact ⟨p, rest, by rw [← hafter, List.append_assoc, List.cons_append]⟩
      · exact hsince k hk
    · refine ⟨h, i, [], rfl, hlook, hpressure, fun k hk => ?_⟩
      rw [List.prefix_nil.mp hk]
      exact ⟨p, rest, hafter⟩

/-- A packet is counted as dropped where the producer is about to. -/
theorem dropping_of_dropped {i : ReaderStep}
    (hdrop : (step cfg s i).droppedPackets ≠ s.droppedPackets) :
    ∃ p rest, s.phase = .dropping p rest := by
  have hmoved := step_moved cfg s i
  generalize PcapReader.step cfg s i = s' at hmoved hdrop
  cases hmoved with
  | dropped p rest hphase => exact ⟨p, rest, hphase⟩
  | _ => exact absurd rfl hdrop

/-- **Every packet is delivered or counted.** For every capture, every size and every
interleaving without a stop: the packets the consumer has taken, followed by those in the
queue, are packets of the capture in its order; at the end of the capture their number
and the number of dropped packets add up to all; the queue is within its size; and a
packet is dropped only if the producer's last look found the queue more than 80% full. -/
theorem packets_accounted (maxBufferSize : ℤ) (hmax : 1 ≤ maxBufferSize) (capture : List α)
    (h : List ReaderStep) (hstop : .stop ∉ h) :
    let s := (machine (.ofSize maxBufferSize) capture).after h
    (s.consumed.reduceOption ++ s.buffer.reduceOption).Sublist capture ∧
      (s.phase = .sentinel ∨ s.phase = .terminated →
        (s.consumed.reduceOption ++ s.buffer.reduceOption).length + s.droppedPackets =
          capture.length) ∧
      (s.buffer.length : ℤ) ≤ maxBufferSize ∧
      ∀ i, ((machine (.ofSize maxBufferSize) capture).next s i).droppedPackets ≠ s.droppedPackets →
        LookedUnderPressure (.ofSize maxBufferSize) capture h := by
  intro s
  have hi : CountInv maxBufferSize capture s := countInv_after hmax capture h hstop
  obtain ⟨done, hsplit, hsub, hcount⟩ := hi.read
  have hpackets : s.consumed.reduceOption ++ s.buffer.reduceOption = packets s :=
    (List.reduceOption_append _ _).symm
  rw [hpackets]
  refine ⟨?_, ?_, hi.bounded, ?_⟩
  · rw [hsplit]
    exact hsub.trans (List.sublist_append_left _ _)
  · intro hend
    -- past the capture nothing remains to be read
    have hnone : remaining s = [] := by
      obtain hphase | hphase := hend
      · exact remaining_of_phase hphase
      · exact remaining_of_phase hphase
    rw [hsplit, hnone, List.append_nil]
    exact hcount
  · intro i hdrop
    obtain ⟨p, rest, hphase⟩ := dropping_of_dropped hdrop
    exact lookedUnderPressure_of_dropping hmax capture h hphase

/-- Three packets for a queue of one, of which the consumer takes the first in time, and the
second is sampled out. -/
def hurried : List ReaderStep :=
  [.next, .look, .put, .get, .next, .look, .put, .next, .look, .drop, .next, .putSentinel true]

theorem packets_accounted_hurried :
    ReaderStep.stop ∉ hurried ∧
      (((machine (.ofSize 1) [1, 2, 3]).after hurried).consumed.reduceOption ++
        ((machine (.ofSize 1) [1, 2, 3]).after hurried).buffer.reduceOption).length +
        ((machine (.ofSize 1) [1, 2, 3]).after hurried).droppedPackets = 3 :=
  ⟨by decide, (packets_accounted 1 (by decide) [1, 2, 3] hurried (by decide)).2.1 (Or.inr rfl)⟩

/-- **A packet dropped with an empty queue.** The queue of one is full when the producer
looks, and the consumer takes the packet before the producer counts the next as dropped. -/
theorem dropped_on_empty :
    ¬ ∀ (maxBufferSize : ℤ) (capture : List Unit) (h : List ReaderStep), 1 ≤ maxBufferSize →
      .stop ∉ h →
      ∀ i, ((machine (.ofSize maxBufferSize) capture).next
          ((machine (.ofSize maxBufferSize) capture).after h) i).droppedPackets ≠
        ((machine (.ofSize maxBufferSize) capture).after h).droppedPackets →
        5 * (((machine (.ofSize maxBufferSize) capture).after h).buffer.length : ℤ) >
          4 * maxBufferSize := by
  intro hall
  have hfull := hall 1 [(), ()] [.next, .look, .put, .next, .look, .get] (by decide) (by decide)
    .drop (by decide)
  exact absurd hfull (by decide)

end PcapReader

end Sentrix
