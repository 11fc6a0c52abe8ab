import Mathlib.Data.Finset.Card
import Mathlib.Data.Finset.Insert
import Sentrix.Lib.Machine

/-!
# Starting and stopping replays

The replay endpoints of `dashboard/api/server.py` with the part of
`DatasetReplaySource` they use. A replay has a producer: a subprocess for the
mode `simulated`, a thread of the dataset source for the mode `dataset`. The
server keeps a reference to each, `current_replay_process` and the source's
`_thread`, and `stop_active_replay` stops what these refer to.

Requests are threads. Three kinds of request run `stop_active_replay` first:

* `POST /api/replay` answers at once; a background thread stops what is active
  and then starts the new producer (`run_replay_script`);
* `POST /api/replay/stop` stops what is active and answers;
* `POST /api/datasource/mode` stops what is active, stores the mode and answers.

A thread is at a program counter (`Pc`), and a run is any interleaving of new
requests, steps of the threads, and producers that end. A section of
`replay_lock` is one step, and so is every access to `_thread` together with the
`is_alive` that follows it; between two steps anything may happen. A `join` with
a timeout may give up on a thread that is still running. The kill is taken to
work, and a producer may end at any time.
-/

namespace Sentrix

namespace Replay

/-! ### The program -/

/-- `_data_source_mode`. -/
inductive Mode
  | simulated
  | dataset
deriving DecidableEq

/-- `mode in ("simulated", "dataset")`. -/
def Mode.parse (s : String) : Option Mode :=
  if s = "simulated" then some .simulated
  else if s = "dataset" then some .dataset
  else none

/-- What produces the alerts of a replay. -/
inductive Producer
  | process (p : ℕ)
  | thread (t : ℕ)
deriving DecidableEq

/-- What a request does once `stop_active_replay` has returned. -/
inductive Goal
  /-- The rest of `run_replay_script`. -/
  | launch (mode : Mode)
  /-- Answer, as `stop_replay` does. -/
  | answer
  /-- Store the mode and answer. -/
  | storeMode (mode : Mode)
deriving DecidableEq

/-- What follows `DatasetReplaySource.stop`. -/
inductive Return
  /-- The locked section of `stop_active_replay`. -/
  | locked (g : Goal)
  /-- The rest of `DatasetReplaySource.start`. -/
  | start
deriving DecidableEq

/-- Where a thread is: the step it takes next. -/
inductive Pc
  /-- `ds is not None and ds.is_running()`. -/
  | check (g : Goal)
  /-- `self._thread and self._thread.is_alive()` in `stop`. -/
  | join (k : Return)
  /-- `self._thread.join(timeout=3.0)`. -/
  | joining (t : ℕ) (k : Return)
  /-- `self._thread = None`. -/
  | forget (k : Return)
  /-- The locked section of `stop_active_replay`. -/
  | kill (g : Goal)
  /-- `current_replay_process = subprocess.Popen(cmd)`, locked. -/
  | popen
  /-- `_get_or_create_dataset_source`. -/
  | create
  /-- `self._thread = threading.Thread(...)`. -/
  | newThread
  /-- `self._thread.start()`. -/
  | startThread
  /-- `_data_source_mode = mode`. -/
  | store (mode : Mode)
  /-- The thread has nothing left to do here. -/
  | done (g : Goal)
deriving DecidableEq

/-- What the threads share. -/
structure Shared where
  /-- `_data_source_mode`. -/
  mode : Mode
  /-- `_dataset_source is not None`. -/
  source : Bool
  /-- `_thread` of the source. -/
  handle : Option ℕ
  /-- `current_replay_process`. -/
  current : Option ℕ
  /-- The producers that are running. -/
  running : Finset Producer
  /-- The threads that were created and not started. -/
  unstarted : Finset ℕ
  /-- The next unused number. -/
  fresh : ℕ

/-- `is_running` of the source. -/
def Shared.isRunning (sh : Shared) : Bool :=
  match sh.handle with
  | some t => decide (.thread t ∈ sh.running)
  | none => false

/-- The step after `stop_active_replay`. -/
def Goal.next : Goal → Pc
  | .launch .simulated => .popen
  | .launch .dataset => .create
  | .answer => .done .answer
  | .storeMode m => .store m

/-- The step after `stop`. -/
def Return.next : Return → Pc
  | .locked g => .kill g
  | .start => .newThread

/-- `self._thread.join(timeout=3.0)`, if there is a thread that is alive. -/
def Shared.joinThread (sh : Shared) (k : Return) : Pc :=
  match sh.handle with
  | some t => if .thread t ∈ sh.running then .joining t k else .forget k
  | none => .forget k

/-- The locked section of `stop_active_replay`. -/
def Shared.killCurrent (sh : Shared) : Shared :=
  match sh.current with
  | some p =>
    -- `poll() is None`
    if .process p ∈ sh.running then
      { sh with running := sh.running.erase (.process p), current := none }
    else sh
  | none => sh

/-- `current_replay_process = subprocess.Popen(cmd)`. -/
def Shared.popen (sh : Shared) : Shared :=
  { sh with
    running := insert (.process sh.fresh) sh.running
    current := some sh.fresh
    fresh := sh.fresh + 1 }

/-- `self._thread = threading.Thread(...)`. -/
def Shared.newThread (sh : Shared) : Shared :=
  { sh with
    handle := some sh.fresh
    unstarted := insert sh.fresh sh.unstarted
    fresh := sh.fresh + 1 }

/-- `self._thread.start()`. -/
def Shared.startThread (sh : Shared) : Shared :=
  match sh.handle with
  | some t =>
    -- a thread that was started before raises `RuntimeError`
    if t ∈ sh.unstarted then
      { sh with running := insert (.thread t) sh.running, unstarted := sh.unstarted.erase t }
    else sh
  -- `None` has no `start`
  | none => sh

/-- One step of a thread, where `datasetAvailable` is `_DATASET_REPLAY_AVAILABLE`
and `timeout` says whether a `join` gives up. -/
def advance (datasetAvailable timeout : Bool) (sh : Shared) : Pc → Shared × Pc
  | .check g => (sh, if sh.source && sh.isRunning then .join (.locked g) else .kill g)
  | .join k => (sh, sh.joinThread k)
  | .joining t k =>
    (sh, if .thread t ∈ sh.running ∧ timeout = false then .joining t k else .forget k)
  | .forget k => ({ sh with handle := none }, k.next)
  | .kill g => (sh.killCurrent, g.next)
  | .popen => (sh.popen, .done (.launch .simulated))
  | .create =>
    -- without the package: "DatasetReplaySource not available.", and return
    ({ sh with source := sh.source || datasetAvailable },
      if datasetAvailable then .join .start else .done (.launch .dataset))
  | .newThread => (sh.newThread, .startThread)
  | .startThread => (sh.startThread, .done (.launch .dataset))
  | .store m => ({ sh with mode := m }, .done (.storeMode m))
  | .done g => (sh, .done g)

/-- The server: what is shared, and where the thread of each request is. -/
structure State where
  shared : Shared
  requests : List Pc

/-- What can happen next. -/
inductive Event
  /-- `POST /api/replay`, with the query parameter `mode`. -/
  | replay (mode : Option String)
  /-- `POST /api/replay/stop`. -/
  | stop
  /-- `POST /api/datasource/mode`. -/
  | setMode (mode : String)
  /-- A step of the thread of a request. -/
  | step (i : ℕ) (timeout : Bool)
  /-- A producer ends by itself, or because it was told to. -/
  | ends (x : Producer)

/-- What a request is answered before its thread takes a step. -/
inductive Response
  | replayStarted (mode : Mode)
  | error (status : ℕ) (detail : String)
deriving DecidableEq

/-- `effective_mode` of `trigger_replay`. -/
def effectiveMode (sh : Shared) (mode : Option String) : Mode :=
  (mode.bind Mode.parse).getD sh.mode

/-- A new thread that is to run `stop_active_replay`. -/
def spawn (s : State) (g : Goal) : State := { s with requests := s.requests ++ [.check g] }

/-- What one event does. -/
def step (datasetAvailable : Bool) (s : State) : Event → State × Option Response
  | .replay mode =>
    let m := effectiveMode s.shared mode
    (spawn s (.launch m), some (.replayStarted m))
  | .stop => (spawn s .answer, none)
  | .setMode mode =>
    match Mode.parse mode with
    | none => (s, some (.error 400 "mode must be 'simulated' or 'dataset'"))
    | some m =>
      if !datasetAvailable && decide (m = .dataset) then
        (s, some (.error 503 "DatasetReplaySource not available — check datasource/ install"))
      else (spawn s (.storeMode m), none)
  | .step i timeout =>
    match s.requests[i]? with
    | none => (s, none)
    | some pc =>
      let r := advance datasetAvailable timeout s.shared pc
      (⟨r.1, s.requests.set i r.2⟩, none)
  | .ends x => ({ s with shared := { s.shared with running := s.shared.running.erase x } }, none)

/-- The server when it starts. -/
def initial : State := ⟨⟨.simulated, false, none, none, ∅, ∅, 0⟩, []⟩

/-- The server as a machine. -/
def machine (datasetAvailable : Bool) : Machine State Event (Option Response) where
  init := initial
  step := step datasetAvailable

/-! ### Where a thread is -/

/-- The goal is to start a replay. -/
def Goal.isLaunch : Goal → Bool
  | .launch _ => true
  | _ => false

def Return.isLaunch : Return → Bool
  | .locked g => g.isLaunch
  | .start => true

/-- The thread is to start a replay and has taken its first step, but not yet
its start step. -/
def Pc.launching : Pc → Bool
  | .check _ => false
  | .join k => k.isLaunch
  | .joining _ k => k.isLaunch
  | .forget k => k.isLaunch
  | .kill g => g.isLaunch
  | .popen => true
  | .create => true
  | .newThread => true
  | .startThread => true
  | .store _ => false
  | .done _ => false

/-- The thread is to start a replay and takes its first step next. -/
def Pc.opening : Pc → Bool
  | .check g => g.isLaunch
  | _ => false

/-- What a thread at `pc` has brought about, if nobody else starts anything: past
the dataset source no thread is running, past the locked section nothing is, and
a thread that creates one has a source. -/
def CaughtUp (sh : Shared) : Pc → Prop
  | .kill _ => ∀ t, .thread t ∉ sh.running
  | .popen | .create | .store _ | .done .answer => sh.running = ∅
  | .join .start | .joining _ .start | .forget .start | .newThread | .startThread =>
    sh.running = ∅ ∧ sh.source = true
  | _ => True

/-- What is running is what the server refers to. -/
structure Tracked (sh : Shared) : Prop where
  thread : ∀ t, .thread t ∈ sh.running → sh.source = true ∧ sh.handle = some t
  process : ∀ p, .process p ∈ sh.running → sh.current = some p

/-- A thread that is to forget the source's thread finds it ended. -/
def ForgetsEnded (sh : Shared) : Pc → Prop
  | .forget _ => sh.isRunning = false
  | _ => True

instance (sh : Shared) : ∀ pc, Decidable (ForgetsEnded sh pc)
  | .forget _ => inferInstanceAs (Decidable (_ = _))
  | .check _ | .join _ | .joining _ _ | .kill _ | .popen | .create | .newThread | .startThread
  | .store _ | .done _ => isTrue trivial

variable {datasetAvailable timeout : Bool} {sh sh' : Shared} {pc : Pc}

/-! ### One step of a thread -/

/-- The program counters a step leads to. -/
inductive Pc.Leads : Pc → Pc → Prop
  | finds (g : Goal) : Leads (.check g) (.join (.locked g))
  | findsNone (g : Goal) : Leads (.check g) (.kill g)
  | waits (t : ℕ) (k : Return) : Leads (.join k) (.joining t k)
  | waitsNot (k : Return) : Leads (.join k) (.forget k)
  | waiting (t : ℕ) (k : Return) : Leads (.joining t k) (.joining t k)
  | waited (t : ℕ) (k : Return) : Leads (.joining t k) (.forget k)
  | forgot (k : Return) : Leads (.forget k) k.next
  | killed (g : Goal) : Leads (.kill g) g.next
  | opened : Leads .popen (.done (.launch .simulated))
  | created : Leads .create (.join .start)
  | unavailable : Leads .create (.done (.launch .dataset))
  | threaded : Leads .newThread .startThread
  | started : Leads .startThread (.done (.launch .dataset))
  | stored (m : Mode) : Leads (.store m) (.done (.storeMode m))
  | stays (g : Goal) : Leads (.done g) (.done g)

theorem leads_advance (datasetAvailable timeout : Bool) (sh : Shared) (pc : Pc) :
    pc.Leads (advance datasetAvailable timeout sh pc).2 := by
  cases pc with
  | check g =>
    show Pc.Leads _ (if _ then _ else _)
    split
    · exact .finds g
    · exact .findsNone g
  | join k =>
    -- with no thread to join there is nothing to wait for
    show Pc.Leads _ (sh.joinThread k)
    unfold Shared.joinThread
    split
    · split
      · exact .waits _ k
      · exact .waitsNot k
    · exact .waitsNot k
  | joining t k =>
    show Pc.Leads _ (if _ then _ else _)
    split
    · exact .waiting t k
    · exact .waited t k
  | create =>
    -- a launch over an unavailable dataset ends here
    show Pc.Leads _ (if _ then _ else _)
    split
    · exact .created
    · exact .unavailable
  | forget k => exact .forgot k
  | kill g => exact .killed g
  | popen => exact .opened
  | newThread => exact .threaded
  | startThread => exact .started
  | store m => exact .stored m
  | done g => exact .stays g

/-- A thread gets to launch from launching, or by its first step. -/
theorem Pc.Leads.launching {pc pc' : Pc} (hl : pc.Leads pc') (h : pc'.launching = true) :
    pc.launching = true ∨ pc.opening = true := by
  cases hl with
  | finds g => exact Or.inr h
  | findsNone g => exact Or.inr h
  | waits t k => exact Or.inl h
  | waitsNot k => exact Or.inl h
  | waiting t k => exact Or.inl h
  | waited t k => exact Or.inl h
  | forgot k =>
    cases k with
    | locked g => exact Or.inl h
    | start => exact Or.inl rfl
  | killed g =>
    -- after the kill a launch goes on to its producer, the other requests have none
    cases g with
    | launch m => exact Or.inl rfl
    | answer => cases h
    | storeMode m => cases h
  | opened => cases h
  | created => exact Or.inl rfl
  | unavailable => cases h
  | threaded => exact Or.inl rfl
  | started => cases h
  | stored m => cases h
  | stays g => cases h

/-- No step leads back to the first. -/
theorem Pc.Leads.opening {pc pc' : Pc} (hl : pc.Leads pc') : pc'.opening = false := by
  cases hl with
  | forgot k => cases k <;> rfl
  | killed g =>
    cases g with
    | launch m => cases m <;> rfl
    | answer => rfl
    | storeMode m => rfl
  | _ => rfl

theorem running_killCurrent_subset (sh : Shared) : sh.killCurrent.running ⊆ sh.running := by
  unfold Shared.killCurrent
  split
  · split
    · exact Finset.erase_subset _ _
    · exact Finset.Subset.refl _
  · exact Finset.Subset.refl _

@[simp] theorem source_killCurrent (sh : Shared) : sh.killCurrent.source = sh.source := by
  unfold Shared.killCurrent
  split
  · split <;> rfl
  · rfl

@[simp] theorem handle_killCurrent (sh : Shared) : sh.killCurrent.handle = sh.handle := by
  unfold Shared.killCurrent
  split
  · split <;> rfl
  · rfl

@[simp] theorem mode_killCurrent (sh : Shared) : sh.killCurrent.mode = sh.mode := by
  unfold Shared.killCurrent
  split
  · split <;> rfl
  · rfl

@[simp] theorem source_startThread (sh : Shared) : sh.startThread.source = sh.source := by
  unfold Shared.startThread
  split
  · split <;> rfl
  · rfl

@[simp] theorem mode_startThread (sh : Shared) : sh.startThread.mode = sh.mode := by
  unfold Shared.startThread
  split
  · split <;> rfl
  · rfl

/-- Starting the source's thread adds that thread, or nothing. -/
theorem startThread_cases (sh : Shared) :
    sh.startThread = sh ∨ ∃ t, sh.handle = some t ∧ sh.startThread.handle = some t ∧
      sh.startThread.current = sh.current ∧
      sh.startThread.running = insert (.thread t) sh.running := by
  unfold Shared.startThread
  split
  · next t ht =>
    split
    · exact Or.inr ⟨t, ht, ht, rfl, rfl⟩
    · exact Or.inl rfl
  · exact Or.inl rfl

/-- Only the two start steps add a producer. -/
theorem running_advance_subset (hpop : pc ≠ .popen) (hstart : pc ≠ .startThread) :
    (advance datasetAvailable timeout sh pc).1.running ⊆ sh.running := by
  cases pc with
  | popen => exact absurd rfl hpop
  | startThread => exact absurd rfl hstart
  -- a kill takes producers away, and no other step touches them
  | kill g => exact running_killCurrent_subset sh
  | check g => exact Finset.Subset.refl _
  | join k => exact Finset.Subset.refl _
  | joining t k => exact Finset.Subset.refl _
  | forget k => exact Finset.Subset.refl _
  | create => exact Finset.Subset.refl _
  | newThread => exact Finset.Subset.refl _
  | store m => exact Finset.Subset.refl _
  | done g => exact Finset.Subset.refl _

/-- The source is created once and for all. -/
theorem source_advance (h : sh.source = true) :
    (advance datasetAvailable timeout sh pc).1.source = true := by
  cases pc with
  -- the data source is created once and never taken back
  | kill g => exact (source_killCurrent sh).trans h
  | startThread => exact (source_startThread sh).trans h
  | create =>
    show (sh.source || datasetAvailable) = true
    rw [h, Bool.true_or]
  | check g => exact h
  | join k => exact h
  | joining t k => exact h
  | forget k => exact h
  | popen => exact h
  | newThread => exact h
  | store m => exact h
  | done g => exact h

/-- What is tracked is found by `is_running`. -/
theorem Tracked.isRunning (ht : Tracked sh) {t : ℕ} (hrun : .thread t ∈ sh.running) :
    (sh.source && sh.isRunning) = true := by
  obtain ⟨hsource, hhandle⟩ := ht.thread t hrun
  unfold Shared.isRunning
  rw [hsource, hhandle]
  exact decide_eq_true hrun

/-- Where no thread is running, the locked section leaves nothing. -/
theorem Tracked.killCurrent_empty (ht : Tracked sh) (hno : ∀ t, .thread t ∉ sh.running) :
    sh.killCurrent.running = ∅ := by
  rw [Finset.eq_empty_iff_forall_notMem]
  intro x hx
  have hold := running_killCurrent_subset sh hx
  cases x with
  | thread t => exact hno t hold
  | process p =>
    -- the process is the current one, and was killed
    unfold Shared.killCurrent at hx
    rw [ht.process p hold] at hx
    dsimp only at hx
    rw [if_pos hold] at hx
    exact Finset.notMem_erase _ _ hx

/-- A thread that finds the source's thread ended leaves no thread behind. -/
theorem Tracked.noThread (ht : Tracked sh) (hended : sh.isRunning = false) (t : ℕ) :
    .thread t ∉ sh.running := by
  intro hrun
  have hfound := ht.isRunning hrun
  rw [hended, Bool.and_false] at hfound
  cases hfound

/-- **A thread's own step** brings about what the next program counter says. -/
theorem CaughtUp.advance (ht : Tracked sh) (hf : ForgetsEnded sh pc) (hc : CaughtUp sh pc) :
    CaughtUp (advance datasetAvailable timeout sh pc).1
      (advance datasetAvailable timeout sh pc).2 := by
  cases pc with
  | check g =>
    show CaughtUp sh (if (sh.source && sh.isRunning) = true then .join (.locked g) else .kill g)
    split
    · trivial
    · next hnot =>
      -- a thread that is running is tracked, and would have been found
      intro t hrun
      exact hnot (ht.isRunning hrun)
  | join k =>
    show CaughtUp sh (sh.joinThread k)
    unfold Shared.joinThread
    split
    · split
      · cases k <;> exact hc
      · cases k <;> exact hc
    · cases k <;> exact hc
  | joining t k =>
    show CaughtUp sh (if _ then .joining t k else .forget k)
    split
    · cases k <;> exact hc
    · cases k <;> exact hc
  | forget k =>
    cases k with
    -- the thread that is forgotten has ended, and was the only one
    | locked g => exact ht.noThread hf
    | start => exact hc
  | kill g =>
    -- no thread is running, so that nothing is when the process has been ended
    have hempty := ht.killCurrent_empty hc
    cases g with
    | launch m => cases m <;> exact hempty
    | answer => exact hempty
    | storeMode m => exact hempty
  | popen => trivial
  | create =>
    show CaughtUp _ (if datasetAvailable = true then .join .start else .done (.launch .dataset))
    split
    · next hav =>
      refine ⟨hc, ?_⟩
      show (sh.source || datasetAvailable) = true
      rw [hav, Bool.or_true]
    · trivial
  | newThread => exact hc
  | startThread => trivial
  | store m => trivial
  | done g => exact hc

/-- **Another thread's step** that starts nothing undoes nothing. -/
theorem CaughtUp.mono (hrun : sh'.running ⊆ sh.running)
    (hsource : sh.source = true → sh'.source = true) (hc : CaughtUp sh pc) : CaughtUp sh' pc := by
  have hempty : sh.running = ∅ → sh'.running = ∅ := by
    intro h
    rw [h] at hrun
    exact Finset.subset_empty.mp hrun
  unfold CaughtUp at hc ⊢
  split at hc
  · exact fun t ht => hc t (hrun ht)
  all_goals first
    | exact hempty hc
    | exact ⟨hempty hc.1, hsource hc.2⟩
    | trivial

/-- **The kill** leaves the rest tracked: the process it ends is the only one there
is. -/
theorem Tracked.killCurrent (ht : Tracked sh) : Tracked sh.killCurrent := by
  refine ⟨?_, ?_⟩
  · intro t hrun
    have htr := ht.thread t (running_killCurrent_subset sh hrun)
    exact ⟨(source_killCurrent sh).trans htr.1, (handle_killCurrent sh).trans htr.2⟩
  · intro p hrun
    have hcur := ht.process p (running_killCurrent_subset sh hrun)
    -- the current process is the only one, so if it was killed none is left
    show sh.killCurrent.current = some p
    unfold Shared.killCurrent at hrun ⊢
    rw [hcur] at hrun ⊢
    dsimp only at hrun ⊢
    split at hrun
    · exact absurd hrun (Finset.notMem_erase _ _)
    · next hnot => exact absurd hrun hnot

/-- **The thread's start**, where nothing runs yet and the source is open, makes a
thread that has its handle. -/
theorem Tracked.startThread (ht : Tracked sh) (hempty : sh.running = ∅)
    (hsource : sh.source = true) : Tracked sh.startThread := by
  obtain heq | ⟨t, -, hhandle, -, hrun⟩ := startThread_cases sh
  · rw [heq]
    exact ht
  · -- the thread started is the only producer, and the handle is set to it
    refine ⟨?_, ?_⟩
    · intro t' ht'
      rw [hrun, hempty] at ht'
      obtain rfl : t' = t := by simpa using ht'
      exact ⟨(source_startThread sh).trans hsource, hhandle⟩
    · intro p hp
      rw [hrun, hempty] at hp
      simp at hp

/-- **Tracking.** A step of a thread keeps what is running tracked, if a thread
that is launching has caught up. -/
theorem Tracked.advance (ht : Tracked sh) (hf : ForgetsEnded sh pc)
    (hc : pc.launching = true → CaughtUp sh pc) :
    Tracked (Replay.advance datasetAvailable timeout sh pc).1 := by
  cases pc with
  | check g => exact ht
  | join k => exact ht
  | joining t k => exact ht
  | done g => exact ht
  | store m => exact ⟨ht.thread, ht.process⟩
  | forget k =>
    refine ⟨?_, ht.process⟩
    intro t hrun
    exact absurd hrun (ht.noThread hf t)
  | kill g => exact ht.killCurrent
  | create =>
    refine ⟨?_, ht.process⟩
    intro t hrun
    obtain ⟨hsource, hhandle⟩ := ht.thread t hrun
    refine ⟨?_, hhandle⟩
    show (sh.source || datasetAvailable) = true
    rw [hsource, Bool.true_or]
  | popen =>
    -- nothing else is running, and the new process becomes the current one
    have hempty : sh.running = ∅ := hc rfl
    refine ⟨?_, ?_⟩
    · intro t hrun
      change Producer.thread t ∈ insert _ sh.running at hrun
      rw [hempty] at hrun
      simp at hrun
    · intro p hrun
      change Producer.process p ∈ insert (Producer.process sh.fresh) sh.running at hrun
      rw [hempty] at hrun
      simp at hrun
      rw [hrun]
      rfl
  | newThread =>
    -- the new thread is the handle before it runs
    have hempty : sh.running = ∅ := (hc rfl).1
    refine ⟨?_, ht.process⟩
    intro t hrun
    change Producer.thread t ∈ sh.running at hrun
    rw [hempty] at hrun
    exact absurd hrun (Finset.notMem_empty _)
  | startThread =>
    obtain ⟨hempty, hsource⟩ : sh.running = ∅ ∧ sh.source = true := hc rfl
    exact ht.startThread hempty hsource

end Replay

end Sentrix
