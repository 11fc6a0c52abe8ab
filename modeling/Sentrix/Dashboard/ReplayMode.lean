import Sentrix.Dashboard.ReplayRaces

/-!
# The stream and the mode of the replay

`event_generator` decides between the dataset and the simulation by
`_data_source_mode`, once for the telemetry and once for the alerts. The replay
that is running was started with an effective mode: the `mode` of the replay
request if it has a valid one, else `_data_source_mode`. A replay request does
not store its mode, so the two need not agree.

Here requests come one after another. The mode is stored by a request that has
stopped what was running, and a replay starts when nothing is running, so the
stream follows the replay as long as every replay request fits the state it is
made in (`Fits`, `stream_follows_of_fits`): a dataset replay needs the mode
`dataset`, and a simulated one the mode `simulated`, or that the dataset source
was never created.
-/

namespace Sentrix

namespace Replay

variable {datasetAvailable : Bool} {s : State} {sh : Shared} {pc : Pc}

/-! ### The branches of the stream -/

/-- The source of the telemetry, outside Kafka mode. -/
def telemetryBranch (sh : Shared) : Mode :=
  if sh.mode = .dataset ∧ sh.source = true then .dataset else .simulated

/-- The source of the alerts, outside Kafka mode. -/
def alertBranch (sh : Shared) : Mode :=
  if sh.mode = .dataset ∧ sh.source = true ∧ sh.isRunning = true then .dataset else .simulated

/-- The effective mode a producer is started with. -/
def Producer.mode : Producer → Mode
  | .process _ => .simulated
  | .thread _ => .dataset

/-- Both branches are those of the replay that is running. -/
def StreamFollows (sh : Shared) : Prop :=
  ∀ x ∈ sh.running, alertBranch sh = x.mode ∧ telemetryBranch sh = x.mode

/-- A replay of the given mode fits the state. -/
def Fits (sh : Shared) : Mode → Prop
  | .dataset => sh.mode = .dataset
  | .simulated => sh.mode = .simulated ∨ sh.source = false

instance (sh : Shared) : ∀ m, Decidable (Fits sh m)
  | .dataset => inferInstanceAs (Decidable (_ = _))
  | .simulated => inferInstanceAs (Decidable (_ ∨ _))

/-- A replay request fits the state it is made in. -/
def FitsAt (s : State) : Event → Prop
  | .replay mode => Fits s.shared (effectiveMode s.shared mode)
  | _ => True

instance (s : State) : ∀ e, Decidable (FitsAt s e)
  | .replay mode => inferInstanceAs (Decidable (Fits s.shared (effectiveMode s.shared mode)))
  | .stop | .setMode _ | .step _ _ | .ends _ => isTrue trivial

/-- The thread of a request has nothing left to do. -/
def Pc.isDone : Pc → Bool
  | .done _ => true
  | _ => false

/-- A request is made when the earlier ones have taken effect. -/
def InTurn (s : State) : Event → Prop
  | .replay _ | .stop | .setMode _ => ∀ pc ∈ s.requests, pc.isDone = true
  | _ => True

instance (s : State) : ∀ e, Decidable (InTurn s e)
  | .replay _ | .stop | .setMode _ => inferInstanceAs (Decidable (∀ pc ∈ s.requests, _))
  | .step _ _ | .ends _ => isTrue trivial

/-- When a request comes, the ones before it have returned. -/
theorem InTurn.isDone {s : State} {e : Event} (hturn : InTurn s e) (he : e.isRequest = true) :
    ∀ pc ∈ s.requests, pc.isDone = true := by
  cases e with
  | replay mode => exact hturn
  | stop => exact hturn
  | setMode mode => exact hturn
  | step i timeout => cases he
  | ends x => cases he

/-! ### The mode a thread is to start -/

def Goal.mode : Goal → Option Mode
  | .launch m => some m
  | _ => none

def Return.mode : Return → Option Mode
  | .locked g => g.mode
  | .start => some .dataset

/-- The mode of the replay the thread is to start. -/
def Pc.mode : Pc → Option Mode
  | .check g => g.mode
  | .join k => k.mode
  | .joining _ k => k.mode
  | .forget k => k.mode
  | .kill g => g.mode
  | .popen => some .simulated
  | .create => some .dataset
  | .newThread => some .dataset
  | .startThread => some .dataset
  | .store _ => none
  | .done _ => none

/-- A thread keeps the mode it is to start. -/
theorem Pc.Leads.mode {pc pc' : Pc} {m : Mode} (hl : pc.Leads pc') (h : pc'.mode = some m) :
    pc.mode = some m := by
  cases hl with
  | forgot k => cases k <;> exact h
  | killed g =>
    -- the mode a launch carries survives the kill
    cases g with
    | launch m' => cases m' <;> exact h
    | answer => cases h
    | storeMode m' => cases h
  | opened => cases h
  | unavailable => cases h
  | started => cases h
  | stored m' => cases h
  | stays g => cases h
  | _ => exact h

/-- Only `store` changes the mode, and only `create` creates the source. -/
theorem mode_source_advance (datasetAvailable timeout : Bool) (sh : Shared)
    (hstore : ∀ m, pc ≠ .store m) (hcreate : pc ≠ .create) :
    (advance datasetAvailable timeout sh pc).1.mode = sh.mode ∧
      (advance datasetAvailable timeout sh pc).1.source = sh.source := by
  cases pc with
  | store m => exact absurd rfl (hstore m)
  | create => exact absurd rfl hcreate
  -- only a stored mode changes the mode, and only a creation the source
  | kill g => exact ⟨mode_killCurrent sh, source_killCurrent sh⟩
  | startThread => exact ⟨mode_startThread sh, source_startThread sh⟩
  | check g => exact ⟨rfl, rfl⟩
  | join k => exact ⟨rfl, rfl⟩
  | joining t k => exact ⟨rfl, rfl⟩
  | forget k => exact ⟨rfl, rfl⟩
  | popen => exact ⟨rfl, rfl⟩
  | newThread => exact ⟨rfl, rfl⟩
  | done g => exact ⟨rfl, rfl⟩

theorem Fits.congr {sh' : Shared} {m : Mode} (hmode : sh'.mode = sh.mode)
    (hsource : sh'.source = sh.source) (h : Fits sh m) : Fits sh' m := by
  unfold Fits at h ⊢
  rw [hmode, hsource]
  exact h

/-- A replay keeps fitting while its thread is on its way. -/
theorem Fits.advance {timeout : Bool} {m : Mode} (hm : pc.mode = some m) (h : Fits sh m) :
    Fits (advance datasetAvailable timeout sh pc).1 m := by
  by_cases hcreate : pc = .create
  · -- the source is created for a dataset replay only
    subst hcreate
    obtain rfl := Option.some.inj hm
    exact h
  · have hstore : ∀ m', pc ≠ .store m' := by
      rintro m' rfl
      cases hm
    obtain ⟨hmode, hsource⟩ := mode_source_advance datasetAvailable timeout sh hstore hcreate
    exact h.congr hmode hsource

/-! ### Requests in turn -/

/-- What is running fits the state. -/
def RunningFits (sh : Shared) : Prop := ∀ x ∈ sh.running, Fits sh x.mode

/-- What holds when requests come in turn: at most one thread has something to
do, it has caught up, the replay it is to start fits, and so does what is
running. -/
structure SeqInv (s : State) : Prop where
  tracked : Tracked s.shared
  alone : ∀ (i j : ℕ) pc pc', s.requests[i]? = some pc → s.requests[j]? = some pc' →
    pc.isDone = false → pc'.isDone = false → i = j
  caughtUp : ∀ pc ∈ s.requests, pc.isDone = false → CaughtUp s.shared pc
  fits : ∀ pc ∈ s.requests, ∀ m, pc.mode = some m → Fits s.shared m
  running : RunningFits s.shared

/-- What is tracked and fits is followed. -/
theorem RunningFits.streamFollows (hf : RunningFits sh) (ht : Tracked sh) : StreamFollows sh := by
  intro x hx
  have hfit := hf x hx
  cases x with
  | process p =>
    -- a capture replays: either the mode is not the dataset's, or there is no dataset
    have hnot : ¬ (sh.mode = .dataset ∧ sh.source = true) := by
      rintro ⟨hmode, hsource⟩
      obtain hsim | hnone := hfit
      · rw [hmode] at hsim
        cases hsim
      · rw [hsource] at hnone
        cases hnone
    unfold alertBranch telemetryBranch
    rw [if_neg fun h => hnot ⟨h.1, h.2.1⟩, if_neg hnot]
    exact ⟨rfl, rfl⟩
  | thread t =>
    -- a dataset thread replays, and the status sees it
    have hmode : sh.mode = .dataset := hfit
    obtain ⟨hsource, hrun⟩ := Bool.and_eq_true_iff.mp (ht.isRunning hx)
    unfold alertBranch telemetryBranch
    rw [if_pos ⟨hmode, hsource, hrun⟩, if_pos ⟨hmode, hsource⟩]
    exact ⟨rfl, rfl⟩

/-- **The start step** starts a producer of the mode the thread was given. -/
theorem RunningFits.advance {timeout : Bool} (hc : pc.isDone = false → CaughtUp sh pc)
    (hm : ∀ m, pc.mode = some m → Fits sh m) (hf : RunningFits sh) :
    RunningFits (advance datasetAvailable timeout sh pc).1 := by
  cases pc with
  | popen =>
    have hempty : sh.running = ∅ := hc rfl
    intro x hx
    change x ∈ insert (Producer.process sh.fresh) sh.running at hx
    rw [hempty] at hx
    obtain rfl : x = .process sh.fresh := by simpa using hx
    exact hm .simulated rfl
  | startThread =>
    obtain ⟨hempty, -⟩ : sh.running = ∅ ∧ sh.source = true := hc rfl
    show RunningFits sh.startThread
    obtain heq | ⟨t, -, -, -, hrun⟩ := startThread_cases sh
    · rw [heq]
      exact hf
    · intro x hx
      rw [hrun, hempty] at hx
      obtain rfl : x = .thread t := by simpa using hx
      exact (hm .dataset rfl).congr (mode_startThread sh) (source_startThread sh)
  | store m =>
    -- the mode is stored when nothing is running
    have hempty : sh.running = ∅ := hc rfl
    intro x hx
    change x ∈ sh.running at hx
    rw [hempty] at hx
    exact absurd hx (Finset.notMem_empty _)
  | create =>
    have hempty : sh.running = ∅ := hc rfl
    intro x hx
    change x ∈ sh.running at hx
    rw [hempty] at hx
    exact absurd hx (Finset.notMem_empty _)
  | kill g =>
    intro x hx
    exact (hf x (running_killCurrent_subset sh hx)).congr (mode_killCurrent sh)
      (source_killCurrent sh)
  | check g => exact hf
  | join k => exact hf
  | joining t k => exact hf
  | forget k => exact hf
  | newThread => exact hf
  | done g => exact hf

theorem SeqInv.initial : SeqInv initial := by
  refine ⟨LiveInv.initial.tracked, ?_, ?_, ?_, ?_⟩
  · intro i j pc pc' hpc
    cases hpc
  · intro pc hpc
    exact absurd hpc List.not_mem_nil
  · intro pc hpc
    exact absurd hpc List.not_mem_nil
  · intro x hx
    exact absurd hx (Finset.notMem_empty _)

theorem SeqInv.ends (hi : SeqInv s) (x : Producer) :
    SeqInv { s with shared := { s.shared with running := s.shared.running.erase x } } := by
  refine ⟨hi.tracked.erase x, hi.alone, ?_, ?_, ?_⟩
  · intro pc hpc hd
    exact (hi.caughtUp pc hpc hd).mono (Finset.erase_subset _ _) id
  · intro pc hpc m hm
    exact (hi.fits pc hpc m hm).congr rfl rfl
  · intro y hy
    exact (hi.running y (Finset.mem_of_mem_erase hy)).congr rfl rfl

/-- A request that comes when all others are done. -/
theorem SeqInv.spawn (hi : SeqInv s) {g : Goal} (hdone : ∀ pc ∈ s.requests, pc.isDone = true)
    (hfit : ∀ m, g = .launch m → Fits s.shared m) : SeqInv (spawn s g) := by
  -- the threads before have returned, so that the new one is the only one at work
  have hlast : ∀ (i : ℕ) pc, (Replay.spawn s g).requests[i]? = some pc → pc.isDone = false →
      i = s.requests.length := by
    intro i pc hpc hd
    change (s.requests ++ [Pc.check g])[i]? = some pc at hpc
    rw [List.getElem?_append] at hpc
    split at hpc
    · rw [hdone pc (List.mem_of_getElem? hpc)] at hd
      cases hd
    · next hge =>
      obtain ⟨hlt, -⟩ := List.getElem?_eq_some_iff.mp hpc
      rw [List.length_singleton] at hlt
      omega
  refine ⟨hi.tracked, ?_, ?_, ?_, hi.running⟩
  · intro i j pc pc' hpc hpc' hd hd'
    rw [hlast i pc hpc hd, hlast j pc' hpc' hd']
  · intro pc hpc hd
    obtain hpc | hpc := List.mem_append.mp hpc
    · exact hi.caughtUp pc hpc hd
    · rw [List.mem_singleton.mp hpc]
      trivial
  · intro pc hpc m hm
    obtain hpc | hpc := List.mem_append.mp hpc
    · exact hi.fits pc hpc m hm
    · rw [List.mem_singleton.mp hpc] at hm
      cases g with
      | launch m' =>
        obtain rfl := Option.some.inj hm
        exact hfit m' rfl
      | answer => cases hm
      | storeMode m' => cases hm

theorem isDone_advance {timeout : Bool} (h : pc.isDone = true) :
    (advance datasetAvailable timeout sh pc) = (sh, pc) := by
  cases pc with
  | done g => rfl
  | _ => cases h

theorem isDone_eq_false_of_mode {m : Mode} (h : pc.mode = some m) : pc.isDone = false := by
  cases pc with
  | done g => cases h
  | _ => rfl

/-- **A step of a thread** when requests come in turn. -/
theorem SeqInv.advance (hi : SeqInv s) {i : ℕ} {timeout : Bool} (hpc : s.requests[i]? = some pc)
    (hended : ForgetsEnded s.shared pc) :
    SeqInv ⟨(advance datasetAvailable timeout s.shared pc).1,
      s.requests.set i (advance datasetAvailable timeout s.shared pc).2⟩ := by
  have hmem := List.mem_of_getElem? hpc
  by_cases hdone : pc.isDone = true
  · -- a thread that is done changes nothing
    rw [isDone_advance hdone]
    obtain ⟨hlt, hget⟩ := List.getElem?_eq_some_iff.mp hpc
    have hsame : s.requests.set i pc = s.requests := by
      rw [← hget, List.set_getElem_self]
    show SeqInv ⟨s.shared, s.requests.set i pc⟩
    rw [hsame]
    exact hi
  · have hactive : pc.isDone = false := Bool.eq_false_iff.mpr hdone
    have hc := hi.caughtUp pc hmem hactive
    -- all other threads are done
    have hothers : ∀ (j : ℕ) pc', j ≠ i → s.requests[j]? = some pc' → pc'.isDone = true := by
      intro j pc' hj hpc'
      by_contra hd
      exact hj (hi.alone j i pc' pc hpc' hpc (Bool.eq_false_iff.mpr hd) hactive)
    have hindex : ∀ (j : ℕ) pc', (s.requests.set i
        (Replay.advance datasetAvailable timeout s.shared pc).2)[j]? = some pc' →
        pc'.isDone = false →
        j = i ∧ pc' = (Replay.advance datasetAvailable timeout s.shared pc).2 := by
      intro j pc' hpc' hd
      obtain hnew | ⟨hj, hold⟩ := getElem?_set_cases hpc'
      · exact hnew
      · rw [hothers j pc' hj hold] at hd
        cases hd
    refine ⟨hi.tracked.advance hended fun _ => hc, ?_, ?_, ?_,
      hi.running.advance (fun _ => hc) (hi.fits pc hmem)⟩
    · intro j k pc₁ pc₂ h₁ h₂ hd₁ hd₂
      rw [(hindex j pc₁ h₁ hd₁).1, (hindex k pc₂ h₂ hd₂).1]
    · intro pc' hpc' hd
      obtain ⟨j, hj⟩ := List.mem_iff_getElem?.mp hpc'
      rw [(hindex j pc' hj hd).2]
      exact CaughtUp.advance hi.tracked hended hc
    · intro pc' hpc' m hm
      obtain ⟨j, hj⟩ := List.mem_iff_getElem?.mp hpc'
      have hd : pc'.isDone = false := isDone_eq_false_of_mode hm
      rw [(hindex j pc' hj hd).2] at hm
      have hmode := (leads_advance _ _ _ pc).mode hm
      exact (hi.fits pc hmem m hmode).advance hmode

theorem SeqInv.step (hi : SeqInv s) {e : Event} (hturn : InTurn s e) (hended : ForgetsEndedAt s e)
    (hfit : FitsAt s e) : SeqInv (step datasetAvailable s e).1 := by
  obtain heq | ⟨g, hrequest, heq, hg⟩ | ⟨i, timeout, pc, rfl, hpc, heq⟩ | ⟨x, heq⟩ :=
    step_cases datasetAvailable s e
  · rw [heq]
    exact hi
  · -- a request that starts in turn finds no other at work
    rw [heq]
    refine hi.spawn (hturn.isDone hrequest) ?_
    intro m hm
    obtain ⟨mode, rfl, rfl⟩ := hg m hm
    exact hfit
  · rw [heq]
    exact hi.advance hpc (hended pc hpc)
  · rw [heq]
    exact hi.ends x

/-- **The stream follows the replay.** When requests come in turn, each with its
full effect, and every replay request fits the state it is made in, then the
branches of the stream are those of the replay that is running, in every state. -/
theorem stream_follows_of_fits (datasetAvailable : Bool) (h : List Event)
    (hturn : (machine datasetAvailable).Along InTurn h)
    (hended : (machine datasetAvailable).Along ForgetsEndedAt h)
    (hfits : (machine datasetAvailable).Along FitsAt h) :
    StreamFollows ((machine datasetAvailable).after h).shared := by
  have hinv : SeqInv ((machine datasetAvailable).after h) :=
    (machine datasetAvailable).invariant_along (fun _ s => SeqInv s) SeqInv.initial
      (fun _ _ hp hi => hi.step hp.1.1 hp.1.2 hp.2) h
      (Machine.alongFrom_and _ (Machine.alongFrom_and _ hturn hended) hfits)
  exact hinv.running.streamFollows hinv.tracked

/-- The mode `dataset` is stored, and then a replay is requested without a mode. -/
theorem stream_follows_of_fits_dataset :
    StreamFollows ((machine true).after
      [.setMode "dataset", .step 0 false, .step 0 false, .step 0 false,
        .replay none, .step 1 false, .step 1 false, .step 1 false, .step 1 false,
        .step 1 false, .step 1 false, .step 1 false]).shared :=
  stream_follows_of_fits true _ (by decide +kernel) (by decide +kernel) (by decide +kernel)

/-- **A stream that does not follow.** The mode is `simulated` when a replay is
requested with the mode `dataset`: the dataset replay runs, and the stream sends
what the simulation would. -/
theorem explicit_mode_not_followed :
    ¬ ∀ h : List Event, (machine true).Along InTurn h → (machine true).Along ForgetsEndedAt h →
      StreamFollows ((machine true).after h).shared := by
  intro hall
  have hfollows := hall
    [.replay (some "dataset"), .step 0 false, .step 0 false, .step 0 false, .step 0 false,
      .step 0 false, .step 0 false, .step 0 false] (by decide +kernel) (by decide +kernel)
  have hrun : Producer.thread 0 ∈ ((machine true).after
      [.replay (some "dataset"), .step 0 false, .step 0 false, .step 0 false, .step 0 false,
        .step 0 false, .step 0 false, .step 0 false]).shared.running := by
    decide +kernel
  exact absurd (hfollows _ hrun).1 (by decide +kernel)

end Replay

end Sentrix
