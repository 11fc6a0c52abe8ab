import Sentrix.Dashboard.Replay

/-!
# Races between replay requests

A request that starts a replay stops what is active, step by step, and then
starts its producer. Two things can go wrong in between, and only these:

* another request does the same meanwhile: both have stopped what there was, and
  both start a producer;
* the source's `_thread` is set to `None` while that thread is running, because a
  `join` timed out or because the thread was started after the `join`: nobody can
  stop it any more.

A run is undisturbed if none of its steps does either (`Undisturbed`). Then a
thread that launches a replay has brought about what its program counter says
(`LiveInv`), so its start step starts the only producer
(`one_replay_of_undisturbed`). And a stop request that finds no thread on its way
to start a replay ends with nothing running, for good (`stop_final_of_idle`).
-/

namespace Sentrix

namespace Replay

variable {datasetAvailable : Bool} {s : State}

/-- The event is not one of the two that go wrong: a start request takes its
first step only when no other is between its first step and its start step, and
the source forgets its thread only when that has ended. -/
def Undisturbed (s : State) : Event → Prop
  | .step i _ => ∀ pc ∈ s.requests[i]?, ForgetsEnded s.shared pc ∧
      (pc.opening = true → ∀ pc' ∈ s.requests, pc'.launching = false)
  | _ => True

instance (s : State) : ∀ e, Decidable (Undisturbed s e)
  | .step i _ => inferInstanceAs (Decidable (∀ pc ∈ s.requests[i]?, _))
  | .replay _ | .stop | .setMode _ | .ends _ => isTrue trivial

/-- At most one producer is running, and a subprocess that is running is the
current one. -/
structure OneReplay (sh : Shared) : Prop where
  one : sh.running.card ≤ 1
  current : ∀ p, .process p ∈ sh.running → sh.current = some p

/-! ### What an event does -/

/-- The event is a request. -/
def Event.isRequest : Event → Bool
  | .replay _ | .stop | .setMode _ => true
  | .step _ _ | .ends _ => false

/-- **What an event does**: nothing, a new thread if it is a request, one step of a thread,
or the end of a producer. -/
theorem step_cases (datasetAvailable : Bool) (s : State) (e : Event) :
    (step datasetAvailable s e).1 = s ∨
    (∃ g, e.isRequest = true ∧ (step datasetAvailable s e).1 = spawn s g ∧
      ∀ m, g = .launch m → ∃ mode, e = .replay mode ∧ m = effectiveMode s.shared mode) ∨
    (∃ i timeout pc, e = .step i timeout ∧ s.requests[i]? = some pc ∧
      (step datasetAvailable s e).1 =
        ⟨(advance datasetAvailable timeout s.shared pc).1,
          s.requests.set i (advance datasetAvailable timeout s.shared pc).2⟩) ∨
    (∃ x, (step datasetAvailable s e).1 =
      { s with shared := { s.shared with running := s.shared.running.erase x } }) := by
  cases e with
  | replay mode =>
    refine Or.inr (Or.inl ⟨_, rfl, rfl, ?_⟩)
    intro m hm
    cases hm
    exact ⟨mode, rfl, rfl⟩
  | stop =>
    refine Or.inr (Or.inl ⟨_, rfl, rfl, ?_⟩)
    intro m hm
    cases hm
  | setMode mode =>
    -- a mode that is not valid, or not available, is answered at once
    unfold step
    dsimp only
    split
    · exact Or.inl rfl
    · split
      · exact Or.inl rfl
      · refine Or.inr (Or.inl ⟨_, rfl, rfl, ?_⟩)
        intro m hm
        cases hm
  | step i timeout =>
    cases hpc : s.requests[i]? with
    | none =>
      refine Or.inl ?_
      simp only [step, hpc]
    | some pc =>
      refine Or.inr (Or.inr (Or.inl ⟨i, timeout, pc, rfl, hpc, ?_⟩))
      simp only [step, hpc]
  | ends x => exact Or.inr (Or.inr (Or.inr ⟨x, rfl⟩))

/-- The thread of request `j` after a step of the thread of request `i`. -/
theorem getElem?_set_cases {l : List Pc} {i j : ℕ} {pc pc' : Pc}
    (h : (l.set i pc')[j]? = some pc) : (j = i ∧ pc = pc') ∨ (j ≠ i ∧ l[j]? = some pc) := by
  by_cases hj : j = i
  · subst hj
    refine Or.inl ⟨rfl, ?_⟩
    rw [List.getElem?_set_self'] at h
    cases hl : l[j]? with
    | none =>
      rw [hl] at h
      cases h
    | some old =>
      rw [hl] at h
      exact (Option.some.inj h).symm
  · rw [List.getElem?_set_ne (Ne.symm hj)] at h
    exact Or.inr ⟨hj, h⟩

/-- A thread is an old one, or the new one before its first step. -/
theorem getElem?_spawn {g : Goal} {i : ℕ} {pc : Pc} (h : (spawn s g).requests[i]? = some pc) :
    s.requests[i]? = some pc ∨ pc = .check g := by
  change (s.requests ++ [Pc.check g])[i]? = some pc at h
  rw [List.getElem?_append] at h
  split at h
  · exact Or.inl h
  · exact Or.inr (List.mem_singleton.mp (List.mem_of_getElem? h))

/-- What is tracked stays so when a producer ends. -/
theorem Tracked.erase {sh : Shared} (ht : Tracked sh) (x : Producer) :
    Tracked { sh with running := sh.running.erase x } := by
  refine ⟨?_, ?_⟩
  · intro t hrun
    exact ht.thread t (Finset.mem_of_mem_erase hrun)
  · intro p hrun
    exact ht.process p (Finset.mem_of_mem_erase hrun)

/-! ### At most one replay -/

/-- What holds in every state of an undisturbed run: what is running is one
tracked producer at most, and at most one thread is launching, which has caught
up. -/
structure LiveInv (s : State) : Prop where
  tracked : Tracked s.shared
  one : s.shared.running.card ≤ 1
  caughtUp : ∀ (i : ℕ) pc, s.requests[i]? = some pc → pc.launching = true → CaughtUp s.shared pc
  alone : ∀ (i j : ℕ) pc pc', s.requests[i]? = some pc → s.requests[j]? = some pc' →
    pc.launching = true → pc'.launching = true → i = j

theorem LiveInv.initial : LiveInv initial := by
  refine ⟨⟨?_, ?_⟩, ?_, ?_, ?_⟩
  · intro t hrun
    exact absurd hrun (Finset.notMem_empty _)
  · intro p hrun
    exact absurd hrun (Finset.notMem_empty _)
  · exact Nat.zero_le _
  · intro i pc hpc
    cases hpc
  · intro i j pc pc' hpc
    cases hpc

theorem LiveInv.spawn (hi : LiveInv s) (g : Goal) : LiveInv (spawn s g) := by
  have hold : ∀ (i : ℕ) pc, (Replay.spawn s g).requests[i]? = some pc → pc.launching = true →
      s.requests[i]? = some pc := by
    intro i pc hpc hl
    obtain hpc | rfl := getElem?_spawn hpc
    · exact hpc
    · cases hl
  refine ⟨hi.tracked, hi.one, ?_, ?_⟩
  · intro i pc hpc hl
    exact hi.caughtUp i pc (hold i pc hpc hl) hl
  · intro i j pc pc' hpc hpc' hl hl'
    exact hi.alone i j pc pc' (hold i pc hpc hl) (hold j pc' hpc' hl') hl hl'

theorem LiveInv.ends (hi : LiveInv s) (x : Producer) :
    LiveInv { s with shared := { s.shared with running := s.shared.running.erase x } } := by
  refine ⟨hi.tracked.erase x, ?_, ?_, hi.alone⟩
  · exact le_trans (Finset.card_le_card (Finset.erase_subset _ _)) hi.one
  · intro i pc hpc hl
    exact (hi.caughtUp i pc hpc hl).mono (Finset.erase_subset _ _) id

theorem caughtUp_of_opening {sh : Shared} {pc : Pc} (h : pc.opening = true) : CaughtUp sh pc := by
  cases pc with
  | check g => trivial
  | _ => cases h

/-- A start step is taken by a launching thread. -/
theorem launching_of_starts {pc : Pc} (h : pc.launching = false) :
    pc ≠ .popen ∧ pc ≠ .startThread := by
  refine ⟨?_, ?_⟩
  · rintro rfl
    cases h
  · rintro rfl
    cases h

/-- A start step leaves one producer. -/
theorem card_running_advance {timeout : Bool} {sh : Shared} {pc : Pc} (hone : sh.running.card ≤ 1)
    (hc : pc.launching = true → CaughtUp sh pc) :
    (advance datasetAvailable timeout sh pc).1.running.card ≤ 1 := by
  -- only these two steps start a producer, and both have caught up before
  by_cases hpop : pc = .popen
  · subst hpop
    have hempty : sh.running = ∅ := hc rfl
    show (insert (Producer.process sh.fresh) sh.running).card ≤ 1
    rw [hempty]
    exact le_refl _
  · by_cases hstart : pc = .startThread
    · subst hstart
      obtain ⟨hempty, -⟩ : sh.running = ∅ ∧ sh.source = true := hc rfl
      show sh.startThread.running.card ≤ 1
      obtain heq | ⟨t, -, -, -, hrun⟩ := startThread_cases sh
      · rw [heq]
        exact hone
      · rw [hrun, hempty]
        exact le_refl _
    · exact le_trans (Finset.card_le_card (running_advance_subset hpop hstart)) hone

/-- **A step of a thread** in an undisturbed run. -/
theorem LiveInv.advance (hi : LiveInv s) {i : ℕ} {timeout : Bool} {pc : Pc}
    (hpc : s.requests[i]? = some pc) (hu : Undisturbed s (.step i timeout)) :
    LiveInv ⟨(advance datasetAvailable timeout s.shared pc).1,
      s.requests.set i (advance datasetAvailable timeout s.shared pc).2⟩ := by
  obtain ⟨hended, hfirst⟩ := hu pc hpc
  have hc : pc.launching = true → CaughtUp s.shared pc := hi.caughtUp i pc hpc
  -- while another thread is launching, this one neither is nor becomes so
  have hother : ∀ (j : ℕ) pc', j ≠ i → s.requests[j]? = some pc' → pc'.launching = true →
      pc.launching = false ∧
        (Replay.advance datasetAvailable timeout s.shared pc).2.launching = false := by
    intro j pc' hj hpc' hl'
    have hnot : ¬ pc.launching = true := fun hl => hj (hi.alone j i pc' pc hpc' hpc hl' hl)
    refine ⟨Bool.eq_false_iff.mpr hnot, Bool.eq_false_iff.mpr fun hl => ?_⟩
    obtain hl | hl := (leads_advance _ _ _ pc).launching hl
    · exact hnot hl
    · have hidle := hfirst hl pc' (List.mem_of_getElem? hpc')
      rw [hl'] at hidle
      cases hidle
  refine ⟨hi.tracked.advance hended hc, card_running_advance hi.one hc, ?_, ?_⟩
  · intro j pc' hpc' hl'
    obtain ⟨rfl, rfl⟩ | ⟨hj, hpc'⟩ := getElem?_set_cases hpc'
    · -- the thread itself: it was launching, or took its first step
      refine CaughtUp.advance hi.tracked hended ?_
      obtain hl | hl := (leads_advance _ _ _ pc).launching hl'
      · exact hc hl
      · exact caughtUp_of_opening hl
    · obtain ⟨hpop, hstart⟩ := launching_of_starts (hother j pc' hj hpc' hl').1
      exact (hi.caughtUp j pc' hpc' hl').mono (running_advance_subset hpop hstart) source_advance
  · intro j k pc₁ pc₂ h₁ h₂ hl₁ hl₂
    obtain ⟨hj, hnew₁⟩ | ⟨hj, hold₁⟩ := getElem?_set_cases h₁
    · obtain ⟨hk, -⟩ | ⟨hk, hold₂⟩ := getElem?_set_cases h₂
      · rw [hj, hk]
      · rw [hnew₁, (hother k pc₂ hk hold₂ hl₂).2] at hl₁
        cases hl₁
    · obtain ⟨-, hnew₂⟩ | ⟨-, hold₂⟩ := getElem?_set_cases h₂
      · rw [hnew₂, (hother j pc₁ hj hold₁ hl₁).2] at hl₂
        cases hl₂
      · exact hi.alone j k pc₁ pc₂ hold₁ hold₂ hl₁ hl₂

/-- What one event of an undisturbed run preserves. -/
theorem LiveInv.step (hi : LiveInv s) {e : Event} (hu : Undisturbed s e) :
    LiveInv (step datasetAvailable s e).1 := by
  obtain heq | ⟨g, -, heq, -⟩ | ⟨i, timeout, pc, rfl, hpc, heq⟩ | ⟨x, heq⟩ :=
    step_cases datasetAvailable s e
  · rw [heq]
    exact hi
  · rw [heq]
    exact hi.spawn g
  · rw [heq]
    exact hi.advance hpc hu
  · rw [heq]
    exact hi.ends x

/-- What every undisturbed run preserves. -/
theorem liveInv_after {h : List Event} (hu : (machine datasetAvailable).Along Undisturbed h) :
    LiveInv ((machine datasetAvailable).after h) :=
  (machine datasetAvailable).invariant_along (fun _ s => LiveInv s) LiveInv.initial
    (fun _ _ hu hi => hi.step hu) h hu

/-- **At most one replay is live** in every state of an undisturbed run, and a
subprocess that is running is the current one. -/
theorem one_replay_of_undisturbed (datasetAvailable : Bool) (h : List Event)
    (hu : (machine datasetAvailable).Along Undisturbed h) :
    OneReplay ((machine datasetAvailable).after h).shared := by
  exact ⟨(liveInv_after hu).one, (liveInv_after hu).tracked.process⟩

/-- A simulated replay is started, and then a dataset replay. -/
theorem one_replay_of_undisturbed_two_replays :
    OneReplay ((machine true).after
      [.replay none, .step 0 false, .step 0 false, .step 0 false,
        .replay (some "dataset"), .step 1 false, .step 1 false, .step 1 false, .step 1 false,
        .step 1 false, .step 1 false, .step 1 false]).shared :=
  one_replay_of_undisturbed true _ (by decide +kernel)

/-- **Two replays at once.** Two requests come together. Each stops what is
active, which is nothing, and then each starts a subprocess. -/
theorem overlapping_starts_both_run :
    ¬ ∀ (datasetAvailable : Bool) (h : List Event),
      OneReplay ((machine datasetAvailable).after h).shared := by
  intro hall
  have hone := (hall true [.replay none, .replay none, .step 0 false, .step 0 false,
    .step 1 false, .step 1 false, .step 0 false, .step 1 false]).one
  exact absurd hone (by decide)

/-! ### Stop is final -/

/-- A thread that is not to start a replay. -/
def Pc.Idle (pc : Pc) : Prop := pc.opening = false ∧ pc.launching = false

instance (pc : Pc) : Decidable pc.Idle := inferInstanceAs (Decidable (_ ∧ _))

/-- The source forgets its thread only when that has ended. -/
def ForgetsEndedAt (s : State) : Event → Prop
  | .step i _ => ∀ pc ∈ s.requests[i]?, ForgetsEnded s.shared pc
  | _ => True

instance (s : State) : ∀ e, Decidable (ForgetsEndedAt s e)
  | .step i _ => inferInstanceAs (Decidable (∀ pc ∈ s.requests[i]?, _))
  | .replay _ | .stop | .setMode _ | .ends _ => isTrue trivial

/-- What holds from a stop request on, whose thread is the `n`-th: what is running
is tracked, no thread is to start a replay, and the stop has caught up. -/
structure StopInv (n : ℕ) (s : State) : Prop where
  tracked : Tracked s.shared
  idle : ∀ pc ∈ s.requests, pc.Idle
  stop : ∃ pc, s.requests[n]? = some pc ∧ CaughtUp s.shared pc

/-- A request that launches nothing goes on launching nothing. -/
theorem Pc.Idle.advance {timeout : Bool} {sh : Shared} {pc : Pc} (h : pc.Idle) :
    (advance datasetAvailable timeout sh pc).2.Idle := by
  refine ⟨(leads_advance _ _ _ pc).opening, Bool.eq_false_iff.mpr fun hl => ?_⟩
  obtain hl | hl := (leads_advance _ _ _ pc).launching hl
  · rw [h.2] at hl
    cases hl
  · rw [h.1] at hl
    cases hl

/-- A new request that is no launch. -/
theorem StopInv.spawn {n : ℕ} (hi : StopInv n s) {g : Goal} (hg : g.isLaunch = false) :
    StopInv n (spawn s g) := by
  obtain ⟨pc, hpc, hc⟩ := hi.stop
  refine ⟨hi.tracked, ?_, pc, ?_, hc⟩
  · intro pc' hpc'
    obtain hpc' | hpc' := List.mem_append.mp hpc'
    · exact hi.idle pc' hpc'
    · rw [List.mem_singleton.mp hpc']
      exact ⟨hg, rfl⟩
  · obtain ⟨hlt, -⟩ := List.getElem?_eq_some_iff.mp hpc
    show (s.requests ++ [Pc.check g])[n]? = some pc
    rw [List.getElem?_append_left hlt]
    exact hpc

theorem StopInv.ends {n : ℕ} (hi : StopInv n s) (x : Producer) :
    StopInv n { s with shared := { s.shared with running := s.shared.running.erase x } } := by
  obtain ⟨pc, hpc, hc⟩ := hi.stop
  exact ⟨hi.tracked.erase x, hi.idle, pc, hpc, hc.mono (Finset.erase_subset _ _) id⟩

/-- **A step of a thread** once no thread is to start a replay. -/
theorem StopInv.advance {n i : ℕ} {timeout : Bool} {pc : Pc} (hi : StopInv n s)
    (hpc : s.requests[i]? = some pc) (hended : ForgetsEnded s.shared pc) :
    StopInv n ⟨(advance datasetAvailable timeout s.shared pc).1,
      s.requests.set i (advance datasetAvailable timeout s.shared pc).2⟩ := by
  have hidle := hi.idle pc (List.mem_of_getElem? hpc)
  have hc : pc.launching = true → CaughtUp s.shared pc := by
    intro hl
    rw [hidle.2] at hl
    cases hl
  refine ⟨hi.tracked.advance hended hc, ?_, ?_⟩
  · intro pc' hpc'
    obtain hpc' | rfl := List.mem_or_eq_of_mem_set hpc'
    · exact hi.idle pc' hpc'
    · exact hidle.advance
  · obtain ⟨pcₙ, hpcₙ, hcₙ⟩ := hi.stop
    by_cases hin : i = n
    · -- the stop request itself
      subst hin
      obtain rfl : pc = pcₙ := Option.some.inj (hpc.symm.trans hpcₙ)
      obtain ⟨hlt, -⟩ := List.getElem?_eq_some_iff.mp hpc
      exact ⟨_, List.getElem?_set_self hlt, CaughtUp.advance hi.tracked hended hcₙ⟩
    · obtain ⟨hpop, hstart⟩ := launching_of_starts hidle.2
      refine ⟨pcₙ, ?_, hcₙ.mono (running_advance_subset hpop hstart) source_advance⟩
      show (s.requests.set i _)[n]? = some pcₙ
      rw [List.getElem?_set_ne hin]
      exact hpcₙ

/-- What one event without a launch preserves. -/
theorem StopInv.step {n : ℕ} (hi : StopInv n s) {e : Event} (hno : ∀ mode, e ≠ .replay mode)
    (hended : ForgetsEndedAt s e) : StopInv n (step datasetAvailable s e).1 := by
  obtain heq | ⟨g, -, heq, hg⟩ | ⟨i, timeout, pc, rfl, hpc, heq⟩ | ⟨x, heq⟩ :=
    step_cases datasetAvailable s e
  · rw [heq]
    exact hi
  · rw [heq]
    refine hi.spawn ?_
    -- no launch is requested any more
    cases g with
    | launch m =>
      obtain ⟨mode, he, -⟩ := hg m rfl
      exact absurd he (hno mode)
    | answer => rfl
    | storeMode m => rfl
  · rw [heq]
    exact hi.advance hpc (hended pc hpc)
  · rw [heq]
    exact hi.ends x

/-- What any continuation without a launch preserves. -/
theorem StopInv.afterFrom {n : ℕ} {rest : List Event} (hi : StopInv n s)
    (hno : ∀ mode, .replay mode ∉ rest)
    (hended : (machine datasetAvailable).AlongFrom ForgetsEndedAt s rest) :
    StopInv n ((machine datasetAvailable).afterFrom s rest) := by
  induction rest generalizing s with
  | nil => exact hi
  | cons e rest ih =>
    have hstep : StopInv n ((machine datasetAvailable).next s e) := by
      refine hi.step ?_ hended.1
      rintro mode rfl
      exact hno mode List.mem_cons_self
    exact ih hstep (fun mode hmem => hno mode (List.mem_cons_of_mem _ hmem)) hended.2

/-- **Stop is final.** A stop request comes when no thread is on its way to start
a replay and what is running is tracked. If from then on the source forgets its
thread only when that has ended, then nothing is running once the stop request
has returned, whatever else happens, until the next replay request. -/
theorem stop_final_of_idle (datasetAvailable : Bool) (pre rest : List Event)
    (hidle : ∀ pc ∈ ((machine datasetAvailable).after pre).requests, pc.Idle)
    (htracked : Tracked ((machine datasetAvailable).after pre).shared)
    (hno : ∀ mode, .replay mode ∉ rest)
    (hended : (machine datasetAvailable).AlongFrom ForgetsEndedAt
      ((machine datasetAvailable).after (pre ++ [.stop])) rest)
    (hreturned : ((machine datasetAvailable).after (pre ++ [.stop] ++ rest)).requests[
      ((machine datasetAvailable).after pre).requests.length]? = some (.done .answer)) :
    ((machine datasetAvailable).after (pre ++ [.stop] ++ rest)).shared.running = ∅ := by
  -- the stop begins with what is running tracked, and nobody to start a replay
  have hbegin : StopInv ((machine datasetAvailable).after pre).requests.length
      ((machine datasetAvailable).after (pre ++ [.stop])) := by
    rw [Machine.after_concat]
    refine ⟨htracked, ?_, .check .answer, ?_, trivial⟩
    · intro pc hpc
      obtain hpc | hpc := List.mem_append.mp hpc
      · exact hidle pc hpc
      · rw [List.mem_singleton.mp hpc]
        exact ⟨rfl, rfl⟩
    · exact List.getElem?_concat_length
  rw [Machine.after_append] at hreturned ⊢
  obtain ⟨pc, hpc, hc⟩ := (hbegin.afterFrom hno hended).stop
  rw [hpc] at hreturned
  obtain rfl := Option.some.inj hreturned
  exact hc

/-- A simulated replay is started, and then stopped. -/
theorem stop_final_of_idle_one_replay :
    ((machine true).after
      ([.replay none, .step 0 false, .step 0 false, .step 0 false] ++ [.stop] ++
        [.step 1 false, .step 1 false])).shared.running = ∅ := by
  refine stop_final_of_idle true [.replay none, .step 0 false, .step 0 false, .step 0 false]
    [.step 1 false, .step 1 false] (by decide) ?_ ?_ (by decide) (by decide)
  · exact (liveInv_after (by decide)).tracked
  · intro mode hmem
    simp at hmem

/-- **A replay that starts after the stop.** The replay request has been answered
and its background thread has not taken a step. The stop request finds nothing to
stop and returns, and then the thread starts its subprocess. -/
theorem replay_starts_after_stop :
    ¬ ∀ (datasetAvailable : Bool) (pre rest : List Event), (∀ mode, .replay mode ∉ rest) →
      ((machine datasetAvailable).after (pre ++ [.stop] ++ rest)).requests[
        ((machine datasetAvailable).after pre).requests.length]? = some (.done .answer) →
      ((machine datasetAvailable).after (pre ++ [.stop] ++ rest)).shared.running = ∅ := by
  intro hall
  have hempty := hall true [.replay none]
    [.step 1 false, .step 1 false, .step 0 false, .step 0 false, .step 0 false]
    (fun mode hmem => by simp at hmem) (by decide)
  exact absurd hempty (by decide)

end Replay

end Sentrix
