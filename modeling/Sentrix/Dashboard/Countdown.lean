import Mathlib.Algebra.Order.Group.Int
import Sentrix.Dashboard.Page

/-!
# The countdown of a replay

A click on START makes the page count down the seconds of the replay with an interval of the
browser; when none is left the page stops the replay. Clicks on STOP, failed and late answers
come in between, two requests to stop can be under way at once, and the callback does not know
its own interval: it clears the one that `replayCountdownTimer` names.

In every run that is the only interval there is (`single_countdown`), so a second countdown never
runs next to the first; a countdown that comes to its end has called back once for each second;
and START is disabled only while a countdown runs or a request to stop is under way, so that it
comes back. The clause that carries the rest is `CountdownInv.intervals`.
-/

namespace Sentrix

namespace Page

variable {upper : String → String} {p : Page}

/-- What holds of the countdown in every state. -/
structure CountdownInv (p : Page) : Prop where
  intervals : p.intervals = p.replayCountdownTimer.toList
  running : p.log.countdown.isSome = p.replayCountdownTimer.isSome
  remaining : ∀ c ∈ p.log.countdown, p.replaySecondsRemaining = c.1 - c.2
  /-- The interval has called back for some of the seconds only. -/
  unfinished : ∀ c ∈ p.log.countdown, c.2 = 0 ∨ (c.2 : ℤ) < c.1
  disabled : p.replayCountdownTimer.isSome → p.btnReplayDisabled
  released : p.btnReplayDisabled → p.replayCountdownTimer.isSome ∨ 0 < p.stopping
  /-- A countdown that came to its end called back once for each second, and at least once. -/
  ended : ∀ c ∈ p.log.ended, (c.2 : ℤ) = max 1 c.1

/-- Only the timer's fields bear on the invariant, and answers still to come may grow. -/
theorem CountdownInv.of_eq (hi : CountdownInv p) {q : Page}
    (htimer : q.replayCountdownTimer = p.replayCountdownTimer)
    (hremaining : q.replaySecondsRemaining = p.replaySecondsRemaining)
    (hdisabled : q.btnReplayDisabled = p.btnReplayDisabled)
    (hintervals : q.intervals = p.intervals) (hstopping : p.stopping ≤ q.stopping)
    (hcountdown : q.log.countdown = p.log.countdown) (hended : q.log.ended = p.log.ended) :
    CountdownInv q where
  intervals := by
    rw [hintervals, htimer]
    exact hi.intervals
  running := by
    rw [hcountdown, htimer]
    exact hi.running
  remaining := by
    rw [hcountdown, hremaining]
    exact hi.remaining
  unfinished := by
    rw [hcountdown]
    exact hi.unfinished
  disabled := by
    rw [htimer, hdisabled]
    exact hi.disabled
  -- more stop requests on their way can only help
  released hq := by
    rw [hdisabled] at hq
    rw [htimer]
    exact (hi.released hq).imp_right fun hpos => hpos.trans_le hstopping
  ended := by
    rw [hended]
    exact hi.ended

/-- Clearing the timer that the page knows leaves no interval. -/
theorem intervals_clearCountdown (hintervals : p.intervals = p.replayCountdownTimer.toList) :
    p.clearCountdown.intervals = [] := by
  show p.intervals.filter _ = []
  rw [hintervals, List.filter_eq_nil_iff]
  intro i hi hne
  exact of_decide_eq_true hne (Option.mem_toList.mp hi)

theorem CountdownInv.resetReplayUI (hi : CountdownInv p) (launching stopping : ℕ) :
    CountdownInv { p.resetReplayUI with launching, stopping } where
  intervals := intervals_clearCountdown hi.intervals
  running := rfl
  remaining := nofun
  unfinished := nofun
  disabled := nofun
  released := nofun
  ended := hi.ended

/-- A click starts the one countdown anew. -/
theorem CountdownInv.triggerReplay (hi : CountdownInv p) (duration : ℤ) :
    CountdownInv (p.triggerReplay duration) where
  intervals := by
    show (p.resetSessionState.clearCountdown).intervals ++ [p.nextInterval] = [p.nextInterval]
    -- the old interval, if there is one, is cleared first
    have hreset : p.resetSessionState.intervals = p.resetSessionState.replayCountdownTimer.toList :=
      hi.intervals
    rw [intervals_clearCountdown hreset, List.nil_append]
  running := rfl
  remaining c hc := by
    cases hc
    exact (sub_zero duration).symm
  unfinished c hc := by
    cases hc
    exact Or.inl rfl
  disabled _ := rfl
  released _ := Or.inl rfl
  ended := hi.ended

/-- **One callback**: one second less, or the end. -/
theorem CountdownInv.countDown (hi : CountdownInv p) {i : ℕ} (htick : i ∈ p.intervals) :
    CountdownInv p.countDown := by
  -- the interval that calls back is the one that the page knows
  have htimer : p.replayCountdownTimer = some i := by
    rw [hi.intervals] at htick
    exact Option.mem_toList.mp htick
  obtain ⟨c, hc⟩ : ∃ c, p.log.countdown = some c := by
    rw [← Option.isSome_iff_exists, hi.running, htimer]
    rfl
  have hremaining := hi.remaining c hc
  have hunfinished := hi.unfinished c hc
  have hdisabled : p.btnReplayDisabled = true := hi.disabled (by rw [htimer]; rfl)
  unfold Page.countDown
  dsimp only
  rw [hc]
  split
  · next hend =>
    refine ⟨?_, rfl, nofun, nofun, nofun, fun _ => Or.inr (Nat.succ_pos _), fun e he => ?_⟩
    · show p.clearCountdown.intervals = []
      exact intervals_clearCountdown hi.intervals
    obtain he | he := List.mem_append.mp he
    · exact hi.ended e he
    · obtain rfl : e = (c.1, c.2 + 1) := List.mem_singleton.mp he
      show ((c.2 + 1 : ℕ) : ℤ) = max 1 c.1
      omega
  · next hgo =>
    refine ⟨hi.intervals, ?_, fun e he => ?_, fun e he => ?_, fun _ => hdisabled,
      fun _ => Or.inl ?_, hi.ended⟩
    · rw [htimer]
      rfl
    · obtain rfl : (c.1, c.2 + 1) = e := Option.some.inj he
      show p.replaySecondsRemaining - 1 = c.1 - ((c.2 + 1 : ℕ) : ℤ)
      omega
    · obtain rfl : (c.1, c.2 + 1) = e := Option.some.inj he
      refine Or.inr ?_
      show ((c.2 + 1 : ℕ) : ℤ) < c.1
      omega
    · rw [htimer]
      rfl

theorem CountdownInv.handleIncomingLiveAlert (hi : CountdownInv p) (a : AlertRecord) :
    CountdownInv (p.handleIncomingLiveAlert upper a) := by
  unfold Page.handleIncomingLiveAlert Page.countTalker Page.checkAndTriggerNotification
  dsimp only
  repeat' split
  all_goals exact hi.of_eq rfl rfl rfl rfl (Nat.le_refl _) rfl rfl

theorem CountdownInv.fetchAlerts (hi : CountdownInv p) (alerts : List AlertRecord) :
    CountdownInv (p.fetchAlerts alerts) := by
  have hstart : CountdownInv { p with alertsTbody := [], log := { p.log with appended := [] } } :=
    hi.of_eq rfl rfl rfl rfl (Nat.le_refl _) rfl rfl
  unfold Page.fetchAlerts
  generalize ({ p with alertsTbody := [], log := { p.log with appended := [] } } : Page) = q
    at hstart
  induction alerts generalizing q with
  | nil => exact hstart
  | cons a alerts ih => exact ih _ (hstart.of_eq rfl rfl rfl rfl (Nat.le_refl _) rfl rfl)

/-- A step keeps the countdown in order, whatever it is. -/
theorem CountdownInv.step (hi : CountdownInv p) (e : PageEvent) :
    CountdownInv (p.step upper e) := by
  have hle : p.stopping ≤ p.stopping := Nat.le_refl _
  cases e with
  | alert a => exact hi.handleIncomingLiveAlert a
  | traffic now pktsPerSec mbps => exact hi.of_eq rfl rfl rfl rfl hle rfl rfl
  | alertsFetched newest t sev => exact hi.fetchAlerts _
  | summaryFetched stats sseOpen =>
    show CountdownInv (p.fetchSummary stats sseOpen)
    unfold fetchSummary
    split
    · exact hi.of_eq rfl rfl rfl rfl hle rfl rfl
    · exact hi.of_eq rfl rfl rfl rfl hle rfl rfl
  | filterChanged sev => exact hi.of_eq rfl rfl rfl rfl hle rfl rfl
  | dataSourceChanged mode => exact hi.of_eq rfl rfl rfl rfl hle rfl rfl
  | configSaved threshold => exact hi.of_eq rfl rfl rfl rfl hle rfl rfl
  | replayClicked custom value =>
    -- a click on a disabled button does nothing
    show CountdownInv (if p.btnReplayDisabled then p else p.triggerReplay _)
    split
    · exact hi
    · exact hi.triggerReplay _
  | replayAnswered => exact hi.of_eq rfl rfl rfl rfl hle rfl rfl
  | replayFailed =>
    show CountdownInv (if p.launching = 0 then p else _)
    split
    · exact hi
    · exact hi.resetReplayUI _ _
  | stopClicked =>
    -- a request to stop leaves the countdown running
    show CountdownInv (if p.btnStopDisabled then p else _)
    split
    · exact hi
    · exact hi.of_eq rfl rfl rfl rfl (Nat.le_succ _) rfl rfl
  | stopSettled =>
    show CountdownInv (if p.stopping = 0 then p else _)
    split
    · exact hi
    · exact hi.resetReplayUI _ _
  | tick interval =>
    show CountdownInv (if interval ∈ p.intervals then p.countDown else p)
    split
    · next htick => exact hi.countDown htick
    · exact hi

/-- What every run of the page preserves. -/
theorem countdownInv_after (upper : String → String) (h : List PageEvent) :
    CountdownInv ((machine upper).after h) :=
  (machine upper).invariant (fun _ => CountdownInv)
    ⟨rfl, rfl, nofun, nofun, nofun, nofun, List.forall_mem_nil _⟩ (fun _ e hi => hi.step e) h

/-- **There is one countdown at most.** In every run of clicks, callbacks and answers the only
interval is the one that the page knows; while it runs START is disabled and the seconds shown are
those of the replay less one for each callback; a countdown that came to its end has called back
once for each second; and when START is disabled, a countdown runs or a request to stop is under
way. -/
theorem single_countdown (upper : String → String) (h : List PageEvent) :
    let p := (machine upper).after h
    p.intervals = p.replayCountdownTimer.toList ∧
    (p.replayCountdownTimer.isSome → p.btnReplayDisabled ∧
      ∃ c, p.log.countdown = some c ∧ p.replaySecondsRemaining = c.1 - c.2) ∧
    (∀ c ∈ p.log.ended, (c.2 : ℤ) = max 1 c.1) ∧
    (p.btnReplayDisabled → p.replayCountdownTimer.isSome ∨ 0 < p.stopping) := by
  intro p
  have hi : CountdownInv p := countdownInv_after upper h
  refine ⟨hi.intervals, fun htimer => ⟨hi.disabled htimer, ?_⟩, hi.ended, hi.released⟩
  have hsome := hi.running.trans htimer
  obtain ⟨c, hc⟩ := Option.isSome_iff_exists.mp hsome
  exact ⟨c, hc, hi.remaining c hc⟩

end Page

end Sentrix
