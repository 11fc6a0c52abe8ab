import Mathlib.Algebra.Order.Ring.Rat
import Mathlib.Tactic.Linarith
import Mathlib.Tactic.NormNum
import Sentrix.Lib.Machine
import Sentrix.Alerting.StoreQueries

/-!
# The summary cache

`SummaryCache` of `dashboard/api/server.py` keeps the last statistics of the store for a
short time. A call of `get_summary` has two parts: it reads the clock, and then it takes
the cache's lock. Threads can take the lock in another order than they have read the
clock in, so that the time of the cache can go back, and an entry can be newer than the
call that finds it.

The unit of interleaving is one of these parts, an `invalidate`, or a change of the store
(`CacheEvent`), each at its own time. What makes every schedule safe is that the cache is
dated by the clock reading of the call that filled it, which is not later than the moment
`get_summary_stats` ran (`CacheInv`).
-/

namespace Sentrix

/-- `SummaryCache`, without its lock and its lifetime. -/
structure SummaryCache where
  lastTime : ℚ
  cachedData : Option SummaryStats

namespace SummaryCache

/-- `__init__`. -/
def new : SummaryCache := ⟨0, none⟩

/-- `invalidate`. -/
def invalidate (_ : SummaryCache) : SummaryCache := ⟨0, none⟩

/-- What `get_summary` finds in the cache: the data, if there is any and it is younger
than `ttl`. -/
def hit (ttl now : ℚ) (c : SummaryCache) : Option SummaryStats :=
  match c.cachedData with
  | some data => if now - c.lastTime < ttl then some data else none
  | none => none

/-- The locked part of `get_summary`, for a call that has read `now` on the clock. -/
def getSummary (ttl : ℚ) (most : MostFirst) (db : DbOutcome) (now : ℚ) (c : SummaryCache)
    (store : AlertStore) : (SummaryCache × AlertStore) × Except StoreError SummaryStats :=
  match c.hit ttl now with
  | some data => ((c, store), .ok data)
  | none =>
    let r := store.getSummaryStats most db
    match r.2 with
    | .error e => ((c, r.1), .error e)
    | .ok freshStats => ((⟨now, some freshStats⟩, r.1), .ok freshStats)

end SummaryCache

/-- What threads do with the cache and the store. -/
inductive CacheEvent (θ : Type*)
  /-- A call of `get_summary` reads the clock. -/
  | readClock (thread : θ)
  /-- The call of a thread takes the lock, and with it reads the store if it has to. -/
  | locked (thread : θ) (db : DbOutcome)
  | invalidate
  /-- Something other than the cache changes the store. -/
  | change (store : AlertStore)

/-- The cache, the store, and the calls of `get_summary` that wait for the lock, with the
time they have read. -/
structure CacheState (θ : Type*) where
  cache : SummaryCache
  store : AlertStore
  now : θ → Option ℚ

namespace SummaryCache

variable {θ : Type*} [DecidableEq θ]

/-- One event at its time; a call that takes the lock answers. -/
def step (ttl : ℚ) (most : MostFirst) (s : CacheState θ) (x : ℚ × CacheEvent θ) :
    CacheState θ × Option (Except StoreError SummaryStats) :=
  match x.2 with
  | .readClock i => ({ s with now := Function.update s.now i (some x.1) }, none)
  | .locked i db =>
    match s.now i with
    -- no call of this thread is under way
    | none => (s, none)
    | some now =>
      let r := getSummary ttl most db now s.cache s.store
      (⟨r.1.1, r.1.2, Function.update s.now i none⟩, some r.2)
  | .invalidate => ({ s with cache := s.cache.invalidate }, none)
  | .change store => ({ s with store := store }, none)

/-- The cache of a server as a machine, over some store. -/
def machine (θ : Type*) [DecidableEq θ] (ttl : ℚ) (most : MostFirst) (store : AlertStore) :
    Machine (CacheState θ) (ℚ × CacheEvent θ) (Option (Except StoreError SummaryStats)) where
  init := ⟨new, store, fun _ => none⟩
  step := step ttl most

/-- The events are in the order of a clock that does not go back. -/
def ClockOrdered (h : List (ℚ × CacheEvent θ)) : Prop := h.Pairwise fun x y => x.1 ≤ y.1

/-- A thread that takes the lock in this state finds nothing in the cache and calls
`get_summary_stats`. -/
def Refreshes (ttl : ℚ) (s : CacheState θ) (i : θ) : Prop :=
  ∃ now, s.now i = some now ∧ s.cache.hit ttl now = none

section Runs

variable {ttl : ℚ} {most : MostFirst} {store : AlertStore}

/-- In the run `h`, `get_summary_stats` was called at the time `T` and returned `stats`,
and the cache has not been invalidated since. -/
def ReturnedAt (ttl : ℚ) (most : MostFirst) (store : AlertStore) (h : List (ℚ × CacheEvent θ))
    (stats : SummaryStats) (T : ℚ) : Prop :=
  ∃ h₁ i db h₂, h = h₁ ++ (T, .locked i db) :: h₂ ∧
    Refreshes ttl ((machine θ ttl most store).after h₁) i ∧
    (((machine θ ttl most store).after h₁).store.getSummaryStats most db).2 = .ok stats ∧
    ∀ x ∈ h₂, x.2 ≠ .invalidate

/-- An answer stays that of its time unless the cache is invalidated. -/
theorem ReturnedAt.concat {h : List (ℚ × CacheEvent θ)} {stats : SummaryStats} {T : ℚ}
    (hret : ReturnedAt ttl most store h stats T) {x : ℚ × CacheEvent θ} (hx : x.2 ≠ .invalidate) :
    ReturnedAt ttl most store (h ++ [x]) stats T := by
  obtain ⟨h₁, i, db, h₂, rfl, href, hstats, hnone⟩ := hret
  refine ⟨h₁, i, db, h₂ ++ [x], ?_, href, hstats, ?_⟩
  · rw [List.append_assoc, List.cons_append]
  · intro y hy
    obtain hy | hy := List.mem_append.mp hy
    · exact hnone y hy
    · rwa [List.mem_singleton.mp hy]

theorem returnedAt_refresh {h : List (ℚ × CacheEvent θ)} {stats : SummaryStats} {i : θ}
    {db : DbOutcome} (T : ℚ) (href : Refreshes ttl ((machine θ ttl most store).after h) i)
    (hstats : (((machine θ ttl most store).after h).store.getSummaryStats most db).2 = .ok stats) :
    ReturnedAt ttl most store (h ++ [(T, .locked i db)]) stats T :=
  ⟨h, i, db, [], rfl, href, hstats, fun _ hy => absurd hy List.not_mem_nil⟩

/-! ### The locked part -/

/-- **What a call finds and leaves.** It answers what was in the cache, or it calls
`get_summary_stats`, whose exceptions leave the cache as it is. -/
inductive Got (most : MostFirst) (db : DbOutcome) (now : ℚ) (c : SummaryCache)
    (store : AlertStore) (found : Option SummaryStats) :
    (SummaryCache × AlertStore) × Except StoreError SummaryStats → Prop
  | cached (data : SummaryStats) (hfound : found = some data) :
      Got most db now c store found ((c, store), .ok data)
  | raised (e : StoreError) (hfound : found = none) (store' : AlertStore) :
      Got most db now c store found ((c, store'), .error e)
  | fresh (stats : SummaryStats) (hfound : found = none) (store' : AlertStore)
      (hstats : (store.getSummaryStats most db).2 = .ok stats) :
      Got most db now c store found ((⟨now, some stats⟩, store'), .ok stats)

/-- What one call gets: the cached answer, a fresh one, or the store's exception. -/
theorem getSummary_got (ttl : ℚ) (most : MostFirst) (db : DbOutcome) (now : ℚ) (c : SummaryCache)
    (store : AlertStore) :
    Got most db now c store (c.hit ttl now) (getSummary ttl most db now c store) := by
  unfold getSummary
  cases hhit : c.hit ttl now with
  | some data => exact .cached data rfl
  | none =>
    dsimp only
    cases hstats : (store.getSummaryStats most db).2 with
    | error e => exact .raised e rfl _
    | ok stats => exact .fresh stats rfl _ hstats

/-- A hit is a cached answer that is younger than the ttl. -/
theorem hit_eq_some {ttl now : ℚ} {c : SummaryCache} {data : SummaryStats}
    (h : c.hit ttl now = some data) : now - c.lastTime < ttl ∧ c.cachedData = some data := by
  unfold hit at h
  cases hdata : c.cachedData with
  | none =>
    rw [hdata] at h
    cases h
  | some data' =>
    rw [hdata] at h
    dsimp only at h
    split at h
    · next hlt => exact ⟨hlt, h⟩
    · cases h

/-! ### The invariant -/

/-- What holds after the events `h`: a waiting call has read the clock at one of them,
and what is in the cache was returned after the clock reading that dates it. -/
structure CacheInv (ttl : ℚ) (most : MostFirst) (store : AlertStore)
    (h : List (ℚ × CacheEvent θ)) (s : CacheState θ) : Prop where
  read : ∀ i now, s.now i = some now → ∃ x ∈ h, x.1 = now
  cached : ∀ stats, s.cache.cachedData = some stats →
    ∃ T, ReturnedAt ttl most store h stats T ∧ s.cache.lastTime ≤ T

/-- A clock reading is not later than what follows. -/
theorem CacheInv.now_le {h : List (ℚ × CacheEvent θ)} {s : CacheState θ}
    (hi : CacheInv ttl most store h s) {x : ℚ × CacheEvent θ} (hclock : ClockOrdered (h ++ [x]))
    {i : θ} {now : ℚ} (hnow : s.now i = some now) : now ≤ x.1 := by
  obtain ⟨y, hy, rfl⟩ := hi.read i now hnow
  exact (List.pairwise_append.mp hclock).2.2 y hy x (List.mem_singleton_self x)

/-- An event that is no call in the lock and no invalidation leaves the cache alone. -/
theorem CacheInv.keep {h : List (ℚ × CacheEvent θ)} {s s' : CacheState θ}
    (hi : CacheInv ttl most store h s) {x : ℚ × CacheEvent θ} (hx : x.2 ≠ .invalidate)
    (hcache : s'.cache = s.cache)
    (hnow : ∀ i now, s'.now i = some now → s.now i = some now ∨ now = x.1) :
    CacheInv ttl most store (h ++ [x]) s' := by
  refine ⟨?_, ?_⟩
  · -- a time that was not known before was read at this event
    intro i now hread
    obtain hold | rfl := hnow i now hread
    · obtain ⟨y, hy, heq⟩ := hi.read i now hold
      exact ⟨y, List.mem_append_left _ hy, heq⟩
    · exact ⟨x, List.mem_append_right _ (List.mem_singleton_self x), rfl⟩
  · rw [hcache]
    intro stats hstats
    obtain ⟨T, hret, hle⟩ := hi.cached stats hstats
    exact ⟨T, hret.concat hx, hle⟩

theorem now_of_update_none {f : θ → Option ℚ} {i j : θ} {t : ℚ}
    (h : Function.update f i none j = some t) : f j = some t := by
  by_cases hij : j = i
  · subst hij
    rw [Function.update_self] at h
    cases h
  · rwa [Function.update_of_ne hij] at h

theorem now_of_update_some {f : θ → Option ℚ} {i j : θ} {t t' : ℚ}
    (h : Function.update f i (some t) j = some t') : f j = some t' ∨ t' = t := by
  by_cases hij : j = i
  · subst hij
    rw [Function.update_self] at h
    exact Or.inr (Option.some.inj h).symm
  · rw [Function.update_of_ne hij] at h
    exact Or.inl h

/-- **One event** keeps the dates. -/
theorem CacheInv.step {h : List (ℚ × CacheEvent θ)} {x : ℚ × CacheEvent θ}
    (hclock : ClockOrdered (h ++ [x]))
    (hi : CacheInv ttl most store h ((machine θ ttl most store).after h)) :
    CacheInv ttl most store (h ++ [x])
      (step ttl most ((machine θ ttl most store).after h) x).1 := by
  obtain ⟨T, e⟩ := x
  cases e with
  | readClock i => exact hi.keep (fun hx => by cases hx) rfl fun j t => now_of_update_some
  | change store' => exact hi.keep (fun hx => by cases hx) rfl fun j t hread => Or.inl hread
  | invalidate =>
    -- the dates are gone with the entry; the waiting calls keep their times
    refine ⟨?_, fun stats hstats => by cases hstats⟩
    intro i now hread
    obtain ⟨y, hy, heq⟩ := hi.read i now hread
    exact ⟨y, List.mem_append_left _ hy, heq⟩
  | locked i db =>
    have hx : (CacheEvent.locked i db : CacheEvent θ) ≠ .invalidate := fun hx => by cases hx
    unfold SummaryCache.step
    dsimp only
    cases hnow : ((machine θ ttl most store).after h).now i with
    | none => exact hi.keep hx rfl fun j t hread => Or.inl hread
    | some now =>
      have hle : now ≤ T := hi.now_le hclock hnow
      have hgot := getSummary_got ttl most db now ((machine θ ttl most store).after h).cache
        ((machine θ ttl most store).after h).store
      dsimp only
      generalize getSummary ttl most db now _ _ = r at hgot
      cases hgot with
      | cached data hfound =>
        exact hi.keep hx rfl fun j t hread => Or.inl (now_of_update_none hread)
      | raised e hfound store' =>
        exact hi.keep hx rfl fun j t hread => Or.inl (now_of_update_none hread)
      | fresh stats hfound store' hstats =>
        -- the new entry is dated by the clock reading, which is before this moment
        refine ⟨?_, ?_⟩
        · intro j t hread
          obtain ⟨y, hy, heq⟩ := hi.read j t (now_of_update_none hread)
          exact ⟨y, List.mem_append_left _ hy, heq⟩
        · intro stats' hstats'
          obtain rfl := Option.some.inj hstats'
          exact ⟨T, returnedAt_refresh T ⟨now, hnow, hfound⟩ hstats, hle⟩

/-- What every run with an ordered clock preserves. -/
theorem cacheInv_after (h : List (ℚ × CacheEvent θ)) (hclock : ClockOrdered h) :
    CacheInv ttl most store h ((machine θ ttl most store).after h) := by
  refine (machine θ ttl most store).invariant_of ClockOrdered (CacheInv ttl most store) ?_ ?_ ?_
    h hclock
  · intro h x hord
    exact (List.pairwise_append.mp hord).1
  · refine ⟨?_, ?_⟩
    · -- nothing is cached and nothing is read at the start
      intro i now hread
      cases hread
    · intro stats hstats
      cases hstats
  · intro h x hord hi
    exact hi.step hord

end Runs

/-- **The cache is never staler than its lifetime.** In every interleaving of calls,
invalidations and changes of the store, under a clock that does not go back, a call that
has read `now` on the clock answers what `get_summary_stats` returned at a time later
than `now - ttl`, and since then the cache was not invalidated before the call took the
lock. -/
theorem summary_within_ttl (ttl : ℚ) (httl : 0 < ttl) (most : MostFirst) (store : AlertStore)
    (h : List (ℚ × CacheEvent θ)) (T : ℚ) (i : θ) (db : DbOutcome)
    (hclock : ClockOrdered (h ++ [(T, .locked i db)])) (now : ℚ)
    (hnow : ((machine θ ttl most store).after h).now i = some now) (stats : SummaryStats)
    (hout : (machine θ ttl most store).out ((machine θ ttl most store).after h)
      (T, .locked i db) = some (.ok stats)) :
    ∃ T', ReturnedAt ttl most store (h ++ [(T, .locked i db)]) stats T' ∧ now - ttl < T' := by
  have hi : CacheInv ttl most store h ((machine θ ttl most store).after h) :=
    cacheInv_after h (List.pairwise_append.mp hclock).1
  have hx : (CacheEvent.locked i db : CacheEvent θ) ≠ .invalidate := fun hx => by cases hx
  have hle : now ≤ T := hi.now_le hclock hnow
  have hgot := getSummary_got ttl most db now ((machine θ ttl most store).after h).cache
    ((machine θ ttl most store).after h).store
  have hanswer : (getSummary ttl most db now ((machine θ ttl most store).after h).cache
      ((machine θ ttl most store).after h).store).2 = .ok stats := by
    change (SummaryCache.step ttl most ((machine θ ttl most store).after h) (T, .locked i db)).2 = _
      at hout
    unfold SummaryCache.step at hout
    dsimp only at hout
    rw [hnow] at hout
    exact Option.some.inj hout
  generalize getSummary ttl most db now _ _ = r at hgot hanswer
  cases hgot with
  | raised e hfound store' => cases hanswer
  | fresh stats' hfound store' hstats =>
    -- the statistics are of this moment, which is not before the clock reading
    obtain rfl := Except.ok.inj hanswer
    exact ⟨T, returnedAt_refresh T ⟨now, hnow, hfound⟩ hstats, by linarith⟩
  | cached data hfound =>
    -- the entry is younger than `ttl` by its date, and was returned no earlier than that
    obtain rfl := Except.ok.inj hanswer
    obtain ⟨hlt, hdata⟩ := hit_eq_some hfound
    obtain ⟨T', hret, hdate⟩ := hi.cached data hdata
    exact ⟨T', hret.concat hx, by linarith⟩

/-- Two calls: the second thread reads the clock later and takes the lock first. -/
def overtaken : List (ℚ × CacheEvent Bool) :=
  [(10, .readClock false), (21 / 2, .readClock true), (21 / 2, .locked true .ok)]

/-- The call that was overtaken finds an entry that is newer than itself. -/
theorem summary_within_ttl_overtaken :
    ∃ stats, (machine Bool (3 / 4) (orderByDesc Prod.snd) .empty).out
        ((machine Bool (3 / 4) (orderByDesc Prod.snd) .empty).after overtaken)
        (11, .locked false .ok) = some (.ok stats) ∧
      ∃ T', ReturnedAt (3 / 4) (orderByDesc Prod.snd) .empty
        (overtaken ++ [(11, .locked false .ok)]) stats T' ∧ (10 : ℚ) - 3 / 4 < T' := by
  have hanswer : ∃ stats, (machine Bool (3 / 4) (orderByDesc Prod.snd) .empty).out
      ((machine Bool (3 / 4) (orderByDesc Prod.snd) .empty).after overtaken)
      (11, .locked false .ok) = some (.ok stats) := by
    refine ⟨AlertStore.summarise (orderByDesc Prod.snd) AlertTable.empty, ?_⟩
    -- the cache was filled after the call had read the clock, and is young for it
    have hyoung : (10 : ℚ) - 21 / 2 < 3 / 4 := by norm_num
    have hhit : hit (3 / 4) 10
        ⟨21 / 2, some (AlertStore.summarise (orderByDesc Prod.snd) AlertTable.empty)⟩ =
        some (AlertStore.summarise (orderByDesc Prod.snd) AlertTable.empty) := if_pos hyoung
    show some (getSummary (3 / 4) (orderByDesc Prod.snd) .ok 10
      ⟨21 / 2, some (AlertStore.summarise (orderByDesc Prod.snd) AlertTable.empty)⟩ .empty).2 = _
    unfold getSummary
    rw [hhit]
  obtain ⟨stats, hout⟩ := hanswer
  have hclock : ClockOrdered (overtaken ++ [(11, .locked false .ok)]) := by
    unfold ClockOrdered overtaken
    norm_num [List.pairwise_cons]
  exact ⟨stats, hout, summary_within_ttl (3 / 4) (by norm_num) (orderByDesc Prod.snd) .empty
    overtaken 11 false .ok hclock 10 rfl stats hout⟩

end SummaryCache

end Sentrix
