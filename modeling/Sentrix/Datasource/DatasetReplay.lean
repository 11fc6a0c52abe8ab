import Mathlib.Algebra.Order.Field.Rat
import Mathlib.Algebra.Order.Ring.Pow
import Mathlib.Tactic.FieldSimp
import Mathlib.Tactic.Linarith
import Mathlib.Tactic.Ring
import Sentrix.Datasource.Base
import Sentrix.Lib.Lists
import Sentrix.Lib.Machine

/-!
# The replay thread of a dataset

`DatasetReplaySource._replay_thread` of `datasource/dataset_replay.py` goes through
the loaded records in the order of their timestamps, over and over, and moves each
one's timestamp to the wall clock before it enqueues it. The records are objects:
the list holds references to them, and a timestamp is changed in place, where every
other reference and the next pass find it. Records live in a heap here, and the list
holds their addresses.

A pass begins with `ref_ts`, the timestamp the first record has at that moment, and
`wall_t0`, a reading of the clock. What a record is given is the same function of
what it has (`remap`). In the first pass it has the time it was loaded with; later it
has the one the pass before gave it. Over passes the distances to the first record
are divided by the speed again and again (`pass_times`), and the replay keeps its
speed only if that makes no difference (`pass_time_iff`).

The pauses between two records are left out, and so are here the telemetry counters:
neither is read by the rest of the thread. A thread may be stopped before any visit, so
that a run is any number of visits.
-/

namespace Sentrix

/-- The records by their addresses. -/
abbrev RecordHeap : Type := ℕ → FlowRecord

/-- `records.sort(key=lambda r: r.timestamp)`, which is stable. -/
def sortByTimestamp (heap : RecordHeap) (records : List ℕ) : List ℕ :=
  records.mergeSort fun a b => decide ((heap a).timestamp ≤ (heap b).timestamp)

theorem sortByTimestamp_perm (heap : RecordHeap) (records : List ℕ) :
    (sortByTimestamp heap records).Perm records :=
  List.mergeSort_perm _ _

theorem pairwise_sortByTimestamp (heap : RecordHeap) (records : List ℕ) :
    (sortByTimestamp heap records).Pairwise fun a b => (heap a).timestamp ≤ (heap b).timestamp := by
  have htrans : ∀ a b c : ℕ, (heap a).timestamp ≤ (heap b).timestamp →
      (heap b).timestamp ≤ (heap c).timestamp → (heap a).timestamp ≤ (heap c).timestamp :=
    fun _ _ _ => le_trans
  have htotal : ∀ a b : ℕ, (heap a).timestamp ≤ (heap b).timestamp ∨
      (heap b).timestamp ≤ (heap a).timestamp := fun _ _ => le_total _ _
  exact pairwise_mergeSort_of_total htrans htotal records

/-- A sorted list is left as it is. -/
theorem sortByTimestamp_of_pairwise {heap : RecordHeap} {records : List ℕ}
    (h : records.Pairwise fun a b => (heap a).timestamp ≤ (heap b).timestamp) :
    sortByTimestamp heap records = records :=
  List.mergeSort_of_pairwise (h.imp fun hab => decide_eq_true hab)

/-- What the thread keeps between two visits. -/
structure ReplayThread where
  heap : RecordHeap
  refTs : ℚ
  wallT0 : ℚ
  /-- The place in the list of the record that is visited next. -/
  position : ℕ

/-- What the environment adds to a visit. -/
structure ReplayTick where
  /-- The queue is not full. -/
  room : Bool
  /-- `time.time()`, read if the visit is the last one of its pass. -/
  now : ℚ

/-- A visit: the record, the timestamp it is given, and whether it was enqueued. -/
structure Visit where
  record : ℕ
  timestamp : ℚ
  enqueued : Bool

namespace ReplayThread

/-- `self._speed`. -/
def speedOf (speedFactor : ℚ) : ℚ := max (1 / 100) speedFactor

theorem speedOf_pos (speedFactor : ℚ) : 0 < speedOf speedFactor :=
  lt_of_lt_of_le (by norm_num) (le_max_left _ _)

/-- The time a record with the timestamp `t` is moved to. -/
def remap (speed refTs wallT0 t : ℚ) : ℚ := wallT0 + (t - refTs) / speed

/-- The timestamp of the first record. -/
def firstTimestamp (heap : RecordHeap) (records : List ℕ) : Option ℚ :=
  records.head?.map fun r => (heap r).timestamp

/-- The state when the loop begins; `now` is `time.time()`. -/
def start (heap : RecordHeap) (records : List ℕ) (now : ℚ) : ReplayThread :=
  ⟨heap, (firstTimestamp heap records).getD now, now, 0⟩

/-- One visit of the loop, and the end of the pass if it is the last one. -/
def step (speed : ℚ) (records : List ℕ) (s : ReplayThread) (x : ReplayTick) :
    ReplayThread × Option Visit :=
  match records[s.position]? with
  | none => (s, none)
  | some r =>
    let timestamp := remap speed s.refTs s.wallT0 (s.heap r).timestamp
    -- in place: all references to the record see it
    let heap := Function.update s.heap r { s.heap r with timestamp := timestamp }
    let visit : Visit := ⟨r, timestamp, x.room⟩
    if s.position + 1 < records.length then
      ({ s with heap := heap, position := s.position + 1 }, some visit)
    else (⟨heap, (firstTimestamp heap records).getD s.refTs, x.now, 0⟩, some visit)

/-- The thread over a sorted list of records. -/
def machine (speedFactor : ℚ) (heap : RecordHeap) (records : List ℕ) (now : ℚ) :
    Machine ReplayThread ReplayTick (Option Visit) where
  init := start heap (sortByTimestamp heap records) now
  step := step (speedOf speedFactor) (sortByTimestamp heap records)

/-! ### What a visit does -/

variable {speed : ℚ} {records : List ℕ} {s : ReplayThread} {r : ℕ}

/-- The heap after the visit of `r`. -/
def visited (speed : ℚ) (s : ReplayThread) (r : ℕ) : RecordHeap :=
  Function.update s.heap r
    { s.heap r with timestamp := remap speed s.refTs s.wallT0 (s.heap r).timestamp }

theorem timestamp_visited_self :
    (visited speed s r r).timestamp = remap speed s.refTs s.wallT0 (s.heap r).timestamp := by
  unfold visited
  rw [Function.update_self]

theorem timestamp_visited_of_ne {r' : ℕ} (hne : r' ≠ r) :
    (visited speed s r r').timestamp = (s.heap r').timestamp := by
  unfold visited
  rw [Function.update_of_ne hne]

theorem step_snd (hr : records[s.position]? = some r) (x : ReplayTick) :
    (step speed records s x).2 =
      some ⟨r, remap speed s.refTs s.wallT0 (s.heap r).timestamp, x.room⟩ := by
  unfold step
  rw [hr]
  dsimp only
  split <;> rfl

/-- A visit that is not the last one of its pass. -/
theorem step_fst_of_lt (hr : records[s.position]? = some r) (hlt : s.position + 1 < records.length)
    (x : ReplayTick) :
    (step speed records s x).1 =
      { s with heap := visited speed s r, position := s.position + 1 } := by
  unfold step
  rw [hr]
  dsimp only
  rw [if_pos hlt]
  rfl

/-- The last visit of a pass. -/
theorem step_fst_of_last (hr : records[s.position]? = some r)
    (hlast : ¬ s.position + 1 < records.length) (x : ReplayTick) :
    (step speed records s x).1 =
      ⟨visited speed s r, (firstTimestamp (visited speed s r) records).getD s.refTs, x.now, 0⟩ := by
  unfold step
  rw [hr]
  dsimp only
  rw [if_neg hlast]
  rfl

/-! ### Passes over distinct records -/

/-- When a pass began: at the start for the first one, else at the end of the last
visit of the pass before. Passes are counted from zero, and have `n` visits each. -/
def passStart (now : ℚ) (n : ℕ) (h : List ReplayTick) : ℕ → ℚ
  | 0 => now
  | k + 1 => (h[(k + 1) * n - 1]?.map ReplayTick.now).getD now

theorem passStart_concat (now : ℚ) {n : ℕ} (h : List ReplayTick) (x : ReplayTick) {k : ℕ}
    (hk : k * n ≤ h.length) (hn : 0 < n) :
    passStart now n (h ++ [x]) k = passStart now n h k := by
  cases k with
  | zero => rfl
  | succ k =>
    have hpos : 0 < (k + 1) * n := Nat.mul_pos (Nat.succ_pos k) hn
    simp only [passStart]
    rw [List.getElem?_append_left (by omega)]

theorem passStart_last (now : ℚ) {n : ℕ} (h : List ReplayTick) (x : ReplayTick) {k : ℕ}
    (hk : h.length + 1 = (k + 1) * n) : passStart now n (h ++ [x]) (k + 1) = x.now := by
  simp only [passStart]
  rw [← hk, Nat.add_sub_cancel, List.getElem?_concat_length]
  rfl

theorem firstTimestamp_eq {heap : RecordHeap} {records : List ℕ} {r₀ : ℕ}
    (hr₀ : records[0]? = some r₀) : firstTimestamp heap records = some (heap r₀).timestamp := by
  unfold firstTimestamp
  rw [List.head?_eq_getElem?, hr₀, Option.map_some]

/-- The state before the visit `i` of pass `k`, over records whose distances to the
first one were `distance` when they were loaded: the records that are still to visit
have their distances divided `k` times, those visited once more. -/
structure PassInv (speed : ℚ) (records : List ℕ) (distance : ℕ → ℚ) (k i : ℕ)
    (s : ReplayThread) : Prop where
  position : s.position = i
  ahead : ∀ j r, i ≤ j → records[j]? = some r →
    (s.heap r).timestamp = s.refTs + distance r / speed ^ k
  behind : ∀ j r, j < i → records[j]? = some r →
    (s.heap r).timestamp = s.wallT0 + distance r / speed ^ (k + 1)

/-- The record at `i` is the one that is visited. -/
theorem PassInv.getElem?_position {distance : ℕ → ℚ} {k i : ℕ}
    (hinv : PassInv speed records distance k i s) (hr : records[i]? = some r) :
    records[s.position]? = some r := by
  rw [hinv.position]
  exact hr

/-- The visit divides the distance once more. -/
theorem PassInv.remap {distance : ℕ → ℚ} {k i : ℕ} (hinv : PassInv speed records distance k i s)
    (hr : records[i]? = some r) :
    remap speed s.refTs s.wallT0 (s.heap r).timestamp =
      s.wallT0 + distance r / speed ^ (k + 1) := by
  unfold ReplayThread.remap
  rw [hinv.ahead i r le_rfl hr, add_sub_cancel_left, div_div, ← pow_succ]

/-- After the visit of the record at `i`, those up to `i` have been visited, the
others have not. -/
theorem PassInv.visited {distance : ℕ → ℚ} {k i : ℕ} (hinv : PassInv speed records distance k i s)
    (hnodup : records.Nodup) (hr : records[i]? = some r) :
    (∀ j r', i < j → records[j]? = some r' →
      (visited speed s r r').timestamp = s.refTs + distance r' / speed ^ k) ∧
    (∀ j r', j ≤ i → records[j]? = some r' →
      (visited speed s r r').timestamp = s.wallT0 + distance r' / speed ^ (k + 1)) := by
  have hi : i < records.length := (List.getElem?_eq_some_iff.mp hr).1
  -- another place holds another record
  have hother : ∀ j r', j ≠ i → records[j]? = some r' → r' ≠ r := by
    rintro j r' hne hr' rfl
    exact hne ((List.getElem?_inj hi hnodup).mp (hr.trans hr'.symm)).symm
  constructor
  · intro j r' hj hr'
    rw [timestamp_visited_of_ne (hother j r' (by omega) hr')]
    exact hinv.ahead j r' (by omega) hr'
  · intro j r' hj hr'
    obtain rfl | hne := eq_or_ne j i
    · obtain rfl : r = r' := Option.some.inj (hr.symm.trans hr')
      rw [timestamp_visited_self]
      exact hinv.remap hr
    · rw [timestamp_visited_of_ne (hother j r' hne hr')]
      exact hinv.behind j r' (by omega) hr'

/-- A visit within a pass keeps the invariant. -/
theorem PassInv.step_of_lt {distance : ℕ → ℚ} {k i : ℕ}
    (hinv : PassInv speed records distance k i s) (hnodup : records.Nodup)
    (hr : records[i]? = some r) (hlt : i + 1 < records.length) (x : ReplayTick) :
    PassInv speed records distance k (i + 1) (step speed records s x).1 := by
  obtain ⟨hahead, hbehind⟩ := hinv.visited hnodup hr
  have hpos := hinv.getElem?_position hr
  have hlt' : s.position + 1 < records.length := by
    rw [hinv.position]
    exact hlt
  rw [step_fst_of_lt hpos hlt' x]
  refine ⟨?_, fun j r' hj => hahead j r' (by omega), fun j r' hj => hbehind j r' (by omega)⟩
  show s.position + 1 = i + 1
  rw [hinv.position]

/-- The last visit of a pass begins the next one: the first record, which is at no
distance from itself, is at the start of the pass that ends. -/
theorem PassInv.step_of_last {distance : ℕ → ℚ} {k i : ℕ}
    (hinv : PassInv speed records distance k i s) (hnodup : records.Nodup)
    (hr : records[i]? = some r) (hlast : ¬ i + 1 < records.length) {r₀ : ℕ}
    (hr₀ : records[0]? = some r₀) (hzero : distance r₀ = 0) (x : ReplayTick) :
    PassInv speed records distance (k + 1) 0 (step speed records s x).1 := by
  obtain ⟨-, hbehind⟩ := hinv.visited hnodup hr
  have hi : i < records.length := (List.getElem?_eq_some_iff.mp hr).1
  have hpos := hinv.getElem?_position hr
  have hlast' : ¬ s.position + 1 < records.length := by
    rw [hinv.position]
    exact hlast
  -- the first record was behind the pass, so it is stamped at the pass's start
  have hfirst : firstTimestamp (ReplayThread.visited speed s r) records = some s.wallT0 := by
    rw [firstTimestamp_eq hr₀, hbehind 0 r₀ (Nat.zero_le i) hr₀, hzero, zero_div, add_zero]
  rw [step_fst_of_last hpos hlast' x, hfirst]
  refine ⟨rfl, fun j r' _ hr' => ?_, fun j _ hj => absurd hj (Nat.not_lt_zero j)⟩
  have hj : j < records.length := (List.getElem?_eq_some_iff.mp hr').1
  exact hbehind j r' (by omega) hr'

/-- **Every run.** After `k` passes and `i` visits, the invariant holds, and the pass
began when it should. -/
theorem passInv_after (speedFactor : ℚ) (heap : RecordHeap) {loaded : List ℕ}
    (hnodup : loaded.Nodup) (now : ℚ) {r₀ : ℕ} (hr₀ : (sortByTimestamp heap loaded)[0]? = some r₀)
    (h : List ReplayTick) :
    ∃ k i, h.length = k * loaded.length + i ∧ i < loaded.length ∧
      PassInv (speedOf speedFactor) (sortByTimestamp heap loaded)
        (fun r => (heap r).timestamp - (heap r₀).timestamp) k i
        ((machine speedFactor heap loaded now).after h) ∧
      ((machine speedFactor heap loaded now).after h).wallT0 =
        passStart now loaded.length h k := by
  have hlen : (sortByTimestamp heap loaded).length = loaded.length :=
    (sortByTimestamp_perm heap loaded).length_eq
  have hsorted : (sortByTimestamp heap loaded).Nodup :=
    (sortByTimestamp_perm heap loaded).nodup_iff.mpr hnodup
  have hn : 0 < loaded.length := hlen ▸ (List.getElem?_eq_some_iff.mp hr₀).1
  induction h using List.reverseRecOn with
  | nil =>
    refine ⟨0, 0, by simp, hn,
      ⟨rfl, fun j r _ _ => ?_, fun j _ hj => absurd hj (Nat.not_lt_zero j)⟩, rfl⟩
    -- nothing has been remapped yet, and `ref_ts` is the time of the first record
    show (heap r).timestamp = (firstTimestamp heap (sortByTimestamp heap loaded)).getD now + _
    rw [firstTimestamp_eq hr₀, Option.getD_some, pow_zero, div_one]
    ring
  | append_singleton h x ih =>
    obtain ⟨k, i, hcount, hi, hinv, hwall⟩ := ih
    obtain ⟨r, hr⟩ : ∃ r, (sortByTimestamp heap loaded)[i]? = some r :=
      ⟨_, List.getElem?_eq_getElem (hlen ▸ hi)⟩
    have hpos := hinv.getElem?_position hr
    rw [Machine.after_concat, List.length_append, List.length_singleton]
    by_cases hlt : i + 1 < (sortByTimestamp heap loaded).length
    · refine ⟨k, i + 1, by omega, hlen ▸ hlt, hinv.step_of_lt hsorted hr hlt x, ?_⟩
      show (step _ _ _ x).1.wallT0 = _
      rw [step_fst_of_lt hpos (by rw [hinv.position]; exact hlt),
        passStart_concat now h x (by omega) hn]
      exact hwall
    · have hend : h.length + 1 = (k + 1) * loaded.length := by
        rw [hlen] at hlt
        rw [Nat.succ_mul]
        omega
      refine ⟨k + 1, 0, by omega, hn,
        hinv.step_of_last hsorted hr hlt hr₀ (sub_self _) x, ?_⟩
      show (step _ _ _ x).1.wallT0 = _
      rw [step_fst_of_last hpos (by rw [hinv.position]; exact hlt), passStart_last now h x hend]

/-- **The time a pass gives.** In pass `k`, counted from zero, the distance of a record
to the first one has been divided by the speed `k + 1` times. -/
theorem pass_times (speedFactor : ℚ) (heap : RecordHeap) {loaded : List ℕ}
    (hnodup : loaded.Nodup) (now : ℚ) (h : List ReplayTick) (x : ReplayTick) {k i r₀ r : ℕ}
    (hcount : h.length = k * loaded.length + i) (hr₀ : (sortByTimestamp heap loaded)[0]? = some r₀)
    (hr : (sortByTimestamp heap loaded)[i]? = some r) :
    (machine speedFactor heap loaded now).out ((machine speedFactor heap loaded now).after h) x =
      some ⟨r, passStart now loaded.length h k +
        ((heap r).timestamp - (heap r₀).timestamp) / speedOf speedFactor ^ (k + 1), x.room⟩ := by
  obtain ⟨k', i', hcount', hi', hinv, hwall⟩ := passInv_after speedFactor heap hnodup now hr₀ h
  have hi : i < loaded.length :=
    (sortByTimestamp_perm heap loaded).length_eq ▸ (List.getElem?_eq_some_iff.mp hr).1
  -- the pass and the place in it are determined by the number of visits
  have hplace : k' = k ∧ i' = i := by
    have hdiv : ∀ a b, b < loaded.length → (a * loaded.length + b) / loaded.length = a ∧
        (a * loaded.length + b) % loaded.length = b := by
      intro a b hb
      rw [Nat.add_comm, Nat.add_mul_div_right _ _ (by omega), Nat.div_eq_of_lt hb, Nat.zero_add,
        Nat.add_mul_mod_self_right]
      exact ⟨rfl, Nat.mod_eq_of_lt hb⟩
    have h₁ := hdiv k' i' hi'
    have h₂ := hdiv k i hi
    rw [← hcount'] at h₁
    rw [← hcount] at h₂
    exact ⟨h₁.1.symm.trans h₂.1, h₁.2.symm.trans h₂.2⟩
  obtain ⟨rfl, rfl⟩ := hplace
  show (step _ _ _ x).2 = _
  rw [step_snd (hinv.getElem?_position hr), hinv.remap hr, hwall]

/-- **When a pass keeps the speed.** For every list of distinct records, every speed
factor and every pass, counted from zero: the timestamp given to a record is the start
of the pass plus the record's distance to the first one, as loaded, divided by the
speed, if and only if the pass is the first one, the speed is one, or the record was
loaded with the timestamp of the first one. -/
theorem pass_time_iff (speedFactor : ℚ) (heap : RecordHeap) (loaded : List ℕ)
    (hnodup : loaded.Nodup) (now : ℚ) (h : List ReplayTick) (x : ReplayTick) (k i r₀ r : ℕ)
    (hcount : h.length = k * loaded.length + i) (hr₀ : (sortByTimestamp heap loaded)[0]? = some r₀)
    (hr : (sortByTimestamp heap loaded)[i]? = some r) :
    (machine speedFactor heap loaded now).out ((machine speedFactor heap loaded now).after h) x =
      some ⟨r, passStart now loaded.length h k +
        ((heap r).timestamp - (heap r₀).timestamp) / speedOf speedFactor, x.room⟩ ↔
      k = 0 ∨ speedOf speedFactor = 1 ∨ (heap r).timestamp = (heap r₀).timestamp := by
  have hpos := speedOf_pos speedFactor
  rw [pass_times speedFactor heap hnodup now h x hcount hr₀ hr, Option.some.injEq, Visit.mk.injEq]
  simp only [true_and, and_true, add_right_inj]
  set s := speedOf speedFactor
  rw [div_eq_div_iff (pow_pos hpos _).ne' hpos.ne', pow_succ]
  constructor
  · intro heq
    -- a distance that is not zero cancels, which leaves a power of the speed
    by_cases hd : (heap r).timestamp = (heap r₀).timestamp
    · exact Or.inr (Or.inr hd)
    · have hsub : (heap r).timestamp - (heap r₀).timestamp ≠ 0 := sub_ne_zero.mpr hd
      have hpow : s ^ k = 1 := by
        have hcancel := mul_left_cancel₀ hsub heq
        exact (mul_right_cancel₀ hpos.ne' (hcancel.symm.trans (one_mul s).symm))
      by_cases hk : k = 0
      · exact Or.inl hk
      · exact Or.inr (Or.inl ((pow_eq_one_iff_of_nonneg hpos.le hk).mp hpow))
  · rintro (rfl | hone | hd)
    · rw [pow_zero, one_mul]
    · rw [hone, one_pow, one_mul]
    · rw [hd, sub_self, zero_mul, zero_mul]

/-- Two records that were loaded ten seconds apart. -/
def twoRecords : RecordHeap := fun r => .ofFamily "SYN_FLOOD" (10 * r)

theorem sortByTimestamp_twoRecords : sortByTimestamp twoRecords [0, 1] = [0, 1] :=
  sortByTimestamp_of_pairwise (by decide +kernel)

/-- The second record of the first pass, at double speed. -/
theorem pass_time_iff_first_pass :
    (machine 2 twoRecords [0, 1] 100).out ((machine 2 twoRecords [0, 1] 100).after [⟨true, 0⟩])
      ⟨true, 200⟩ = some ⟨1, 100 + (10 - 0) / 2, true⟩ := by
  have hspeed : speedOf 2 = 2 := by decide +kernel
  have hpass := (pass_time_iff 2 twoRecords [0, 1] (by decide) 100 [⟨true, 0⟩] ⟨true, 200⟩ 0 1 0 1
    rfl (by rw [sortByTimestamp_twoRecords]; rfl) (by rw [sortByTimestamp_twoRecords]; rfl)).mpr
    (Or.inl rfl)
  have hfirst : (twoRecords 0).timestamp = 0 := by decide +kernel
  have hsecond : (twoRecords 1).timestamp = 10 := by decide +kernel
  rw [hspeed, hfirst, hsecond] at hpass
  exact hpass

/-- **A second pass at another speed.** At double speed the second record comes five
seconds after the first one in the first pass, and two and a half seconds after it in
the second pass, which begins at 200. -/
theorem second_pass_faster :
    (machine 2 twoRecords [0, 1] 100).out ((machine 2 twoRecords [0, 1] 100).after
      [⟨true, 0⟩, ⟨true, 200⟩, ⟨true, 0⟩]) ⟨true, 300⟩ = some ⟨1, 200 + 5 / 2, true⟩ ∧
    ¬ ∀ (speedFactor : ℚ) (heap : RecordHeap) (loaded : List ℕ), loaded.Nodup →
      ∀ (now : ℚ) (h : List ReplayTick) (x : ReplayTick) (k i r₀ r : ℕ),
        h.length = k * loaded.length + i → (sortByTimestamp heap loaded)[0]? = some r₀ →
        (sortByTimestamp heap loaded)[i]? = some r →
        (machine speedFactor heap loaded now).out
          ((machine speedFactor heap loaded now).after h) x =
          some ⟨r, passStart now loaded.length h k +
            ((heap r).timestamp - (heap r₀).timestamp) / speedOf speedFactor, x.room⟩ := by
  have hnodup : [0, 1].Nodup := by decide
  have hr₀ : (sortByTimestamp twoRecords [0, 1])[0]? = some 0 := by
    rw [sortByTimestamp_twoRecords]
    rfl
  have hr : (sortByTimestamp twoRecords [0, 1])[1]? = some 1 := by
    rw [sortByTimestamp_twoRecords]
    rfl
  have hout := pass_times 2 twoRecords hnodup 100 [⟨true, 0⟩, ⟨true, 200⟩, ⟨true, 0⟩] ⟨true, 300⟩
    (k := 1) rfl hr₀ hr
  -- in the second pass the distance has been divided by the speed twice
  have hgiven : passStart 100 2 [⟨true, 0⟩, ⟨true, 200⟩, ⟨true, 0⟩] 1 +
      ((twoRecords 1).timestamp - (twoRecords 0).timestamp) / speedOf 2 ^ (1 + 1) =
      200 + 5 / 2 := by decide +kernel
  have hclaimed : passStart 100 2 [⟨true, 0⟩, ⟨true, 200⟩, ⟨true, 0⟩] 1 +
      ((twoRecords 1).timestamp - (twoRecords 0).timestamp) / speedOf 2 = 205 := by decide +kernel
  have hvalue : (machine 2 twoRecords [0, 1] 100).out ((machine 2 twoRecords [0, 1] 100).after
      [⟨true, 0⟩, ⟨true, 200⟩, ⟨true, 0⟩]) ⟨true, 300⟩ = some ⟨1, 200 + 5 / 2, true⟩ :=
    hout.trans (by rw [← hgiven]; rfl)
  refine ⟨hvalue, fun hall => ?_⟩
  have hwrong := hall 2 twoRecords [0, 1] hnodup 100 [⟨true, 0⟩, ⟨true, 200⟩, ⟨true, 0⟩]
    ⟨true, 300⟩ 1 1 0 1 rfl hr₀ hr
  have htime := congrArg (Option.map Visit.timestamp) (hvalue.symm.trans hwrong)
  have heq : (200 + 5 / 2 : ℚ) = 205 := (Option.some.inj htime).trans hclaimed
  norm_num at heq

end ReplayThread

end Sentrix
