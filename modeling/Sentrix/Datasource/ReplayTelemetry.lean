import Mathlib.Algebra.BigOperators.Group.List.Basic
import Mathlib.Data.Rat.Floor
import Sentrix.Datasource.DatasetReplay

/-!
# The telemetry of a replay

The replay thread counts packets, bytes and flows of the records it visits, and
`read_telemetry` divides the counters by the time since `_telem_t0`. When the thread
begins, the counters are zero and `_telem_t0` is the clock. At the end of each pass
`_telem_t0` is set again, and the counters are not: they go on from the passes before.

After `k` passes the counters hold `k` times the whole list, and the records processed
since `_telem_t0` was set (`CountInv`). The rates are averages over the interval they are
divided by if and only if `k` is zero, or a pass adds nothing (`telemetry_exact_iff`).

Between the last visit of a pass and the new `_telem_t0` the lock is free, so these are
two steps here. A thread may be stopped before any step.
-/

namespace Sentrix

/-- `rec.pkt_count or 1`. -/
def FlowRecord.packets (r : FlowRecord) : ℤ := if r.pktCount = 0 then 1 else r.pktCount

/-- `rec.byte_count or 256`. -/
def FlowRecord.bytes (r : FlowRecord) : ℤ := if r.byteCount = 0 then 256 else r.byteCount

/-- The thread with the telemetry counters. -/
structure ReplayTelemetry where
  thread : ReplayThread
  pkts : ℤ
  bytes : ℤ
  /-- `_flows`, without repetitions. -/
  flows : List (String × String × ℤ)
  telemT0 : ℚ
  /-- The last record of the pass was visited, and `_telem_t0` is set next. -/
  passEnds : Bool

/-- What the thread does next. -/
inductive TelemetryEvent
  | visit (x : ReplayTick)
  /-- The end of a pass; `now` is `time.time()`. -/
  | setT0 (now : ℚ)

/-- What was done. -/
inductive TelemetryStep
  | processed (record : ℕ)
  | t0Set
  /-- Nothing: it was not the thread's next step. -/
  | idle

namespace ReplayTelemetry

/-- The counters when the loop begins. -/
def start (heap : RecordHeap) (records : List ℕ) (now t0 : ℚ) : ReplayTelemetry :=
  ⟨.start heap records now, 0, 0, [], t0, false⟩

/-- One visit with its accounting, or the end of a pass. -/
def step (speed : ℚ) (records : List ℕ) (s : ReplayTelemetry) :
    TelemetryEvent → ReplayTelemetry × TelemetryStep
  | .visit x =>
    if s.passEnds then (s, .idle)
    else
      match records[s.thread.position]? with
      | none => (s, .idle)
      | some r =>
        let record := s.thread.heap r
        ({ thread := (ReplayThread.step speed records s.thread x).1
           pkts := s.pkts + record.packets
           bytes := s.bytes + record.bytes
           flows := s.flows.insert (record.srcIp, record.dstIp, record.dstPort)
           telemT0 := s.telemT0
           passEnds := decide (¬ s.thread.position + 1 < records.length) }, .processed r)
  | .setT0 now =>
    -- the counters stay as they are
    if s.passEnds then ({ s with telemT0 := now, passEnds := false }, .t0Set) else (s, .idle)

/-- The thread over a list of records, `t0` being the first `_telem_t0`. -/
def machine (speedFactor : ℚ) (heap : RecordHeap) (records : List ℕ) (now t0 : ℚ) :
    Machine ReplayTelemetry TelemetryEvent TelemetryStep where
  init := start heap (sortByTimestamp heap records) now t0
  step := step (ReplayThread.speedOf speedFactor) (sortByTimestamp heap records)

/-! ### Reading -/

/-- The seconds the counters are divided by. -/
def elapsed (s : ReplayTelemetry) (now : ℚ) : ℚ := max (1 / 1000) (now - s.telemT0)

def pps (s : ReplayTelemetry) (now : ℚ) : ℚ := s.pkts / s.elapsed now

def mbps (s : ReplayTelemetry) (now : ℚ) : ℚ := s.bytes * 8 / (s.elapsed now * 1000000)

/-- What the host adds to a reading. -/
structure ReadingDraws where
  /-- `random.uniform(0.97, 1.03)`. -/
  j : ℚ
  /-- `random.uniform(0.6, 1.8)`. -/
  latency : ℚ
  /-- `round`. -/
  round : ℚ → ℕ → ℚ
  updatedAt : ℚ
  running : Bool

structure TelemetryDict where
  pktsPerSec : ℤ
  mbps : ℚ
  activeFlows : ℤ
  latencyMs : ℚ
  diodeMode : String
  status : String
  updatedAt : ℚ

/-- `int(x)`. -/
def toInt (x : ℚ) : ℤ := x.num.tdiv x.den

theorem toInt_eq_floor {x : ℚ} (hx : 0 ≤ x) : toInt x = ⌊x⌋ := by
  rw [toInt, Rat.floor_def', Int.tdiv_eq_ediv_of_nonneg (Rat.num_nonneg.mpr hx)]

/-- `read_telemetry`; a number that is zero is replaced by a made-up one. -/
def readTelemetry (s : ReplayTelemetry) (now : ℚ) (d : ReadingDraws) : TelemetryDict where
  pktsPerSec := if toInt (s.pps now * d.j) ≠ 0 then toInt (s.pps now * d.j) else toInt (1200 * d.j)
  mbps := if d.round (s.mbps now * d.j) 1 ≠ 0 then d.round (s.mbps now * d.j) 1
    else d.round (84 / 10 * d.j) 1
  activeFlows := if s.flows.length ≠ 0 then s.flows.length else toInt (48 * d.j)
  latencyMs := d.round d.latency 2
  diodeMode := "DATASET REPLAY (Labeled Ground Truth)"
  status := if d.running then "STREAMING" else "IDLE_BASELINE"
  updatedAt := d.updatedAt

/-! ### What was counted -/

/-- The records processed since `_telem_t0` was set last. -/
def sinceT0 (log : List TelemetryStep) : List ℕ :=
  log.foldl (fun acc o =>
    match o with
    | .processed r => acc ++ [r]
    | .t0Set => []
    | .idle => acc) []

/-- The passes that are over. -/
def passes (log : List TelemetryStep) : ℕ :=
  log.countP fun o =>
    match o with
    | .t0Set => true
    | _ => false

/-- The sum of a count over the records. -/
def total (count : FlowRecord → ℤ) (heap : RecordHeap) (records : List ℕ) : ℤ :=
  (records.map fun r => count (heap r)).sum

/-- The counters are those of the records `rs`, and the rates are their averages over the
time they are divided by. -/
structure Averages (heap : RecordHeap) (s : ReplayTelemetry) (rs : List ℕ) : Prop where
  pkts : s.pkts = total FlowRecord.packets heap rs
  bytes : s.bytes = total FlowRecord.bytes heap rs
  rates : ∀ now, s.pps now = (total FlowRecord.packets heap rs : ℚ) / s.elapsed now ∧
    s.mbps now = (total FlowRecord.bytes heap rs : ℚ) * 8 / (s.elapsed now * 1000000)

theorem sinceT0_concat (log : List TelemetryStep) (o : TelemetryStep) :
    sinceT0 (log ++ [o]) =
      match o with
      | .processed r => sinceT0 log ++ [r]
      | .t0Set => []
      | .idle => sinceT0 log :=
  List.foldl_concat ..

theorem passes_concat (log : List TelemetryStep) (o : TelemetryStep) :
    passes (log ++ [o]) =
      match o with
      | .t0Set => passes log + 1
      | _ => passes log := by
  unfold passes
  rw [List.countP_append, List.countP_singleton]
  cases o <;> rfl

theorem total_concat (count : FlowRecord → ℤ) (heap : RecordHeap) (records : List ℕ) (r : ℕ) :
    total count heap (records ++ [r]) = total count heap records + count (heap r) := by
  unfold total
  rw [List.map_append, List.sum_append, List.map_singleton, List.sum_singleton]

theorem total_perm {count : FlowRecord → ℤ} {heap : RecordHeap} {rs rs' : List ℕ}
    (h : rs.Perm rs') : total count heap rs = total count heap rs' :=
  (h.map _).sum_eq

/-! ### Runs -/

/-- After the steps `log`: all passes that are over, and the records since `_telem_t0`, are
in the counters; these records are the ones before the thread's place in the list. -/
structure CountInv (heap : RecordHeap) (records : List ℕ) (log : List TelemetryStep)
    (s : ReplayTelemetry) : Prop where
  counts : ∀ r, (s.thread.heap r).pktCount = (heap r).pktCount ∧
    (s.thread.heap r).byteCount = (heap r).byteCount
  pkts : s.pkts = passes log * total FlowRecord.packets heap records +
    total FlowRecord.packets heap (sinceT0 log)
  bytes : s.bytes = passes log * total FlowRecord.bytes heap records +
    total FlowRecord.bytes heap (sinceT0 log)
  within : s.passEnds = false → sinceT0 log = records.take s.thread.position
  ended : s.passEnds = true → sinceT0 log = records ∧ s.thread.position = 0

variable {heap : RecordHeap} {records : List ℕ} {log : List TelemetryStep} {s : ReplayTelemetry}

theorem CountInv.packets (hi : CountInv heap records log s) (r : ℕ) :
    (s.thread.heap r).packets = (heap r).packets := by
  unfold FlowRecord.packets
  rw [(hi.counts r).1]

theorem CountInv.bytes_heap (hi : CountInv heap records log s) (r : ℕ) :
    (s.thread.heap r).bytes = (heap r).bytes := by
  unfold FlowRecord.bytes
  rw [(hi.counts r).2]

theorem CountInv.idle (hi : CountInv heap records log s) :
    CountInv heap records (log ++ [.idle]) s := by
  refine ⟨hi.counts, ?_, ?_, ?_, ?_⟩
  · rw [passes_concat, sinceT0_concat]
    exact hi.pkts
  · rw [passes_concat, sinceT0_concat]
    exact hi.bytes
  · rw [sinceT0_concat]
    exact hi.within
  · rw [sinceT0_concat]
    exact hi.ended

/-- A visit leaves the counts of the records. -/
theorem counts_step (speed : ℚ) (records : List ℕ) (t : ReplayThread) (x : ReplayTick) (r : ℕ) :
    ((ReplayThread.step speed records t x).1.heap r).pktCount = (t.heap r).pktCount ∧
      ((ReplayThread.step speed records t x).1.heap r).byteCount = (t.heap r).byteCount := by
  cases hr : records[t.position]? with
  | none =>
    unfold ReplayThread.step
    rw [hr]
    exact ⟨rfl, rfl⟩
  | some r' =>
    have hheap : (ReplayThread.step speed records t x).1.heap =
        ReplayThread.visited speed t r' := by
      by_cases hlt : t.position + 1 < records.length
      · rw [ReplayThread.step_fst_of_lt hr hlt]
      · rw [ReplayThread.step_fst_of_last hr hlt]
    rw [hheap]
    unfold ReplayThread.visited
    -- a visit writes the timestamp only
    by_cases hrr : r = r'
    · rw [hrr, Function.update_self]
      exact ⟨rfl, rfl⟩
    · rw [Function.update_of_ne hrr]
      exact ⟨rfl, rfl⟩

/-- **A visit** is counted with the records since `_telem_t0`. -/
theorem CountInv.visit (hi : CountInv heap records log s) (hends : s.passEnds = false) {r : ℕ}
    (hr : records[s.thread.position]? = some r) (speed : ℚ) (x : ReplayTick) :
    CountInv heap records (log ++ [.processed r]) (step speed records s (.visit x)).1 := by
  have hsince : sinceT0 log ++ [r] = records.take (s.thread.position + 1) := by
    rw [hi.within hends, List.take_add_one, hr]
    rfl
  have hstep : (step speed records s (.visit x)).1 =
      { thread := (ReplayThread.step speed records s.thread x).1
        pkts := s.pkts + (s.thread.heap r).packets
        bytes := s.bytes + (s.thread.heap r).bytes
        flows := s.flows.insert ((s.thread.heap r).srcIp, (s.thread.heap r).dstIp,
          (s.thread.heap r).dstPort)
        telemT0 := s.telemT0
        passEnds := decide (¬ s.thread.position + 1 < records.length) } := by
    show (if s.passEnds = true then _ else _ : ReplayTelemetry × TelemetryStep).1 = _
    rw [if_neg (by rw [hends]; exact Bool.false_ne_true), hr]
  rw [hstep]
  refine ⟨fun r' => ?_, ?_, ?_, fun hlt => ?_, fun hlast => ?_⟩
  · obtain ⟨hpkts, hbytes⟩ := counts_step speed records s.thread x r'
    exact ⟨hpkts.trans (hi.counts r').1, hbytes.trans (hi.counts r').2⟩
  · rw [passes_concat, sinceT0_concat]
    dsimp only
    rw [total_concat, hi.pkts, hi.packets, add_assoc]
  · rw [passes_concat, sinceT0_concat]
    dsimp only
    rw [total_concat, hi.bytes, hi.bytes_heap, add_assoc]
  · -- the pass goes on
    have hlt : s.thread.position + 1 < records.length := by
      by_contra hlast
      exact Bool.false_ne_true (hlt.symm.trans (decide_eq_true hlast))
    rw [sinceT0_concat]
    dsimp only
    rw [hsince, ReplayThread.step_fst_of_lt hr hlt]
  · -- the pass is at its end
    have hlast : ¬ s.thread.position + 1 < records.length := of_decide_eq_true hlast
    rw [sinceT0_concat]
    dsimp only
    rw [hsince, ReplayThread.step_fst_of_last hr hlast]
    exact ⟨List.take_of_length_le (not_lt.mp hlast), rfl⟩

/-- **The end of a pass** makes the records since `_telem_t0` a pass that is over. -/
theorem CountInv.setT0 (hi : CountInv heap records log s) (hends : s.passEnds = true) (now : ℚ) :
    CountInv heap records (log ++ [.t0Set]) { s with telemT0 := now, passEnds := false } := by
  obtain ⟨hsince, hposition⟩ := hi.ended hends
  have hpkts := hi.pkts
  have hbytes := hi.bytes
  rw [hsince] at hpkts hbytes
  refine ⟨hi.counts, ?_, ?_, fun _ => ?_, nofun⟩
  · -- the counters keep the pass that has just ended, the log starts anew
    rw [passes_concat, sinceT0_concat]
    show s.pkts = ((passes log + 1 : ℕ) : ℤ) * _ + 0
    rw [hpkts, Nat.cast_add, Nat.cast_one]
    ring
  · rw [passes_concat, sinceT0_concat]
    show s.bytes = ((passes log + 1 : ℕ) : ℤ) * _ + 0
    rw [hbytes, Nat.cast_add, Nat.cast_one]
    ring
  · rw [sinceT0_concat]
    show [] = records.take s.thread.position
    rw [hposition, List.take_zero]

variable (speedFactor : ℚ) (heap : RecordHeap) (loaded : List ℕ) (now t0 : ℚ)

/-- **After every run** the counters hold all passes that are over. -/
theorem countInv_after (h : List TelemetryEvent) :
    CountInv heap (sortByTimestamp heap loaded)
      ((machine speedFactor heap loaded now t0).emits h)
      ((machine speedFactor heap loaded now t0).after h) := by
  refine (machine speedFactor heap loaded now t0).invariant
    (fun h s => CountInv heap (sortByTimestamp heap loaded)
      ((machine speedFactor heap loaded now t0).emits h) s) ?_ ?_ h
  · have hzero : ∀ t : ℤ, (0 : ℤ) = ((0 : ℕ) : ℤ) * t + 0 := by
      intro t
      rw [Nat.cast_zero, zero_mul, zero_add]
    exact ⟨fun r => ⟨rfl, rfl⟩, hzero _, hzero _, fun _ => rfl, nofun⟩
  · intro h e hi
    rw [Machine.emits_concat]
    set s := (machine speedFactor heap loaded now t0).after h
    set log := (machine speedFactor heap loaded now t0).emits h
    set records := sortByTimestamp heap loaded
    show CountInv heap records (log ++ [(step (ReplayThread.speedOf speedFactor) records s e).2])
      (step (ReplayThread.speedOf speedFactor) records s e).1
    -- what is not the thread's next step changes nothing
    have hidle : step (ReplayThread.speedOf speedFactor) records s e = (s, .idle) →
        CountInv heap records (log ++ [(step (ReplayThread.speedOf speedFactor) records s e).2])
          (step (ReplayThread.speedOf speedFactor) records s e).1 := by
      intro hstep
      rw [hstep]
      exact hi.idle
    cases e with
    | visit x =>
      by_cases hends : s.passEnds = true
      · exact hidle (if_pos hends)
      · cases hr : records[s.thread.position]? with
        | none =>
          refine hidle ?_
          unfold step
          dsimp only
          rw [if_neg hends, hr]
        | some r =>
          have hout : (step (ReplayThread.speedOf speedFactor) records s (.visit x)).2 =
              .processed r := by
            unfold step
            dsimp only
            rw [if_neg hends, hr]
          rw [hout]
          exact hi.visit (Bool.not_eq_true _ ▸ hends) hr _ x
    | setT0 t =>
      by_cases hends : s.passEnds = true
      · have hstep : step (ReplayThread.speedOf speedFactor) records s (.setT0 t) =
            ({ s with telemT0 := t, passEnds := false }, .t0Set) := if_pos hends
        rw [hstep]
        exact hi.setT0 hends t
      · exact hidle (if_neg hends)

/-- The counters are those of the records since `_telem_t0` if the passes that are over add
nothing; the rates follow the counters. -/
theorem CountInv.averages_iff (hi : CountInv heap records log s) :
    Averages heap s (sinceT0 log) ↔ passes log = 0 ∨
      (total FlowRecord.packets heap records = 0 ∧ total FlowRecord.bytes heap records = 0) := by
  have hzero : ∀ t : ℤ, (passes log : ℤ) * t = 0 ↔ passes log = 0 ∨ t = 0 := by
    intro t
    rw [mul_eq_zero, Nat.cast_eq_zero]
  -- the counters are ahead by the passes already ended
  have hpkts : s.pkts = total FlowRecord.packets heap (sinceT0 log) ↔
      passes log = 0 ∨ total FlowRecord.packets heap records = 0 := by
    rw [hi.pkts, add_eq_right, hzero]
  have hbytes : s.bytes = total FlowRecord.bytes heap (sinceT0 log) ↔
      passes log = 0 ∨ total FlowRecord.bytes heap records = 0 := by
    rw [hi.bytes, add_eq_right, hzero]
  rw [or_and_left, ← hpkts, ← hbytes]
  constructor
  · intro h
    exact ⟨h.pkts, h.bytes⟩
  · rintro ⟨heqPkts, heqBytes⟩
    refine ⟨heqPkts, heqBytes, fun now => ⟨?_, ?_⟩⟩
    · unfold pps
      rw [heqPkts]
    · unfold mbps
      rw [heqBytes]

/-- **When the rates are averages.** In every state of the replay of every list of records:
the counters are the sums over the records processed since `_telem_t0` was set, and the
rates their averages, if and only if no pass is over yet, or a pass has no packets and no
bytes in sum. -/
theorem telemetry_exact_iff (h : List TelemetryEvent) :
    Averages heap ((machine speedFactor heap loaded now t0).after h)
        (sinceT0 ((machine speedFactor heap loaded now t0).emits h)) ↔
      passes ((machine speedFactor heap loaded now t0).emits h) = 0 ∨
        (total FlowRecord.packets heap loaded = 0 ∧ total FlowRecord.bytes heap loaded = 0) := by
  rw [(countInv_after speedFactor heap loaded now t0 h).averages_iff,
    total_perm (sortByTimestamp_perm heap loaded), total_perm (sortByTimestamp_perm heap loaded)]

/-- **Two passes in the counters of one.** A list of one record with one packet; after the
first pass the record is visited again. -/
theorem telemetry_counts_twice :
    ¬ ∀ (speedFactor : ℚ) (heap : RecordHeap) (loaded : List ℕ) (now t0 : ℚ)
      (h : List TelemetryEvent),
      Averages heap ((machine speedFactor heap loaded now t0).after h)
        (sinceT0 ((machine speedFactor heap loaded now t0).emits h)) := by
  intro hall
  have haverages := hall 1 (fun _ => .ofFamily "PORT_SCAN" 10) [0] 100 100
    [.visit ⟨true, 0⟩, .setT0 200, .visit ⟨true, 0⟩]
  have hi := countInv_after 1 (fun _ => .ofFamily "PORT_SCAN" 10) [0] 100 100
    [.visit ⟨true, 0⟩, .setT0 200, .visit ⟨true, 0⟩]
  obtain hnone | ⟨hzero, -⟩ := hi.averages_iff.mp haverages
  · exact absurd hnone (by decide +kernel)
  · -- the one record has packets
    rw [total_perm (sortByTimestamp_perm _ [0])] at hzero
    exact absurd hzero (by decide)

/-- The thread under the counters is the replay thread: what it visits, and what it moves
the records to, does not depend on them. -/
theorem exists_ticks (h : List TelemetryEvent) :
    ∃ ticks : List ReplayTick, ((machine speedFactor heap loaded now t0).after h).thread =
      (ReplayThread.machine speedFactor heap loaded now).after ticks := by
  refine (machine speedFactor heap loaded now t0).invariant
    (fun _ s => ∃ ticks, s.thread = (ReplayThread.machine speedFactor heap loaded now).after ticks)
    ⟨[], rfl⟩ ?_ h
  rintro h e ⟨ticks, hticks⟩
  set s := (machine speedFactor heap loaded now t0).after h
  -- an event is a visit of the thread, or leaves it where it is
  have hcases : ((machine speedFactor heap loaded now t0).next s e).thread = s.thread ∨
      ∃ x, ((machine speedFactor heap loaded now t0).next s e).thread =
        (ReplayThread.machine speedFactor heap loaded now).next s.thread x := by
    show (step _ _ s e).1.thread = _ ∨ ∃ x, (step _ _ s e).1.thread = _
    unfold step
    cases e with
    | visit x =>
      dsimp only
      split
      · exact Or.inl rfl
      · split
        · exact Or.inl rfl
        · exact Or.inr ⟨x, rfl⟩
    | setT0 t =>
      dsimp only
      split
      · exact Or.inl rfl
      · exact Or.inl rfl
  obtain heq | ⟨x, heq⟩ := hcases
  · exact ⟨ticks, heq.trans hticks⟩
  · refine ⟨ticks ++ [x], ?_⟩
    rw [Machine.after_concat, ← hticks]
    exact heq

end ReplayTelemetry

end Sentrix
