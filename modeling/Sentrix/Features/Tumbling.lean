import Mathlib.Analysis.SpecialFunctions.Log.Base
import Sentrix.Lib.Entropy
import Sentrix.Lib.Lists
import Sentrix.Features.Scheduler

/-!
# What the one-second vector remembers

The scheduler calls itself a tumbling-window aggregator, and the extractor of
DDoS features has its counters reset after each one-second emission. The
reconnaissance counters and the sketch of source addresses are not: they
accumulate from the first packet on (`Accumulated`), and the SYN ratio, the scan
activity and the address entropy of an emission are those of the whole stream.

Two runs that have just emitted at the same time go on to emit at the same
packets. They report the same values whatever comes next if and only if the
histories behind them had the same number of SYNs, the same number of TCP packets
and the same number of packets from each column of the sketch
(`second_depends_iff`). One direction is a simulation (`Alike`). For the other, a
SYN tells the TCP counters apart, and the entropies of ever more packets from one
address tell the sketches apart.
-/

namespace Sentrix

variable {K : Type} [Field K] [LinearOrder K]

/-! ### What is counted -/

/-- The number of bare SYNs. -/
def synsSeen (h : List (TimedPacket K)) : ℕ :=
  h.countP fun p => decide (p.info.protocol = some .tcp ∧ p.info.tcpFlags = 2)

/-- The number of TCP packets. -/
def tcpsSeen (h : List (TimedPacket K)) : ℕ :=
  h.countP fun p => decide (p.info.protocol = some .tcp)

/-- The number of packets from the addresses that a column of the source sketch
stands for; packets of other protocols are not in the sketch. -/
def seenInColumn (hash : SketchHash) (h : List (TimedPacket K)) (c : ℕ) : ℕ :=
  h.countP fun p => decide (p.info.protocol.isSome = true ∧ hash 0 p.info.srcIp % 1024 = c)

/-- The two histories have the same numbers of SYNs and of TCP packets, and of
packets in each column. -/
structure SeenAlike (hash : SketchHash) (h₁ h₂ : List (TimedPacket K)) : Prop where
  syns : synsSeen h₁ = synsSeen h₂
  tcps : tcpsSeen h₁ = tcpsSeen h₂
  columns : ∀ c, seenInColumn hash h₁ c = seenInColumn hash h₂ c

/-- The SYN ratio, the scan activity and the address entropy of a one-second
emission, if there is one among the vectors. -/
def scanFields : List (FeatureDict K) → Option (Option K × Option K × Option K)
  | .ddos d :: .recon r :: _ => some (r.synOnlyRatio, r.scanActivityScore, d.srcIpEntropy)
  | _ => none

namespace FeatureScheduler

variable (cfg : SchedulerConfig K)

/-- The history ends with a one-second emission at time `t`. -/
def EndsAt (h : List (TimedPacket K)) (t : K) : Prop :=
  ∃ g p, h = g ++ [p] ∧ p.time = t ∧ ((machine cfg).after g).Due1s cfg p.time

/-- The fields of the first one-second emission along the packets `k`. -/
def nextSecond (s : FeatureScheduler K) :
    List (TimedPacket K) → Option (Option K × Option K × Option K)
  | [] => none
  | p :: k => (scanFields ((machine cfg).out s p)).or (nextSecond ((machine cfg).next s p) k)

/-- What the three fields are computed from. -/
def scanVector (s : FeatureScheduler K) : Option K × Option K × Option K :=
  let recon : ReconVector K := s.recon.extract
  (recon.synOnlyRatio, recon.scanActivityScore,
    some (s.ddos.srcIpEntropyCms.approximateEntropy cfg.math))

/-! ### One packet -/

theorem recon_next (s : FeatureScheduler K) (p : TimedPacket K) :
    ((machine cfg).next s p).recon = (s.feed cfg p).recon := by
  show (processPacket cfg s p).1.recon = _
  rw [processPacket_fst]

/-- Neither the reset nor the sweep touches the sketch. -/
theorem sketch_next (s : FeatureScheduler K) (p : TimedPacket K) :
    ((machine cfg).next s p).ddos.srcIpEntropyCms = (s.feed cfg p).ddos.srcIpEntropyCms := by
  show (processPacket cfg s p).1.ddos.srcIpEntropyCms = _
  rw [processPacket_fst]
  dsimp only
  split <;> split <;> rfl

theorem synCount_next (s : FeatureScheduler K) (p : TimedPacket K) :
    ((machine cfg).next s p).recon.synCount =
      s.recon.synCount +
        if p.info.protocol = some .tcp ∧ p.info.tcpFlags = 2 then 1 else 0 := by
  rw [recon_next]
  show (if _ then s.recon.update cfg.hash p.info else s.recon).synCount = _
  by_cases htcp : p.info.protocol = some .tcp
  · rw [if_pos htcp]
    show (if _ then s.recon.synCount + 1 else s.recon.synCount) = _
    split <;> rfl
  · rw [if_neg htcp, if_neg fun h => htcp h.1]
    rfl

theorem totalTcpCount_next (s : FeatureScheduler K) (p : TimedPacket K) :
    ((machine cfg).next s p).recon.totalTcpCount =
      s.recon.totalTcpCount + if p.info.protocol = some .tcp then 1 else 0 := by
  rw [recon_next]
  show (if _ then s.recon.update cfg.hash p.info else s.recon).totalTcpCount = _
  by_cases htcp : p.info.protocol = some .tcp
  · rw [if_pos htcp, if_pos htcp]
    show (if _ then s.recon.totalTcpCount + 1 else s.recon.totalTcpCount) = _
    rw [if_pos htcp]
  · rw [if_neg htcp, if_neg htcp]
    rfl

theorem srcIpEntropyCms_next (s : FeatureScheduler K) (p : TimedPacket K) :
    ((machine cfg).next s p).ddos.srcIpEntropyCms =
      if p.info.protocol.isSome then s.ddos.srcIpEntropyCms.add cfg.hash p.info.srcIp 1
      else s.ddos.srcIpEntropyCms := by
  rw [sketch_next]
  show (if _ then s.ddos.update cfg.hash p.info p.time else s.ddos).srcIpEntropyCms = _
  split <;> rfl

theorem last1s_next (s : FeatureScheduler K) (p : TimedPacket K) :
    ((machine cfg).next s p).last1s =
      if s.Due1s cfg p.time then p.time else s.start1s p.time := by
  show (processPacket cfg s p).1.last1s = _
  rw [processPacket_fst]

/-- A one-second emission reports what the packet leaves. -/
theorem scanFields_out (s : FeatureScheduler K) (p : TimedPacket K) :
    scanFields ((machine cfg).out s p) =
      if s.Due1s cfg p.time then some (scanVector cfg ((machine cfg).next s p)) else none := by
  unfold scanVector
  rw [recon_next, sketch_next]
  show scanFields (processPacket cfg s p).2 = _
  rw [processPacket_snd]
  by_cases h1 : s.Due1s cfg p.time
  · rw [if_pos h1, if_pos h1]
    rfl
  · rw [if_neg h1, if_neg h1]
    split <;> split <;> rfl

/-! ### Two runs side by side -/

/-- The two sketches have the same first row, which is what an entropy reads. -/
structure SketchAlike (a b : CountMinSketch) : Prop where
  width : a.width = b.width
  total : a.totalCount = b.totalCount
  row : a.table.head? = b.table.head?

/-- The two states agree in what the three fields depend on. -/
structure Alike (s₁ s₂ : FeatureScheduler K) : Prop where
  clock : s₁.last1s = s₂.last1s
  syns : s₁.recon.synCount = s₂.recon.synCount
  tcps : s₁.recon.totalTcpCount = s₂.recon.totalTcpCount
  sketch : SketchAlike s₁.ddos.srcIpEntropyCms s₂.ddos.srcIpEntropyCms

theorem SketchAlike.add {a b : CountMinSketch} (h : SketchAlike a b) (hash : SketchHash)
    (item : String) : SketchAlike (a.add hash item 1) (b.add hash item 1) := by
  refine ⟨h.width, ?_, ?_⟩
  · show a.totalCount + 1 = b.totalCount + 1
    rw [h.total]
  · -- row zero alone decides, and it takes the count in one cell
    have hhead : ∀ c : CountMinSketch, (c.add hash item 1).table.head? =
        c.table.head?.map fun row => row.modify (hash 0 item % c.width) (· + 1) := by
      intro c
      unfold CountMinSketch.add
      cases c.table with
      | nil => rfl
      | cons row rest => rw [List.mapIdx_cons, List.head?_cons, List.head?_cons, Option.map_some]
    rw [hhead, hhead, h.row, h.width]

omit [LinearOrder K] in
theorem SketchAlike.approximateEntropy {a b : CountMinSketch} (h : SketchAlike a b)
    (math : PyMath K) : (a.approximateEntropy math : K) = b.approximateEntropy math := by
  unfold CountMinSketch.approximateEntropy
  rw [h.total, List.headD_eq_head?_getD, List.headD_eq_head?_getD, h.row]

theorem Alike.due1s {s₁ s₂ : FeatureScheduler K} (h : Alike s₁ s₂) (time : K) :
    s₁.start1s time = s₂.start1s time ∧ (s₁.Due1s cfg time ↔ s₂.Due1s cfg time) := by
  have hbase : s₁.Rebases time ↔ s₂.Rebases time := by
    unfold Rebases
    rw [h.clock]
  have hstart : s₁.start1s time = s₂.start1s time := by
    simp only [start1s, hbase, h.clock]
  refine ⟨hstart, ?_⟩
  unfold Due1s
  rw [hstart]

/-- **One packet** leaves states that agree in agreement. -/
theorem Alike.next {s₁ s₂ : FeatureScheduler K} (h : Alike s₁ s₂) (p : TimedPacket K) :
    Alike ((machine cfg).next s₁ p) ((machine cfg).next s₂ p) := by
  obtain ⟨hstart, hdue⟩ := h.due1s cfg p.time
  refine ⟨?_, ?_, ?_, ?_⟩
  · rw [last1s_next, last1s_next, hstart]
    simp only [hdue]
  · rw [synCount_next, synCount_next, h.syns]
  · rw [totalTcpCount_next, totalTcpCount_next, h.tcps]
  · rw [srcIpEntropyCms_next, srcIpEntropyCms_next]
    split
    · exact h.sketch.add cfg.hash p.info.srcIp
    · exact h.sketch

omit [LinearOrder K] in
theorem Alike.scanVector {s₁ s₂ : FeatureScheduler K} (h : Alike s₁ s₂) :
    scanVector cfg s₁ = scanVector cfg s₂ := by
  unfold FeatureScheduler.scanVector ReconExtractor.extract
  rw [h.syns, h.tcps, h.sketch.approximateEntropy]

/-- **Whatever comes next**, states that agree report the same. -/
theorem Alike.nextSecond {s₁ s₂ : FeatureScheduler K} (h : Alike s₁ s₂)
    (k : List (TimedPacket K)) : nextSecond cfg s₁ k = nextSecond cfg s₂ k := by
  induction k generalizing s₁ s₂ with
  | nil => rfl
  | cons p k ih =>
    have hnext := h.next cfg p
    unfold FeatureScheduler.nextSecond
    rw [scanFields_out, scanFields_out, ih hnext, hnext.scanVector cfg]
    simp only [(h.due1s cfg p.time).2]

/-! ### What a run accumulates -/

/-- What holds after the packets `h`: the reconnaissance counters and the sketch
have counted all of them. -/
structure Accumulated (h : List (TimedPacket K)) (s : FeatureScheduler K) : Prop where
  syns : s.recon.synCount = synsSeen h
  tcps : s.recon.totalTcpCount = tcpsSeen h
  width : s.ddos.srcIpEntropyCms.width = 1024
  total : s.ddos.srcIpEntropyCms.totalCount = ∑ c ∈ Finset.range 1024, seenInColumn cfg.hash h c
  row : s.ddos.srcIpEntropyCms.table.head? =
    some ((List.range 1024).map (seenInColumn cfg.hash h))

omit [Field K] [LinearOrder K] in
theorem seenInColumn_concat (hash : SketchHash) (h : List (TimedPacket K)) (p : TimedPacket K)
    (c : ℕ) : seenInColumn hash (h ++ [p]) c =
      if p.info.protocol.isSome = true ∧ hash 0 p.info.srcIp % 1024 = c
        then seenInColumn hash h c + 1 else seenInColumn hash h c := by
  unfold seenInColumn
  rw [List.countP_append, List.countP_singleton]
  simp only [decide_eq_true_eq]
  split <;> rfl

omit [Field K] [LinearOrder K] in
/-- A packet is in one column. -/
theorem sum_seenInColumn_concat (hash : SketchHash) (h : List (TimedPacket K))
    (p : TimedPacket K) :
    ∑ c ∈ Finset.range 1024, seenInColumn hash (h ++ [p]) c =
      (∑ c ∈ Finset.range 1024, seenInColumn hash h c) +
        if p.info.protocol.isSome then 1 else 0 := by
  have hcolumn : hash 0 p.info.srcIp % 1024 ∈ Finset.range 1024 :=
    Finset.mem_range.mpr (Nat.mod_lt _ (by norm_num))
  -- the packet falls into one of the columns
  have hone : ∀ c, seenInColumn hash (h ++ [p]) c = seenInColumn hash h c +
      if hash 0 p.info.srcIp % 1024 = c then (if p.info.protocol.isSome then 1 else 0) else 0 := by
    intro c
    rw [seenInColumn_concat]
    by_cases hp : p.info.protocol.isSome = true <;>
      by_cases hc : hash 0 p.info.srcIp % 1024 = c <;> simp [hp, hc]
  rw [Finset.sum_congr rfl fun c _ => hone c, Finset.sum_add_distrib,
    Finset.sum_ite_eq (Finset.range 1024), if_pos hcolumn]

/-- **One packet** is counted with all before it. -/
theorem Accumulated.next {h : List (TimedPacket K)} {s : FeatureScheduler K}
    (hi : Accumulated cfg h s) (p : TimedPacket K) :
    Accumulated cfg (h ++ [p]) ((machine cfg).next s p) := by
  refine ⟨?_, ?_, ?_, ?_, ?_⟩
  · unfold synsSeen
    rw [synCount_next, List.countP_append, List.countP_singleton, hi.syns]
    simp only [decide_eq_true_eq]
    rfl
  · unfold tcpsSeen
    rw [totalTcpCount_next, List.countP_append, List.countP_singleton, hi.tcps]
    simp only [decide_eq_true_eq]
    rfl
  · rw [srcIpEntropyCms_next]
    split <;> exact hi.width
  · rw [srcIpEntropyCms_next, sum_seenInColumn_concat, ← hi.total]
    split <;> rfl
  · rw [srcIpEntropyCms_next]
    split
    -- the packet is added to every row of the table, of which the first one counts here
    · next hp =>
      obtain ⟨rest, hrest⟩ : ∃ rest, s.ddos.srcIpEntropyCms.table =
          (List.range 1024).map (seenInColumn cfg.hash h) :: rest :=
        List.head?_eq_some_iff.mp hi.row
      show (s.ddos.srcIpEntropyCms.table.mapIdx _).head? = _
      rw [hrest, List.mapIdx_cons, List.head?_cons, hi.width]
      rw [modify_map_range]
      refine congrArg some (List.map_congr_left fun c _ => ?_)
      rw [seenInColumn_concat]
      simp only [hp, true_and]
    · next hp =>
      have hsame : seenInColumn cfg.hash (h ++ [p]) = seenInColumn cfg.hash h := by
        funext c
        rw [seenInColumn_concat, if_neg fun hc => hp hc.1]
      rw [hsame]
      exact hi.row

theorem accumulated_after (h : List (TimedPacket K)) :
    Accumulated cfg h ((machine cfg).after h) := by
  refine (machine cfg).invariant (Accumulated cfg) ?_ (fun h p hi => hi.next cfg p) h
  refine ⟨rfl, rfl, rfl, Finset.sum_const_zero.symm, ?_⟩
  show some (List.replicate 1024 0) = some ((List.range 1024).map fun _ => 0)
  rw [List.map_const', List.length_range]

/-- Right after an emission the window starts at its time. -/
theorem last1s_of_endsAt {h : List (TimedPacket K)} {t : K} (hend : EndsAt cfg h t) :
    ((machine cfg).after h).last1s = t := by
  obtain ⟨g, p, rfl, rfl, hdue⟩ := hend
  rw [Machine.after_concat, last1s_next, if_pos hdue]

/-- Histories with the same numbers, emitting at the same time, lead to states that
agree. -/
theorem alike_of_seenAlike {h₁ h₂ : List (TimedPacket K)} {t : K} (h₁end : EndsAt cfg h₁ t)
    (h₂end : EndsAt cfg h₂ t) (hseen : SeenAlike cfg.hash h₁ h₂) :
    Alike ((machine cfg).after h₁) ((machine cfg).after h₂) := by
  have hi₁ := accumulated_after cfg h₁
  have hi₂ := accumulated_after cfg h₂
  refine ⟨?_, ?_, ?_, ?_, ?_, ?_⟩
  · rw [last1s_of_endsAt cfg h₁end, last1s_of_endsAt cfg h₂end]
  · rw [hi₁.syns, hi₂.syns, hseen.syns]
  · rw [hi₁.tcps, hi₂.tcps, hseen.tcps]
  · rw [hi₁.width, hi₂.width]
  · rw [hi₁.total, hi₂.total, funext hseen.columns]
  · rw [hi₁.row, hi₂.row, funext hseen.columns]

/-! ### Telling histories apart

A probe repeats one packet within the second after an emission and once more when
the next one is due. -/

/-- `m + 2` copies of a packet, the last one a second later than the others. -/
def probe (x : ParsedPacket) (t : K) (m : ℕ) : List (TimedPacket K) :=
  List.replicate (m + 1) ⟨x, t + 1 / 2, none, none⟩ ++ [⟨x, t + 1 / 2 + 1, none, none⟩]

omit [LinearOrder K] in
theorem countP_probe {q : TimedPacket K → Bool} {x : ParsedPacket} {b : Bool}
    (hq : ∀ time, q ⟨x, time, none, none⟩ = b) (t : K) (m : ℕ) :
    (probe x t m).countP q = if b then m + 2 else 0 := by
  unfold probe
  rw [List.countP_append, List.countP_replicate, List.countP_singleton, hq, hq]
  cases b <;> rfl

/-- A packet less than a second after the start of the window emits nothing. -/
theorem waits {s : FeatureScheduler K} {p : TimedPacket K} (hone : cfg.window1s = 1)
    (hne : s.last1s ≠ 0) (hle : s.last1s ≤ p.time) (hlt : p.time - s.last1s < 1) :
    scanFields ((machine cfg).out s p) = none ∧
      ((machine cfg).next s p).last1s = s.last1s := by
  have hbase : ¬ s.Rebases p.time := not_or.mpr ⟨hne, not_lt.mpr hle⟩
  have hstart : s.start1s p.time = s.last1s := if_neg hbase
  have hdue : ¬ s.Due1s cfg p.time := by
    unfold Due1s
    rw [hstart, hone]
    exact not_le.mpr hlt
  refine ⟨?_, ?_⟩
  · rw [scanFields_out, if_neg hdue]
  · rw [last1s_next, if_neg hdue, hstart]

variable [IsStrictOrderedRing K]

/-- A packet a second or more after the start of the window emits. -/
theorem scanFields_out_of_due {s : FeatureScheduler K} {p : TimedPacket K}
    (hone : cfg.window1s = 1) (hne : s.last1s ≠ 0) (hge : 1 ≤ p.time - s.last1s) :
    scanFields ((machine cfg).out s p) = some (scanVector cfg ((machine cfg).next s p)) := by
  have hbase : ¬ s.Rebases p.time := not_or.mpr ⟨hne, by linarith⟩
  have hdue : s.Due1s cfg p.time := by
    unfold Due1s start1s
    rw [if_neg hbase, hone]
    exact hge
  rw [scanFields_out, if_pos hdue]

theorem nextSecond_waiting (hone : cfg.window1s = 1) {s : FeatureScheduler K} {x : ParsedPacket}
    {T : K} (hne : s.last1s ≠ 0) (hle : s.last1s ≤ T) (hlt : T - s.last1s < 1) (m : ℕ) :
    nextSecond cfg s (List.replicate m ⟨x, T, none, none⟩ ++ [⟨x, T + 1, none, none⟩]) =
      some (scanVector cfg ((machine cfg).afterFrom s
        (List.replicate m ⟨x, T, none, none⟩ ++ [⟨x, T + 1, none, none⟩]))) := by
  induction m generalizing s with
  | zero =>
    show (scanFields ((machine cfg).out s ⟨x, T + 1, none, none⟩)).or none = _
    rw [scanFields_out_of_due cfg hone hne (by dsimp only; linarith)]
    rfl
  | succ m ih =>
    -- a packet within the second emits nothing and leaves the window
    obtain ⟨hnone, hlast⟩ := waits cfg (p := ⟨x, T, none, none⟩) hone hne hle hlt
    rw [List.replicate_succ, List.cons_append, nextSecond, hnone, Machine.afterFrom_cons]
    exact ih (by rwa [hlast]) (by rwa [hlast]) (by rwa [hlast])

/-- The next second after a probe reports what the probe leaves. -/
theorem nextSecond_probe (hone : cfg.window1s = 1) (s : FeatureScheduler K) (x : ParsedPacket)
    (m : ℕ) :
    nextSecond cfg s (probe x s.last1s m) =
      some (scanVector cfg ((machine cfg).afterFrom s (probe x s.last1s m))) := by
  unfold probe
  rw [List.replicate_succ, List.cons_append, nextSecond, Machine.afterFrom_cons]
  by_cases hzero : s.last1s = 0
  · -- the first packet starts the windows afresh
    have hbase : s.Rebases (s.last1s + 1 / 2) := Or.inl hzero
    have hstart : s.start1s (s.last1s + 1 / 2) = s.last1s + 1 / 2 := if_pos hbase
    have hdue : ¬ s.Due1s cfg (s.last1s + 1 / 2) := by
      unfold Due1s
      rw [hstart, hone, sub_self]
      exact not_le.mpr one_pos
    have hlast : ((machine cfg).next s ⟨x, s.last1s + 1 / 2, none, none⟩).last1s =
        s.last1s + 1 / 2 := by
      rw [last1s_next, if_neg hdue, hstart]
    rw [scanFields_out, if_neg hdue]
    refine nextSecond_waiting cfg hone ?_ (le_of_eq hlast) ?_ m
    · rw [hlast, hzero]
      norm_num
    · rw [hlast, sub_self]
      exact one_pos
  · obtain ⟨hnone, hlast⟩ := waits cfg (p := ⟨x, s.last1s + 1 / 2, none, none⟩) hone hzero
      (by dsimp only; linarith) (by dsimp only; linarith)
    rw [hnone]
    refine nextSecond_waiting cfg hone ?_ ?_ ?_ m
    · rwa [hlast]
    · rw [hlast]
      linarith
    · rw [hlast]
      linarith

/-- Histories that agree on all continuations agree on what a probe leaves. -/
theorem scanVector_probe_eq (hone : cfg.window1s = 1) {h₁ h₂ : List (TimedPacket K)} {t : K}
    (h₁end : EndsAt cfg h₁ t) (h₂end : EndsAt cfg h₂ t)
    (hagree : ∀ k, nextSecond cfg ((machine cfg).after h₁) k =
      nextSecond cfg ((machine cfg).after h₂) k) (x : ParsedPacket) (m : ℕ) :
    scanVector cfg ((machine cfg).after (h₁ ++ probe x t m)) =
      scanVector cfg ((machine cfg).after (h₂ ++ probe x t m)) := by
  have hlast₁ := last1s_of_endsAt cfg h₁end
  have hlast₂ := last1s_of_endsAt cfg h₂end
  have hprobe₁ := nextSecond_probe cfg hone ((machine cfg).after h₁) x m
  have hprobe₂ := nextSecond_probe cfg hone ((machine cfg).after h₂) x m
  -- the probe is the continuation that reads the vector
  rw [hlast₁, hagree] at hprobe₁
  rw [hlast₂] at hprobe₂
  rw [Machine.after_append, Machine.after_append]
  exact Option.some.inj (hprobe₁.symm.trans hprobe₂)

/-- A SYN from a given address. -/
def synPacket (srcIp : String) : ParsedPacket :=
  ⟨srcIp, "10.0.0.2", 60, some .tcp, 40000, 443, 2, none⟩

/-- **SYNs tell the counters apart.** -/
theorem counters_of_agree (hone : cfg.window1s = 1) {h₁ h₂ : List (TimedPacket K)} {t : K}
    (h₁end : EndsAt cfg h₁ t) (h₂end : EndsAt cfg h₂ t)
    (hagree : ∀ k, nextSecond cfg ((machine cfg).after h₁) k =
      nextSecond cfg ((machine cfg).after h₂) k) :
    synsSeen h₁ = synsSeen h₂ ∧ tcpsSeen h₁ = tcpsSeen h₂ := by
  have hsyns : ∀ h : List (TimedPacket K),
      synsSeen (h ++ probe (synPacket "10.0.0.1") t 0) = synsSeen h + 2 := by
    intro h
    unfold synsSeen
    rw [List.countP_append, countP_probe (b := true) fun _ => rfl]
    rfl
  have htcps : ∀ h : List (TimedPacket K),
      tcpsSeen (h ++ probe (synPacket "10.0.0.1") t 0) = tcpsSeen h + 2 := by
    intro h
    unfold tcpsSeen
    rw [List.countP_append, countP_probe (b := true) fun _ => rfl]
    rfl
  have heq := scanVector_probe_eq cfg hone h₁end h₂end hagree (synPacket "10.0.0.1") 0
  have hi₁ := accumulated_after cfg (h₁ ++ probe (synPacket "10.0.0.1") t 0)
  have hi₂ := accumulated_after cfg (h₂ ++ probe (synPacket "10.0.0.1") t 0)
  unfold scanVector ReconExtractor.extract at heq
  rw [hi₁.syns, hi₁.tcps, hi₂.syns, hi₂.tcps, hsyns, hsyns, htcps, htcps] at heq
  simp only [Prod.mk.injEq, Option.some.injEq] at heq
  obtain ⟨hratio, hscore, -⟩ := heq
  rw [hratio] at hscore
  -- the ratio is positive, so the scores give the SYNs, and these the totals
  have hmax : ∀ n : ℕ, max 1 (n + 2) = n + 2 := fun n => Nat.max_eq_right (by omega)
  rw [hmax, hmax] at hratio
  rw [hmax] at hscore
  have hcast : ∀ n : ℕ, ((n + 2 : ℕ) : K) ≠ 0 := fun n => by
    exact_mod_cast (by omega : n + 2 ≠ 0)
  have hpos : ((synsSeen h₂ + 2 : ℕ) : K) / ((tcpsSeen h₂ + 2 : ℕ) : K) ≠ 0 :=
    div_ne_zero (hcast _) (hcast _)
  have hsame : synsSeen h₁ + 2 = synsSeen h₂ + 2 := by
    exact_mod_cast mul_left_cancel₀ hpos hscore
  rw [hsame] at hratio
  have htotal : tcpsSeen h₁ + 2 = tcpsSeen h₂ + 2 := by
    have hmul := (div_eq_div_iff (hcast _) (hcast _)).mp hratio
    exact_mod_cast (mul_left_cancel₀ (hcast _) hmul).symm
  exact ⟨by omega, by omega⟩

end FeatureScheduler

/-! ### Entropies over the reals -/

/-- The entropy of a sketch over the reals, if its logarithm is the binary one. -/
theorem approximateEntropy_eq {math : PyMath ℝ} (hlog : ∀ x, 0 < x → math.log2 x = Real.logb 2 x)
    {s : CountMinSketch} {w : ℕ} {c : ℕ → ℕ}
    (hrow : s.table.head? = some ((List.range w).map c))
    (htotal : s.totalCount = ∑ i ∈ Finset.range w, c i) (hpos : s.totalCount ≠ 0) :
    s.approximateEntropy math = entropy (Finset.range w) c / Real.log 2 := by
  have hNpos : (0 : ℝ) < s.totalCount := by exact_mod_cast Nat.pos_of_ne_zero hpos
  -- the loop subtracts the terms of the entropy one by one; an empty cell has none
  have hfold : ∀ (row : List ℕ) (e : ℝ), row.foldl (fun (entropy : ℝ) (count : ℕ) =>
      if count > 0 then entropy - count / s.totalCount * math.log2 (count / s.totalCount)
      else entropy) e =
        e + (row.map fun n : ℕ => Real.negMulLog (n / s.totalCount)).sum / Real.log 2 := by
    intro row
    induction row with
    | nil =>
      intro e
      rw [List.foldl_nil, List.map_nil, List.sum_nil, zero_div, add_zero]
    | cons n row ih =>
      intro e
      rw [List.foldl_cons, ih, List.map_cons, List.sum_cons]
      split
      · next hn =>
        have hp : (0 : ℝ) < n / s.totalCount := div_pos (by exact_mod_cast hn) hNpos
        rw [hlog _ hp, Real.logb, Real.negMulLog]
        ring
      · next hn =>
        obtain rfl : n = 0 := by omega
        rw [Nat.cast_zero, zero_div, Real.negMulLog_zero, zero_add]
  unfold CountMinSketch.approximateEntropy
  rw [if_neg hpos, List.headD_eq_head?_getD, hrow, Option.getD_some, hfold, zero_add, List.map_map,
    entropy, ← htotal]
  rfl

namespace FeatureScheduler

/-- A UDP packet from a given address. -/
def udpPacket (srcIp : String) : ParsedPacket :=
  ⟨srcIp, "10.0.0.2", 60, some .udp, 40000, 443, 0, none⟩

omit [LinearOrder K] in
/-- A probe from one address grows the address's column. -/
theorem seenInColumn_probe (hash : SketchHash) (h : List (TimedPacket K)) (srcIp : String) (t : K)
    (m : ℕ) : seenInColumn hash (h ++ probe (udpPacket srcIp) t m) =
      grow (seenInColumn hash h) (hash 0 srcIp % 1024) (m + 2) := by
  funext c
  unfold seenInColumn grow
  rw [List.countP_append]
  by_cases hc : hash 0 srcIp % 1024 = c
  · rw [countP_probe (b := true) fun _ => decide_eq_true ⟨rfl, hc⟩, hc, Function.update_self]
    rfl
  · rw [countP_probe (b := false) fun _ => decide_eq_false fun h => hc h.2,
      Function.update_of_ne (Ne.symm hc)]
    rfl

/-- **Entropies tell the sketches apart.** -/
theorem columns_of_agree (cfg : SchedulerConfig ℝ) (hone : cfg.window1s = 1)
    (hlog : ∀ x, 0 < x → cfg.math.log2 x = Real.logb 2 x)
    (hcolumns : ∃ a b, cfg.hash 0 a % 1024 ≠ cfg.hash 0 b % 1024) {h₁ h₂ : List (TimedPacket ℝ)}
    {t : ℝ} (h₁end : EndsAt cfg h₁ t) (h₂end : EndsAt cfg h₂ t)
    (hagree : ∀ k, nextSecond cfg ((machine cfg).after h₁) k =
      nextSecond cfg ((machine cfg).after h₂) k) (c : ℕ) :
    seenInColumn cfg.hash h₁ c = seenInColumn cfg.hash h₂ c := by
  classical
  -- the columns that addresses are in
  set r : Finset ℕ := (Finset.range 1024).filter fun c => ∃ a, cfg.hash 0 a % 1024 = c
  have hmem : ∀ a, cfg.hash 0 a % 1024 ∈ r := fun a =>
    Finset.mem_filter.mpr ⟨Finset.mem_range.mpr (Nat.mod_lt _ (by norm_num)), a, rfl⟩
  have hempty : ∀ (h : List (TimedPacket ℝ)) (c : ℕ), c ∉ r → seenInColumn cfg.hash h c = 0 := by
    intro h c hc
    unfold seenInColumn
    rw [List.countP_eq_zero]
    intro p _ hp
    rw [decide_eq_true_eq] at hp
    exact hc (hp.2 ▸ hmem p.info.srcIp)
  have htwo : 2 ≤ r.card := by
    obtain ⟨a, b, hab⟩ := hcolumns
    exact Finset.one_lt_card.mpr ⟨_, hmem a, _, hmem b, hab⟩
  have hentropy : ∀ (h : List (TimedPacket ℝ)) (a : String) (m : ℕ),
      ((machine cfg).after (h ++ probe (udpPacket a) t m)).ddos.srcIpEntropyCms.approximateEntropy
        cfg.math = entropy (Finset.range 1024)
          (grow (seenInColumn cfg.hash h) (cfg.hash 0 a % 1024) (m + 2)) / Real.log 2 := by
    intro h a m
    have hi := accumulated_after cfg (h ++ probe (udpPacket a) t m)
    have hrow := hi.row
    have htotal := hi.total
    rw [seenInColumn_probe] at hrow htotal
    refine approximateEntropy_eq hlog hrow htotal ?_
    rw [htotal, sum_grow (Finset.filter_subset _ _ (hmem a))]
    omega
  by_cases hc : c ∈ r
  · have hgrown : ∀ j ∈ r, ∀ n, 1 < n →
        entropy (Finset.range 1024) (grow (seenInColumn cfg.hash h₁) j n) =
          entropy (Finset.range 1024) (grow (seenInColumn cfg.hash h₂) j n) := by
      intro j hj n hn
      obtain ⟨m, rfl⟩ : ∃ m, n = m + 2 := ⟨n - 2, by omega⟩
      obtain ⟨-, a, rfl⟩ := Finset.mem_filter.mp hj
      have heq := scanVector_probe_eq cfg hone h₁end h₂end hagree (udpPacket a) m
      unfold scanVector at heq
      simp only [Prod.mk.injEq, Option.some.injEq] at heq
      have hdiv := heq.2.2
      rw [hentropy, hentropy] at hdiv
      exact (div_left_inj' (Real.log_pos one_lt_two).ne').mp hdiv
    exact eq_of_entropy_eq (Finset.filter_subset _ _) htwo (fun i _ hi => hempty h₁ i hi)
      (fun i _ hi => hempty h₂ i hi) hgrown c (Finset.filter_subset _ _ hc)
  · rw [hempty h₁ c hc, hempty h₂ c hc]

/-- **What the next second depends on.** For two histories that end with a
one-second emission at the same time: the SYN ratio, the scan activity and the
address entropy of the next one-second emission agree in both runs on every
continuation, if and only if the histories have the same number of SYNs, of TCP
packets, and of packets in each column of the sketch. -/
theorem second_depends_iff (hash : SketchHash) (math : PyMath ℝ)
    (hlog : ∀ x, 0 < x → math.log2 x = Real.logb 2 x)
    (hcolumns : ∃ a b, hash 0 a % 1024 ≠ hash 0 b % 1024) (h₁ h₂ : List (TimedPacket ℝ)) (t : ℝ)
    (h₁end : EndsAt (.default hash math) h₁ t) (h₂end : EndsAt (.default hash math) h₂ t) :
    (∀ k, nextSecond (.default hash math) ((machine (.default hash math)).after h₁) k =
      nextSecond (.default hash math) ((machine (.default hash math)).after h₂) k) ↔
      SeenAlike hash h₁ h₂ := by
  constructor
  · -- counters and columns can be read off by probes
    intro hagree
    obtain ⟨hsyns, htcps⟩ := counters_of_agree (.default hash math) rfl h₁end h₂end hagree
    exact ⟨hsyns, htcps, columns_of_agree (.default hash math) rfl hlog hcolumns h₁end h₂end hagree⟩
  · intro hseen k
    exact (alike_of_seenAlike (.default hash math) h₁end h₂end hseen).nextSecond _ k

theorem endsAt_two [IsStrictOrderedRing K] (hash : SketchHash) (math : PyMath K)
    (x y : ParsedPacket) :
    EndsAt (.default hash math) [⟨x, 1, none, none⟩, ⟨y, 2, none, none⟩] 2 := by
  refine ⟨[⟨x, 1, none, none⟩], ⟨y, 2, none, none⟩, rfl, rfl, ?_⟩
  -- the first packet starts the windows
  have hstart : (new : FeatureScheduler K).start1s 1 = 1 := if_pos (Or.inl rfl)
  have hwait : ¬ (new : FeatureScheduler K).Due1s (.default hash math) 1 := by
    unfold Due1s
    rw [hstart, sub_self]
    exact not_le.mpr one_pos
  have hlast : ((machine (.default hash math)).after [⟨x, 1, none, none⟩]).last1s = (1 : K) := by
    show ((machine (.default hash math)).next new ⟨x, 1, none, none⟩).last1s = 1
    rw [last1s_next, if_neg hwait, hstart]
  have hbase : ¬ ((machine (.default hash math)).after [⟨x, 1, none, none⟩]).Rebases (2 : K) := by
    unfold Rebases
    rw [hlast]
    norm_num
  unfold Due1s start1s
  rw [if_neg hbase, hlast]
  show (2 : K) - 1 ≥ 1
  norm_num

/-- The columns md5 gives to two addresses. -/
def sampleHash : SketchHash := fun seed item =>
  if seed = 0 ∧ item = "10.0.0.1" then 986 else if seed = 0 ∧ item = "10.0.0.3" then 804 else 0

/-- The functions of the `math` module, over the reals. -/
noncomputable def realMath : PyMath ℝ := ⟨Real.sqrt, Real.logb 2⟩

/-- The same two packets in either order. -/
theorem second_depends_iff_two_packets :
    SeenAlike (K := ℝ) sampleHash
      [⟨udpPacket "10.0.0.1", 1, none, none⟩, ⟨udpPacket "10.0.0.3", 2, none, none⟩]
      [⟨udpPacket "10.0.0.3", 1, none, none⟩, ⟨udpPacket "10.0.0.1", 2, none, none⟩] ∧
    ∀ k, nextSecond (.default sampleHash realMath) ((machine (.default sampleHash realMath)).after
        [⟨udpPacket "10.0.0.1", 1, none, none⟩, ⟨udpPacket "10.0.0.3", 2, none, none⟩]) k =
      nextSecond (.default sampleHash realMath) ((machine (.default sampleHash realMath)).after
        [⟨udpPacket "10.0.0.3", 1, none, none⟩, ⟨udpPacket "10.0.0.1", 2, none, none⟩]) k := by
  have hseen : SeenAlike (K := ℝ) sampleHash
      [⟨udpPacket "10.0.0.1", 1, none, none⟩, ⟨udpPacket "10.0.0.3", 2, none, none⟩]
      [⟨udpPacket "10.0.0.3", 1, none, none⟩, ⟨udpPacket "10.0.0.1", 2, none, none⟩] := by
    refine ⟨rfl, rfl, fun c => ?_⟩
    unfold seenInColumn
    rw [List.countP_cons, List.countP_singleton, List.countP_cons, List.countP_singleton]
    exact Nat.add_comm _ _
  refine ⟨hseen, (second_depends_iff sampleHash realMath (fun _ _ => rfl)
    ⟨"10.0.0.1", "10.0.0.3", by decide⟩ _ _ 2 (endsAt_two _ _ _ _) (endsAt_two _ _ _ _)).mpr hseen⟩

/-- **A second that remembers.** After two UDP packets and after two SYNs, the
same SYNs are reported as a different scan. -/
theorem scan_outlives_second :
    ¬ ∀ (hash : SketchHash) (math : PyMath ℝ) (h₁ h₂ : List (TimedPacket ℝ)) (t : ℝ),
      EndsAt (.default hash math) h₁ t → EndsAt (.default hash math) h₂ t →
      ∀ k, nextSecond (.default hash math) ((machine (.default hash math)).after h₁) k =
        nextSecond (.default hash math) ((machine (.default hash math)).after h₂) k := by
  intro hall
  have hagree := hall sampleHash realMath
    [⟨udpPacket "10.0.0.1", 1, none, none⟩, ⟨udpPacket "10.0.0.1", 2, none, none⟩]
    [⟨synPacket "10.0.0.1", 1, none, none⟩, ⟨synPacket "10.0.0.1", 2, none, none⟩] 2
    (endsAt_two _ _ _ _) (endsAt_two _ _ _ _)
  obtain ⟨hsyns, -⟩ := counters_of_agree (.default sampleHash realMath) rfl (endsAt_two _ _ _ _)
    (endsAt_two _ _ _ _) hagree
  have htwo : (0 : ℕ) = 2 := hsyns
  omega

end FeatureScheduler

end Sentrix
