import Mathlib.Tactic.Linarith
import Sentrix.Features.Scheduler

/-!
# The sweeps of the sixty-second window

Two extractors keep a table with an entry for each destination, and for each pair
of addresses, that was seen: `dst_state` and `flow_iats`. With each sixty-second
emission entries that were not updated for 60 and for 120 seconds are removed.
The age of an entry is taken at `last_60s`, which is still the *start* of the
window that ends: the sweep removes what was old a window ago.

Both tables are tables of last times (`TableInv`): an entry carries the time of
the last packet for its key, and a key without an entry has no packet of less
than the table's lifetime before the start of the window. A sweep is therefore
exact if and only if no key was last seen in between, within its lifetime of the
start of the window but not within its lifetime of the emission (`InGap`,
`sweep_exact_iff`).
-/

namespace Sentrix

variable {K : Type} [Field K] [LinearOrder K]

/-! ### Tables of last times -/

section LastTimes

variable {κ : Type} [DecidableEq κ] (key : TimedPacket K → Option κ) (ttl : K)

/-- The last packet for a key. -/
def lastFor (h : List (TimedPacket K)) (k : κ) : Option (TimedPacket K) :=
  (h.filter fun p => decide (key p = some k)).getLast?

/-- What holds of a table, given by the last time it has for each key, after the
packets `h`, if nothing was swept later than at `clock`. -/
structure TableInv (h : List (TimedPacket K)) (clock : K) (look : κ → Option K) : Prop where
  seen : ∀ k τ, look k = some τ → (lastFor key h k).map TimedPacket.time = some τ
  swept : ∀ k q, look k = none → lastFor key h k = some q → q.time < clock - ttl

/-- The table once a packet was filed. -/
def fileTime (look : κ → Option K) (p : TimedPacket K) (k : κ) : Option K :=
  if key p = some k then some p.time else look k

/-- The table once it was swept at the time `start`. -/
def sweepTimes (look : κ → Option K) (start : K) (k : κ) : Option K :=
  (look k).filter fun τ => !decide (start - τ > ttl)

/-- The time is within the table's lifetime of `start`, and not of `time`. -/
def InGap (start time τ : K) : Prop := start - ttl ≤ τ ∧ τ < time - ttl

variable {key ttl} {h : List (TimedPacket K)} {clock : K} {look : κ → Option K}

omit [Field K] [LinearOrder K] in
/-- One more packet is the last for its own key. -/
theorem lastFor_concat (p : TimedPacket K) (k : κ) :
    lastFor key (h ++ [p]) k = if key p = some k then some p else lastFor key h k := by
  unfold lastFor
  rw [List.filter_append]
  by_cases hk : key p = some k
  · have hkeep : [p].filter (fun p => decide (key p = some k)) = [p] := by simp [hk]
    rw [hkeep, List.getLast?_append, List.getLast?_singleton, if_pos hk]
    rfl
  · have hdrop : [p].filter (fun p => decide (key p = some k)) = [] := by simp [hk]
    rw [hdrop, List.append_nil, if_neg hk]

/-- A packet files its own key. -/
theorem TableInv.file (hi : TableInv key ttl h clock look) (p : TimedPacket K) :
    TableInv key ttl (h ++ [p]) clock (fileTime key look p) := by
  refine ⟨?_, ?_⟩
  · intro k τ hlook
    rw [lastFor_concat]
    unfold fileTime at hlook
    split
    · -- the packet files its own key, and that key only
      next hk =>
      rw [if_pos hk] at hlook
      exact hlook
    · next hk =>
      rw [if_neg hk] at hlook
      exact hi.seen k τ hlook
  · intro k q hlook hlast
    rw [lastFor_concat] at hlast
    unfold fileTime at hlook
    split at hlook
    · cases hlook
    · next hk =>
      rw [if_neg hk] at hlast
      exact hi.swept k q hlook hlast

variable [IsStrictOrderedRing K]

/-- The clock may move on between two sweeps. -/
theorem TableInv.later {clock' : K} (hi : TableInv key ttl h clock look) (hle : clock ≤ clock') :
    TableInv key ttl h clock' look := by
  refine ⟨hi.seen, ?_⟩
  intro k q hlook hlast
  have hlt := hi.swept k q hlook hlast
  linarith

/-- A sweep removes what is older than the ttl at its start. -/
theorem TableInv.sweep {start : K} (hi : TableInv key ttl h clock look) (hle : clock ≤ start) :
    TableInv key ttl h start (sweepTimes ttl look start) := by
  refine ⟨?_, ?_⟩
  · intro k τ hlook
    exact hi.seen k τ (Option.filter_eq_some_iff.mp hlook).1
  · intro k q hlook hlast
    cases hold : look k with
    | none => exact (hi.later hle).swept k q hold hlast
    | some τ =>
      -- the entry is removed by this sweep
      have hseen := hi.seen k τ hold
      rw [hlast] at hseen
      obtain rfl : q.time = τ := Option.some.inj hseen
      unfold sweepTimes at hlook
      rw [hold, Option.filter_eq_none_iff] at hlook
      have hstale := hlook q.time rfl
      rw [Bool.not_eq_true', decide_eq_false_iff_not, not_not] at hstale
      linarith

/-- **A sweep is exact** if no key was last seen in the gap. -/
theorem TableInv.bounded_iff {start time : K} (hi : TableInv key ttl h clock look)
    (hle : clock ≤ start) :
    (∀ k τ, sweepTimes ttl look start k = some τ → time - τ ≤ ttl) ↔
      ∀ k q, lastFor key h k = some q → ¬ InGap ttl start time q.time := by
  constructor
  · rintro hbounded k q hlast ⟨hfrom, hto⟩
    cases hlook : look k with
    | none =>
      -- what was swept was too old then, and lies before the gap
      have hlt := (hi.later hle).swept k q hlook hlast
      linarith
    | some τ =>
      have hseen := hi.seen k τ hlook
      rw [hlast] at hseen
      obtain rfl : q.time = τ := Option.some.inj hseen
      have hkept : sweepTimes ttl look start k = some q.time := by
        unfold sweepTimes
        rw [hlook, Option.filter_eq_some_iff]
        refine ⟨rfl, ?_⟩
        rw [Bool.not_eq_true', decide_eq_false_iff_not, not_lt]
        linarith
      have hage := hbounded k q.time hkept
      linarith
  · intro hgap k τ hkept
    obtain ⟨hlook, hfresh⟩ := Option.filter_eq_some_iff.mp hkept
    obtain ⟨q, hlast, rfl⟩ := Option.map_eq_some_iff.mp (hi.seen k τ hlook)
    rw [Bool.not_eq_true', decide_eq_false_iff_not, not_lt] at hfresh
    by_contra hold
    exact hgap k q hlast ⟨by linarith, by linarith⟩

end LastTimes

namespace FeatureScheduler

variable (cfg : SchedulerConfig K)

/-! ### The two tables -/

/-- The destination whose entry a packet updates. -/
def dstKey (p : TimedPacket K) : Option String :=
  if p.info.protocol.isSome then some p.info.dstIp else none

/-- The pair of addresses whose entry a packet updates. -/
def pairKey (p : TimedPacket K) : Option String :=
  some (BeaconingExtractor.pair p.info.srcIp p.info.dstIp)

/-- The last times of `dst_state`. -/
def dstTimes (s : FeatureScheduler K) (dst : String) : Option K :=
  (s.ddos.dstState.get? dst).map DstState.lastTime

/-- The last times of `flow_iats`. -/
def pairTimes (s : FeatureScheduler K) (pair : String) : Option K :=
  (s.beaconing.flowIats.get? pair).map FlowIat.lastTime

/-- Feeding a packet files its destination. -/
theorem dstTimes_feed (s : FeatureScheduler K) (p : TimedPacket K) :
    dstTimes (s.feed cfg p) = fileTime dstKey (dstTimes s) p := by
  funext dst
  show ((if p.info.protocol.isSome then s.ddos.update cfg.hash p.info p.time
    else s.ddos).dstState.get? dst).map DstState.lastTime = _
  unfold fileTime dstKey
  by_cases hp : p.info.protocol.isSome = true
  · rw [if_pos hp, if_pos hp]
    show ((s.ddos.dstState.set p.info.dstIp (s.ddos.touch p.info p.time)).get? dst).map _ = _
    rw [Dict.get?_set]
    -- a touch stamps the entry with the packet's time, whether it is new or not
    have htouch : (s.ddos.touch p.info p.time).lastTime = p.time := by
      unfold DdosExtractor.touch
      dsimp only
      split <;> rfl
    by_cases hdst : dst = p.info.dstIp
    · rw [if_pos hdst, if_pos (congrArg some hdst.symm), Option.map_some, htouch]
    · have hne : ¬ some p.info.dstIp = some dst := fun h => hdst (Option.some.inj h).symm
      rw [if_neg hdst, if_neg hne]
      rfl
  · have hne : ¬ (none : Option String) = some dst := nofun
    rw [if_neg hp, if_neg hp, if_neg hne]
    rfl

/-- Feeding a packet files its pair. -/
theorem pairTimes_feed (s : FeatureScheduler K) (p : TimedPacket K) :
    pairTimes (s.feed cfg p) = fileTime pairKey (pairTimes s) p := by
  funext pair
  show ((s.beaconing.flowIats.set (BeaconingExtractor.pair p.info.srcIp p.info.dstIp)
    (BeaconingExtractor.touch _ p.time)).get? pair).map FlowIat.lastTime = _
  rw [Dict.get?_set]
  have htouch : ∀ entry : Option (FlowIat K),
      (BeaconingExtractor.touch entry p.time).lastTime = p.time := by
    intro entry
    cases entry <;> rfl
  unfold fileTime pairKey
  -- the packet's own pair is stamped, the others keep their times
  by_cases hpair : pair = BeaconingExtractor.pair p.info.srcIp p.info.dstIp
  · rw [if_pos hpair, if_pos (congrArg some hpair.symm), Option.map_some, htouch]
  · have hne : ¬ some (BeaconingExtractor.pair p.info.srcIp p.info.dstIp) = some pair :=
      fun h => hpair (Option.some.inj h).symm
    rw [if_neg hpair, if_neg hne]
    rfl

/-- The entries a packet leaves in `dst_state`. -/
theorem get?_dstState_next (s : FeatureScheduler K) (p : TimedPacket K) (dst : String) :
    ((machine cfg).next s p).ddos.dstState.get? dst =
      if s.Due60s cfg p.time then ((s.feed cfg p).ddos.dstState.get? dst).filter fun e =>
        !decide (s.start60s p.time - e.lastTime > 60)
      else (s.feed cfg p).ddos.dstState.get? dst := by
  show (processPacket cfg s p).1.ddos.dstState.get? dst = _
  rw [processPacket_fst]
  dsimp only
  -- resetting the counters leaves the table
  have hreset : (if s.Due1s cfg p.time then (s.feed cfg p).ddos.resetWindowCounters
      else (s.feed cfg p).ddos).dstState = (s.feed cfg p).ddos.dstState := by
    split <;> rfl
  split
  · unfold DdosExtractor.sweepStaleState
    rw [Dict.get?_retain, hreset]
  · rw [hreset]

/-- The entries a packet leaves in `flow_iats`. -/
theorem get?_flowIats_next (s : FeatureScheduler K) (p : TimedPacket K) (pair : String) :
    ((machine cfg).next s p).beaconing.flowIats.get? pair =
      if s.Due60s cfg p.time then ((s.feed cfg p).beaconing.flowIats.get? pair).filter fun e =>
        !decide (s.start60s p.time - e.lastTime > 120)
      else (s.feed cfg p).beaconing.flowIats.get? pair := by
  show (processPacket cfg s p).1.beaconing.flowIats.get? pair = _
  rw [processPacket_fst]
  dsimp only
  split
  · exact Dict.get?_retain _ _ _
  · rfl

/-- One packet files its destination, and sweeps if the minute is due. -/
theorem dstTimes_next (s : FeatureScheduler K) (p : TimedPacket K) :
    dstTimes ((machine cfg).next s p) =
      if s.Due60s cfg p.time then
        sweepTimes 60 (fileTime dstKey (dstTimes s) p) (s.start60s p.time)
      else fileTime dstKey (dstTimes s) p := by
  rw [← dstTimes_feed cfg]
  funext dst
  unfold dstTimes
  rw [get?_dstState_next]
  split
  · dsimp only [sweepTimes]
    rw [Option.filter_map]
    rfl
  · rfl

/-- One packet files its pair, and sweeps if the minute is due. -/
theorem pairTimes_next (s : FeatureScheduler K) (p : TimedPacket K) :
    pairTimes ((machine cfg).next s p) =
      if s.Due60s cfg p.time then
        sweepTimes 120 (fileTime pairKey (pairTimes s) p) (s.start60s p.time)
      else fileTime pairKey (pairTimes s) p := by
  rw [← pairTimes_feed cfg]
  funext pair
  unfold pairTimes
  rw [get?_flowIats_next]
  split
  · dsimp only [sweepTimes]
    rw [Option.filter_map]
    rfl
  · rfl

/-! ### Runs -/

/-- Positive, nondecreasing times. -/
structure Ordered (h : List (TimedPacket K)) : Prop where
  positive : ∀ p ∈ h, 0 < p.time
  sorted : h.Pairwise fun a b => a.time ≤ b.time

theorem Ordered.of_concat {h : List (TimedPacket K)} {p : TimedPacket K}
    (hord : Ordered (h ++ [p])) : Ordered h :=
  ⟨fun q hq => hord.positive q (List.mem_append_left _ hq), (List.pairwise_append.mp hord.sorted).1⟩

/-- The window starts at time zero, or with a packet. -/
theorem last60s_after (h : List (TimedPacket K)) :
    ((machine cfg).after h).last60s = 0 ∨ ∃ q ∈ h, ((machine cfg).after h).last60s = q.time := by
  refine (machine cfg).invariant
    (fun h s => s.last60s = 0 ∨ ∃ q ∈ h, s.last60s = q.time) (Or.inl rfl) ?_ h
  intro h p hi
  -- a packet sets the window's start to its own time or leaves it
  have hcases : ((machine cfg).next ((machine cfg).after h) p).last60s = p.time ∨
      ((machine cfg).next ((machine cfg).after h) p).last60s = ((machine cfg).after h).last60s := by
    show (processPacket cfg _ p).1.last60s = _ ∨ (processPacket cfg _ p).1.last60s = _
    rw [processPacket_fst]
    dsimp only [start60s]
    split
    · exact Or.inl rfl
    · split
      · exact Or.inl rfl
      · exact Or.inr rfl
  obtain heq | heq := hcases
  · exact Or.inr ⟨p, List.mem_append_right _ (List.mem_singleton_self p), heq⟩
  · rw [heq]
    refine hi.imp_right ?_
    rintro ⟨q, hq, hlast⟩
    exact ⟨q, List.mem_append_left _ hq, hlast⟩

/-- In a run in order, no packet is before the start of the window. -/
theorem last60s_le_time {h : List (TimedPacket K)} {p : TimedPacket K}
    (hord : Ordered (h ++ [p])) : ((machine cfg).after h).last60s ≤ p.time := by
  have hself : p ∈ h ++ [p] := List.mem_append_right _ (List.mem_singleton_self p)
  obtain heq | ⟨q, hq, heq⟩ := last60s_after cfg h
  · rw [heq]
    exact (hord.positive p hself).le
  · rw [heq]
    exact (List.pairwise_append.mp hord.sorted).2.2 q hq p (List.mem_singleton_self p)

/-- The start of the minute lies between the last one and the packet. -/
theorem start60s_between {s : FeatureScheduler K} {time : K} (hle : s.last60s ≤ time) :
    s.last60s ≤ s.start60s time ∧ s.start60s time ≤ time := by
  unfold start60s
  split
  · exact ⟨hle, le_refl _⟩
  · exact ⟨le_refl _, hle⟩

variable [IsStrictOrderedRing K]

/-- **One packet** keeps a table of last times that is filed and swept with it. -/
theorem tableInv_next {key : TimedPacket K → Option String} {ttl : K} {h : List (TimedPacket K)}
    {s : FeatureScheduler K} {p : TimedPacket K} {look look' : String → Option K}
    (hi : TableInv key ttl h s.last60s look) (hle : s.last60s ≤ p.time)
    (hlook : look' = if s.Due60s cfg p.time then
        sweepTimes ttl (fileTime key look p) (s.start60s p.time)
      else fileTime key look p) :
    TableInv key ttl (h ++ [p]) ((machine cfg).next s p).last60s look' := by
  obtain ⟨hfrom, hto⟩ := start60s_between hle
  have hlast : ((machine cfg).next s p).last60s =
      if s.Due60s cfg p.time then p.time else s.start60s p.time := by
    show (processPacket cfg s p).1.last60s = _
    rw [processPacket_fst]
  rw [hlook, hlast]
  split
  · -- filed, swept at the window's start, and read at the packet's time
    exact ((hi.file p).sweep hfrom).later hto
  · exact (hi.file p).later hfrom

/-- What every ordered run preserves of the two tables. -/
theorem tableInv_after {h : List (TimedPacket K)} (hord : Ordered h) :
    TableInv dstKey 60 h ((machine cfg).after h).last60s (dstTimes ((machine cfg).after h)) ∧
      TableInv pairKey 120 h ((machine cfg).after h).last60s
        (pairTimes ((machine cfg).after h)) := by
  refine (machine cfg).invariant_of Ordered (fun h s =>
    TableInv dstKey 60 h s.last60s (dstTimes s) ∧
    TableInv pairKey 120 h s.last60s (pairTimes s)) (fun h p hord => hord.of_concat) ?_ ?_ h hord
  · exact ⟨⟨nofun, fun k q _ hq => by cases hq⟩, ⟨nofun, fun k q _ hq => by cases hq⟩⟩
  · intro h p hord hi
    have hle := last60s_le_time cfg hord
    exact ⟨tableInv_next cfg hi.1 hle (dstTimes_next cfg _ p),
      tableInv_next cfg hi.2 hle (pairTimes_next cfg _ p)⟩

/-- Of the entries before a sixty-second emission at time `t` exactly those updated
within the lifetime of their table are left, and unchanged. -/
structure SweepExact (before left : FeatureScheduler K) (t : K) : Prop where
  dst_bounded : ∀ dst e, left.ddos.dstState.get? dst = some e → t - e.lastTime ≤ 60
  pair_bounded : ∀ pair e, left.beaconing.flowIats.get? pair = some e → t - e.lastTime ≤ 120
  dst_kept : ∀ dst e, before.ddos.dstState.get? dst = some e → t - e.lastTime ≤ 60 →
    left.ddos.dstState.get? dst = some e
  pair_kept : ∀ pair e, before.beaconing.flowIats.get? pair = some e → t - e.lastTime ≤ 120 →
    left.beaconing.flowIats.get? pair = some e

/-- **When a sweep is exact.** In every run with positive nondecreasing times, a
sixty-second emission leaves exactly the destinations updated in the last 60
seconds and the pairs updated in the last 120 seconds, unchanged, if and only if
no destination and no pair was last seen in the gap: within that time of the
start of the window, but not of the emission. -/
theorem sweep_exact_iff (h : List (TimedPacket K)) (p : TimedPacket K) (hord : Ordered (h ++ [p]))
    (hdue : ((machine cfg).after h).Due60s cfg p.time) :
    SweepExact (((machine cfg).after h).feed cfg p) ((machine cfg).after (h ++ [p])) p.time ↔
      (∀ dst q, lastFor dstKey (h ++ [p]) dst = some q →
        ¬ InGap 60 (((machine cfg).after h).start60s p.time) p.time q.time) ∧
      (∀ pair q, lastFor pairKey (h ++ [p]) pair = some q →
        ¬ InGap 120 (((machine cfg).after h).start60s p.time) p.time q.time) := by
  have hle := last60s_le_time cfg hord
  obtain ⟨hfrom, hto⟩ := start60s_between hle
  obtain ⟨hdst, hpair⟩ := tableInv_after cfg hord.of_concat
  rw [← (hdst.file p).bounded_iff hfrom, ← (hpair.file p).bounded_iff hfrom]
  have hdstTimes := dstTimes_next cfg ((machine cfg).after h) p
  have hpairTimes := pairTimes_next cfg ((machine cfg).after h) p
  rw [if_pos hdue] at hdstTimes hpairTimes
  rw [← hdstTimes, ← hpairTimes, ← Machine.after_concat]
  constructor
  · rintro ⟨hdst, hpair, -, -⟩
    refine ⟨?_, ?_⟩
    · intro dst τ hτ
      obtain ⟨e, he, rfl⟩ := Option.map_eq_some_iff.mp hτ
      exact hdst dst e he
    · intro pair τ hτ
      obtain ⟨e, he, rfl⟩ := Option.map_eq_some_iff.mp hτ
      exact hpair pair e he
  · rintro ⟨hdst, hpair⟩
    refine ⟨?_, ?_, ?_, ?_⟩
    · intro dst e he
      exact hdst dst e.lastTime (by rw [dstTimes, he]; rfl)
    · intro pair e he
      exact hpair pair e.lastTime (by rw [pairTimes, he]; rfl)
    -- what is young at the emission was young at the start of the window
    · intro dst e he hage
      rw [Machine.after_concat, get?_dstState_next, if_pos hdue, he, Option.filter_eq_some_iff]
      refine ⟨rfl, ?_⟩
      rw [Bool.not_eq_true', decide_eq_false_iff_not, not_lt]
      linarith
    · intro pair e he hage
      rw [Machine.after_concat, get?_flowIats_next, if_pos hdue, he, Option.filter_eq_some_iff]
      refine ⟨rfl, ?_⟩
      rw [Bool.not_eq_true', decide_eq_false_iff_not, not_lt]
      linarith

/-- A packet between two addresses. -/
def packetTo (dstIp : String) (time : ℚ) : TimedPacket ℚ :=
  ⟨⟨"10.0.0.1", dstIp, 60, some .udp, 40000, 443, 0, none⟩, time, none, none⟩

/-- A configuration for the runs below, which depend on the windows alone. -/
def plainConfig : SchedulerConfig ℚ := .default (fun seed item => seed + item.length) ⟨id, id⟩

theorem lastFor_two {key : TimedPacket ℚ → Option String} {p q : TimedPacket ℚ} {k : String}
    {x : TimedPacket ℚ} (h : lastFor key [p, q] k = some x) : x = p ∨ x = q := by
  have hmem := List.mem_of_getLast? h
  simpa using (List.mem_filter.mp hmem).1

/-- Two packets to one destination, a minute apart. -/
theorem sweep_exact_iff_two_packets :
    SweepExact (((machine plainConfig).after [packetTo "10.0.0.2" 1]).feed plainConfig
        (packetTo "10.0.0.2" 61))
      ((machine plainConfig).after ([packetTo "10.0.0.2" 1] ++ [packetTo "10.0.0.2" 61])) 61 := by
  have hord : Ordered ([packetTo "10.0.0.2" 1] ++ [packetTo "10.0.0.2" 61]) :=
    ⟨by decide +kernel, by decide +kernel⟩
  have hstart : ((machine plainConfig).after [packetTo "10.0.0.2" 1]).start60s 61 = 1 := by
    decide +kernel
  -- with the window as long as the ttl or shorter there is no gap
  have hgap : ∀ ttl : ℚ, 0 < ttl → ∀ x, x = packetTo "10.0.0.2" 1 ∨ x = packetTo "10.0.0.2" 61 →
      60 ≤ ttl → ¬ InGap ttl 1 61 x.time := by
    rintro ttl hpos x (rfl | rfl) hle ⟨-, hlt⟩
    · change (1 : ℚ) < 61 - ttl at hlt
      linarith
    · change (61 : ℚ) < 61 - ttl at hlt
      linarith
  refine (sweep_exact_iff plainConfig [packetTo "10.0.0.2" 1] (packetTo "10.0.0.2" 61) hord
    (by decide +kernel)).mpr ⟨?_, ?_⟩
  · intro dst q hq
    show ¬ InGap 60 (((machine plainConfig).after [packetTo "10.0.0.2" 1]).start60s 61) 61 q.time
    rw [hstart]
    exact hgap 60 (by norm_num) q (lastFor_two hq) (le_refl _)
  · intro pair q hq
    show ¬ InGap 120 (((machine plainConfig).after [packetTo "10.0.0.2" 1]).start60s 61) 61 q.time
    rw [hstart]
    exact hgap 120 (by norm_num) q (lastFor_two hq) (by norm_num)

/-- **An entry that outlives its minute.** A destination is seen once, at the
start of a window; the emission a hundred seconds later leaves its entry. -/
theorem sweep_leaves_stale :
    ¬ ∀ (hash : SketchHash) (math : PyMath ℚ) (h : List (TimedPacket ℚ)) (p : TimedPacket ℚ),
      Ordered (h ++ [p]) →
      ((machine (.default hash math)).after h).Due60s (.default hash math) p.time →
      SweepExact (((machine (.default hash math)).after h).feed (.default hash math) p)
        ((machine (.default hash math)).after (h ++ [p])) p.time := by
  intro hall
  have hord : Ordered ([packetTo "10.0.0.2" 1] ++ [packetTo "10.0.0.3" 101]) :=
    ⟨by decide +kernel, by decide +kernel⟩
  have hexact := hall (fun seed item => seed + item.length) ⟨id, id⟩ [packetTo "10.0.0.2" 1]
    (packetTo "10.0.0.3" 101) hord (by decide +kernel)
  have hsome : (((machine plainConfig).after
      ([packetTo "10.0.0.2" 1] ++ [packetTo "10.0.0.3" 101])).ddos.dstState.get?
        "10.0.0.2").map DstState.lastTime = some 1 := by
    decide +kernel
  obtain ⟨e, he, hlast⟩ := Option.map_eq_some_iff.mp hsome
  -- the entry of time one is a hundred seconds old and still there
  have hage := hexact.dst_bounded "10.0.0.2" e he
  rw [hlast] at hage
  change (101 : ℚ) - 1 ≤ 60 at hage
  norm_num at hage

end FeatureScheduler

end Sentrix
