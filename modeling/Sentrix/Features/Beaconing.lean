import Mathlib.Data.List.Infix
import Mathlib.Tactic.LinearCombination
import Sentrix.Lib.Samples
import Sentrix.Features.Scheduler

/-!
# Beacons

A beacon is a pair of addresses whose packets come at even times. The extractor keeps an
entry for each pair, under both addresses joined by an arrow: the time of the last packet,
and Welford's statistics of the gaps between the packets. A gap that is not positive is
not a sample, but the last time moves with every packet.

The entry of a pair is a function of the times of the pair's packets (`entryOf`), as long
as no sweep removes it: the arrow is found in no address, so the keys of two pairs differ
(`pair_inj`). Along the times the statistics are those of the positive gaps
(`Welford.Of`), and these telescope.
-/

namespace Sentrix

variable {K : Type} [Field K]

/-! ### Welford's statistics -/

namespace Welford

/-- The statistics are those of the samples `xs`. -/
structure Of (s : Welford K) (xs : List K) : Prop where
  count : s.count = xs.length
  total : s.mean * s.count = xs.sum
  squares : s.m2 = sumSquares s.mean xs

theorem Of.new : (new : Welford K).Of [] := ⟨rfl, zero_mul _, rfl⟩

variable [CharZero K]

/-- **One sample.** The centre moves by the `n`th part of the new deviation. -/
theorem Of.update {s : Welford K} {xs : List K} (hs : s.Of xs) (x : K) :
    (s.update x).Of (xs ++ [x]) := by
  set n : K := (s.count : K) with hn
  set d : K := (x - s.mean) / ((s.count + 1 : ℕ) : K)
  have hcast : ((s.count + 1 : ℕ) : K) = n + 1 := by rw [Nat.cast_add, Nat.cast_one]
  -- the step of the mean, multiplied out
  have hd : d * (n + 1) = x - s.mean := by
    rw [← hcast]
    exact div_mul_cancel₀ _ (Nat.cast_ne_zero.mpr (Nat.succ_ne_zero s.count))
  have hmean : (s.update x).mean = s.mean + d := rfl
  have hlen : (xs.length : K) = n := by rw [hn, hs.count]
  have hsum : xs.sum = s.mean * n := hs.total.symm
  refine ⟨?_, ?_, ?_⟩
  · rw [List.length_append, ← hs.count]
    rfl
  · show (s.mean + d) * ((s.count + 1 : ℕ) : K) = _
    rw [hcast, List.sum_append, List.sum_singleton, hsum]
    linear_combination hd
  · show s.m2 + (x - s.mean) * (x - (s.mean + d)) = _
    rw [hmean, sumSquares_concat, sum_sq_shift, ← hs.squares, hlen, hsum]
    -- the squares around the moved mean
    linear_combination (-d) * hd

theorem Of.mean_eq {s : Welford K} {xs : List K} (hs : s.Of xs) (hne : xs ≠ []) :
    s.mean = Sentrix.mean xs := by
  have hlen : (xs.length : K) ≠ 0 := Nat.cast_ne_zero.mpr (List.length_pos_of_ne_nil hne).ne'
  unfold Sentrix.mean
  rw [eq_div_iff hlen, ← hs.count, hs.total]

theorem Of.getVariance_eq {s : Welford K} {xs : List K} (hs : s.Of xs) (htwo : 2 ≤ xs.length) :
    s.getVariance = sampleVariance xs := by
  have hne : xs ≠ [] := List.ne_nil_of_length_pos (by omega)
  unfold getVariance sampleVariance
  rw [if_neg (by rw [hs.count]; omega), hs.squares, hs.count, hs.mean_eq hne]

end Welford

/-! ### Pairs -/

/-- The address has no arrow in it. -/
def NoArrow (s : String) : Prop := ¬ ['-', '>'] <:+: s.toList

/-- What is before the first arrow is nothing, if there is no arrow in it and another one
begins the text. -/
theorem eq_nil_of_arrow {as ys vs : List Char} (h : '-' :: '>' :: ys = as ++ '-' :: '>' :: vs)
    (hno : ¬ ['-', '>'] <:+: as) : as = [] := by
  cases as with
  | nil => rfl
  | cons a as =>
    rw [List.cons_append, List.cons.injEq] at h
    obtain ⟨rfl, h⟩ := h
    cases as with
    | nil => exact absurd (List.cons.inj h).1 (by decide)
    | cons b as =>
      obtain rfl := (List.cons.inj h).1
      exact absurd ⟨[], as, rfl⟩ hno

/-- The text before an arrow ends where it does, and what follows is the same. -/
theorem arrow_split {xs as ys zs : List Char} (h : '-' :: '>' :: ys = as ++ '-' :: '>' :: zs)
    (hno : ¬ ['-', '>'] <:+: xs ++ as) : as = [] ∧ ys = zs := by
  have hnil : as = [] :=
    eq_nil_of_arrow h fun harrow => hno (harrow.trans (List.suffix_append _ _).isInfix)
  subst hnil
  exact ⟨rfl, (List.cons.inj (List.cons.inj h).2).2⟩

theorem pair_inj {a b c d : String} (ha : NoArrow a) (hc : NoArrow c)
    (h : BeaconingExtractor.pair a b = BeaconingExtractor.pair c d) : a = c ∧ b = d := by
  have hlist : a.toList ++ '-' :: '>' :: b.toList = c.toList ++ '-' :: '>' :: d.toList := by
    have htext := congrArg String.toList h
    have harrow : "->".toList = ['-', '>'] := rfl
    unfold BeaconingExtractor.pair at htext
    simpa only [String.toList_append, List.append_assoc, harrow, List.cons_append,
      List.nil_append] using htext
  -- one of the two addresses begins with the other
  obtain ⟨as, hright, hrest⟩ | ⟨as, hleft, hrest⟩ := List.append_eq_append_iff.mp hlist
  · unfold NoArrow at hc
    rw [hright] at hc
    obtain ⟨rfl, hdst⟩ := arrow_split hrest hc
    rw [List.append_nil] at hright
    exact ⟨String.toList_inj.mp hright.symm, String.toList_inj.mp hdst⟩
  · unfold NoArrow at ha
    rw [hleft] at ha
    obtain ⟨rfl, hdst⟩ := arrow_split hrest ha
    rw [List.append_nil] at hleft
    exact ⟨String.toList_inj.mp hleft, String.toList_inj.mp hdst.symm⟩

/-! ### The extractor -/

/-- What happens to the extractor: a packet is fed, or stale pairs are swept. -/
inductive BeaconEvent (K : Type)
  | packet (p : ParsedPacket) (currentTime : K)
  | sweep (currentTime ttl : K)

namespace BeaconEvent

/-- The time of a packet. -/
def packetTime : BeaconEvent K → Option K
  | packet _ currentTime => some currentTime
  | sweep _ _ => none

/-- The time of a packet of the pair. -/
def timeFor (srcIp dstIp : String) : BeaconEvent K → Option K
  | packet p currentTime => if p.srcIp = srcIp ∧ p.dstIp = dstIp then some currentTime else none
  | sweep _ _ => none

end BeaconEvent

variable [LinearOrder K]

namespace BeaconingExtractor

/-- The extractor as a machine. -/
def machine (hash : SketchHash) : Machine (BeaconingExtractor K) (BeaconEvent K) Unit where
  init := new
  step
    | s, .packet p currentTime => (s.update hash p currentTime, ())
    | s, .sweep currentTime ttl => (s.sweepStaleState currentTime ttl, ())

/-- The times of the packets of the pair. -/
def timesOf (srcIp dstIp : String) (h : List (BeaconEvent K)) : List K :=
  h.filterMap (BeaconEvent.timeFor srcIp dstIp)

/-- The packets come in order, and no source address has an arrow in it. -/
structure Orderly (h : List (BeaconEvent K)) : Prop where
  sorted : (h.filterMap BeaconEvent.packetTime).Pairwise fun a b => a ≤ b
  addresses : ∀ p t, .packet p t ∈ h → NoArrow p.srcIp

variable (hash : SketchHash)

/-- The event removes the entry of the pair. -/
def Removes (key : String) (s : BeaconingExtractor K) (e : BeaconEvent K) : Prop :=
  (s.flowIats.get? key).isSome ∧ ((machine hash).next s e).flowIats.get? key = none

/-- The entry of the pair was not swept. -/
def Unswept (key : String) (h : List (BeaconEvent K)) : Prop :=
  (machine hash).Along (fun s e => ¬ Removes hash key s e) h

/-- The entry of a pair whose packets came at the given times. -/
def entryOf (ts : List K) : Option (FlowIat K) :=
  ts.foldl (fun entry t => some (touch entry t)) none

theorem entryOf_concat (ts : List K) (t : K) : entryOf (ts ++ [t]) = some (touch (entryOf ts) t) :=
  List.foldl_concat ..

theorem entryOf_eq_none_iff (ts : List K) : entryOf ts = none ↔ ts = [] := by
  cases ts using List.reverseRecOn with
  | nil => exact iff_of_true rfl rfl
  | append_singleton ts t =>
    rw [entryOf_concat]
    exact iff_of_false nofun (List.append_ne_nil_of_right_ne_nil ts (List.cons_ne_nil t []))

/-- **One event.** Only the packets of the pair touch its entry. -/
theorem get?_next {srcIp dstIp : String} (hsrc : NoArrow srcIp) {s : BeaconingExtractor K}
    {e : BeaconEvent K} (he : ∀ p t, e = .packet p t → NoArrow p.srcIp)
    (hkept : ¬ Removes hash (pair srcIp dstIp) s e) :
    ((machine hash).next s e).flowIats.get? (pair srcIp dstIp) =
      (e.timeFor srcIp dstIp).elim (s.flowIats.get? (pair srcIp dstIp)) fun t =>
        some (touch (s.flowIats.get? (pair srcIp dstIp)) t) := by
  cases e with
  | packet p t =>
    show (s.flowIats.set (pair p.srcIp p.dstIp) (touch (s.flowIats.get? (pair p.srcIp p.dstIp))
      t)).get? _ = _
    have htime : (BeaconEvent.packet p t).timeFor srcIp dstIp =
        if p.srcIp = srcIp ∧ p.dstIp = dstIp then some t else none := rfl
    rw [Dict.get?_set, htime]
    by_cases hpair : p.srcIp = srcIp ∧ p.dstIp = dstIp
    · obtain ⟨rfl, rfl⟩ := hpair
      rw [if_pos rfl, if_pos ⟨rfl, rfl⟩, Option.elim_some]
    · -- a packet of another pair is filed under another key
      have hkey : ¬ pair srcIp dstIp = pair p.srcIp p.dstIp := by
        intro hkey
        obtain ⟨rfl, rfl⟩ := pair_inj hsrc (he p t rfl) hkey
        exact hpair ⟨rfl, rfl⟩
      rw [if_neg hkey, if_neg hpair, Option.elim_none]
  | sweep currentTime ttl =>
    show (s.flowIats.retain _).get? _ = s.flowIats.get? _
    -- the entry was not removed, so the sweep kept it
    have hnot : ¬ ((s.flowIats.get? (pair srcIp dstIp)).isSome ∧
        (s.flowIats.retain fun _ e => !decide (currentTime - e.lastTime > ttl)).get?
          (pair srcIp dstIp) = none) := hkept
    rw [Dict.get?_retain] at hnot ⊢
    cases hget : s.flowIats.get? (pair srcIp dstIp) with
    | none => rfl
    | some entry =>
      rw [hget, Option.filter_eq_none_iff] at hnot
      rw [Option.filter_eq_some_iff]
      refine ⟨rfl, ?_⟩
      by_contra hstale
      exact hnot ⟨rfl, fun e he => by rwa [← Option.some.inj he]⟩

/-- **Along every run** that does not remove it, the entry of a pair is that of the times of
its own packets. -/
theorem get?_after {srcIp dstIp : String} (hsrc : NoArrow srcIp) {h : List (BeaconEvent K)}
    (haddr : ∀ p t, .packet p t ∈ h → NoArrow p.srcIp)
    (hkept : Unswept hash (pair srcIp dstIp) h) :
    ((machine hash).after h).flowIats.get? (pair srcIp dstIp) =
      entryOf (timesOf srcIp dstIp h) := by
  refine (machine hash).invariant_of
    (fun h => (∀ p t, .packet p t ∈ h → NoArrow p.srcIp) ∧ Unswept hash (pair srcIp dstIp) h)
    (fun h s => s.flowIats.get? (pair srcIp dstIp) = entryOf (timesOf srcIp dstIp h)) ?_ rfl ?_ h
    ⟨haddr, hkept⟩
  · rintro h e ⟨haddr, hkept⟩
    exact ⟨fun p t hp => haddr p t (List.mem_append_left _ hp),
      (((machine hash).along_concat h e).mp hkept).1⟩
  · rintro h e ⟨haddr, hkept⟩ hi
    have he : ∀ p t, e = .packet p t → NoArrow p.srcIp := by
      rintro p t rfl
      exact haddr p t (List.mem_append_right _ (List.mem_singleton_self _))
    rw [get?_next hash hsrc he (((machine hash).along_concat h e).mp hkept).2, hi]
    -- an event adds at most one time to those of the pair
    have htimes : timesOf srcIp dstIp (h ++ [e]) =
        timesOf srcIp dstIp h ++ (e.timeFor srcIp dstIp).toList := by
      unfold timesOf
      rw [List.filterMap_append, List.filterMap_cons, List.filterMap_nil]
      cases e.timeFor srcIp dstIp <;> rfl
    rw [htimes]
    cases e.timeFor srcIp dstIp with
    | none => exact (congrArg entryOf (List.append_nil _)).symm
    | some t => exact (entryOf_concat _ t).symm

variable [IsStrictOrderedRing K]

/-- The entry has the last time, and the statistics of the positive gaps. -/
theorem entryOf_spec (ts : List K) {e : FlowIat K} (he : entryOf ts = some e) :
    ts.getLast? = some e.lastTime ∧ e.welford.Of (positiveGaps ts) := by
  induction ts using List.reverseRecOn generalizing e with
  | nil => cases he
  | append_singleton ts t ih =>
    rw [entryOf_concat] at he
    obtain rfl := Option.some.inj he
    cases hprev : entryOf ts with
    | none =>
      obtain rfl := (entryOf_eq_none_iff ts).mp hprev
      exact ⟨rfl, Welford.Of.new⟩
    | some prev =>
      obtain ⟨hlast, hof⟩ := ih hprev
      refine ⟨List.getLast?_concat, ?_⟩
      rw [positiveGaps_concat hlast]
      -- a gap that is not positive is a sample on neither side
      show (if t - prev.lastTime > 0 then prev.welford.update (t - prev.lastTime)
        else prev.welford).Of _
      split
      · exact hof.update _
      · exact hof

/-- **What is extracted** for a pair. -/
theorem timing_entryOf (math : PyMath K) (ts : List K) :
    timing math (entryOf ts) =
      if 2 ≤ (positiveGaps ts).length then
        (mean (positiveGaps ts),
          math.sqrt (sampleVariance (positiveGaps ts)) / mean (positiveGaps ts))
      else (0, 0) := by
  cases he : entryOf ts with
  | none =>
    obtain rfl := (entryOf_eq_none_iff ts).mp he
    rfl
  | some e =>
    obtain ⟨-, hof⟩ := entryOf_spec ts he
    unfold timing
    dsimp only
    rw [hof.count]
    by_cases htwo : 2 ≤ (positiveGaps ts).length
    · have hne : positiveGaps ts ≠ [] := List.ne_nil_of_length_pos (by omega)
      have hmany : (positiveGaps ts).length > 1 := htwo
      rw [if_pos hmany, if_pos htwo, hof.mean_eq hne, if_pos (mean_positiveGaps_pos hne)]
      unfold Welford.getStddev
      rw [hof.getVariance_eq htwo]
    · have hfew : ¬ (positiveGaps ts).length > 1 := htwo
      rw [if_neg hfew, if_neg htwo]

/-- The entry of a pair, and what is extracted for it, are those of packets at the times `ts`:
the mean of the positive gaps, and the deviation of the gaps relative to it. -/
structure TimingExact (math : PyMath K) (s : BeaconingExtractor K) (srcIp dstIp : String)
    (ts : List K) : Prop where
  filed : s.flowIats.get? (pair srcIp dstIp) = none ↔ ts = []
  count : ∀ e, s.flowIats.get? (pair srcIp dstIp) = some e →
    e.welford.count = (positiveGaps ts).length
  total : ∀ e, s.flowIats.get? (pair srcIp dstIp) = some e → ∀ first last,
    ts.head? = some first → ts.getLast? = some last →
    e.welford.mean * e.welford.count = last - first
  extracted : ∀ e, s.flowIats.get? (pair srcIp dstIp) = some e → 2 ≤ (positiveGaps ts).length →
    (s.extract hash math srcIp dstIp).meanIat = some e.welford.mean ∧
    (s.extract hash math srcIp dstIp).iatCv =
      some (math.sqrt (sampleVariance (positiveGaps ts)) / e.welford.mean)
  few : (positiveGaps ts).length < 2 → (s.extract hash math srcIp dstIp).meanIat = some 0 ∧
    (s.extract hash math srcIp dstIp).iatCv = some 0

omit [Field K] [IsStrictOrderedRing K] in
/-- The packets of a pair are in order if all are. -/
theorem sorted_timesOf {srcIp dstIp : String} {h : List (BeaconEvent K)}
    (hsorted : (h.filterMap BeaconEvent.packetTime).Pairwise fun a b => a ≤ b) :
    (timesOf srcIp dstIp h).Pairwise fun a b => a ≤ b := by
  -- a pair's times are some of all packets' times
  have hpacket : ∀ (e : BeaconEvent K) t, e.timeFor srcIp dstIp = some t →
      e.packetTime = some t := by
    intro e t he
    cases e with
    | packet p u =>
      have htime : (BeaconEvent.packet p u).timeFor srcIp dstIp =
          if p.srcIp = srcIp ∧ p.dstIp = dstIp then some u else none := rfl
      rw [htime] at he
      split at he
      · exact he
      · cases he
    | sweep currentTime ttl => cases he
  unfold timesOf
  rw [List.pairwise_filterMap] at hsorted ⊢
  refine hsorted.imp ?_
  intro d e hle t ht u hu
  exact hle t (hpacket d t ht) u (hpacket e u hu)

/-- **Beacon timing is that of the pair.** For every run of packets in order, and of sweeps
that leave the entry of the pair: the count is the number of positive gaps between the
packets of the pair, the mean times the count is the time from its first packet to its
last, and what is extracted are the mean and the coefficient of variation of the gaps if
there are two of them. Another run with the same packets of the pair has the same entry
and extracts the same. -/
theorem beacon_timing_exact (math : PyMath K) (srcIp dstIp : String) (hsrc : NoArrow srcIp)
    (h : List (BeaconEvent K)) (hord : Orderly h) (hkept : Unswept hash (pair srcIp dstIp) h) :
    TimingExact hash math ((machine hash).after h) srcIp dstIp (timesOf srcIp dstIp h) ∧
      ∀ h', Orderly h' → Unswept hash (pair srcIp dstIp) h' →
        timesOf srcIp dstIp h' = timesOf srcIp dstIp h →
        ((machine hash).after h').flowIats.get? (pair srcIp dstIp) =
          ((machine hash).after h).flowIats.get? (pair srcIp dstIp) ∧
        (((machine hash).after h').extract hash math srcIp dstIp).meanIat =
          (((machine hash).after h).extract hash math srcIp dstIp).meanIat ∧
        (((machine hash).after h').extract hash math srcIp dstIp).iatCv =
          (((machine hash).after h).extract hash math srcIp dstIp).iatCv := by
  have hentry := get?_after hash hsrc hord.addresses hkept
  -- the entry is that of the times of the pair, and the rest is read off it
  refine ⟨⟨?_, ?_, ?_, ?_, ?_⟩, ?_⟩
  · rw [hentry]
    exact entryOf_eq_none_iff _
  · intro e he
    rw [hentry] at he
    exact (entryOf_spec _ he).2.count
  · intro e he first last hfirst hlast
    rw [hentry] at he
    rw [(entryOf_spec _ he).2.total]
    exact sum_positiveGaps (sorted_timesOf hord.sorted) hfirst hlast
  · intro e he htwo
    rw [hentry] at he
    have hne : positiveGaps (timesOf srcIp dstIp h) ≠ [] := List.ne_nil_of_length_pos (by omega)
    unfold extract
    rw [hentry, timing_entryOf, if_pos htwo, (entryOf_spec _ he).2.mean_eq hne]
    exact ⟨rfl, rfl⟩
  · intro hfew
    unfold extract
    rw [hentry, timing_entryOf, if_neg (by omega)]
    exact ⟨rfl, rfl⟩
  · intro h' hord' hkept' hsame
    have hentry' := get?_after hash hsrc hord'.addresses hkept'
    rw [hsame, ← hentry] at hentry'
    unfold extract
    rw [hentry']
    exact ⟨rfl, rfl, rfl⟩

/-- Three packets between two hosts. -/
theorem beacon_timing_exact_three_packets :
    TimingExact (fun _ _ => 0) ⟨id, id⟩ ((machine (fun _ _ => 0)).after
      ([1, 2, 4].map (BeaconEvent.packet (K := ℚ)
        ⟨"10.0.0.1", "10.0.0.2", 60, some .tcp, 40000, 443, 2, none⟩)))
      "10.0.0.1" "10.0.0.2" [1, 2, 4] := by
  -- the joined key of the pair can be taken apart again
  have hsrc : NoArrow "10.0.0.1" := by
    unfold NoArrow
    decide +kernel
  refine (beacon_timing_exact (fun _ _ => 0) ⟨id, id⟩ "10.0.0.1" "10.0.0.2" hsrc _ ?_ ?_).1
  · refine ⟨by decide +kernel, ?_⟩
    intro p t hp
    obtain ⟨_, -, heq⟩ := List.mem_map.mp hp
    obtain ⟨rfl, -⟩ := BeaconEvent.packet.inj heq
    exact hsrc
  · unfold Unswept Removes
    decide +kernel

end BeaconingExtractor

namespace FeatureScheduler

/-- The extractor of a scheduler has been fed the scheduler's packets, and swept in between. -/
theorem exists_beaconEvents (cfg : SchedulerConfig K) (h : List (TimedPacket K)) :
    ∃ es : List (BeaconEvent K), es.filterMap BeaconEvent.packetTime = h.map TimedPacket.time ∧
      (∀ srcIp dstIp, BeaconingExtractor.timesOf srcIp dstIp es =
        (h.filter fun q => decide (q.info.srcIp = srcIp ∧ q.info.dstIp = dstIp)).map
          TimedPacket.time) ∧
      ((machine cfg).after h).beaconing = (BeaconingExtractor.machine cfg.hash).after es := by
  refine (machine cfg).invariant (fun h s => ∃ es : List (BeaconEvent K),
    es.filterMap BeaconEvent.packetTime = h.map TimedPacket.time ∧
    (∀ srcIp dstIp, BeaconingExtractor.timesOf srcIp dstIp es =
      (h.filter fun q => decide (q.info.srcIp = srcIp ∧ q.info.dstIp = dstIp)).map
        TimedPacket.time) ∧
    s.beaconing = (BeaconingExtractor.machine cfg.hash).after es)
    ⟨[], rfl, fun _ _ => rfl, rfl⟩ ?_ h
  rintro h p ⟨es, htimes, hpairs, hstate⟩
  set s := (machine cfg).after h
  have hnext : ((machine cfg).next s p).beaconing =
      if s.Due60s cfg p.time then (s.beaconing.update cfg.hash p.info p.time).sweepStaleState
        (s.start60s p.time) 120 else s.beaconing.update cfg.hash p.info p.time := by
    show (processPacket cfg s p).1.beaconing = _
    rw [processPacket_fst]
    rfl
  have hpacket : ∀ srcIp dstIp, BeaconingExtractor.timesOf srcIp dstIp
      (es ++ [.packet p.info p.time]) = ((h ++ [p]).filter fun q =>
        decide (q.info.srcIp = srcIp ∧ q.info.dstIp = dstIp)).map TimedPacket.time := by
    intro srcIp dstIp
    rw [List.filter_append, List.map_append, ← hpairs]
    unfold BeaconingExtractor.timesOf
    rw [List.filterMap_append]
    congr 1
    by_cases hpair : p.info.srcIp = srcIp ∧ p.info.dstIp = dstIp
    · simp [BeaconEvent.timeFor, hpair]
    · simp [BeaconEvent.timeFor, hpair]
  have hfed : (BeaconingExtractor.machine cfg.hash).after (es ++ [.packet p.info p.time]) =
      s.beaconing.update cfg.hash p.info p.time := by
    rw [Machine.after_concat, ← hstate]
    rfl
  -- where the 60 s window is due, a sweep follows the packet
  by_cases hdue : s.Due60s cfg p.time
  · refine ⟨es ++ [.packet p.info p.time] ++ [.sweep (s.start60s p.time) 120], ?_, ?_, ?_⟩
    · rw [List.filterMap_append, List.filterMap_append, htimes, List.map_append]
      exact List.append_nil _
    · intro srcIp dstIp
      rw [← hpacket]
      unfold BeaconingExtractor.timesOf
      rw [List.filterMap_append]
      exact List.append_nil _
    · rw [hnext, if_pos hdue, Machine.after_concat, hfed]
      rfl
  · refine ⟨es ++ [.packet p.info p.time], ?_, hpacket, ?_⟩
    · rw [List.filterMap_append, htimes, List.map_append]
      rfl
    · rw [hnext, if_neg hdue, hfed]

end FeatureScheduler

end Sentrix
