import Mathlib.Algebra.Order.Ring.Cast
import Mathlib.Data.Rat.Cast.Order
import Mathlib.Tactic.NormNum
import Sentrix.Features.Scheduler

/-!
# The minute of the DNS-exfiltration features

`DNSExfiltrationFeatures` counts the TXT and CNAME queries of a minute. The
minute is the sixty-second window of the scheduler, and the counters are started
over by `process_packet`, *before* the windows are checked: a DNS packet that
comes a minute or more after `last_60s` begins a new count. `last_60s` itself is
set when the windows are checked, by whichever packet finds the window due. A
packet without a DNS message that does so begins the next minute without
starting the count over, and no later packet makes up for it.

The counters are those of the packets since the last start (`counted_after`), the
minute is what has come since `last_60s` was set (`minute`), and the difference
are the packets of earlier minutes that are still counted (`stale`). An emission
is about the current minute if and only if these hold no TXT or CNAME query
(`dns_minute_iff`).
-/

namespace Sentrix

variable {K : Type} [Field K] [LinearOrder K]

/-- The query is for TXT (16) or CNAME (5) records. -/
def DnsQuery.isTxtCname (q : DnsQuery) : Bool := decide (q.type = 16 ∨ q.type = 5)

/-- The TXT and CNAME queries of some packets. -/
def txtCname (ps : List (TimedPacket K)) : List DnsQuery :=
  ps.flatMap fun p => (p.dns.elim [] DnsMessage.queries).filter DnsQuery.isTxtCname

/-- The mean length of the queries' names; that of no queries is zero. -/
def meanLength (qs : List DnsQuery) : K :=
  ((qs.map fun q => q.name.length).sum : ℕ) / (qs.length : ℕ)

omit [Field K] [LinearOrder K] in
theorem txtCname_append (ps qs : List (TimedPacket K)) :
    txtCname (ps ++ qs) = txtCname ps ++ txtCname qs :=
  List.flatMap_append

namespace FeatureScheduler

variable (cfg : SchedulerConfig K)

/-- The packet sets `last_60s`. -/
def BeginsMinute (s : FeatureScheduler K) (p : TimedPacket K) : Prop :=
  s.Rebases p.time ∨ s.Due60s cfg p.time

/-- The packet starts the count over. -/
def StartsOver (s : FeatureScheduler K) (p : TimedPacket K) : Prop :=
  p.dns.isSome = true ∧ p.time - s.last60s ≥ cfg.window60s

instance (s : FeatureScheduler K) (p : TimedPacket K) : Decidable (BeginsMinute cfg s p) :=
  inferInstanceAs (Decidable (_ ∨ _))

instance (s : FeatureScheduler K) (p : TimedPacket K) : Decidable (StartsOver cfg s p) :=
  inferInstanceAs (Decidable (_ ∧ _))

/-- The packets since the current minute began. -/
def minute (h : List (TimedPacket K)) : List (TimedPacket K) :=
  (machine cfg).since (BeginsMinute cfg) h

/-- The packets since the count was started over. -/
def counted (h : List (TimedPacket K)) : List (TimedPacket K) :=
  (machine cfg).since (StartsOver cfg) h

/-- The packets of earlier minutes that are still counted. -/
def stale (h : List (TimedPacket K)) : List (TimedPacket K) :=
  (counted cfg h).take ((counted cfg h).length - (minute cfg h).length)

/-- The count is started over only where a minute begins. -/
theorem beginsMinute_of_startsOver {s : FeatureScheduler K} {p : TimedPacket K}
    (h : StartsOver cfg s p) : BeginsMinute cfg s p := by
  by_cases hbase : s.Rebases p.time
  · exact Or.inl hbase
  · refine Or.inr ?_
    unfold Due60s
    rw [start60s, if_neg hbase]
    exact h.2

theorem stale_append_minute (h : List (TimedPacket K)) :
    stale cfg h ++ minute cfg h = counted cfg h :=
  List.suffix_iff_eq_append.mp ((machine cfg).since_suffix_of_imp
    (fun _ _ => beginsMinute_of_startsOver cfg) h)

/-! ### What the counters count -/

omit [LinearOrder K] in
/-- One message adds its TXT and CNAME queries. -/
theorem foldl_addQuery (qs : List DnsQuery) (d : DnsExfilExtractor K) :
    (qs.foldl (DnsExfilExtractor.addQuery cfg.math) d).txtCnameQueries1m =
        d.txtCnameQueries1m + (qs.filter DnsQuery.isTxtCname).length ∧
      (qs.foldl (DnsExfilExtractor.addQuery cfg.math) d).totalQueryLen1m = d.totalQueryLen1m +
        ((qs.filter DnsQuery.isTxtCname).map fun q => q.name.length).sum := by
  induction qs generalizing d with
  | nil => exact ⟨rfl, rfl⟩
  | cons q qs ih =>
    rw [List.foldl_cons]
    obtain ⟨hcount, hlen⟩ := ih (d.addQuery cfg.math q)
    rw [hcount, hlen]
    unfold DnsExfilExtractor.addQuery
    -- TXT and CNAME queries only
    by_cases hq : q.type = 16 ∨ q.type = 5
    · have hcounts : q.isTxtCname = true := decide_eq_true hq
      rw [if_pos hq, List.filter_cons_of_pos hcounts, List.length_cons, List.map_cons,
        List.sum_cons]
      dsimp only
      omega
    · have hcounts : ¬ q.isTxtCname = true := fun h => hq (of_decide_eq_true h)
      rw [if_neg hq, List.filter_cons_of_neg hcounts]
      exact ⟨rfl, rfl⟩

/-- The counters hold the number of some packets' TXT and CNAME queries and the
total length of their names. -/
structure Counts (d : DnsExfilExtractor K) (ps : List (TimedPacket K)) : Prop where
  queries : d.txtCnameQueries1m = (txtCname ps).length
  lengths : d.totalQueryLen1m = ((txtCname ps).map fun q => q.name.length).sum

/-- **One packet** is counted, with those before it or as the first. -/
theorem Counts.feed {s : FeatureScheduler K} {ps : List (TimedPacket K)} (h : Counts s.dnsExfil ps)
    (p : TimedPacket K) :
    Counts (s.feed cfg p).dnsExfil (if StartsOver cfg s p then [p] else ps ++ [p]) := by
  show Counts (p.dns.elim s.dnsExfil fun dns => s.dnsExfil.update cfg.math dns
    (decide (p.time - s.last60s ≥ cfg.window60s))) _
  cases hdns : p.dns with
  | none =>
    -- no message: nothing is counted and nothing starts over
    have hno : ¬ StartsOver cfg s p := by
      rintro ⟨hsome, -⟩
      rw [hdns] at hsome
      cases hsome
    have hnone : txtCname [p] = [] := by
      unfold txtCname
      rw [List.flatMap_singleton, hdns]
      rfl
    rw [if_neg hno]
    refine ⟨?_, ?_⟩
    · rw [txtCname_append, hnone, List.append_nil]
      exact h.queries
    · rw [txtCname_append, hnone, List.append_nil]
      exact h.lengths
  | some dns =>
    have hself : txtCname [p] = dns.queries.filter DnsQuery.isTxtCname := by
      unfold txtCname
      rw [List.flatMap_singleton, hdns]
      rfl
    obtain ⟨hcount, hlen⟩ := foldl_addQuery cfg dns.queries
      (if decide (p.time - s.last60s ≥ cfg.window60s) = true then DnsExfilExtractor.new
        else s.dnsExfil)
    show Counts (dns.queries.foldl _ _) _
    by_cases hnew : p.time - s.last60s ≥ cfg.window60s
    · have hover : StartsOver cfg s p := ⟨by rw [hdns]; rfl, hnew⟩
      rw [if_pos hover]
      rw [if_pos (decide_eq_true hnew)] at hcount hlen ⊢
      refine ⟨?_, ?_⟩
      · rw [hcount, hself]
        exact Nat.zero_add _
      · rw [hlen, hself]
        exact Nat.zero_add _
    · have hover : ¬ StartsOver cfg s p := fun h => hnew h.2
      have hold : ¬ decide (p.time - s.last60s ≥ cfg.window60s) = true := by
        rwa [decide_eq_true_eq]
      rw [if_neg hover]
      rw [if_neg hold] at hcount hlen ⊢
      refine ⟨?_, ?_⟩
      · rw [hcount, h.queries, txtCname_append, hself, List.length_append]
      · rw [hlen, h.lengths, txtCname_append, hself, List.map_append, List.sum_append]

theorem dnsExfil_processPacket (s : FeatureScheduler K) (p : TimedPacket K) :
    (processPacket cfg s p).1.dnsExfil = (s.feed cfg p).dnsExfil := by
  rw [processPacket_fst]

/-- **After every run** the counters are those of the packets since the count was
started over. -/
theorem counted_after (h : List (TimedPacket K)) :
    Counts ((machine cfg).after h).dnsExfil (counted cfg h) := by
  refine (machine cfg).invariant (fun h s => Counts s.dnsExfil (counted cfg h)) ⟨rfl, rfl⟩ ?_ h
  intro h p hi
  unfold counted
  rw [Machine.since_concat]
  show Counts (processPacket cfg ((machine cfg).after h) p).1.dnsExfil _
  rw [dnsExfil_processPacket]
  exact hi.feed cfg p

/-- The vector emitted for a packet is that of the counters it leaves. -/
theorem dnsExfil_of_emitted {h : List (TimedPacket K)} {p : TimedPacket K} {v : DnsExfilVector K}
    (hv : .dnsExfil v ∈ (machine cfg).out ((machine cfg).after h) p) :
    v = ((machine cfg).after (h ++ [p])).dnsExfil.extract := by
  rw [Machine.after_concat]
  show _ = (processPacket cfg _ p).1.dnsExfil.extract
  rw [dnsExfil_processPacket]
  change _ ∈ (processPacket cfg _ p).2 at hv
  rw [processPacket_snd] at hv
  simp only [List.mem_append] at hv
  obtain (hv | hv) | hv := hv
  · -- the other two windows emit no such vector; this one reads the extractor after the packet
    split at hv <;> simp at hv
  · split at hv
    · simpa using hv
    · simp at hv
  · split at hv <;> simp at hv

variable [IsStrictOrderedRing K]

/-- **When an emission is about the current minute.** In every run, the TXT/CNAME
rate and the mean name length of an emitted vector are those of the packets since
`last_60s` was set, if and only if no packet of an earlier minute that is still
counted has a TXT or CNAME query. -/
theorem dns_minute_iff (h : List (TimedPacket K)) (p : TimedPacket K) (v : DnsExfilVector K)
    (hv : .dnsExfil v ∈ (machine cfg).out ((machine cfg).after h) p) :
    (v.txtCnameRate = some ((txtCname (minute cfg (h ++ [p]))).length : K) ∧
      v.txtCnameAvgLen = some (meanLength (txtCname (minute cfg (h ++ [p]))))) ↔
      txtCname (stale cfg (h ++ [p])) = [] := by
  obtain ⟨hcount, hlen⟩ := counted_after cfg (h ++ [p])
  have hsplit : txtCname (counted cfg (h ++ [p])) =
      txtCname (stale cfg (h ++ [p])) ++ txtCname (minute cfg (h ++ [p])) := by
    rw [← stale_append_minute, txtCname_append]
  rw [dnsExfil_of_emitted cfg hv]
  unfold DnsExfilExtractor.extract
  dsimp only
  rw [hcount, hlen, hsplit]
  constructor
  · rintro ⟨hrate, -⟩
    -- the rate is the length of both parts
    have heq := Nat.cast_injective (Option.some.inj hrate)
    rw [List.length_append] at heq
    exact List.eq_nil_of_length_eq_zero (by omega)
  · intro hnil
    rw [hnil, List.nil_append]
    refine ⟨rfl, ?_⟩
    unfold meanLength
    split
    · rfl
    · next hpos =>
      have hzero : (txtCname (minute cfg (h ++ [p]))).length = 0 := by omega
      rw [hzero, Nat.cast_zero, div_zero]

/-- A hash and functions for the runs below, which do not depend on them. -/
def plainHash : SketchHash := fun seed item => seed + item.length

/-- A packet to port 53 at a given time, with the DNS message parsed out of it. -/
def dnsPacket (time : ℚ) (dns : Option DnsMessage) : TimedPacket ℚ :=
  ⟨⟨"10.0.0.1", "10.0.0.53", 80, some .udp, 40000, 53, 0, none⟩, time, dns, none⟩

/-- A message that asks for the TXT records of one name. -/
def txtMessage : DnsMessage := ⟨[⟨"data.example", 16⟩], false⟩

/-- The vectors among some that are of DNS exfiltration. -/
def dnsExfilOf (fired : List (FeatureDict ℚ)) : Option (DnsExfilVector ℚ) :=
  fired.findSome? fun
    | .dnsExfil v => some v
    | _ => none

theorem mem_of_dnsExfilOf {fired : List (FeatureDict ℚ)} {v : DnsExfilVector ℚ}
    (h : dnsExfilOf fired = some v) : .dnsExfil v ∈ fired := by
  obtain ⟨fd, hfd, hv⟩ := List.exists_of_findSome?_eq_some h
  cases fd <;> simp at hv
  rwa [hv] at hfd

/-- A TXT query a second into the stream, reported five seconds later. -/
theorem dns_minute_iff_one_query :
    ∃ v, dnsExfilOf ((machine (.default plainHash ⟨id, id⟩)).out
        ((machine (.default plainHash ⟨id, id⟩)).after [dnsPacket 1 (some txtMessage)])
        (dnsPacket 6 none)) = some v ∧ v.txtCnameRate = some 1 := by
  have hsome : (dnsExfilOf ((machine (.default plainHash ⟨id, id⟩)).out
      ((machine (.default plainHash ⟨id, id⟩)).after [dnsPacket 1 (some txtMessage)])
      (dnsPacket 6 none))).isSome = true := by
    decide +kernel
  obtain ⟨v, hv⟩ := Option.isSome_iff_exists.mp hsome
  have hstale : (txtCname (stale (.default plainHash ⟨id, id⟩)
      [dnsPacket 1 (some txtMessage), dnsPacket 6 none])).length = 0 := by
    decide +kernel
  have hminute : (txtCname (minute (.default plainHash ⟨id, id⟩)
      [dnsPacket 1 (some txtMessage), dnsPacket 6 none])).length = 1 := by
    decide +kernel
  obtain ⟨hrate, -⟩ := (dns_minute_iff (.default plainHash ⟨id, id⟩)
    [dnsPacket 1 (some txtMessage)] (dnsPacket 6 none) v (mem_of_dnsExfilOf hv)).mpr
      (List.eq_nil_of_length_eq_zero hstale)
  refine ⟨v, hv, ?_⟩
  rw [hrate]
  show some
    (((txtCname (minute _ [dnsPacket 1 (some txtMessage), dnsPacket 6 none])).length : ℕ) : ℚ) =
    some 1
  rw [hminute, Nat.cast_one]

/-- **A count that outlives its minute.** A TXT query at the first second; a
packet without a DNS message begins the next minute; five seconds later the
emission still counts the query. -/
theorem plain_packet_keeps_count :
    ¬ ∀ (hash : SketchHash) (math : PyMath ℚ) (h : List (TimedPacket ℚ)) (p : TimedPacket ℚ)
      (v : DnsExfilVector ℚ), (∀ q ∈ h ++ [p], 0 < q.time) →
      (h ++ [p]).Pairwise (fun a b => a.time ≤ b.time) →
      .dnsExfil v ∈ (machine (.default hash math)).out ((machine (.default hash math)).after h) p →
      v.txtCnameRate = some ((txtCname (minute (.default hash math) (h ++ [p]))).length : ℚ) ∧
        v.txtCnameAvgLen =
          some (meanLength (txtCname (minute (.default hash math) (h ++ [p])))) := by
  intro hall
  have hsome : (dnsExfilOf ((machine (.default plainHash ⟨id, id⟩)).out
      ((machine (.default plainHash ⟨id, id⟩)).after
        [dnsPacket 1 (some txtMessage), dnsPacket 61 none])
      (dnsPacket 66 none))).isSome = true := by
    decide +kernel
  obtain ⟨v, hv⟩ := Option.isSome_iff_exists.mp hsome
  have hmem := mem_of_dnsExfilOf hv
  have hexact := hall plainHash ⟨id, id⟩ [dnsPacket 1 (some txtMessage), dnsPacket 61 none]
    (dnsPacket 66 none) v (by decide +kernel) (by decide +kernel) hmem
  have hnil := (dns_minute_iff _ _ _ v hmem).mp hexact
  -- the message of the first second is still among those that are counted
  have hstale : (txtCname (stale (.default plainHash ⟨id, id⟩)
      [dnsPacket 1 (some txtMessage), dnsPacket 61 none, dnsPacket 66 none])).length = 1 := by
    decide +kernel
  change txtCname (stale _ [dnsPacket 1 (some txtMessage), dnsPacket 61 none, dnsPacket 66 none])
    = [] at hnil
  rw [hnil] at hstale
  cases hstale

end FeatureScheduler

end Sentrix
