import Mathlib.Algebra.Order.Ring.Rat
import Mathlib.Tactic.NormNum
import Sentrix.Features.Scheduler
import Sentrix.Lib.Lists
import Sentrix.Lib.Smoothing

/-!
# The moving averages of the features

The vectors for DGA, encrypted traffic and exfiltration are moving averages that the scheduler
never resets: of the lengths and entropies of the queried names and the NXDOMAIN flags, of the
lengths of the server names, and of the bytes out and in. They forget nothing altogether: in every
run each is the weighted mean of all its observations since the start (`averages_of_run`), with the
weights of `smoothed`. The encrypted vector shows next to that the sizes and gaps of the first ten
packets with a handshake, for ever.
-/

namespace Sentrix

variable {K : Type} [Field K]

/-! ### One average -/

/-- The average of the observations `xs`. -/
structure Ewma.Of (s : Ewma K) (alpha : K) (xs : List K) : Prop where
  alpha_eq : s.alpha = alpha
  value_eq : s.value = if xs.isEmpty then none else some (smoothed alpha xs)

namespace Ewma.Of

variable {s : Ewma K} {alpha : K} {xs : List K}

theorem new (alpha : K) : (Ewma.new alpha).Of alpha [] := ⟨rfl, rfl⟩

/-- One more sample. -/
theorem update (hs : s.Of alpha xs) (x : K) : (s.update x).Of alpha (xs ++ [x]) where
  alpha_eq := hs.alpha_eq
  value_eq := by
    have hne : (xs ++ [x]).isEmpty = false := by
      rw [List.isEmpty_eq_false_iff]
      exact List.append_ne_nil_of_right_ne_nil xs (List.cons_ne_nil x [])
    have hvalue := hs.value_eq
    unfold Ewma.update
    dsimp only
    rw [hne, hs.alpha_eq]
    -- the first sample is taken as it is, a later one is weighed
    cases hxs : xs with
    | nil =>
      rw [hxs] at hvalue
      rw [hvalue]
      exact congrArg some (smoothed_singleton alpha x).symm
    | cons y ys =>
      rw [hxs] at hvalue
      rw [hvalue]
      exact congrArg some (smoothed_concat alpha (List.cons_ne_nil y ys) x).symm

/-- A list of samples. -/
theorem foldl {β : Type} (f : β → K) (hs : s.Of alpha xs) (l : List β) :
    (l.foldl (fun s b => s.update (f b)) s).Of alpha (xs ++ l.map f) := by
  induction l generalizing s xs with
  | nil =>
    rw [List.map_nil, List.append_nil]
    exact hs
  | cons b l ih =>
    rw [List.map_cons, List.append_cons]
    exact ih (hs.update (f b))

/-- The average read is the fold over all samples. -/
theorem get (hs : s.Of alpha xs) : s.get = smoothed alpha xs := by
  unfold Ewma.get
  rw [hs.value_eq]
  cases xs with
  | nil => exact (smoothed_nil alpha).symm
  | cons x xs => rfl

end Ewma.Of

variable [LinearOrder K]

/-! ### The observations -/

/-- The query has a name. -/
def DnsQuery.isNamed (q : DnsQuery) : Bool := decide (q.name ≠ "")

/-- The queries with a name, of some messages. -/
def namedQueries (ps : List (TimedPacket K)) : List DnsQuery :=
  (ps.flatMap fun p => p.dns.elim [] DnsMessage.queries).filter DnsQuery.isNamed

/-- The NXDOMAIN flags of the messages. -/
def nxdomains (ps : List (TimedPacket K)) : List K :=
  (ps.filterMap TimedPacket.dns).map fun dns => if dns.nxdomain then 1 else 0

/-- The packets with a handshake. -/
def handshakes (ps : List (TimedPacket K)) : List (TimedPacket K) :=
  ps.filter fun p => p.tls.isSome

/-- The server names that are not empty. -/
def serverNames (ps : List (TimedPacket K)) : List String :=
  (ps.filterMap fun p => p.tls.bind TlsHandshake.sni).filter fun sni => decide (sni ≠ "")

/-- The sizes of the packets that leave, or of those that come in. -/
def bytes (outbound : Bool) (ps : List (TimedPacket K)) : List K :=
  (ps.filter fun p => decide (p.info.ipLen > 0) &&
    (FeatureScheduler.isOutbound p.info == outbound)).map fun p => (p.info.ipLen : K)

namespace FeatureScheduler

variable (cfg : SchedulerConfig K)

/-- The averages are those of the packets `h`. -/
structure AveragesInv (h : List (TimedPacket K)) (s : FeatureScheduler K) : Prop where
  lengths : s.dga.queryLengthEwma.Of (1 / 10) ((namedQueries h).map fun q => (q.name.length : K))
  entropies : s.dga.queryEntropyEwma.Of (1 / 10)
    ((namedQueries h).map fun q => DgaExtractor.shannonEntropy cfg.math q.name)
  nxdomain : s.dga.nxdomainEwma.Of (1 / 10) (nxdomains h)
  history : s.encrypted.maxPacketHistory = 10
  sizes : s.encrypted.packetSizes = ((handshakes h).take 10).map fun p => (p.info.ipLen : K)
  timings : s.encrypted.packetTimings = ((handshakes h).take 10).map TimedPacket.time
  sni : s.encrypted.sniEntropyEwma.Of (1 / 5)
    ((serverNames h).map fun sni => (sni.length : K))
  outbound : s.exfil.outboundBytesEwma.Of (1 / 10) (bytes true h)
  inbound : s.exfil.inboundBytesEwma.Of (1 / 10) (bytes false h)

omit [LinearOrder K] in
/-- One message: its named queries, one after the other. -/
theorem foldl_addQuery_dga (math : PyMath K) (qs : List DnsQuery) (d : DgaExtractor K) :
    qs.foldl (DgaExtractor.addQuery math) d =
      { d with
        queryLengthEwma := (qs.filter DnsQuery.isNamed).foldl
          (fun s q => s.update (q.name.length : K)) d.queryLengthEwma
        queryEntropyEwma := (qs.filter DnsQuery.isNamed).foldl
          (fun s q => s.update (DgaExtractor.shannonEntropy math q.name)) d.queryEntropyEwma } := by
  induction qs generalizing d with
  | nil => rfl
  | cons q qs ih =>
    rw [List.foldl_cons, ih]
    unfold DgaExtractor.addQuery
    -- a query without a name is passed over
    by_cases hname : q.name = ""
    · have hskip : ¬ q.isNamed = true := fun h => of_decide_eq_true h hname
      rw [if_pos hname, List.filter_cons_of_neg hskip]
    · have hkeep : q.isNamed = true := decide_eq_true hname
      rw [if_neg hname, List.filter_cons_of_pos hkeep]
      rfl

/-! ### One packet -/

variable {cfg} {h : List (TimedPacket K)} {s : FeatureScheduler K}

omit [Field K] [LinearOrder K] in
/-- One more packet adds the named queries of its own message. -/
theorem namedQueries_concat (h : List (TimedPacket K)) (p : TimedPacket K) :
    namedQueries (h ++ [p]) =
      namedQueries h ++ (p.dns.elim [] DnsMessage.queries).filter DnsQuery.isNamed := by
  rw [namedQueries, List.flatMap_append, List.filter_append, List.flatMap_singleton]
  rfl

omit [LinearOrder K] in
/-- One more packet adds a sample if it has a DNS message. -/
theorem nxdomains_concat (h : List (TimedPacket K)) (p : TimedPacket K) :
    nxdomains (h ++ [p]) =
      nxdomains h ++ (p.dns.toList.map fun dns => if dns.nxdomain then 1 else 0) := by
  rw [nxdomains, List.filterMap_append, List.map_append]
  rfl

/-- The message of a packet, if it has one. -/
theorem AveragesInv.feed_dga (hi : AveragesInv cfg h s) (p : TimedPacket K) :
    (s.feed cfg p).dga.queryLengthEwma.Of (1 / 10)
        ((namedQueries (h ++ [p])).map fun q => (q.name.length : K)) ∧
      (s.feed cfg p).dga.queryEntropyEwma.Of (1 / 10)
        ((namedQueries (h ++ [p])).map fun q => DgaExtractor.shannonEntropy cfg.math q.name) ∧
      (s.feed cfg p).dga.nxdomainEwma.Of (1 / 10) (nxdomains (h ++ [p])) := by
  have hdga : (s.feed cfg p).dga = p.dns.elim s.dga (s.dga.update cfg.math) := rfl
  rw [hdga, namedQueries_concat, nxdomains_concat]
  cases p.dns with
  | none =>
    -- a packet without a DNS message adds no sample
    show s.dga.queryLengthEwma.Of _ ((namedQueries h ++ []).map _) ∧
      s.dga.queryEntropyEwma.Of _ ((namedQueries h ++ []).map _) ∧
      s.dga.nxdomainEwma.Of _ (nxdomains h ++ [])
    rw [List.append_nil, List.append_nil]
    exact ⟨hi.lengths, hi.entropies, hi.nxdomain⟩
  | some dns =>
    show (s.dga.update cfg.math dns).queryLengthEwma.Of _ _ ∧
      (s.dga.update cfg.math dns).queryEntropyEwma.Of _ _ ∧
      (s.dga.update cfg.math dns).nxdomainEwma.Of _ _
    unfold DgaExtractor.update
    rw [foldl_addQuery_dga, List.map_append, List.map_append]
    exact ⟨hi.lengths.foldl _ _, hi.entropies.foldl _ _, hi.nxdomain.update _⟩

omit [Field K] [LinearOrder K] in
/-- One more packet counts if it carries a handshake. -/
theorem handshakes_concat (h : List (TimedPacket K)) (p : TimedPacket K) :
    handshakes (h ++ [p]) = handshakes h ++ if p.tls.isSome then [p] else [] := by
  rw [handshakes, List.filter_append, List.filter_singleton]
  cases p.tls.isSome with
  | false => rfl
  | true => rfl

omit [Field K] [LinearOrder K] in
theorem serverNames_concat (h : List (TimedPacket K)) (p : TimedPacket K) :
    serverNames (h ++ [p]) =
      serverNames h ++ (p.tls.bind TlsHandshake.sni).toList.filter
        fun sni => decide (sni ≠ "") := by
  rw [serverNames, List.filterMap_append, List.filter_append]
  rfl

/-- The handshake of a packet, if it has one: only the first ten are kept, the names all count. -/
theorem AveragesInv.feed_encrypted (hi : AveragesInv cfg h s) (p : TimedPacket K) :
    (s.feed cfg p).encrypted.maxPacketHistory = 10 ∧
      (s.feed cfg p).encrypted.packetSizes =
        ((handshakes (h ++ [p])).take 10).map (fun p => (p.info.ipLen : K)) ∧
      (s.feed cfg p).encrypted.packetTimings =
        ((handshakes (h ++ [p])).take 10).map TimedPacket.time ∧
      (s.feed cfg p).encrypted.sniEntropyEwma.Of (1 / 5)
        ((serverNames (h ++ [p])).map fun sni => (sni.length : K)) := by
  have hencrypted : (s.feed cfg p).encrypted =
      p.tls.elim s.encrypted fun tls => s.encrypted.update p.info tls p.time := rfl
  rw [hencrypted, handshakes_concat, serverNames_concat]
  cases htls : p.tls with
  | none =>
    show s.encrypted.maxPacketHistory = 10 ∧ s.encrypted.packetSizes = ((handshakes h ++ []).take
      10).map _ ∧ s.encrypted.packetTimings = ((handshakes h ++ []).take 10).map _ ∧
      s.encrypted.sniEntropyEwma.Of _ ((serverNames h ++ []).map _)
    rw [List.append_nil, List.append_nil]
    exact ⟨hi.history, hi.sizes, hi.timings, hi.sni⟩
  | some tls =>
    -- the two lists of sizes and times take the first ten handshakes only
    have hlength : s.encrypted.packetSizes.length = min 10 (handshakes h).length := by
      rw [hi.sizes, List.length_map, List.length_take]
    rw [Option.elim_some, Option.isSome_some, if_pos rfl, Option.bind_some]
    unfold EncryptedExtractor.update
    dsimp only
    refine ⟨hi.history, ?_, ?_, ?_⟩
    · rw [hi.history, hlength, hi.sizes, map_take_concat]
    · rw [hi.history, hlength, hi.timings, map_take_concat]
    · cases tls.sni with
      | none =>
        rw [Option.toList_none, List.filter_nil, List.append_nil]
        exact hi.sni
      | some sni =>
        dsimp only
        rw [Option.toList_some, List.filter_singleton, List.map_append]
        -- an empty server name is none
        by_cases hempty : sni = ""
        · rw [if_pos hempty, decide_eq_false (not_not.mpr hempty)]
          show s.encrypted.sniEntropyEwma.Of _ (_ ++ [])
          rw [List.append_nil]
          exact hi.sni
        · rw [if_neg hempty, decide_eq_true hempty]
          exact hi.sni.update _

omit [LinearOrder K] in
/-- One more packet adds its length in its own direction. -/
theorem bytes_concat (outbound : Bool) (h : List (TimedPacket K)) (p : TimedPacket K) :
    bytes outbound (h ++ [p]) = bytes outbound h ++
      if decide (p.info.ipLen > 0) && (isOutbound p.info == outbound) then [(p.info.ipLen : K)]
      else [] := by
  rw [bytes, List.filter_append, List.map_append, List.filter_singleton]
  congr 1
  cases decide (p.info.ipLen > 0) && (isOutbound p.info == outbound) with
  | false => rfl
  | true => rfl

/-- The bytes of a packet, if it has some, go to one of the two. -/
theorem AveragesInv.feed_exfil (hi : AveragesInv cfg h s) (p : TimedPacket K) :
    (s.feed cfg p).exfil.outboundBytesEwma.Of (1 / 10) (bytes true (h ++ [p])) ∧
      (s.feed cfg p).exfil.inboundBytesEwma.Of (1 / 10) (bytes false (h ++ [p])) := by
  have hexfil : (s.feed cfg p).exfil =
      if p.info.ipLen > 0 then s.exfil.update p.info (isOutbound p.info) else s.exfil := rfl
  rw [hexfil, bytes_concat, bytes_concat]
  -- a packet without a length is not fed
  by_cases hsome : p.info.ipLen > 0
  · rw [if_pos hsome, decide_eq_true hsome]
    unfold ExfilExtractor.update
    cases isOutbound p.info with
    | false =>
      show s.exfil.outboundBytesEwma.Of _ (bytes true h ++ []) ∧
        (s.exfil.inboundBytesEwma.update p.info.ipLen).Of _ (bytes false h ++ [_])
      rw [List.append_nil]
      exact ⟨hi.outbound, hi.inbound.update _⟩
    | true =>
      show (s.exfil.outboundBytesEwma.update p.info.ipLen).Of _ (bytes true h ++ [_]) ∧
        s.exfil.inboundBytesEwma.Of _ (bytes false h ++ [])
      rw [List.append_nil]
      exact ⟨hi.outbound.update _, hi.inbound⟩
  · rw [if_neg hsome, decide_eq_false hsome]
    show s.exfil.outboundBytesEwma.Of _ (bytes true h ++ []) ∧
      s.exfil.inboundBytesEwma.Of _ (bytes false h ++ [])
    rw [List.append_nil, List.append_nil]
    exact ⟨hi.outbound, hi.inbound⟩

/-- **One packet** is observed by each average that it concerns. -/
theorem AveragesInv.feed (hi : AveragesInv cfg h s) (p : TimedPacket K) :
    AveragesInv cfg (h ++ [p]) (s.feed cfg p) := by
  obtain ⟨hlengths, hentropies, hnxdomain⟩ := hi.feed_dga p
  obtain ⟨hhistory, hsizes, htimings, hsni⟩ := hi.feed_encrypted p
  obtain ⟨houtbound, hinbound⟩ := hi.feed_exfil p
  exact ⟨hlengths, hentropies, hnxdomain, hhistory, hsizes, htimings, hsni, houtbound, hinbound⟩

/-! ### A run -/

/-- The emissions reset none of the averages. -/
theorem averagesInv_after (cfg : SchedulerConfig K) (h : List (TimedPacket K)) :
    AveragesInv cfg h ((machine cfg).after h) := by
  refine (machine cfg).invariant (AveragesInv cfg) ?_ (fun h p hi => ?_) h
  · exact ⟨Ewma.Of.new _, Ewma.Of.new _, Ewma.Of.new _, rfl, rfl, rfl, Ewma.Of.new _,
      Ewma.Of.new _, Ewma.Of.new _⟩
  · have hfeed := hi.feed p
    show AveragesInv cfg (h ++ [p]) (processPacket cfg ((machine cfg).after h) p).1
    rw [processPacket_fst]
    exact ⟨hfeed.lengths, hfeed.entropies, hfeed.nxdomain, hfeed.history, hfeed.sizes,
      hfeed.timings, hfeed.sni, hfeed.outbound, hfeed.inbound⟩

/-- The vector says what the packets `h` were: for DGA, encrypted traffic and exfiltration. -/
def Averages (math : PyMath K) (h : List (TimedPacket K)) : FeatureDict K → Prop
  | .dga v =>
    v.avgQueryLength = some (smoothed (1 / 10)
      ((namedQueries h).map fun q => (q.name.length : K))) ∧
    v.avgQueryEntropy = some (smoothed (1 / 10)
      ((namedQueries h).map fun q => DgaExtractor.shannonEntropy math q.name)) ∧
    v.nxdomainRate = some (smoothed (1 / 10) (nxdomains h)) ∧
    0 ≤ smoothed (1 / 10) (nxdomains h) ∧ smoothed (1 / 10) (nxdomains h) ≤ 1
  | .encrypted v =>
    v.packetSizes = some (((handshakes h).take 10).map fun p => (p.info.ipLen : K)) ∧
    v.packetIpts = some (gaps (((handshakes h).take 10).map TimedPacket.time)) ∧
    v.sniLengthEwma = some (smoothed (1 / 5) ((serverNames h).map fun sni => (sni.length : K)))
  | .exfil v =>
    v.outboundBytesEwma = some (smoothed (1 / 10) (bytes true h)) ∧
    v.inboundBytesEwma = some (smoothed (1 / 10) (bytes false h)) ∧
    v.outboundInboundRatio =
      some (smoothed (1 / 10) (bytes true h) / max 1 (smoothed (1 / 10) (bytes false h)))
  | _ => True

theorem nxdomains_bounds [IsStrictOrderedRing K] (h : List (TimedPacket K)) :
    ∀ x ∈ nxdomains h, 0 ≤ x ∧ x ≤ 1 := by
  intro x hx
  obtain ⟨dns, -, rfl⟩ := List.mem_map.mp hx
  split
  · exact ⟨zero_le_one, le_refl 1⟩
  · exact ⟨le_refl 0, zero_le_one⟩

/-- **The moving averages of a run.** In every run every emitted vector for DGA, encrypted traffic
or exfiltration shows the weighted means of all that was observed since the start, the packet that
emits it included; the NXDOMAIN rate is between zero and one; and the sizes and gaps are those of
the first ten packets with a handshake. -/
theorem averages_of_run [IsStrictOrderedRing K] (cfg : SchedulerConfig K)
    (h : List (TimedPacket K)) (p : TimedPacket K) :
    ∀ v ∈ (machine cfg).out ((machine cfg).after h) p, Averages cfg.math (h ++ [p]) v := by
  have hi := (averagesInv_after cfg h).feed p
  have htenth : (1 : K) / 10 ≤ 1 := by norm_num
  have hbounds := smoothed_mem_Icc_of_zero (by norm_num) htenth _ (le_refl 0) zero_le_one
    (nxdomains_bounds (h ++ [p]))
  intro v hv
  rw [show (machine cfg).out ((machine cfg).after h) p =
    (processPacket cfg ((machine cfg).after h) p).2 from rfl, processPacket_snd] at hv
  obtain hv | hv := List.mem_append.mp hv
  · obtain hv | hv := List.mem_append.mp hv
    · -- the one-second vectors show no such average
      split at hv
      · obtain rfl | hv := List.mem_cons.mp hv
        · trivial
        · rw [List.mem_singleton.mp hv]
          trivial
      · exact absurd hv List.not_mem_nil
    · split at hv
      · obtain rfl | hv := List.mem_cons.mp hv
        · exact ⟨congrArg some hi.lengths.get, congrArg some hi.entropies.get,
            congrArg some hi.nxdomain.get, hbounds.1, hbounds.2⟩
        · obtain rfl | hv := List.mem_cons.mp hv
          · exact ⟨congrArg some hi.sizes, congrArg (some ∘ gaps) hi.timings,
              congrArg some hi.sni.get⟩
          · rw [List.mem_singleton.mp hv]
            trivial
      · exact absurd hv List.not_mem_nil
  · split at hv
    · obtain rfl | hv := List.mem_cons.mp hv
      · trivial
      · rw [List.mem_singleton.mp hv]
        refine ⟨congrArg some hi.outbound.get, congrArg some hi.inbound.get, ?_⟩
        rw [← hi.outbound.get, ← hi.inbound.get]
        rfl
    · exact absurd hv List.not_mem_nil

/-- A lookup of a name. -/
def lookup (time : ℚ) (name : String) (nxdomain : Bool) : TimedPacket ℚ where
  info := ⟨"10.0.0.5", "8.8.8.8", 60, some .udp, 40000, 53, 0, none⟩
  time := time
  dns := some ⟨[⟨name, 1⟩], nxdomain⟩
  tls := none

theorem averages_of_run_two_lookups :
    let cfg : SchedulerConfig ℚ := .default (fun _ _ => 0) ⟨id, id⟩
    let h := [lookup 1 "a.example" true]
    let p := lookup 7 "b.example" false
    ((machine cfg).out ((machine cfg).after h) p).length = 5 ∧
      ∀ v ∈ (machine cfg).out ((machine cfg).after h) p, Averages cfg.math (h ++ [p]) v := by
  refine ⟨?_, averages_of_run _ _ _⟩
  decide +kernel

end FeatureScheduler

end Sentrix
