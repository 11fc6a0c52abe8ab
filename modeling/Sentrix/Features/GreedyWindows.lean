import Sentrix.Features.Sweeps

/-!
# Three windows, one anchor

All three windows of the scheduler start afresh when the first of them says so
(`rebase`), and what they emit is merged into one dictionary, under keys of which one,
`type`, is in all three. Neither couples them. In a run in order the windows start afresh
with the first packet only, and from there on each of them is a greedy tumbling window of
its own: the next one starts with the first packet at or after the end of the last
(`nthStart`, `Current`). The dictionary has the vectors of the windows that start over
with the packet, under the names of their detectors, and nothing else (`windows_greedy`).
-/

namespace Sentrix

variable {K : Type} [Field K] [LinearOrder K]

/-! ### Greedy starts -/

section Greedy

variable (W : K) (ts : List K)

/-- The position of the first time at or after the end of the window that starts at
position `i`. -/
def nextStart (i : ℕ) : Option ℕ :=
  ts[i]?.bind fun start => ts.findIdx? fun t => decide (start + W ≤ t)

/-- The position of the `k`th start: the first time, and then always the first time at or
after the end of the window before. -/
def nthStart : ℕ → Option ℕ
  | 0 => ts.head?.map fun _ => 0
  | k + 1 => (nthStart k).bind (nextStart W ts)

/-- The window that is open after the times `ts` started at the time `last`. -/
def Current (last : K) : Prop :=
  ∃ k j, nthStart W ts k = some j ∧ ts[j]? = some last ∧ ∀ t ∈ ts, t < last + W

variable {W ts}

theorem nextStart_eq_some_iff {i j : ℕ} :
    nextStart W ts i = some j ↔ ∃ start t, ts[i]? = some start ∧ ts[j]? = some t ∧
      start + W ≤ t ∧ ∀ m u, m < j → ts[m]? = some u → u < start + W := by
  unfold nextStart
  rw [Option.bind_eq_some_iff]
  constructor
  · -- the index found is the first that reaches the end of the window
    rintro ⟨start, hstart, hfind⟩
    obtain ⟨hj, hreach, hearlier⟩ := List.findIdx?_eq_some_iff_getElem.mp hfind
    refine ⟨start, ts[j], hstart, List.getElem?_eq_getElem hj, of_decide_eq_true hreach, ?_⟩
    intro m u hm hu
    obtain ⟨hlt, rfl⟩ := List.getElem?_eq_some_iff.mp hu
    exact not_le.mp fun hle => hearlier m hm (decide_eq_true hle)
  · rintro ⟨start, t, hstart, ht, hreach, hearlier⟩
    obtain ⟨hj, rfl⟩ := List.getElem?_eq_some_iff.mp ht
    refine ⟨start, hstart, List.findIdx?_eq_some_iff_getElem.mpr ⟨hj, decide_eq_true hreach, ?_⟩⟩
    intro m hm hle
    have hlt := hearlier m ts[m] hm (List.getElem?_eq_getElem (hm.trans hj))
    exact absurd (of_decide_eq_true hle) (not_le.mpr hlt)

theorem nextStart_lt_length {i j : ℕ} (h : nextStart W ts i = some j) : j < ts.length := by
  obtain ⟨-, t, -, ht, -⟩ := nextStart_eq_some_iff.mp h
  exact (List.getElem?_eq_some_iff.mp ht).1

theorem nthStart_lt_length {k j : ℕ} (h : nthStart W ts k = some j) : j < ts.length := by
  cases k with
  | zero =>
    obtain ⟨t, ht, rfl⟩ := Option.map_eq_some_iff.mp h
    exact List.length_pos_of_mem (List.mem_of_head? ht)
  | succ k =>
    obtain ⟨i, -, hnext⟩ := Option.bind_eq_some_iff.mp h
    exact nextStart_lt_length hnext

/-- More times do not move the next start, once there is one. -/
theorem nextStart_append {us : List K} {i j : ℕ} (hj : j < ts.length) (hi : i < ts.length) :
    nextStart W (ts ++ us) i = some j ↔ nextStart W ts i = some j := by
  rw [nextStart_eq_some_iff, nextStart_eq_some_iff]
  rw [List.getElem?_append_left hi, List.getElem?_append_left hj]
  have hbefore : ∀ start, (∀ m u, m < j → (ts ++ us)[m]? = some u → u < start + W) ↔
      ∀ m u, m < j → ts[m]? = some u → u < start + W := by
    intro start
    refine forall_congr' fun m => forall_congr' fun u => forall_congr' fun hm => ?_
    rw [List.getElem?_append_left (hm.trans hj)]
  simp only [hbefore]

theorem nthStart_append {us : List K} {k j : ℕ} (h : nthStart W ts k = some j) :
    nthStart W (ts ++ us) k = some j := by
  induction k generalizing j with
  | zero =>
    obtain ⟨t, ht, rfl⟩ := Option.map_eq_some_iff.mp h
    refine Option.map_eq_some_iff.mpr ⟨t, ?_, rfl⟩
    rw [List.head?_append, ht]
    rfl
  | succ k ih =>
    obtain ⟨i, hi, hnext⟩ := Option.bind_eq_some_iff.mp h
    refine Option.bind_eq_some_iff.mpr ⟨i, ih hi, ?_⟩
    exact (nextStart_append (nthStart_lt_length h) (nthStart_lt_length hi)).mpr hnext

/-- There is no start after there was none. -/
theorem nthStart_none_of_le {k l : ℕ} (h : nthStart W ts k = none) (hle : k ≤ l) :
    nthStart W ts l = none := by
  induction l, hle using Nat.le_induction with
  | base => exact h
  | succ l _ ih => exact Option.bind_eq_none_iff.mpr fun i hi => by rw [ih] at hi; cases hi

variable [IsStrictOrderedRing K]

theorem lt_of_nextStart (hW : 0 < W) (hsorted : ts.Pairwise fun a b => a ≤ b) {i j : ℕ}
    (h : nextStart W ts i = some j) : i < j := by
  obtain ⟨start, t, hstart, ht, hreach, -⟩ := nextStart_eq_some_iff.mp h
  obtain ⟨hi, rfl⟩ := List.getElem?_eq_some_iff.mp hstart
  obtain ⟨hj, rfl⟩ := List.getElem?_eq_some_iff.mp ht
  by_contra hle
  obtain rfl | hlt := (not_lt.mp hle).eq_or_lt
  · linarith
  · have hsort := List.pairwise_iff_getElem.mp hsorted j i hj hi hlt
    linarith

/-- The starts among the first times are the starts of these. -/
theorem nthStart_of_append (hW : 0 < W) {us : List K}
    (hsorted : (ts ++ us).Pairwise fun a b => a ≤ b) {k j : ℕ}
    (h : nthStart W (ts ++ us) k = some j) (hj : j < ts.length) : nthStart W ts k = some j := by
  induction k generalizing j with
  | zero =>
    obtain ⟨t, -, rfl⟩ := Option.map_eq_some_iff.mp h
    refine Option.map_eq_some_iff.mpr ⟨ts.head (List.ne_nil_of_length_pos hj), ?_, rfl⟩
    exact List.head?_eq_some_head _
  | succ k ih =>
    obtain ⟨i, hi, hnext⟩ := Option.bind_eq_some_iff.mp h
    -- starts increase, so the earlier ones lie in the prefix too
    have hlt : i < j := lt_of_nextStart hW hsorted hnext
    refine Option.bind_eq_some_iff.mpr ⟨i, ih hi (hlt.trans hj), ?_⟩
    exact (nextStart_append hj (hlt.trans hj)).mp hnext

/-! A time that comes to an open window either waits in it or starts the next one. -/

theorem Current.first (hW : 0 < W) (t : K) : Current W [t] t := by
  refine ⟨0, 0, rfl, rfl, ?_⟩
  intro u hu
  rw [List.mem_singleton.mp hu]
  exact lt_add_of_pos_right t hW

omit [IsStrictOrderedRing K] in
theorem Current.wait {last t : K} (hc : Current W ts last) (hlt : t < last + W) :
    Current W (ts ++ [t]) last := by
  obtain ⟨k, j, hk, hj, hall⟩ := hc
  refine ⟨k, j, nthStart_append hk, ?_, ?_⟩
  · rw [List.getElem?_append_left (nthStart_lt_length hk), hj]
  · intro u hu
    rw [List.mem_append, List.mem_singleton] at hu
    obtain hu | rfl := hu
    · exact hall u hu
    · exact hlt

omit [IsStrictOrderedRing K] in
/-- The next start after an open window is the first time that does not wait. -/
theorem Current.nextStart_eq {last t : K} {j : ℕ} (hlast : ts[j]? = some last)
    (hall : ∀ u ∈ ts, u < last + W) (hle : last + W ≤ t) :
    nextStart W (ts ++ [t]) j = some ts.length := by
  refine nextStart_eq_some_iff.mpr ⟨last, t, ?_, ?_, hle, ?_⟩
  · rw [List.getElem?_append_left (List.getElem?_eq_some_iff.mp hlast).1, hlast]
  · exact List.getElem?_concat_length
  · intro m u hm hu
    rw [List.getElem?_append_left hm] at hu
    exact hall u (List.mem_of_getElem? hu)

theorem Current.start {last t : K} (hW : 0 < W) (hc : Current W ts last)
    (hle : last + W ≤ t) : Current W (ts ++ [t]) t := by
  obtain ⟨k, j, hk, hj, hall⟩ := hc
  refine ⟨k + 1, ts.length, ?_, List.getElem?_concat_length, ?_⟩
  · exact Option.bind_eq_some_iff.mpr ⟨j, nthStart_append hk, Current.nextStart_eq hj hall hle⟩
  · intro u hu
    rw [List.mem_append, List.mem_singleton] at hu
    obtain hu | rfl := hu
    · have hlt := hall u hu
      linarith
    · linarith

omit [IsStrictOrderedRing K] in
/-- No window starts after the open one. -/
theorem nthStart_succ_of_open {k j : ℕ} {last : K} (hk : nthStart W ts k = some j)
    (hlast : ts[j]? = some last) (hall : ∀ t ∈ ts, t < last + W) :
    nthStart W ts (k + 1) = none := by
  cases hm : nthStart W ts (k + 1) with
  | none => rfl
  | some m =>
    obtain ⟨i, hi, hnext⟩ := Option.bind_eq_some_iff.mp hm
    rw [hk] at hi
    obtain rfl := Option.some.inj hi
    obtain ⟨start, t, hstart, ht, hreach, -⟩ := nextStart_eq_some_iff.mp hnext
    rw [hlast] at hstart
    obtain rfl := Option.some.inj hstart
    -- it would start at a time that waits in the open one
    exact absurd hreach (not_le.mpr (hall t (List.mem_of_getElem? ht)))

/-- **The next time is a start** if and only if it is at or after the end of the open
window, whatever times are to come. -/
theorem Current.isStart_iff {last t : K} {us : List K} (hW : 0 < W)
    (hsorted : (ts ++ [t] ++ us).Pairwise fun a b => a ≤ b) (hc : Current W ts last) :
    (∃ k, nthStart W (ts ++ [t] ++ us) (k + 1) = some ts.length) ↔ last + W ≤ t := by
  obtain ⟨k₀, j₀, hk₀, hj₀, hall⟩ := hc
  constructor
  · rintro ⟨k, hk⟩
    have hsorted' := (List.pairwise_append.mp hsorted).1
    have hlen : ts.length < (ts ++ [t]).length := by
      rw [List.length_append, List.length_singleton]
      exact Nat.lt_succ_self _
    obtain ⟨j, hj, hnext⟩ := Option.bind_eq_some_iff.mp (nthStart_of_append hW hsorted hk hlen)
    have hj : nthStart W ts k = some j :=
      nthStart_of_append hW hsorted' hj (lt_of_nextStart hW hsorted' hnext)
    -- neither the `k`th nor the open window is followed by a start in `ts`, so they are one
    have hstop : nthStart W ts (k + 1) = none := by
      cases hm : nthStart W ts (k + 1) with
      | none => rfl
      | some m =>
        have hlt := nthStart_lt_length hm
        have hsame : nthStart W (ts ++ ([t] ++ us)) (k + 1) = some m := nthStart_append hm
        rw [← List.append_assoc, hk] at hsame
        exact absurd hlt (by rw [Option.some.inj hsame]; exact lt_irrefl _)
    have hstop₀ := nthStart_succ_of_open hk₀ hj₀ hall
    obtain rfl : k = k₀ := by
      obtain hlt | heq | hlt := lt_trichotomy k k₀
      · rw [nthStart_none_of_le hstop hlt] at hk₀
        cases hk₀
      · exact heq
      · rw [nthStart_none_of_le hstop₀ hlt] at hj
        cases hj
    rw [hk₀] at hj
    obtain rfl := Option.some.inj hj
    obtain ⟨start, u, hstart, hu, hreach, -⟩ := nextStart_eq_some_iff.mp hnext
    rw [List.getElem?_append_left (nthStart_lt_length hk₀), hj₀] at hstart
    rw [List.getElem?_concat_length] at hu
    rwa [Option.some.inj hstart, Option.some.inj hu]
  · intro hle
    refine ⟨k₀, nthStart_append (Option.bind_eq_some_iff.mpr ⟨j₀, nthStart_append hk₀, ?_⟩)⟩
    exact Current.nextStart_eq hj₀ hall hle

end Greedy

/-! ### The dictionary -/

/-- One of the scheduler's windows. -/
inductive Window
  | oneSecond
  | fiveSeconds
  | sixtySeconds

/-- A value of the dictionaries: the name of a window, or a vector. -/
inductive FiredValue (K : Type)
  | type (name : String)
  | vector (v : FeatureDict K)

/-- The key of a vector. -/
def FeatureDict.detector : FeatureDict K → String
  | .ddos _ => "ddos"
  | .recon _ => "recon"
  | .dga _ => "dga"
  | .encrypted _ => "encrypted"
  | .dnsExfil _ => "dns_exfil"
  | .beaconing _ => "beaconing"
  | .exfil _ => "exfil"

namespace Window

/-- The windows, in the order they are checked in. -/
def all : List Window := [oneSecond, fiveSeconds, sixtySeconds]

theorem mem_all (w : Window) : w ∈ all := by
  cases w <;> simp [all]

def name : Window → String
  | oneSecond => "1s_rollup"
  | fiveSeconds => "5s_rollup"
  | sixtySeconds => "60s_rollup"

/-- The keys of a window's vectors. -/
def detectors : Window → List String
  | oneSecond => ["ddos", "recon"]
  | fiveSeconds => ["dga", "encrypted", "dns_exfil"]
  | sixtySeconds => ["beaconing", "exfil"]

variable (cfg : SchedulerConfig K)

def length : Window → K
  | oneSecond => cfg.window1s
  | fiveSeconds => cfg.window5s
  | sixtySeconds => cfg.window60s

/-- `last_1s`, `last_5s` and `last_60s`. -/
def last (s : FeatureScheduler K) : Window → K
  | oneSecond => s.last1s
  | fiveSeconds => s.last5s
  | sixtySeconds => s.last60s

def emit (s : FeatureScheduler K) (p : TimedPacket K) :
    Window → FeatureScheduler K × List (FeatureDict K)
  | oneSecond => FeatureScheduler.emit1sWindow cfg s p
  | fiveSeconds => FeatureScheduler.emit5sWindow s p
  | sixtySeconds => FeatureScheduler.emit60sWindow cfg s p

/-- The dictionary that `emit_*_window` returns. -/
def rollup (w : Window) (vs : List (FeatureDict K)) : List (String × FiredValue K) :=
  ("type", .type w.name) :: vs.map fun v => (v.detector, .vector v)

/-- The check of one window. -/
def check (p : TimedPacket K) (x : FeatureScheduler K × Dict String (FiredValue K)) (w : Window) :
    FeatureScheduler K × Dict String (FiredValue K) :=
  if p.time - w.last x.1 ≥ w.length cfg then
    let (s, vs) := w.emit cfg x.1 p
    (s, x.2.update (w.rollup vs))
  else x

/-- The start of the window that a packet at this time finds. -/
def start (s : FeatureScheduler K) (time : K) (w : Window) : K :=
  if s.Rebases time then time else w.last s

/-- The window is due. -/
def Due (s : FeatureScheduler K) (time : K) (w : Window) : Prop :=
  time - w.start s time ≥ w.length cfg

instance (s : FeatureScheduler K) (time : K) (w : Window) : Decidable (w.Due cfg s time) :=
  inferInstanceAs (Decidable (_ ≥ _))

end Window

namespace FeatureScheduler

variable (cfg : SchedulerConfig K)

/-- `_check_windows`, with the dictionary it fills. -/
def checkWindowsDict (s : FeatureScheduler K) (p : TimedPacket K) :
    FeatureScheduler K × Dict String (FiredValue K) :=
  let (s, fired) := Window.all.foldl (Window.check cfg p) (s.rebase p.time, Dict.empty)
  (s, fired.erase "type")

/-- `process_packet`, with the dictionary it returns. -/
def processPacketDict (s : FeatureScheduler K) (p : TimedPacket K) :
    FeatureScheduler K × Dict String (FiredValue K) :=
  checkWindowsDict cfg (s.feed cfg p) p

/-- The entries of the dictionary for the vectors of one window. -/
def entriesOf (s : FeatureScheduler K) (p : TimedPacket K) (w : Window) :
    List (String × FiredValue K) :=
  (w.emit cfg s p).2.map fun v => (v.detector, .vector v)

theorem map_fst_entriesOf (s : FeatureScheduler K) (p : TimedPacket K) (w : Window) :
    (entriesOf cfg s p w).map Prod.fst = w.detectors := by
  cases w <;> rfl

/-- What is done to the dictionary does not matter to the state. -/
theorem processPacketDict_fst (s : FeatureScheduler K) (p : TimedPacket K) :
    (processPacketDict cfg s p).1 = (machine cfg).next s p := by
  show (checkWindowsDict cfg (s.feed cfg p) p).1 = (checkWindows cfg (s.feed cfg p) p).1
  generalize s.feed cfg p = s
  unfold checkWindowsDict checkWindows
  simp only [Window.all, List.foldl_cons, List.foldl_nil, Window.check, Window.last,
    Window.length, Window.emit, fire1s_eq, fire5s_eq, fire60s_eq]
  by_cases h1 : p.time - (s.rebase p.time).last1s ≥ cfg.window1s <;>
    by_cases h5 : p.time - (s.rebase p.time).last5s ≥ cfg.window5s <;>
    by_cases h60 : p.time - (s.rebase p.time).last60s ≥ cfg.window60s <;>
    simp only [h1, h5, h60, if_true, if_false, emit1sWindow, emit5sWindow, emit60sWindow]

/-- The dictionary once the given windows have been merged into it, one after the other. -/
def mergeRollups (s : FeatureScheduler K) (p : TimedPacket K) (ws : List Window) :
    Dict String (FiredValue K) :=
  ws.foldl (fun fired w => fired.update (w.rollup (w.emit cfg s p).2)) Dict.empty

/-- Merged into the dictionary are the windows that are due before the packet, with the
vectors of the state that was fed with it: what an emission resets or sweeps is not read
by the emissions after it. -/
theorem processPacketDict_snd (s : FeatureScheduler K) (p : TimedPacket K) :
    (processPacketDict cfg s p).2 =
      (mergeRollups cfg (s.feed cfg p) p
        (Window.all.filter fun w => decide (w.Due cfg s p.time))).erase "type" := by
  have hrebase : (s.feed cfg p).rebase p.time = { s.feed cfg p with
      last1s := Window.oneSecond.start s p.time
      last5s := Window.fiveSeconds.start s p.time
      last60s := Window.sixtySeconds.start s p.time } := rebase_eq _ _
  unfold processPacketDict checkWindowsDict mergeRollups
  rw [hrebase]
  simp only [Window.all, List.foldl_cons, List.foldl_nil, Window.check, Window.last,
    Window.length, Window.emit, List.filter_cons, List.filter_nil, decide_eq_true_eq]
  unfold Window.Due Window.length
  -- which of the three windows are due
  by_cases h1 : p.time - Window.oneSecond.start s p.time ≥ cfg.window1s <;>
    by_cases h5 : p.time - Window.fiveSeconds.start s p.time ≥ cfg.window5s <;>
    by_cases h60 : p.time - Window.sixtySeconds.start s p.time ≥ cfg.window60s <;>
    simp only [h1, h5, h60, if_true, if_false, emit1sWindow, emit5sWindow, emit60sWindow,
      List.foldl_cons, List.foldl_nil]

/-- **No window hides another's vectors.** The keys that collide are those of the names,
and these are dropped. -/
theorem entries_mergeRollups (s : FeatureScheduler K) (p : TimedPacket K) {ws : List Window}
    (hws : (ws.flatMap Window.detectors).Nodup) :
    ((mergeRollups cfg s p ws).erase "type").entries = ws.flatMap (entriesOf cfg s p) := by
  induction ws using List.reverseRecOn with
  | nil => rfl
  | append_singleton ws w ih =>
    rw [List.flatMap_append] at hws
    have hih := ih (List.nodup_append.mp hws).1
    have hkeys : ((mergeRollups cfg s p ws).erase "type").keys = ws.flatMap Window.detectors := by
      unfold Dict.keys
      rw [hih, List.map_flatMap]
      exact List.flatMap_congr fun w _ => map_fst_entriesOf cfg s p w
    have htype : "type" ∉ (entriesOf cfg s p w).map Prod.fst := by
      rw [map_fst_entriesOf]
      cases w <;> decide
    -- the name is written over the one before, and dropped in the end
    have hmerge : (mergeRollups cfg s p (ws ++ [w])).erase "type" =
        ((mergeRollups cfg s p ws).erase "type").update (entriesOf cfg s p w) := by
      unfold mergeRollups
      rw [List.foldl_append]
      show (((ws.foldl _ Dict.empty).set "type" (.type w.name)).update (entriesOf cfg s p w)).erase
        "type" = _
      rw [Dict.erase_update_of_not_mem _ htype, Dict.erase_set_self]
    rw [hmerge, Dict.entries_update, hih, List.flatMap_append, List.flatMap_singleton]
    rw [hkeys, map_fst_entriesOf]
    rwa [List.flatMap_singleton] at hws

/-- **What is returned for a packet** are the vectors of the windows that are due. -/
theorem entries_processPacketDict (s : FeatureScheduler K) (p : TimedPacket K) :
    (processPacketDict cfg s p).2.entries =
      (Window.all.filter fun w => decide (w.Due cfg s p.time)).flatMap
        (entriesOf cfg (s.feed cfg p) p) := by
  rw [processPacketDict_snd, entries_mergeRollups]
  have hall : (Window.all.flatMap Window.detectors).Nodup := by decide
  exact hall.sublist (List.filter_sublist.flatMap _)

/-! ### Runs -/

/-- Each window starts over where it is due, and only there. -/
theorem last_next (s : FeatureScheduler K) (p : TimedPacket K) (w : Window) :
    w.last ((machine cfg).next s p) = if w.Due cfg s p.time then p.time else w.start s p.time := by
  cases w
  all_goals
    show Window.last (processPacket cfg s p).1 _ = _
    rw [processPacket_fst]
    rfl

variable [IsStrictOrderedRing K] {cfg}

omit [IsStrictOrderedRing K] in
/-- A window that started with a packet of the run is not started afresh in order. -/
theorem start_of_current {h : List (TimedPacket K)} {p : TimedPacket K} {s : FeatureScheduler K}
    (hord : Ordered (h ++ [p]))
    (hc : Current (Window.oneSecond.length cfg) (h.map TimedPacket.time) (Window.oneSecond.last s))
    (w : Window) : w.start s p.time = w.last s := by
  obtain ⟨k, j, -, hlast, -⟩ := hc
  obtain ⟨q, hq, hqlast⟩ := List.mem_map.mp (List.mem_of_getElem? hlast)
  have hpos := hord.positive q (List.mem_append_left _ hq)
  have hle := (List.pairwise_append.mp hord.sorted).2.2 q hq p (List.mem_singleton_self p)
  refine if_neg ?_
  rintro (hzero | hlt)
  · exact hpos.ne' (hqlast.trans hzero)
  · exact absurd hlt (not_lt.mpr (hqlast.symm.le.trans hle))

/-- Whether a window is due, if it is not started afresh. -/
theorem due_iff_of_start {s : FeatureScheduler K} {time : K} {w : Window}
    (hstart : w.start s time = w.last s) :
    w.Due cfg s time ↔ w.last s + w.length cfg ≤ time := by
  unfold Window.Due
  rw [hstart, ge_iff_le, le_sub_iff_add_le, add_comm]

omit [IsStrictOrderedRing K] in
/-- The first packet opens all windows. -/
theorem not_due_new (hlen : ∀ w : Window, 0 < w.length cfg) (p : TimedPacket K) (w : Window) :
    w.start (new : FeatureScheduler K) p.time = p.time ∧ ¬ w.Due cfg new p.time := by
  have hstart : w.start (new : FeatureScheduler K) p.time = p.time := if_pos (Or.inl rfl)
  refine ⟨hstart, ?_⟩
  unfold Window.Due
  rw [hstart, sub_self]
  exact not_le.mpr (hlen w)

/-- **One packet** keeps all windows greedy. -/
theorem current_next (hlen : ∀ w : Window, 0 < w.length cfg) {h : List (TimedPacket K)}
    {p : TimedPacket K} {s : FeatureScheduler K} (hord : Ordered (h ++ [p]))
    (hc : ∀ w : Window, Current (w.length cfg) (h.map TimedPacket.time) (w.last s)) (w : Window) :
    Current (w.length cfg) ((h ++ [p]).map TimedPacket.time)
      (w.last ((machine cfg).next s p)) := by
  have hstart := start_of_current hord (hc .oneSecond) w
  have hdue : w.Due cfg s p.time ↔ w.last s + w.length cfg ≤ p.time := due_iff_of_start hstart
  rw [last_next, List.map_append, List.map_singleton]
  -- a due window starts anew at this packet, any other one waits
  by_cases h : w.Due cfg s p.time
  · rw [if_pos h]
    exact (hc w).start (hlen w) (hdue.mp h)
  · rw [if_neg h, hstart]
    exact (hc w).wait (not_le.mp fun hle => h (hdue.mpr hle))

/-- **After every run in order** each window is the open one of a greedy sequence. -/
theorem current_after (hlen : ∀ w : Window, 0 < w.length cfg) {h : List (TimedPacket K)}
    (hord : Ordered h) (hne : h ≠ []) (w : Window) :
    Current (w.length cfg) (h.map TimedPacket.time) (w.last ((machine cfg).after h)) := by
  refine (machine cfg).invariant_of Ordered (fun h s => h ≠ [] → ∀ w : Window,
    Current (w.length cfg) (h.map TimedPacket.time) (w.last s)) (fun h p hord => hord.of_concat)
    (fun hne => absurd rfl hne) ?_ h hord hne w
  intro h p hord hi hne w
  cases h with
  | nil =>
    -- the first packet starts all three windows
    obtain ⟨hstart, hdue⟩ := not_due_new hlen p w
    show Current _ [p.time] (w.last ((machine cfg).next new p))
    rw [last_next, if_neg hdue, hstart]
    exact Current.first (hlen w) p.time
  | cons q h => exact current_next hlen hord (hi (List.cons_ne_nil q h)) w

/-- A window is due with a packet if and only if a greedy window starts there. -/
theorem due_iff (hlen : ∀ w : Window, 0 < w.length cfg) {h k : List (TimedPacket K)}
    {p : TimedPacket K} (hord : Ordered (h ++ [p] ++ k)) (w : Window) :
    w.Due cfg ((machine cfg).after h) p.time ↔
      ∃ n, nthStart (w.length cfg) ((h ++ [p] ++ k).map TimedPacket.time) (n + 1) =
        some h.length := by
  have hsorted : ((h ++ [p] ++ k).map TimedPacket.time).Pairwise fun a b => a ≤ b :=
    List.pairwise_map.mpr hord.sorted
  cases h with
  | nil =>
    -- the first packet opens the windows, and no later start is there
    refine iff_of_false (not_due_new hlen p w).2 ?_
    rintro ⟨n, hn⟩
    obtain ⟨i, -, hnext⟩ := Option.bind_eq_some_iff.mp hn
    exact absurd (lt_of_nextStart (hlen w) hsorted hnext) (Nat.not_lt_zero i)
  | cons q h =>
    have hord' : Ordered (q :: h ++ [p]) :=
      ⟨fun x hx => hord.positive x (List.mem_append_left _ hx),
        (List.pairwise_append.mp hord.sorted).1⟩
    have hc := fun w : Window => current_after hlen hord'.of_concat (List.cons_ne_nil q h) w
    have hstart := start_of_current hord' (hc .oneSecond) w
    have htimes : (q :: h ++ [p] ++ k).map TimedPacket.time =
        (q :: h).map TimedPacket.time ++ [p.time] ++ k.map TimedPacket.time := by
      rw [List.map_append, List.map_append, List.map_singleton]
    rw [htimes] at hsorted ⊢
    rw [due_iff_of_start hstart, ← (hc w).isStart_iff (hlen w) hsorted, List.length_map]

/-- **The windows are independent and greedy.** For positive window lengths and a run with
positive nondecreasing times: the windows that fire at a packet are those for which the
packet is a greedy start other than the first, each by its own length. The dictionary that
is returned has exactly the detectors of these windows, each with the vector of the state
that has been fed with the packet. -/
theorem windows_greedy (hlen : ∀ w : Window, 0 < w.length cfg) (h k : List (TimedPacket K))
    (p : TimedPacket K) (hord : Ordered (h ++ [p] ++ k)) :
    ∃ ws : List Window, ws.Sublist Window.all ∧
      (∀ w : Window, w ∈ ws ↔ ∃ n, nthStart (w.length cfg)
        ((h ++ [p] ++ k).map TimedPacket.time) (n + 1) = some h.length) ∧
      (processPacketDict cfg ((machine cfg).after h) p).2.keys = ws.flatMap Window.detectors ∧
      (processPacketDict cfg ((machine cfg).after h) p).2.entries =
        ws.flatMap (entriesOf cfg (((machine cfg).after h).feed cfg p) p) := by
  have hentries := entries_processPacketDict cfg ((machine cfg).after h) p
  refine ⟨_, List.filter_sublist, fun w => ?_, ?_, hentries⟩
  · rw [← due_iff hlen hord, List.mem_filter, decide_eq_true_eq, and_iff_right w.mem_all]
  · unfold Dict.keys
    rw [hentries, List.map_flatMap]
    exact List.flatMap_congr fun w _ => map_fst_entriesOf cfg _ p w

/-- Two packets, a second apart. -/
theorem windows_greedy_one_second :
    ∃ ws : List Window, .oneSecond ∈ ws ∧
      (processPacketDict plainConfig ((machine plainConfig).after [packetTo "10.0.0.2" 1])
        (packetTo "10.0.0.3" 2)).2.keys = ws.flatMap Window.detectors := by
  have hlen : ∀ w : Window, 0 < w.length plainConfig := by
    intro w
    cases w <;> decide +kernel
  have hord : Ordered ([packetTo "10.0.0.2" 1] ++ [packetTo "10.0.0.3" 2] ++ []) :=
    ⟨by decide +kernel, by decide +kernel⟩
  obtain ⟨ws, -, hmem, hkeys, -⟩ := windows_greedy hlen [packetTo "10.0.0.2" 1] []
    (packetTo "10.0.0.3" 2) hord
  exact ⟨ws, (hmem .oneSecond).mpr ⟨0, by decide +kernel⟩, hkeys⟩

end FeatureScheduler

end Sentrix
