import Mathlib.Order.Bounds.Basic
import Mathlib.Tactic.Positivity
import Sentrix.Datasource.DatasetReplay
import Sentrix.Lib.Queries

/-!
# Scenarios and repeated records

`_filter_by_scenario` of `datasource/dataset_replay.py` gives the families of a
scenario their share of the replay. A family that has too few records is sampled
again and again until its quota is reached: the list then holds the same record
object several times.

The first visit of a record in a pass moves its timestamp to the wall clock. A second
visit in the same pass finds the timestamp that the first one left and moves it once
more (`timestamp_first_pass`). So the occurrences of a repeated record are replayed on
different time lines, unless the move leaves its timestamp where it is, and this is
decided before the replay begins: a record is repeated if and only if the quota of its
family reaches its place in the second copy of the family's pool
(`two_le_count_filterByScenario_iff`, `oversampled_time_iff`).
-/

namespace Sentrix

/-- What `_filter_by_scenario` is given besides its arguments. -/
structure Sampling where
  /-- `str.upper`. -/
  upper : String → String
  /-- `int(total * w)`. -/
  target : ℕ → ℚ → ℕ
  /-- `random.shuffle`. -/
  shuffle : List ℕ → List ℕ
  shuffle_perm : ∀ l, (shuffle l).Perm l

/-- `SCENARIO_WEIGHTS.get(scenario, {})`. -/
def scenarioWeights (scenario : String) : List (String × ℚ) :=
  match scenario with
  | "random" => []
  | "massive_ddos" =>
    [("SYN_FLOOD", 45 / 100), ("UDP_AMPLIFICATION", 30 / 100), ("BENIGN", 25 / 100)]
  | "stealth_c2_exfil" =>
    [("C2_BEACON", 35 / 100), ("DNS_TUNNEL", 30 / 100), ("EXFIL", 15 / 100), ("BENIGN", 20 / 100)]
  | "recon_storm" => [("PORT_SCAN", 55 / 100), ("RECON", 30 / 100), ("BENIGN", 15 / 100)]
  | "quiet_hours" => [("BENIGN", 90 / 100), ("PORT_SCAN", 5 / 100), ("C2_BEACON", 5 / 100)]
  | "coordinated_campaign" =>
    [("SYN_FLOOD", 25 / 100), ("C2_BEACON", 20 / 100), ("DNS_TUNNEL", 15 / 100),
      ("PORT_SCAN", 20 / 100), ("BENIGN", 20 / 100)]
  | _ => []

/-- No family is listed twice. -/
theorem nodup_scenarioWeights (scenario : String) :
    ((scenarioWeights scenario).map Prod.fst).Nodup := by
  unfold scenarioWeights
  split <;> decide

/-! ### The filter -/

/-- `while len(sampled) < target: sampled.extend(pool)`. -/
def sampleLoop (pool : List ℕ) (target : ℕ) : ℕ → List ℕ → List ℕ
  | 0, sampled => sampled
  | fuel + 1, sampled =>
    if sampled.length < target then sampleLoop pool target fuel (sampled ++ pool) else sampled

/-- The sample of a pool, cut off at the target. -/
def sample (pool : List ℕ) (target : ℕ) : List ℕ :=
  (sampleLoop pool target target []).take target

namespace Sampling

variable (cfg : Sampling) (heap : RecordHeap) (loaded : List ℕ)

/-- `r.attack_family.upper()`. -/
def family (r : ℕ) : String := cfg.upper (heap r).attackFamily

/-- `by_family`. -/
def byFamily : Dict String (List ℕ) := Dict.groupBy (cfg.family heap) loaded

/-- `by_family.get(family, [])`. -/
def pool (family : String) : List ℕ := ((cfg.byFamily heap loaded).get? family).getD []

/-- The samples of the families the scenario lists. -/
def listedSample (weights : List (String × ℚ)) : List ℕ :=
  weights.flatMap fun fw =>
    let pool := cfg.pool heap loaded fw.1
    -- `if pool:`
    if pool = [] then [] else sample pool (cfg.target loaded.length fw.2)

/-- The families that occur and are not listed. -/
def unlisted (weights : List (String × ℚ)) : List String :=
  (cfg.byFamily heap loaded).keys.filter fun f => decide (f ∉ weights.map Prod.fst)

/-- `per`: the share of an unlisted family. -/
def per (weights : List (String × ℚ)) : ℕ :=
  (loaded.length - (cfg.listedSample heap loaded weights).length) /
    (cfg.unlisted heap loaded weights).length

/-- The samples of the other families. -/
def unlistedSample (weights : List (String × ℚ)) : List ℕ :=
  (cfg.unlisted heap loaded weights).flatMap fun f =>
    sample (cfg.pool heap loaded f) (cfg.per heap loaded weights)

/-- `_filter_by_scenario`. -/
def filterByScenario (scenario : String) : List ℕ :=
  let weights := scenarioWeights scenario
  if weights = [] then loaded
  else
    let result := cfg.shuffle
      (cfg.listedSample heap loaded weights ++ cfg.unlistedSample heap loaded weights)
    -- `return result or records`
    if result = [] then loaded else result

/-- The number of records of a family that the filter puts into the list, if the family
has any. -/
def quota (weights : List (String × ℚ)) (family : String) : ℕ :=
  match weights.lookup family with
  | some w => cfg.target loaded.length w
  | none => cfg.per heap loaded weights

/-- The quota of the record's family reaches beyond its place in a second copy of the
family's pool. -/
def Oversampled (scenario : String) (r : ℕ) : Prop :=
  scenarioWeights scenario ≠ [] ∧
    (cfg.pool heap loaded (cfg.family heap r)).idxOf r +
        (cfg.pool heap loaded (cfg.family heap r)).length <
      cfg.quota heap loaded (scenarioWeights scenario) (cfg.family heap r)

end Sampling

/-! ### Samples -/

/-- The loop repeats the pool until the target is reached; the fuel suffices. -/
theorem sampleLoop_spec {pool : List ℕ} (hpool : pool ≠ []) {target fuel : ℕ} {sampled : List ℕ}
    (hfuel : target ≤ sampled.length + fuel) :
    target ≤ (sampleLoop pool target fuel sampled).length ∧
      ∃ m, sampleLoop pool target fuel sampled = sampled ++ (List.replicate m pool).flatten := by
  have hlen : 0 < pool.length := List.length_pos_iff.mpr hpool
  induction fuel generalizing sampled with
  | zero => exact ⟨hfuel, 0, (List.append_nil _).symm⟩
  | succ fuel ih =>
    unfold sampleLoop
    split
    · -- one more copy of the pool leaves enough fuel for what is still missing
      have hstep : target ≤ (sampled ++ pool).length + fuel := by
        rw [List.length_append]
        omega
      obtain ⟨hreached, m, heq⟩ := ih hstep
      refine ⟨hreached, m + 1, ?_⟩
      rw [heq, List.replicate_succ, List.flatten_cons, List.append_assoc]
    · next hdone => exact ⟨by omega, 0, by simp⟩

theorem mem_of_mem_sample {pool : List ℕ} {target r : ℕ} (hr : r ∈ sample pool target) :
    r ∈ pool := by
  have hpool : pool ≠ [] := by
    rintro rfl
    -- an empty pool adds nothing
    have hnil : ∀ fuel, sampleLoop [] target fuel [] = [] := by
      intro fuel
      induction fuel with
      | zero => rfl
      | succ fuel ih =>
        unfold sampleLoop
        split
        · exact ih
        · rfl
    unfold sample at hr
    rw [hnil, List.take_nil] at hr
    exact List.not_mem_nil hr
  obtain ⟨-, m, heq⟩ := sampleLoop_spec hpool (Nat.le_add_left target (List.length []))
  have hmem := List.mem_of_mem_take hr
  rw [heq, List.nil_append] at hmem
  obtain ⟨copy, hcopy, hin⟩ := List.mem_flatten.mp hmem
  rw [List.eq_of_mem_replicate hcopy] at hin
  exact hin

/-- A sample holds a record twice if and only if its target is behind the record's place
in the second copy of the pool. -/
theorem two_le_count_sample_iff {pool : List ℕ} (hnodup : pool.Nodup) {r : ℕ} (hr : r ∈ pool)
    (target : ℕ) : 2 ≤ (sample pool target).count r ↔ pool.idxOf r + pool.length < target := by
  obtain ⟨hreached, m, heq⟩ := sampleLoop_spec (List.ne_nil_of_mem hr)
    (Nat.le_add_left target (List.length []))
  unfold sample
  rw [heq, List.nil_append] at hreached ⊢
  exact two_le_count_take_repeat hnodup hr hreached

namespace Sampling

variable {cfg : Sampling} {heap : RecordHeap} {loaded : List ℕ}

theorem pool_eq (family : String) :
    cfg.pool heap loaded family = loaded.filter fun r => decide (cfg.family heap r = family) :=
  Dict.getD_groupBy _ _ _

theorem mem_pool_iff {family : String} {r : ℕ} :
    r ∈ cfg.pool heap loaded family ↔ r ∈ loaded ∧ cfg.family heap r = family := by
  rw [pool_eq, List.mem_filter, decide_eq_true_eq]

/-- A record is in the samples of its own family only. -/
theorem family_of_mem_sample {family : String} {target r : ℕ}
    (hr : r ∈ sample (cfg.pool heap loaded family) target) :
    r ∈ loaded ∧ cfg.family heap r = family :=
  mem_pool_iff.mp (mem_of_mem_sample hr)

/-- How often the samples of the listed families hold a record. -/
theorem count_listedSample {weights : List (String × ℚ)} (hkeys : (weights.map Prod.fst).Nodup)
    {r : ℕ} (hr : r ∈ loaded) :
    (cfg.listedSample heap loaded weights).count r =
      match weights.lookup (cfg.family heap r) with
      | some w => (sample (cfg.pool heap loaded (cfg.family heap r))
          (cfg.target loaded.length w)).count r
      | none => 0 := by
  have hne : cfg.pool heap loaded (cfg.family heap r) ≠ [] :=
    List.ne_nil_of_mem (mem_pool_iff.mpr ⟨hr, rfl⟩)
  induction weights with
  | nil => rfl
  | cons fw weights ih =>
    obtain ⟨f, w⟩ := fw
    rw [List.map_cons, List.nodup_cons] at hkeys
    have hsplit : cfg.listedSample heap loaded ((f, w) :: weights) =
        (if cfg.pool heap loaded f = [] then []
          else sample (cfg.pool heap loaded f) (cfg.target loaded.length w)) ++
          cfg.listedSample heap loaded weights := List.flatMap_cons
    rw [hsplit, List.count_append, ih hkeys.2, List.lookup_cons]
    by_cases hf : cfg.family heap r = f
    · -- the family is not listed again
      have hnone : weights.lookup f = none := by
        rw [List.lookup_eq_none_iff]
        intro p hp
        rw [bne_iff_ne]
        intro heq
        exact hkeys.1 (List.mem_map.mpr ⟨p, hp, heq.symm⟩)
      subst hf
      rw [if_neg hne, hnone, beq_self_eq_true]
      rfl
    · have hzero : (if cfg.pool heap loaded f = [] then []
          else sample (cfg.pool heap loaded f) (cfg.target loaded.length w)).count r = 0 := by
        rw [List.count_eq_zero]
        split
        · exact List.not_mem_nil
        · exact fun hmem => hf (family_of_mem_sample hmem).2
      rw [hzero, Nat.zero_add, beq_false_of_ne hf]

/-- How often the samples of the other families hold a record. -/
theorem count_unlistedSample (weights : List (String × ℚ)) {r : ℕ} (hr : r ∈ loaded) :
    (cfg.unlistedSample heap loaded weights).count r =
      match weights.lookup (cfg.family heap r) with
      | some _ => 0
      | none => (sample (cfg.pool heap loaded (cfg.family heap r))
          (cfg.per heap loaded weights)).count r := by
  have hkeys : (cfg.unlisted heap loaded weights).Nodup :=
    (Dict.nodup_keys _).filter _
  -- a family is sampled here if the weights do not list it
  have hmem : cfg.family heap r ∈ cfg.unlisted heap loaded weights ↔
      weights.lookup (cfg.family heap r) = none := by
    unfold unlisted
    rw [List.mem_filter, decide_eq_true_eq, List.lookup_eq_none_iff]
    constructor
    · rintro ⟨-, hnot⟩ p hp
      rw [bne_iff_ne]
      rintro heq
      exact hnot (heq ▸ List.mem_map_of_mem hp)
    · intro hall
      refine ⟨(Dict.mem_keys_groupBy _ _ _).mpr ⟨r, hr, rfl⟩, fun hin => ?_⟩
      obtain ⟨p, hp, heq⟩ := List.mem_map.mp hin
      exact (bne_iff_ne.mp (hall p hp)) heq.symm
  unfold unlistedSample
  rw [count_flatMap_of_unique (b := cfg.family heap r) hkeys
    fun f _ hin => (family_of_mem_sample hin).2.symm]
  cases hlookup : weights.lookup (cfg.family heap r) with
  | some w =>
    have hnot : cfg.family heap r ∉ cfg.unlisted heap loaded weights := by
      rw [hmem, hlookup]
      exact nofun
    rw [if_neg hnot]
  | none => rw [if_pos (hmem.mpr hlookup)]

/-- The filter answers the loaded records, if the scenario has no weights or the samples
are empty, or else the samples in some order. -/
theorem filterByScenario_cases (cfg : Sampling) (heap : RecordHeap) (loaded : List ℕ)
    (scenario : String) :
    (cfg.filterByScenario heap loaded scenario = loaded ∧ (scenarioWeights scenario = [] ∨
      cfg.listedSample heap loaded (scenarioWeights scenario) ++
        cfg.unlistedSample heap loaded (scenarioWeights scenario) = [])) ∨
    (scenarioWeights scenario ≠ [] ∧ (cfg.filterByScenario heap loaded scenario).Perm
      (cfg.listedSample heap loaded (scenarioWeights scenario) ++
        cfg.unlistedSample heap loaded (scenarioWeights scenario))) := by
  unfold filterByScenario
  dsimp only
  split
  · next hweights => exact Or.inl ⟨rfl, Or.inl hweights⟩
  · next hweights =>
    have hperm := cfg.shuffle_perm (cfg.listedSample heap loaded (scenarioWeights scenario) ++
      cfg.unlistedSample heap loaded (scenarioWeights scenario))
    split
    · -- a shuffle of nothing is nothing, and the loaded list is kept
      next hempty =>
      rw [hempty] at hperm
      exact Or.inl ⟨rfl, Or.inr hperm.symm.eq_nil⟩
    · exact Or.inr ⟨hweights, hperm⟩

/-- Nothing but loaded records is replayed. -/
theorem mem_loaded_of_mem_filter {scenario : String} {r : ℕ}
    (hr : r ∈ cfg.filterByScenario heap loaded scenario) : r ∈ loaded := by
  obtain ⟨heq, -⟩ | ⟨-, hperm⟩ := filterByScenario_cases cfg heap loaded scenario
  · rw [heq] at hr
    exact hr
  · rw [hperm.mem_iff, List.mem_append] at hr
    -- a sample holds records of the pool only, listed family or not
    obtain hr | hr := hr
    · obtain ⟨fw, -, hin⟩ := List.mem_flatMap.mp hr
      dsimp only at hin
      split at hin
      · exact absurd hin List.not_mem_nil
      · exact (family_of_mem_sample hin).1
    · obtain ⟨f, -, hin⟩ := List.mem_flatMap.mp hr
      exact (family_of_mem_sample hin).1

/-- **Which records are repeated.** -/
theorem two_le_count_filterByScenario_iff (hnodup : loaded.Nodup) (scenario : String) {r : ℕ}
    (hr : r ∈ loaded) :
    2 ≤ (cfg.filterByScenario heap loaded scenario).count r ↔
      cfg.Oversampled heap loaded scenario r := by
  have honce : loaded.count r ≤ 1 := List.nodup_iff_count_le_one.mp hnodup r
  have hpool : (cfg.pool heap loaded (cfg.family heap r)).Nodup := by
    rw [pool_eq]
    exact hnodup.filter _
  have hmem : r ∈ cfg.pool heap loaded (cfg.family heap r) := mem_pool_iff.mpr ⟨hr, rfl⟩
  -- the samples of one family hold the record, up to its quota
  have hcount : 2 ≤ (cfg.listedSample heap loaded (scenarioWeights scenario) ++
      cfg.unlistedSample heap loaded (scenarioWeights scenario)).count r ↔
      (cfg.pool heap loaded (cfg.family heap r)).idxOf r +
        (cfg.pool heap loaded (cfg.family heap r)).length <
      cfg.quota heap loaded (scenarioWeights scenario) (cfg.family heap r) := by
    rw [List.count_append, count_listedSample (nodup_scenarioWeights scenario) hr,
      count_unlistedSample _ hr]
    unfold quota
    cases (scenarioWeights scenario).lookup (cfg.family heap r) with
    | some w => exact two_le_count_sample_iff hpool hmem _
    | none =>
      dsimp only
      rw [Nat.zero_add]
      exact two_le_count_sample_iff hpool hmem _
  unfold Oversampled
  rw [← hcount]
  obtain ⟨heq, hwhy⟩ | ⟨hweights, hperm⟩ := filterByScenario_cases cfg heap loaded scenario
  · rw [heq]
    refine iff_of_false (by omega) ?_
    rintro ⟨hweights, htwo⟩
    obtain hnone | hempty := hwhy
    · exact hweights hnone
    · rw [hempty, List.count_nil] at htwo
      omega
  · rw [hperm.count_eq, and_iff_right hweights]

end Sampling

/-! ### The first pass over a list with repetitions -/

namespace ReplayThread

/-- The visits of a run whose record was enqueued. -/
def enqueued (M : Machine ReplayThread ReplayTick (Option Visit)) (h : List ReplayTick) :
    List Visit :=
  (M.emits h).filterMap fun o => o.filter Visit.enqueued

theorem enqueued_concat (M : Machine ReplayThread ReplayTick (Option Visit))
    (h : List ReplayTick) (x : ReplayTick) :
    enqueued M (h ++ [x]) =
      enqueued M h ++ ((M.out (M.after h) x).filter Visit.enqueued).toList := by
  unfold enqueued
  rw [Machine.emits_concat, List.filterMap_append, List.filterMap_cons, List.filterMap_nil]
  split
  · next hnone => rw [hnone, Option.toList_none]
  · next v hsome => rw [hsome, Option.toList_some]

variable (speedFactor now : ℚ) {heap : RecordHeap} {records : List ℕ} {r₀ : ℕ}

/-- The state before the visit that follows `h` in the first pass: each record has been
moved as often as it has been visited. -/
structure FirstPass (speed : ℚ) (heap : RecordHeap) (sorted : List ℕ) (ref now : ℚ) (i : ℕ)
    (s : ReplayThread) : Prop where
  position : s.position = i
  refTs : s.refTs = ref
  wallT0 : s.wallT0 = now
  moved : ∀ r, (s.heap r).timestamp =
    (remap speed ref now)^[(sorted.take i).count r] (heap r).timestamp

/-- The record that is visited. -/
theorem FirstPass.getElem?_position {speed ref now : ℚ} {sorted : List ℕ} {i r : ℕ}
    {s : ReplayThread} (hs : FirstPass speed heap sorted ref now i s) (hr : sorted[i]? = some r) :
    sorted[s.position]? = some r := by
  rw [hs.position]
  exact hr

/-- What the visit gives the record. -/
theorem FirstPass.remap {speed ref now : ℚ} {sorted : List ℕ} {i r : ℕ} {s : ReplayThread}
    (hs : FirstPass speed heap sorted ref now i s) :
    remap speed s.refTs s.wallT0 (s.heap r).timestamp =
      (ReplayThread.remap speed ref now)^[(sorted.take i).count r + 1] (heap r).timestamp := by
  rw [hs.refTs, hs.wallT0, hs.moved, Function.iterate_succ_apply']

theorem firstPass_after (hr₀ : (sortByTimestamp heap records)[0]? = some r₀) {h : List ReplayTick}
    (hlt : h.length < records.length) :
    FirstPass (speedOf speedFactor) heap (sortByTimestamp heap records) (heap r₀).timestamp now
      h.length ((machine speedFactor heap records now).after h) := by
  have hlen : (sortByTimestamp heap records).length = records.length :=
    (sortByTimestamp_perm heap records).length_eq
  induction h using List.reverseRecOn with
  | nil =>
    have hfirst : (firstTimestamp heap (sortByTimestamp heap records)).getD now =
        (heap r₀).timestamp := by
      rw [firstTimestamp_eq hr₀, Option.getD_some]
    exact ⟨rfl, hfirst, rfl, fun r => rfl⟩
  | append_singleton h x ih =>
    rw [List.length_append, List.length_singleton] at hlt ⊢
    have hs := ih (by omega)
    obtain ⟨r, hr⟩ : ∃ r, (sortByTimestamp heap records)[h.length]? = some r :=
      ⟨_, List.getElem?_eq_getElem (by omega)⟩
    have hpos := hs.getElem?_position hr
    rw [Machine.after_concat]
    show FirstPass _ _ _ _ _ _ (step _ _ _ x).1
    rw [step_fst_of_lt hpos (by rw [hs.position]; omega)]
    refine ⟨by rw [← hs.position], hs.refTs, hs.wallT0, fun r' => ?_⟩
    rw [List.take_add_one, hr, Option.toList_some, List.count_append]
    -- the record that is visited is moved once more, and no other one is
    by_cases hne : r' = r
    · subst hne
      rw [List.count_singleton_self]
      exact timestamp_visited_self.trans hs.remap
    · have hzero : [r].count r' = 0 :=
        List.count_eq_zero.mpr fun hmem => hne (List.mem_singleton.mp hmem)
      rw [hzero, Nat.add_zero]
      exact (timestamp_visited_of_ne hne).trans (hs.moved r')

/-- **The time of an occurrence.** In the first pass, an occurrence of a record is moved
once more than the record occurs before it. -/
theorem timestamp_first_pass (hr₀ : (sortByTimestamp heap records)[0]? = some r₀)
    {h : List ReplayTick} {r : ℕ} (hr : (sortByTimestamp heap records)[h.length]? = some r)
    (x : ReplayTick) :
    (machine speedFactor heap records now).out ((machine speedFactor heap records now).after h) x =
      some ⟨r, (remap (speedOf speedFactor) (heap r₀).timestamp now)^[
        ((sortByTimestamp heap records).take h.length).count r + 1] (heap r).timestamp,
        x.room⟩ := by
  have hlt : h.length < records.length :=
    (sortByTimestamp_perm heap records).length_eq ▸ (List.getElem?_eq_some_iff.mp hr).1
  have hs := firstPass_after speedFactor now hr₀ hlt
  show (step _ _ _ x).2 = _
  rw [step_snd (hs.getElem?_position hr), hs.remap]

theorem remap_injective {speed : ℚ} (hpos : 0 < speed) (ref now : ℚ) :
    Function.Injective (remap speed ref now) := by
  intro a b hab
  unfold remap at hab
  have hdiv := add_left_cancel hab
  rw [div_left_inj' hpos.ne'] at hdiv
  exact sub_left_injective hdiv

theorem remap_mono {speed : ℚ} (hpos : 0 < speed) (ref now : ℚ) {a b : ℚ} (hab : a ≤ b) :
    remap speed ref now a ≤ remap speed ref now b := by
  unfold remap
  have hsub : a - ref ≤ b - ref := sub_le_sub_right hab ref
  have hdiv := div_le_div_of_nonneg_right hsub hpos.le
  exact add_le_add_right hdiv now

/-- The times of the enqueued visits of the first pass are on one line. -/
def OnOneLine (speedFactor ref now : ℚ) (heap : RecordHeap) (records : List ℕ) : Prop :=
  ∀ h : List ReplayTick, h.length ≤ records.length →
    (∀ v ∈ enqueued (machine speedFactor heap records now) h,
      v.timestamp = now + ((heap v.record).timestamp - ref) / speedOf speedFactor) ∧
    (enqueued (machine speedFactor heap records now) h).Pairwise
      fun v w => v.timestamp ≤ w.timestamp

/-- A record that is repeated is moved twice by some run that enqueues everything. -/
theorem exists_moved_twice (hr₀ : (sortByTimestamp heap records)[0]? = some r₀) {r : ℕ}
    (htwo : 2 ≤ records.count r) :
    ∃ h : List ReplayTick, h.length ≤ records.length ∧
      (⟨r, (remap (speedOf speedFactor) (heap r₀).timestamp now)^[2] (heap r).timestamp, true⟩ :
        Visit) ∈ enqueued (machine speedFactor heap records now) h := by
  have hperm := sortByTimestamp_perm heap records
  rw [← hperm.count_eq] at htwo
  obtain ⟨as, bs, hsplit, hone⟩ := exists_second_of_two_le_count htwo
  -- the run up to the second occurrence
  set h : List ReplayTick := List.replicate as.length ⟨true, 0⟩ with hh
  have hlen : h.length = as.length := List.length_replicate
  have hr : (sortByTimestamp heap records)[h.length]? = some r := by
    rw [hlen, hsplit, List.getElem?_append_right le_rfl, Nat.sub_self]
    rfl
  have hcount : ((sortByTimestamp heap records).take h.length).count r = 1 := by
    rw [hlen, hsplit, List.take_left]
    exact hone
  have hout := timestamp_first_pass speedFactor now hr₀ hr ⟨true, 0⟩
  rw [hcount] at hout
  refine ⟨h ++ [⟨true, 0⟩], ?_, ?_⟩
  · have hlt := (List.getElem?_eq_some_iff.mp hr).1
    rw [hperm.length_eq] at hlt
    rw [List.length_append]
    exact hlt
  · rw [enqueued_concat, hout, List.mem_append]
    exact Or.inr (List.mem_singleton_self _)

section Fixed

variable (hr₀ : (sortByTimestamp heap records)[0]? = some r₀)
  (hfix : ∀ r, 2 ≤ records.count r →
    remap (speedOf speedFactor) (heap r₀).timestamp now (heap r).timestamp = (heap r).timestamp)

include hfix in
/-- If repeated records stay where they are, every occurrence is moved as if it were the
first one. -/
theorem iterate_remap_of_fixed {i r : ℕ} (hr : (sortByTimestamp heap records)[i]? = some r) :
    (remap (speedOf speedFactor) (heap r₀).timestamp now)^[
        ((sortByTimestamp heap records).take i).count r + 1] (heap r).timestamp =
      remap (speedOf speedFactor) (heap r₀).timestamp now (heap r).timestamp := by
  by_cases hzero : ((sortByTimestamp heap records).take i).count r = 0
  · rw [hzero]
    rfl
  · -- a record seen before is in the list at least twice
    have htwo : 2 ≤ records.count r := by
      have hprefix : ((sortByTimestamp heap records).take (i + 1)).count r ≤
          (sortByTimestamp heap records).count r := (List.take_sublist _ _).count_le r
      rw [List.take_add_one, hr, Option.toList_some, List.count_append,
        List.count_singleton_self, (sortByTimestamp_perm heap records).count_eq] at hprefix
      omega
    rw [Function.iterate_fixed (hfix r htwo), hfix r htwo]

include hr₀ hfix in
/-- What the visit after `h` enqueues. -/
theorem visit_of_fixed {h : List ReplayTick} {x : ReplayTick} {v : Visit}
    (hlt : h.length < records.length)
    (hv : ((machine speedFactor heap records now).out
      ((machine speedFactor heap records now).after h) x).filter Visit.enqueued = some v) :
    (sortByTimestamp heap records)[h.length]? = some v.record ∧
      v.timestamp =
        remap (speedOf speedFactor) (heap r₀).timestamp now (heap v.record).timestamp := by
  obtain ⟨r, hr⟩ : ∃ r, (sortByTimestamp heap records)[h.length]? = some r :=
    ⟨_, List.getElem?_eq_getElem ((sortByTimestamp_perm heap records).length_eq ▸ hlt)⟩
  rw [timestamp_first_pass speedFactor now hr₀ hr, Option.filter_eq_some_iff] at hv
  obtain rfl := Option.some.inj hv.1
  exact ⟨hr, iterate_remap_of_fixed speedFactor now hfix hr⟩

include hr₀ hfix in
/-- An earlier visit is of an earlier place in the sorted list. -/
theorem timestamp_le_of_mem_enqueued {h : List ReplayTick} {x : ReplayTick} {v w : Visit}
    (hlt : h.length < records.length)
    (hv : ((machine speedFactor heap records now).out
      ((machine speedFactor heap records now).after h) x).filter Visit.enqueued = some v)
    (hw : w ∈ enqueued (machine speedFactor heap records now) h) : w.timestamp ≤ v.timestamp := by
  obtain ⟨hrecord, hmoved⟩ := visit_of_fixed speedFactor now hr₀ hfix hlt hv
  obtain ⟨o, ho, how⟩ := List.mem_filterMap.mp hw
  obtain ⟨h₁, x₁, h₂, rfl, rfl⟩ := Machine.exists_of_mem_emits _ ho
  have hearlier : h₁.length < (h₁ ++ x₁ :: h₂).length := by
    rw [List.length_append, List.length_cons]
    omega
  obtain ⟨hrecord₁, hmoved₁⟩ :=
    visit_of_fixed speedFactor now hr₀ hfix (hearlier.trans hlt) how
  obtain ⟨hi, hget⟩ := List.getElem?_eq_some_iff.mp hrecord
  obtain ⟨hi₁, hget₁⟩ := List.getElem?_eq_some_iff.mp hrecord₁
  -- the list is sorted by the original times, and the mapping is monotone
  have hle := List.pairwise_iff_getElem.mp (pairwise_sortByTimestamp heap records)
    h₁.length _ hi₁ hi hearlier
  rw [hmoved, hmoved₁]
  refine remap_mono (speedOf_pos speedFactor) _ _ ?_
  rw [← hget, ← hget₁]
  exact hle

include hr₀ hfix in
theorem onOneLine_of_fixed : OnOneLine speedFactor (heap r₀).timestamp now heap records := by
  intro h
  induction h using List.reverseRecOn with
  | nil => exact fun _ => ⟨fun v hv => absurd hv List.not_mem_nil, List.Pairwise.nil⟩
  | append_singleton h x ih =>
    -- the first pass only, one visit after the other
    intro hbound
    have hlt : h.length < records.length := by
      rw [List.length_append] at hbound
      exact hbound
    obtain ⟨htimes, hpairs⟩ := ih hlt.le
    rw [enqueued_concat]
    cases hlast : ((machine speedFactor heap records now).out
        ((machine speedFactor heap records now).after h) x).filter Visit.enqueued with
    | none =>
      rw [Option.toList_none, List.append_nil]
      exact ⟨htimes, hpairs⟩
    | some v =>
      rw [Option.toList_some]
      refine ⟨fun w hw => ?_, List.pairwise_append.mpr ⟨hpairs, List.pairwise_singleton _ _, ?_⟩⟩
      · obtain hw | hw := List.mem_append.mp hw
        · exact htimes w hw
        · rw [List.mem_singleton.mp hw]
          exact (visit_of_fixed speedFactor now hr₀ hfix hlt hlast).2
      · intro w hw u hu
        rw [List.mem_singleton.mp hu]
        exact timestamp_le_of_mem_enqueued speedFactor now hr₀ hfix hlt hlast hw

end Fixed

/-- **Repeated records.** The first pass is on one line if and only if each record that
is repeated is where it would be moved to. -/
theorem onOneLine_iff (hr₀ : (sortByTimestamp heap records)[0]? = some r₀) :
    OnOneLine speedFactor (heap r₀).timestamp now heap records ↔
      ∀ r, 2 ≤ records.count r →
        now + ((heap r).timestamp - (heap r₀).timestamp) / speedOf speedFactor =
          (heap r).timestamp := by
  constructor
  · intro hline r htwo
    obtain ⟨h, hbound, hmem⟩ := exists_moved_twice speedFactor now hr₀ htwo
    have htime := (hline h hbound).1 _ hmem
    -- the second move gives what the first one gave
    exact remap_injective (speedOf_pos speedFactor) _ _ htime
  · intro hfix
    exact onOneLine_of_fixed speedFactor now hr₀ hfix

/-- **When oversampled records are on one time line.** For every list of loaded records,
every scenario and every shuffle: in the first pass, the enqueued occurrences carry the
start of the pass plus the distance of their record to the earliest one, as loaded,
divided by the speed, and these times are nondecreasing, if and only if each record
that the quota of its family takes twice is already where it would be moved to. -/
theorem oversampled_time_iff (cfg : Sampling) (speedFactor : ℚ) (heap : RecordHeap)
    (loaded : List ℕ) (hnodup : loaded.Nodup) (scenario : String) (now ref : ℚ)
    (href : IsLeast {t | ∃ r ∈ cfg.filterByScenario heap loaded scenario,
      (heap r).timestamp = t} ref) :
    OnOneLine speedFactor ref now heap (cfg.filterByScenario heap loaded scenario) ↔
      ∀ r ∈ loaded, cfg.Oversampled heap loaded scenario r →
        now + ((heap r).timestamp - ref) / speedOf speedFactor = (heap r).timestamp := by
  set records := cfg.filterByScenario heap loaded scenario with hrecords
  have hperm : (sortByTimestamp heap records).Perm records := sortByTimestamp_perm heap records
  -- the first record of the sorted list is the earliest one
  obtain ⟨r₀, hr₀, hfirst⟩ : ∃ r₀, (sortByTimestamp heap records)[0]? = some r₀ ∧
      (heap r₀).timestamp = ref := by
    obtain ⟨⟨r, hr, htime⟩, hleast⟩ := href
    cases hlist : sortByTimestamp heap records with
    | nil => exact absurd (hlist ▸ hperm.mem_iff.mpr hr) List.not_mem_nil
    | cons r₀ rest =>
      have hr₀ : r₀ ∈ records := hperm.mem_iff.mp (hlist ▸ List.mem_cons_self)
      refine ⟨r₀, rfl, le_antisymm ?_ (hleast ⟨r₀, hr₀, rfl⟩)⟩
      have hsorted := pairwise_sortByTimestamp heap records
      have hmem : r ∈ r₀ :: rest := hlist ▸ hperm.mem_iff.mpr hr
      rw [hlist, List.pairwise_cons] at hsorted
      rw [← htime]
      obtain rfl | hin := List.mem_cons.mp hmem
      · exact le_rfl
      · exact hsorted.1 r hin
  subst hfirst
  rw [onOneLine_iff speedFactor now hr₀]
  constructor
  · intro hfix r hr hover
    exact hfix r ((Sampling.two_le_count_filterByScenario_iff hnodup scenario hr).mpr hover)
  · intro hfix r htwo
    have hr : r ∈ loaded :=
      Sampling.mem_loaded_of_mem_filter (List.count_pos_iff.mp (by omega : 0 < records.count r))
    exact hfix r hr ((Sampling.two_le_count_filterByScenario_iff hnodup scenario hr).mp htwo)

/-- A sampling that rounds exactly and keeps the order of the list. -/
def plainSampling : Sampling where
  upper := String.toUpper
  target total w := (total * w).floor.toNat
  shuffle := id
  shuffle_perm _ := List.Perm.refl _

/-- Two records of a scenario without weights. -/
theorem oversampled_time_iff_random :
    OnOneLine 2 0 100 twoRecords (plainSampling.filterByScenario twoRecords [0, 1] "random") := by
  have hleast : IsLeast {t | ∃ r ∈ plainSampling.filterByScenario twoRecords [0, 1] "random",
      (twoRecords r).timestamp = t} 0 := by
    refine ⟨⟨0, List.mem_cons_self, by decide +kernel⟩, ?_⟩
    rintro t ⟨r, -, rfl⟩
    show (0 : ℚ) ≤ 10 * r
    positivity
  refine (oversampled_time_iff plainSampling 2 twoRecords [0, 1] (by decide) "random" 100 0
    hleast).mpr ?_
  intro r _ hover
  exact absurd rfl hover.1

/-- A port scan among three benign flows. -/
def rareScan : RecordHeap := fun r =>
  if r = 0 then .ofFamily "PORT_SCAN" 10 else .ofFamily "BENIGN" r

/-- **A record that is moved twice.** The scenario takes the only port scan twice. Its
first occurrence is replayed at the start of the pass, at 100, the second one at 190. -/
theorem repeated_record_moved_twice :
    plainSampling.filterByScenario rareScan [0, 1, 2, 3] "recon_storm" = [0, 0] ∧
    (machine 1 rareScan [0, 0] 100).out ((machine 1 rareScan [0, 0] 100).after [⟨true, 0⟩])
      ⟨true, 0⟩ = some ⟨0, 190, true⟩ ∧
    ¬ ∀ (cfg : Sampling) (speedFactor : ℚ) (heap : RecordHeap) (loaded : List ℕ), loaded.Nodup →
      ∀ (scenario : String) (now ref : ℚ),
        IsLeast {t | ∃ r ∈ cfg.filterByScenario heap loaded scenario,
          (heap r).timestamp = t} ref →
        OnOneLine speedFactor ref now heap (cfg.filterByScenario heap loaded scenario) := by
  have hfilter : plainSampling.filterByScenario rareScan [0, 1, 2, 3] "recon_storm" = [0, 0] := by
    decide +kernel
  have hsort : sortByTimestamp rareScan [0, 0] = [0, 0] :=
    sortByTimestamp_of_pairwise (by decide +kernel)
  have hr₀ : (sortByTimestamp rareScan [0, 0])[0]? = some 0 := by
    rw [hsort]
    rfl
  have hr : (sortByTimestamp rareScan [0, 0])[[(⟨true, 0⟩ : ReplayTick)].length]? = some 0 := by
    rw [hsort]
    rfl
  -- the record is visited twice in a pass, and moved at both visits
  have hmoved : (remap (speedOf 1) (rareScan 0).timestamp 100)^[1 + 1] (rareScan 0).timestamp =
      190 := by
    decide +kernel
  refine ⟨hfilter, ?_, fun hall => ?_⟩
  · rw [timestamp_first_pass 1 100 hr₀ hr, ← hmoved, hsort]
    rfl
  · have hleast : IsLeast {t | ∃ r ∈ plainSampling.filterByScenario rareScan [0, 1, 2, 3]
        "recon_storm", (rareScan r).timestamp = t} (rareScan 0).timestamp := by
      rw [hfilter]
      refine ⟨⟨0, List.mem_cons_self, rfl⟩, ?_⟩
      rintro t ⟨r, hr, rfl⟩
      simp only [List.mem_cons, List.not_mem_nil, or_false, or_self] at hr
      rw [hr]
    have hline := hall plainSampling 1 rareScan [0, 1, 2, 3] (by decide) "recon_storm" 100 _ hleast
    rw [hfilter] at hline
    have hfix := (onOneLine_iff 1 100 hr₀).mp hline 0 (by decide)
    exact absurd hfix (by decide +kernel)

end ReplayThread

end Sentrix
