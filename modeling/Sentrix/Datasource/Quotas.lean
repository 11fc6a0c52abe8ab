import Mathlib.Algebra.Order.BigOperators.Group.List
import Mathlib.Data.Rat.Floor
import Sentrix.Datasource.Oversampling

/-!
# The quotas of a scenario

With weights read as exact numbers, `_filter_by_scenario` gives a listed family the whole
part of its share of the input, and divides what is left among the other families evenly.
A family that occurs fills its quota with its records, over and over, cut off at the quota
(`sample_eq_cyclic`); the loop that does so ends because a family that occurs has a record.
The weights of a scenario add up to one, so the quotas fit into the input
(`length_samples_le`). If no family that occurs has a quota, the input is answered as it
is (`meetsQuotas`).
-/

namespace Sentrix

namespace Sampling

/-- The sampling whose targets are not rounded in between. -/
def exact (upper : String → String) (shuffle : List ℕ → List ℕ)
    (hshuffle : ∀ l, (shuffle l).Perm l) : Sampling where
  upper := upper
  target total w := ⌊(total : ℚ) * w⌋₊
  shuffle := shuffle
  shuffle_perm := hshuffle

/-! ### What the filter should do -/

section Spec

variable (family : ℕ → String) (loaded : List ℕ)

/-- The families that occur. -/
def present : List String := (loaded.map family).dedup

/-- The records of a family. -/
def recordsOf (f : String) : List ℕ := loaded.filter fun r => decide (family r = f)

/-- What the listed families that occur are given together. -/
def listedTotal (weights : List (String × ℚ)) : ℕ :=
  (weights.map fun fw => if fw.1 ∈ present family loaded then ⌊(loaded.length : ℚ) * fw.2⌋₊
    else 0).sum

/-- The quota of a family: its share of the input, or an even share of the rest. -/
def familyQuota (weights : List (String × ℚ)) (f : String) : ℕ :=
  match weights.lookup f with
  | some w => ⌊(loaded.length : ℚ) * w⌋₊
  | none => (loaded.length - listedTotal family loaded weights) /
      ((present family loaded).filter fun g => decide (g ∉ weights.map Prod.fst)).length

/-- The result has the quotas of the scenario, from the records of the input, if some
family that occurs has a quota, and is the input otherwise. -/
structure MeetsQuotas (weights : List (String × ℚ)) (result : List ℕ) : Prop where
  members : ∀ r ∈ result, r ∈ loaded
  cycles : weights ≠ [] → (∃ r ∈ loaded, 0 < familyQuota family loaded weights (family r)) →
    result.Perm ((present family loaded).flatMap fun f =>
      cyclic (recordsOf family loaded f) (familyQuota family loaded weights f))
  counts : weights ≠ [] → (∃ r ∈ loaded, 0 < familyQuota family loaded weights (family r)) →
    ∀ r ∈ loaded, (result.countP fun q => decide (family q = family r)) =
      familyQuota family loaded weights (family r)
  bounded : result.length ≤ loaded.length
  nonempty : result ≠ []
  unsampled : (weights = [] ∨ ∀ r ∈ loaded, familyQuota family loaded weights (family r) = 0) →
    result = loaded

end Spec

theorem nodup_present (family : ℕ → String) (loaded : List ℕ) : (present family loaded).Nodup :=
  List.nodup_dedup _

/-- A cycle through the records of a family has no other records. -/
theorem mem_of_mem_cyclic {family : ℕ → String} {loaded : List ℕ} {f : String} {n q : ℕ}
    (hq : q ∈ cyclic (recordsOf family loaded f) n) : q ∈ loaded ∧ family q = f := by
  obtain ⟨i, -, hi⟩ := List.mem_filterMap.mp hq
  obtain ⟨hmem, hfamily⟩ := List.mem_filter.mp (List.mem_of_getElem? hi)
  exact ⟨hmem, of_decide_eq_true hfamily⟩

/-! ### Samples -/

theorem sample_eq_cyclic {pool : List ℕ} (hpool : pool ≠ []) (target : ℕ) :
    sample pool target = cyclic pool target := by
  obtain ⟨hreached, m, heq⟩ := sampleLoop_spec hpool (Nat.le_add_left target (List.length []))
  unfold sample
  rw [heq, List.nil_append] at hreached ⊢
  exact take_flatten_replicate pool hreached

/-- **The loop ends.** For a pool that has a record, more turns than the target do not
matter: the loop has reached the target. -/
theorem sampleLoop_ends {pool : List ℕ} (hpool : pool ≠ []) {target fuel : ℕ}
    (hfuel : target ≤ fuel) :
    target ≤ (sampleLoop pool target fuel []).length ∧
      sampleLoop pool target fuel [] = sampleLoop pool target target [] := by
  -- at the target the loop is left, whatever turns it has
  have hreached : ∀ (fuel : ℕ) (sampled : List ℕ), target ≤ sampled.length →
      sampleLoop pool target fuel sampled = sampled := by
    intro fuel sampled hle
    cases fuel with
    | zero => rfl
    | succ fuel => exact if_neg (not_lt.mpr hle)
  have hextra : ∀ (more fuel : ℕ) (sampled : List ℕ), target ≤ sampled.length + fuel →
      sampleLoop pool target (fuel + more) sampled = sampleLoop pool target fuel sampled := by
    intro more fuel
    induction fuel with
    | zero =>
      intro sampled hle
      rw [hreached _ _ hle, hreached _ _ hle]
    | succ fuel ih =>
      intro sampled hle
      rw [Nat.succ_add]
      unfold sampleLoop
      split
      · refine ih (sampled ++ pool) ?_
        have hpos := List.length_pos_of_ne_nil hpool
        rw [List.length_append]
        omega
      · rfl
  have hle : target ≤ List.length ([] : List ℕ) + fuel := by
    rw [List.length_nil, Nat.zero_add]
    exact hfuel
  refine ⟨(sampleLoop_spec hpool hle).1, ?_⟩
  obtain ⟨more, rfl⟩ := Nat.exists_eq_add_of_le hfuel
  refine hextra more target [] ?_
  rw [List.length_nil, Nat.zero_add]

/-- The weights of a scenario are positive and add up to one, if there are any. -/
theorem sum_scenarioWeights (scenario : String) :
    ((scenarioWeights scenario).map Prod.snd).sum ≤ 1 ∧
      ∀ fw ∈ scenarioWeights scenario, 0 ≤ fw.2 := by
  unfold scenarioWeights
  split <;> exact ⟨by decide +kernel, by decide +kernel⟩

/-- Whole parts of shares fit into the whole. -/
theorem sum_floor_le (n : ℕ) {ws : List ℚ} (hpos : ∀ w ∈ ws, 0 ≤ w) (hsum : ws.sum ≤ 1) :
    (ws.map fun w => ⌊(n : ℚ) * w⌋₊).sum ≤ n := by
  -- each floor is below its product, so the sum is below n times the sum of the weights
  have hcast : (((ws.map fun w => ⌊(n : ℚ) * w⌋₊).sum : ℕ) : ℚ) ≤ n * ws.sum := by
    clear hsum
    induction ws with
    | nil => simp
    | cons w ws ih =>
      rw [List.map_cons, List.sum_cons, List.sum_cons, Nat.cast_add, mul_add]
      have hfloor : ((⌊(n : ℚ) * w⌋₊ : ℕ) : ℚ) ≤ n * w :=
        Nat.floor_le (mul_nonneg (Nat.cast_nonneg n) (hpos w List.mem_cons_self))
      exact add_le_add hfloor (ih fun v hv => hpos v (List.mem_cons_of_mem w hv))
  have hle : (n : ℚ) * ws.sum ≤ n :=
    mul_le_of_le_one_right (Nat.cast_nonneg n) hsum
  exact_mod_cast hcast.trans hle

/-! ### The families of the result -/

section Families

variable (cfg : Sampling) (heap : RecordHeap) (loaded : List ℕ) (weights : List (String × ℚ))

/-- The families that give samples: those listed that have a pool, and the others. -/
def families : List String :=
  ((weights.map Prod.fst).filter fun f => decide (¬ cfg.pool heap loaded f = [])) ++
    cfg.unlisted heap loaded weights

variable {cfg heap loaded weights}

theorem pool_eq_recordsOf (f : String) :
    cfg.pool heap loaded f = recordsOf (cfg.family heap) loaded f := pool_eq f

theorem mem_present_iff {f : String} :
    f ∈ present (cfg.family heap) loaded ↔ ∃ r ∈ loaded, cfg.family heap r = f := by
  rw [present, List.mem_dedup, List.mem_map]

/-- A family has a pool if a record of it was loaded. -/
theorem pool_ne_nil_iff {f : String} :
    cfg.pool heap loaded f ≠ [] ↔ f ∈ present (cfg.family heap) loaded := by
  rw [mem_present_iff]
  constructor
  · intro hne
    obtain ⟨r, hr⟩ := List.exists_mem_of_ne_nil _ hne
    exact ⟨r, mem_pool_iff.mp hr⟩
  · rintro ⟨r, hr⟩
    exact List.ne_nil_of_mem (mem_pool_iff.mpr hr)

/-- A family is unlisted if it is loaded and has no weight. -/
theorem mem_unlisted_iff {f : String} :
    f ∈ cfg.unlisted heap loaded weights ↔
      f ∈ present (cfg.family heap) loaded ∧ f ∉ weights.map Prod.fst := by
  rw [unlisted, List.mem_filter, decide_eq_true_eq, mem_present_iff]
  exact and_congr_left fun _ => Dict.mem_keys_groupBy _ _ _

theorem nodup_unlisted : (cfg.unlisted heap loaded weights).Nodup := (Dict.nodup_keys _).filter _

theorem unlisted_perm : (cfg.unlisted heap loaded weights).Perm
    ((present (cfg.family heap) loaded).filter fun g => decide (g ∉ weights.map Prod.fst)) := by
  rw [List.perm_ext_iff_of_nodup nodup_unlisted ((nodup_present _ _).filter _)]
  intro f
  rw [mem_unlisted_iff, List.mem_filter, decide_eq_true_eq]

/-- The families that give samples are those that occur. -/
theorem families_perm (hkeys : (weights.map Prod.fst).Nodup) :
    (families cfg heap loaded weights).Perm (present (cfg.family heap) loaded) := by
  -- an unlisted family has no weight
  have hdisjoint :
      ∀ f ∈ (weights.map Prod.fst).filter fun f => decide (¬ cfg.pool heap loaded f = []),
      ∀ g ∈ cfg.unlisted heap loaded weights, f ≠ g := by
    rintro f hf g hg rfl
    exact (mem_unlisted_iff.mp hg).2 (List.mem_filter.mp hf).1
  have hnodup : (families cfg heap loaded weights).Nodup :=
    List.nodup_append.mpr ⟨hkeys.filter _, nodup_unlisted, hdisjoint⟩
  rw [List.perm_ext_iff_of_nodup hnodup (nodup_present _ _)]
  intro f
  rw [families, List.mem_append, List.mem_filter, mem_unlisted_iff, decide_eq_true_eq,
    ← ne_eq, pool_ne_nil_iff]
  tauto

/-- The quota of a listed family. -/
theorem quota_of_mem (hkeys : (weights.map Prod.fst).Nodup) {fw : String × ℚ} (hfw : fw ∈ weights) :
    cfg.quota heap loaded weights fw.1 = cfg.target loaded.length fw.2 := by
  have hlookup : weights.lookup fw.1 = some fw.2 :=
    (Dict.lookup_eq_some_iff hkeys fw.1 fw.2).mpr hfw
  unfold quota
  rw [hlookup]

theorem quota_of_unlisted {f : String} (hf : f ∉ weights.map Prod.fst) :
    cfg.quota heap loaded weights f = cfg.per heap loaded weights := by
  have hlookup : weights.lookup f = none := by
    rw [List.lookup_eq_none_iff]
    intro p hp
    rw [bne_iff_ne]
    rintro rfl
    exact hf (List.mem_map_of_mem hp)
  unfold quota
  rw [hlookup]

/-- **The samples**, family by family. -/
theorem samples_eq (hkeys : (weights.map Prod.fst).Nodup) :
    cfg.listedSample heap loaded weights ++ cfg.unlistedSample heap loaded weights =
      (families cfg heap loaded weights).flatMap fun f =>
        sample (cfg.pool heap loaded f) (cfg.quota heap loaded weights f) := by
  rw [families, List.flatMap_append]
  congr 1
  · rw [← flatMap_ite_nil (fun f => cfg.pool heap loaded f = []), List.flatMap_map]
    refine List.flatMap_congr fun fw hfw => ?_
    rw [quota_of_mem hkeys hfw]
  · refine List.flatMap_congr fun f hf => ?_
    rw [quota_of_unlisted (mem_unlisted_iff.mp hf).2]

/-- A family that gives samples fills its quota. -/
theorem length_sample_quota {f : String} (hf : f ∈ present (cfg.family heap) loaded) (n : ℕ) :
    (sample (cfg.pool heap loaded f) n).length = n := by
  rw [sample_eq_cyclic (pool_ne_nil_iff.mpr hf), length_cyclic (pool_ne_nil_iff.mpr hf)]

/-- The listed families fill their targets. -/
theorem length_listedSample :
    (cfg.listedSample heap loaded weights).length = (weights.map fun fw =>
      if fw.1 ∈ present (cfg.family heap) loaded then cfg.target loaded.length fw.2
      else 0).sum := by
  unfold listedSample
  rw [List.length_flatMap]
  congr 1
  refine List.map_congr_left fun fw _ => ?_
  by_cases hf : fw.1 ∈ present (cfg.family heap) loaded
  · rw [if_pos hf, if_neg (pool_ne_nil_iff.mpr hf), length_sample_quota hf]
  · rw [if_neg hf, if_pos (not_not.mp (mt pool_ne_nil_iff.mp hf))]
    rfl

/-- The unlisted families share the rest. -/
theorem length_unlistedSample :
    (cfg.unlistedSample heap loaded weights).length =
      (cfg.unlisted heap loaded weights).length * cfg.per heap loaded weights := by
  have hconst : ((cfg.unlisted heap loaded weights).map fun f =>
      (sample (cfg.pool heap loaded f) (cfg.per heap loaded weights)).length) =
      (cfg.unlisted heap loaded weights).map fun _ => cfg.per heap loaded weights :=
    List.map_congr_left fun f hf => length_sample_quota (mem_unlisted_iff.mp hf).1 _
  unfold unlistedSample
  rw [List.length_flatMap, hconst, List.map_const', List.sum_replicate]
  rfl

end Families

/-! ### The result -/

/-- A scenario keeps something of what was loaded. -/
theorem filterByScenario_ne_nil (cfg : Sampling) (heap : RecordHeap) {loaded : List ℕ}
    (hne : loaded ≠ []) (scenario : String) : cfg.filterByScenario heap loaded scenario ≠ [] := by
  unfold filterByScenario
  dsimp only
  split
  · exact hne
  · split
    · exact hne
    · next hresult => exact hresult

section Exact

variable (upper : String → String) (shuffle : List ℕ → List ℕ)
  (hshuffle : ∀ l, (shuffle l).Perm l) (heap : RecordHeap) (loaded : List ℕ)

/-- The quotas of the code are those of the specification. -/
theorem quota_eq_familyQuota (weights : List (String × ℚ)) (f : String) :
    (exact upper shuffle hshuffle).quota heap loaded weights f =
      familyQuota ((exact upper shuffle hshuffle).family heap) loaded weights f := by
  -- only the share of the unlisted families is computed differently
  have hper : (exact upper shuffle hshuffle).per heap loaded weights =
      (loaded.length - listedTotal ((exact upper shuffle hshuffle).family heap) loaded weights) /
        ((present ((exact upper shuffle hshuffle).family heap) loaded).filter fun g =>
          decide (g ∉ weights.map Prod.fst)).length := by
    unfold per
    rw [length_listedSample, unlisted_perm.length_eq]
    rfl
  unfold quota familyQuota
  rw [hper]
  rfl

/-- The samples fit into the input. -/
theorem length_samples_le (scenario : String) :
    ((exact upper shuffle hshuffle).listedSample heap loaded (scenarioWeights scenario) ++
      (exact upper shuffle hshuffle).unlistedSample heap loaded
        (scenarioWeights scenario)).length ≤ loaded.length := by
  set cfg := exact upper shuffle hshuffle
  set weights := scenarioWeights scenario with hweights
  obtain ⟨hsum, hpos⟩ := sum_scenarioWeights scenario
  have hlisted : (cfg.listedSample heap loaded weights).length ≤ loaded.length := by
    calc (cfg.listedSample heap loaded weights).length
        = (weights.map fun fw => if fw.1 ∈ present (cfg.family heap) loaded then
            ⌊(loaded.length : ℚ) * fw.2⌋₊ else 0).sum := length_listedSample
      _ ≤ (weights.map fun fw => ⌊(loaded.length : ℚ) * fw.2⌋₊).sum := by
          refine List.sum_le_sum fun fw _ => ?_
          split
          · exact le_rfl
          · exact Nat.zero_le _
      _ = ((weights.map Prod.snd).map fun w => ⌊(loaded.length : ℚ) * w⌋₊).sum := by
          rw [List.map_map]
          rfl
      _ ≤ loaded.length := by
          refine sum_floor_le loaded.length (fun w hw => ?_) hsum
          obtain ⟨fw, hfw, rfl⟩ := List.mem_map.mp hw
          exact hpos fw hfw
  -- the even shares of the rest do not exceed it
  have hrest : (cfg.unlistedSample heap loaded weights).length ≤
      loaded.length - (cfg.listedSample heap loaded weights).length := by
    rw [length_unlistedSample]
    exact Nat.mul_div_le _ _
  rw [List.length_append]
  omega

/-- **The samples, up to their order**: the records of each family that occurs, over and
over, cut off at its quota. -/
theorem samples_perm (scenario : String) :
    ((exact upper shuffle hshuffle).listedSample heap loaded (scenarioWeights scenario) ++
      (exact upper shuffle hshuffle).unlistedSample heap loaded (scenarioWeights scenario)).Perm
      ((present ((exact upper shuffle hshuffle).family heap) loaded).flatMap fun f =>
        cyclic (recordsOf ((exact upper shuffle hshuffle).family heap) loaded f)
          (familyQuota ((exact upper shuffle hshuffle).family heap) loaded
            (scenarioWeights scenario) f)) := by
  have hkeys := nodup_scenarioWeights scenario
  rw [samples_eq hkeys]
  refine ((families_perm hkeys).flatMap_right _).trans (List.Perm.of_eq ?_)
  refine List.flatMap_congr fun f hf => ?_
  rw [sample_eq_cyclic (pool_ne_nil_iff.mpr hf), quota_eq_familyQuota, pool_eq_recordsOf]

/-- How many samples a family gives. -/
theorem countP_cycles (family : ℕ → String) (quota : String → ℕ) {r : ℕ} (hr : r ∈ loaded) :
    ((present family loaded).flatMap fun f => cyclic (recordsOf family loaded f) (quota f)).countP
      (fun q => decide (family q = family r)) = quota (family r) := by
  have hmem : family r ∈ present family loaded :=
    List.mem_dedup.mpr (List.mem_map_of_mem hr)
  -- the record itself is in its family's pool
  have hne : recordsOf family loaded (family r) ≠ [] :=
    List.ne_nil_of_mem (List.mem_filter.mpr ⟨hr, decide_eq_true rfl⟩)
  rw [countP_flatMap_of_unique (b := family r) (nodup_present family loaded), if_pos hmem,
    List.countP_eq_length.mpr, length_cyclic hne]
  · intro q hq
    exact decide_eq_true (mem_of_mem_cyclic hq).2
  · intro f _ q hq heq
    rw [← (mem_of_mem_cyclic hq).2]
    exact of_decide_eq_true heq

/-- **Scenario sampling meets its quotas and ends.** For every non-empty list of records
and every scenario, with exact weights. -/
theorem meetsQuotas (hne : loaded ≠ []) (scenario : String) :
    MeetsQuotas ((exact upper shuffle hshuffle).family heap) loaded (scenarioWeights scenario)
        ((exact upper shuffle hshuffle).filterByScenario heap loaded scenario) ∧
      ∀ r ∈ loaded, ∀ target fuel, target ≤ fuel →
        target ≤ (sampleLoop ((exact upper shuffle hshuffle).pool heap loaded
          ((exact upper shuffle hshuffle).family heap r)) target fuel []).length ∧
        sampleLoop ((exact upper shuffle hshuffle).pool heap loaded
          ((exact upper shuffle hshuffle).family heap r)) target fuel [] =
        sampleLoop ((exact upper shuffle hshuffle).pool heap loaded
          ((exact upper shuffle hshuffle).family heap r)) target target [] := by
  set cfg := exact upper shuffle hshuffle with hcfg
  set samples := cfg.listedSample heap loaded (scenarioWeights scenario) ++
    cfg.unlistedSample heap loaded (scenarioWeights scenario)
  have hperm := samples_perm upper shuffle hshuffle heap loaded scenario
  have hcounts : ∀ r ∈ loaded, samples.countP
      (fun q => decide (cfg.family heap q = cfg.family heap r)) =
      familyQuota (cfg.family heap) loaded (scenarioWeights scenario) (cfg.family heap r) :=
    fun r hr => (hperm.countP_eq _).trans (countP_cycles loaded _ _ hr)
  -- there are samples if and only if some family has a quota
  have hnil : samples = [] ↔ ∀ r ∈ loaded,
      familyQuota (cfg.family heap) loaded (scenarioWeights scenario) (cfg.family heap r) = 0 := by
    constructor
    · intro hempty r hr
      rw [← hcounts r hr, hempty, List.countP_nil]
    · intro hzero
      by_contra hsome
      obtain ⟨q, hq⟩ := List.exists_mem_of_ne_nil _ hsome
      obtain ⟨f, -, hcycle⟩ := List.mem_flatMap.mp (hperm.mem_iff.mp hq)
      have hloaded := (mem_of_mem_cyclic hcycle).1
      have hpos : 0 < samples.countP
          (fun p => decide (cfg.family heap p = cfg.family heap q)) :=
        List.countP_pos_iff.mpr ⟨q, hq, decide_eq_true rfl⟩
      rw [hcounts q hloaded, hzero q hloaded] at hpos
      exact absurd hpos (lt_irrefl 0)
  have hresult := cfg.filterByScenario_ne_nil heap hne scenario
  refine ⟨?_, fun r hr target fuel hfuel => ?_⟩
  · obtain ⟨heq, hwhy⟩ | ⟨hweights, hshuffled⟩ := filterByScenario_cases cfg heap loaded scenario
    · -- the input itself
      have hnone : ¬ (scenarioWeights scenario ≠ [] ∧ ∃ r ∈ loaded, 0 <
          familyQuota (cfg.family heap) loaded (scenarioWeights scenario) (cfg.family heap r)) := by
        rintro ⟨hweights, r, hr, hpos⟩
        obtain hnoweights | hempty := hwhy
        · exact hweights hnoweights
        · exact absurd (hnil.mp hempty r hr) hpos.ne'
      rw [heq]
      exact ⟨fun r hr => hr, fun hw hr => absurd ⟨hw, hr⟩ hnone,
        fun hw hr => absurd ⟨hw, hr⟩ hnone, le_rfl, hne, fun _ => rfl⟩
    · refine ⟨fun r hr => mem_loaded_of_mem_filter hr, fun _ _ => hshuffled.trans hperm,
        fun _ _ r hr => (hshuffled.countP_eq _).trans (hcounts r hr), ?_, hresult, ?_⟩
      · rw [hshuffled.length_eq]
        exact length_samples_le upper shuffle hshuffle heap loaded scenario
      · rintro (hnoweights | hzero)
        · exact absurd hnoweights hweights
        · have hempty : samples = [] := hnil.mpr hzero
          have hsame : (cfg.filterByScenario heap loaded scenario).Perm samples := hshuffled
          rw [hempty] at hsame
          exact absurd hsame.eq_nil hresult
  · refine sampleLoop_ends ?_ hfuel
    exact List.ne_nil_of_mem (mem_pool_iff.mpr ⟨hr, rfl⟩)

/-- A port scan among three benign flows. -/
theorem meetsQuotas_recon_storm :
    MeetsQuotas ((exact String.toUpper id fun _ => List.Perm.refl _).family ReplayThread.rareScan)
      [0, 1, 2, 3] (scenarioWeights "recon_storm")
      ((exact String.toUpper id fun _ => List.Perm.refl _).filterByScenario ReplayThread.rareScan
        [0, 1, 2, 3] "recon_storm") :=
  (meetsQuotas String.toUpper id (fun _ => List.Perm.refl _) ReplayThread.rareScan [0, 1, 2, 3]
    (List.cons_ne_nil 0 [1, 2, 3]) "recon_storm").1

end Exact

end Sampling

end Sentrix
