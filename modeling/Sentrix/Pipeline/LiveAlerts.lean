import Mathlib.Tactic.Linarith
import Sentrix.Alerting.Correlation
import Sentrix.Pipeline.Live

/-!
# The alerts of a live run

The simulated clock moves forward with every packet, and tasks do not overtake each other, so
the worker evaluates tasks by nondecreasing time whatever the interleaving. The alerts it raises
are then in order, and the correlator's index gives each of them the ids that a scan of the
alerts raised before would find, up to its cap of twenty (`related_ids`).

`task_queue` stays nearly empty (`task_queue_bounded`), so tasks are lost only at the end of a
run or when an evaluation raises (`evaluated_first`).
-/

namespace Sentrix

namespace Live

open scoped List

variable {env : LiveEnv} {cfg : PipelineConfig BankPacket} {now : ℚ}

/-! ### The feed -/

/-- What is known of a packet that is fired. -/
theorem fire_ok {s s' : LiveFeed} {p : BankPacket} {tasks : List InferenceTask}
    (h : fire env s p = .ok (s', tasks)) :
    s'.simClock = s.simClock + ReplayLoop.dt s.prevRawTs p.1 ∧
      (∀ t ∈ tasks, t.ts = s'.simClock) ∧ tasks.length ≤ 7 := by
  unfold fire at h
  cases hparse : Parsers.parsePacket env.dpkt p.2 with
  | error e =>
    -- a packet whose parsing raises fires nothing
    rw [hparse] at h
    cases h
  | ok m =>
    rw [hparse] at h
    cases m with
    | none =>
      cases h
      exact ⟨rfl, List.forall_mem_nil _, Nat.zero_le _⟩
    | some m =>
      cases hdns : layer env.parseDns "UDP" 53 m with
      | error e =>
        simp only [bind, Except.bind, hdns] at h
        cases h
      | ok dns =>
        cases htls : layer env.parseTls "TCP" 443 m with
        | error e =>
          simp only [bind, Except.bind, hdns, htls] at h
          cases h
        | ok tls =>
          simp only [bind, Except.bind, hdns, htls] at h
          cases h
          refine ⟨rfl, fun t ht => ?_, ?_⟩
          · obtain ⟨feats, -, rfl⟩ := List.mem_map.mp ht
            rfl
          · -- at most one vector for each of the three cadences' extractors
            rw [List.length_map, FeatureScheduler.processPacket_snd, List.length_append,
              List.length_append]
            have hfew : ∀ (q : Prop) [Decidable q] (l : List (FeatureDict ℚ)),
                (if q then l else []).length ≤ l.length := by
              intro q _ l
              split
              · exact Nat.le_refl _
              · exact Nat.zero_le _
            exact Nat.add_le_add (Nat.add_le_add (hfew _ _) (hfew _ _)) (hfew _ _)

/-- The tasks fired so far are in order, and not later than the clock. -/
structure FeedInv (s : LiveFeed) (fired : List InferenceTask) : Prop where
  ordered : fired.Pairwise fun t u => t.ts ≤ u.ts
  past : ∀ t ∈ fired, t.ts ≤ s.simClock

theorem FeedInv.fire {s s' : LiveFeed} {fired tasks : List InferenceTask} {p : BankPacket}
    (h : FeedInv s fired) (hfire : Live.fire env s p = .ok (s', tasks)) :
    FeedInv s' (fired ++ tasks) := by
  obtain ⟨hclock, htasks, -⟩ := fire_ok hfire
  have hdt := ReplayLoop.dt_pos s.prevRawTs p.1
  -- the clock only moves forward
  have hpast : ∀ t ∈ fired, t.ts ≤ s'.simClock := by
    intro t ht
    have hle := h.past t ht
    linarith
  constructor
  · -- the tasks of one packet share its time
    rw [List.pairwise_append]
    refine ⟨h.ordered, List.pairwise_of_forall_mem_list fun t ht u hu => ?_, ?_⟩
    · rw [htasks t ht, htasks u hu]
    · intro t ht u hu
      rw [htasks u hu]
      exact hpast t ht
  · intro t ht
    obtain ht | ht := List.mem_append.mp ht
    · exact hpast t ht
    · exact (htasks t ht).le

/-- A packet that raises fires nothing. -/
theorem firing_step (s : LiveFeed) (p : BankPacket) (feed : LiveFeed) :
    (Pipeline.firing (stages env) feed).step s p = ((fire env s p).toOption).getD (s, []) :=
  rfl

theorem feedInv_after (env : LiveEnv) (now : ℚ) (ps : List BankPacket) :
    FeedInv ((Pipeline.firing (stages env) ⟨now, none, .new⟩).after ps)
      ((Pipeline.firing (stages env) ⟨now, none, .new⟩).emits ps).flatten := by
  induction ps using List.reverseRecOn with
  | nil => exact ⟨List.Pairwise.nil, List.forall_mem_nil _⟩
  | append_singleton ps p ih =>
    rw [Machine.after_concat, Machine.emits_concat, List.flatten_append, List.flatten_singleton]
    set M := Pipeline.firing (stages env) ⟨now, none, .new⟩
    cases hfire : Live.fire env (M.after ps) p with
    | error e =>
      -- a packet that raises leaves the feed as it was
      have hstep : M.step (M.after ps) p = (M.after ps, []) := by
        rw [firing_step, hfire]
        rfl
      rw [Machine.next, Machine.out, hstep, List.append_nil]
      exact ih
    | ok r =>
      have hstep : M.step (M.after ps) p = r := by
        rw [firing_step, hfire]
        rfl
      rw [Machine.next, Machine.out, hstep]
      exact ih.fire hfire

/-- A packet fires at most the seven vectors. -/
theorem length_fire_le {s : LiveFeed} {p : BankPacket} {r : LiveFeed × List InferenceTask}
    (h : (stages env).fire s p = some r) : r.2.length ≤ 50 := by
  have hfire : fire env s p = .ok r := by
    cases hf : fire env s p with
    | error e =>
      rw [show (stages env).fire s p = (fire env s p).toOption from rfl, hf] at h
      cases h
    | ok r' =>
      rw [show (stages env).fire s p = (fire env s p).toOption from rfl, hf] at h
      exact congrArg Except.ok (Option.some.inj h)
  exact (fire_ok hfire).2.2.trans (by norm_num)

/-- **Backpressure.** However the threads interleave, `task_queue` never holds more than
forty-three items, each batch in it has between one and fifty tasks, and no batch is given up
because the queue is full. -/
theorem task_queue_bounded (env : LiveEnv) (cfg : PipelineConfig BankPacket) (now : ℚ)
    (h : List (PipelineStep DbOutcome)) :
    let s := (machine env cfg now).after h
    s.taskQueue.size ≤ 43 ∧ s.log.refused = [] ∧
      ∀ batch, some batch ∈ s.taskQueue.items → batch ≠ [] ∧ batch.length ≤ 50 := by
  intro s
  have hpaced : Pipeline.Paced s :=
    Pipeline.paced_after cfg (stages env) _ _ _ (fun _ _ _ => length_fire_le) h
  exact ⟨hpaced.room.le, hpaced.refused, hpaced.batches⟩

/-- **What is lost is lost at the end.** In a run in which no evaluation raises, the tasks
evaluated are the first of the tasks fired; and until a stop is asked for, all the others are
on their way. -/
theorem evaluated_first (env : LiveEnv) (cfg : PipelineConfig BankPacket) (now : ℚ)
    (h : List (PipelineStep DbOutcome)) (hcalm : ((machine env cfg now).after h).log.failed = []) :
    let s := (machine env cfg now).after h
    s.log.evaluated <+: s.log.fired ∧
      (s.stopEvent = false → s.log.fired = s.log.evaluated ++ Pipeline.tasksInside s) := by
  intro s
  have hinv : Pipeline.PrefixInv s := Pipeline.prefixInv_after cfg (stages env) _ _ _ h
  have hpaced : Pipeline.Paced s :=
    Pipeline.paced_after cfg (stages env) _ _ _ (fun _ _ _ => length_fire_le) h
  -- the queue never refuses a batch, so only a failed evaluation can disturb
  have hundisturbed : Pipeline.Undisturbed s := ⟨hcalm, hpaced.refused⟩
  refine ⟨(List.prefix_append _ _).trans (hinv.accepted hundisturbed), fun hgo => ?_⟩
  have hbooks := hinv.books
  rw [Pipeline.TaskBooks, hinv.skipped hundisturbed hgo] at hbooks
  exact hbooks.eq_of_no_loss

/-- Surroundings in which nothing is flagged. -/
def quietEnv : LiveEnv where
  dpkt := Parsers.headersOnly
  parseDns _ := .ok none
  parseTls _ := .ok none
  hash seed item := seed + item.length
  math := ⟨id, id⟩
  runtime := ⟨⟨id, fun _ => none⟩, fun _ q => toString q, fun q => toString q⟩
  engine := ⟨fun _ => false, fun _ => none⟩
  models _ := none
  normalizer := ⟨fun _ => none⟩
  coercions := ⟨fun _ => none, fun _ => none, fun _ => none⟩
  setOrder := Correlator.insertionOrder
  alertId n := String.ofList (List.replicate n 'a')
  grown _ := []
  webhook := false

/-- A capture of two packets that are a second apart. -/
def twoPackets : PipelineConfig BankPacket where
  plan := [("benign.pcap", 2)]
  pcapCache _ := [(0, Parsers.plainPacket 20), (1, Parsers.plainPacket 20)]
  timed := false

/-- The seven tasks of the second packet are put, evaluated, and the threads stop in order. -/
def orderlySteps : List (PipelineStep DbOutcome) :=
  List.replicate 16 (.main false) ++ List.replicate 11 (.worker false) ++
    List.replicate 3 (.main false) ++ [.worker false] ++ List.replicate 2 (.main false) ++
    List.replicate 2 (.writer .ok)

theorem evaluated_first_seven_tasks :
    let s := (machine quietEnv twoPackets 100).after orderlySteps
    s.log.evaluated.length = 7 ∧ s.log.evaluated <+: s.log.fired := by
  have hcalm : ((machine quietEnv twoPackets 100).after orderlySteps).log.failed = [] :=
    List.isEmpty_iff.mp (by decide +kernel)
  exact ⟨by decide +kernel, (evaluated_first quietEnv twoPackets 100 orderlySteps hcalm).1⟩

/-! ### The worker -/

/-- An alert without its relations. -/
def bare (a : AlertRecord) : AlertRecord := { a with relatedAlertIds := [] }

theorem normalize_of_buildAlert {drawn : ℕ} {t : InferenceTask} {v : Verdict ℚ} {a : AlertRecord}
    (h : buildAlert env drawn t v = some a) :
    a.alertId = env.alertId drawn ∧ a.timestamp = t.ts ∧ a.Serialisable ∧
      a.relatedAlertIds = [] := by
  obtain ⟨-, hts, hid, -, -, hevidence, hrelated⟩ := AlertNormalizer.normalize_eq_some h
  have htime : t.ts = a.timestamp := by simpa [Coercions.asFloat] using hts
  refine ⟨hid, htime.symm, ?_, hrelated⟩
  -- the features are numbers
  unfold AlertRecord.Serialisable
  rw [hevidence]
  induction v.featuresUsed with
  | nil => rfl
  | cons f fs ih => exact ih

/-- What is known of an evaluation, by its result. -/
inductive Worked (env : LiveEnv) (s : LiveBench) (t : InferenceTask) :
    LiveBench × WorkResult AlertRecord → Prop
  | quiet : Worked env s t ({ s with drawn := s.drawn + 1 }, .quiet)
  | raised : Worked env s t ({ s with drawn := s.drawn + 1 }, .raised)
  | alert (a : AlertRecord) (hid : a.alertId = env.alertId s.drawn) (hts : a.timestamp = t.ts)
      (hser : a.Serialisable) (hrelated : a.relatedAlertIds = []) :
      Worked env s t
        (⟨(Correlator.process 600 env.setOrder s.correlator a).1, s.drawn + 1⟩,
          .alert (Correlator.process 600 env.setOrder s.correlator a).2)

theorem work_worked (env : LiveEnv) (s : LiveBench) (t : InferenceTask) :
    Worked env s t (work env s t) := by
  unfold work
  dsimp only
  split
  · exact .raised
  · split
    · split
      · exact .raised
      · -- a normalised alert carries the id drawn for it and the task's time
        next a ha =>
        obtain ⟨hid, hts, hser, hrelated⟩ := normalize_of_buildAlert ha
        exact .alert a hid hts hser hrelated
    · exact .quiet

/-- The correlator has seen the alerts raised, and made of them what was raised. -/
structure BenchInv (env : LiveEnv) (tasks : List InferenceTask) (s : LiveBench)
    (raised : List AlertRecord) : Prop where
  correlator : s.correlator = (Correlator.machine 600 env.setOrder).after (raised.map bare)
  raised_eq : raised = (Correlator.machine 600 env.setOrder).emits (raised.map bare)
  times : raised.map AlertRecord.timestamp <+ tasks.map InferenceTask.ts
  drawn : s.drawn = tasks.length
  ids : raised.map AlertRecord.alertId <+ (List.range tasks.length).map env.alertId
  serialisable : ∀ a ∈ raised, a.Serialisable

/-- An evaluation without an alert. -/
theorem BenchInv.skip {tasks : List InferenceTask} {s : LiveBench} {raised : List AlertRecord}
    (h : BenchInv env tasks s raised) (t : InferenceTask) :
    BenchInv env (tasks ++ [t]) { s with drawn := s.drawn + 1 } raised where
  correlator := h.correlator
  raised_eq := h.raised_eq
  times := by
    rw [List.map_append]
    exact h.times.trans (List.sublist_append_left _ _)
  drawn := by
    rw [List.length_append, ← h.drawn]
    rfl
  -- the id drawn for nothing leaves a gap among the ids used
  ids := by
    rw [List.length_append, List.length_singleton, List.range_succ, List.map_append]
    exact h.ids.trans (List.sublist_append_left _ _)
  serialisable := h.serialisable

/-- An evaluation with an alert. -/
theorem BenchInv.raise {tasks : List InferenceTask} {s : LiveBench} {raised : List AlertRecord}
    {t : InferenceTask} {a : AlertRecord} (h : BenchInv env tasks s raised)
    (hid : a.alertId = env.alertId s.drawn) (hts : a.timestamp = t.ts) (hser : a.Serialisable)
    (hrelated : a.relatedAlertIds = []) :
    BenchInv env (tasks ++ [t])
      ⟨(Correlator.process 600 env.setOrder s.correlator a).1, s.drawn + 1⟩
      (raised ++ [(Correlator.process 600 env.setOrder s.correlator a).2]) := by
  set M := Correlator.machine 600 env.setOrder
  -- the correlator adds the related ids and nothing else
  have hbare : bare (Correlator.process 600 env.setOrder s.correlator a).2 = a := by
    show { a with relatedAlertIds := [] } = a
    rw [← hrelated]
  have hmap : (raised ++ [(Correlator.process 600 env.setOrder s.correlator a).2]).map bare =
      raised.map bare ++ [a] := by
    rw [List.map_append, List.map_singleton, hbare]
  refine ⟨?_, ?_, ?_, ?_, ?_, ?_⟩
  · -- the correlator has processed the alerts raised, in their order
    rw [hmap, Machine.after_concat, ← h.correlator]
    rfl
  · rw [hmap, Machine.emits_concat, ← h.correlator, ← h.raised_eq]
    rfl
  · rw [List.map_append, List.map_append]
    refine h.times.append ?_
    rw [List.map_singleton, List.map_singleton, ← hts]
    exact List.Sublist.refl _
  · rw [List.length_append, ← h.drawn]
    rfl
  · -- the id drawn is new
    rw [List.length_append, List.length_singleton, List.range_succ, List.map_append,
      List.map_append]
    refine h.ids.append ?_
    rw [List.map_singleton, List.map_singleton, ← h.drawn, ← hid]
    exact List.Sublist.refl _
  · intro b hb
    obtain hb | hb := List.mem_append.mp hb
    · exact h.serialisable b hb
    · rw [List.mem_singleton.mp hb]
      exact hser

theorem benchInv_after (env : LiveEnv) (tasks : List InferenceTask) :
    BenchInv env tasks ((Pipeline.working (stages env) ⟨Correlator.empty, 0⟩).after tasks)
      (((Pipeline.working (stages env) ⟨Correlator.empty, 0⟩).emits tasks).filterMap
        Pipeline.alert?) := by
  induction tasks using List.reverseRecOn with
  | nil =>
    exact ⟨rfl, rfl, List.Sublist.refl _, rfl, List.Sublist.refl _, List.forall_mem_nil _⟩
  | append_singleton tasks t ih =>
    rw [Machine.after_concat, Machine.emits_concat, List.filterMap_append]
    set M := Pipeline.working (stages env) ⟨Correlator.empty, 0⟩
    have hworked := work_worked env (M.after tasks) t
    rw [show M.next (M.after tasks) t = (work env (M.after tasks) t).1 from rfl,
      show M.out (M.after tasks) t = (work env (M.after tasks) t).2 from rfl]
    generalize work env (M.after tasks) t = r at hworked ⊢
    -- only an alert goes through the correlator; every task draws an id
    cases hworked with
    | quiet => exact (List.append_nil _).symm ▸ ih.skip t
    | raised => exact (List.append_nil _).symm ▸ ih.skip t
    | alert a hid hts hser hrelated => exact ih.raise hid hts hser hrelated

/-! ### What an alert is related to -/

theorem naiveScan_map_bare (w : ℚ) (h : List AlertRecord) (a : AlertRecord) :
    Correlator.naiveScan w (h.map bare) (bare a) = Correlator.naiveScan w h a := by
  ext y
  rw [Correlator.mem_naiveScan, Correlator.mem_naiveScan]
  constructor
  · rintro ⟨e, he, hrest⟩
    obtain ⟨e', he', rfl⟩ := List.mem_map.mp he
    exact ⟨e', he', hrest⟩
  · rintro ⟨e, he, hrest⟩
    exact ⟨bare e, List.mem_map_of_mem he, hrest⟩

/-- Each alert carries, without repetition, the ids of the earlier ones that share an address
with it and are at most ten minutes older, or twenty of them when there are more. -/
def Related (raised : List AlertRecord) : Prop :=
  ∀ pre a post, raised = pre ++ a :: post →
    a.relatedAlertIds.Nodup ∧
    ((Correlator.naiveScan 600 pre a).card ≤ 20 →
      a.relatedAlertIds.toFinset = Correlator.naiveScan 600 pre a) ∧
    (20 < (Correlator.naiveScan 600 pre a).card →
      a.relatedAlertIds.length = 20 ∧
        a.relatedAlertIds.toFinset ⊆ Correlator.naiveScan 600 pre a)

/-- What the correlator appends to an alert that is not older than those before it. -/
theorem appended_spec {w : ℚ} {order : SetOrder String} {h : List AlertRecord} {a : AlertRecord}
    (hord : Correlator.InOrder (h ++ [a])) :
    (Correlator.appended w order h a).Nodup ∧
    ((Correlator.naiveScan w h a).card ≤ 20 →
      (Correlator.appended w order h a).toFinset = Correlator.naiveScan w h a) ∧
    (20 < (Correlator.naiveScan w h a).card →
      (Correlator.appended w order h a).length = 20 ∧
        (Correlator.appended w order h a).toFinset ⊆ Correlator.naiveScan w h a) := by
  have hnodup := Correlator.nodup_relatedIds w ((Correlator.machine w order).after h) a
  obtain ⟨hcap, hsub, hall, htwenty⟩ := Correlator.cap_spec order hnodup
  -- in order, the index finds what a scan finds; the cap is all that differs
  have hscan : (Correlator.relatedIds w ((Correlator.machine w order).after h) a).toFinset =
      Correlator.naiveScan w h a := Correlator.relatedIds_eq_naiveScan hord
  rw [← hscan, List.toFinset_card_of_nodup hnodup]
  exact ⟨hcap, hall, fun hlt => ⟨htwenty hlt, hsub⟩⟩

/-- What a correlator makes of alerts that do not go back in time is related. -/
theorem related_of_emits {order : SetOrder String} {raised : List AlertRecord}
    (hord : Correlator.InOrder raised)
    (hemits : raised = (Correlator.machine 600 order).emits (raised.map bare)) :
    Related raised := by
  rintro pre a post rfl
  set M := Correlator.machine 600 order
  -- the alert is the answer to its bare form after the bare forms of those before
  have hsplit : M.emits ((pre ++ a :: post).map bare) =
      M.emits (pre.map bare) ++ M.out (M.after (pre.map bare)) (bare a) ::
        M.emitsFrom (M.next (M.after (pre.map bare)) (bare a)) (post.map bare) := by
    rw [List.map_append, List.map_cons]
    exact M.emitsFrom_append M.init _ _
  rw [hsplit] at hemits
  have hlength : pre.length = (M.emits (pre.map bare)).length := by
    rw [Machine.length_emits, List.length_map]
  obtain ⟨-, htail⟩ := List.append_inj hemits hlength
  have ha : a = M.out (M.after (pre.map bare)) (bare a) := (List.cons.inj htail).1
  have hids : a.relatedAlertIds = Correlator.appended 600 order (pre.map bare) (bare a) :=
    congrArg AlertRecord.relatedAlertIds ha
  have hord' : Correlator.InOrder (pre.map bare ++ [bare a]) := by
    have hsub : pre ++ [a] <+ pre ++ a :: post :=
      (List.Sublist.refl pre).append (List.singleton_sublist.mpr List.mem_cons_self)
    have hpre : Correlator.InOrder (pre ++ [a]) := List.Pairwise.sublist hsub hord
    rw [show pre.map bare ++ [bare a] = (pre ++ [a]).map bare by
      rw [List.map_append, List.map_singleton]]
    exact List.pairwise_map.mpr hpre
  rw [hids, ← naiveScan_map_bare 600 pre a]
  exact appended_spec hord'

theorem inOrder_of_times {raised : List AlertRecord} {tasks : List InferenceTask}
    (htimes : raised.map AlertRecord.timestamp <+ tasks.map InferenceTask.ts)
    (hord : tasks.Pairwise fun t u => t.ts ≤ u.ts) : Correlator.InOrder raised := by
  have htasks : (tasks.map InferenceTask.ts).Pairwise (· ≤ ·) := List.pairwise_map.mpr hord
  exact List.pairwise_map.mp (htasks.sublist htimes)

/-- **Correlation across the threads.** However the threads interleave, the alerts of a run
are raised by nondecreasing time, and each is related to what a scan of the alerts raised
before it finds, or to twenty of these alerts when the scan finds more. -/
theorem related_ids (env : LiveEnv) (cfg : PipelineConfig BankPacket) (now : ℚ)
    (h : List (PipelineStep DbOutcome)) :
    let s := (machine env cfg now).after h
    Correlator.InOrder s.log.raised ∧ Related s.log.raised := by
  intro s
  have hseq : Pipeline.Sequential (stages env) ⟨now, none, .new⟩ ⟨Correlator.empty, 0⟩ s :=
    Pipeline.sequential_after cfg (stages env) _ _ _ h
  have hbooks : Pipeline.TaskBooks s := Pipeline.taskBooks_after cfg (stages env) _ _ _ h
  have hbench := benchInv_after env s.log.evaluated
  have hfeed := feedInv_after env now s.log.replayed
  rw [← hseq.raised_eq] at hbench
  rw [← hseq.fired_eq] at hfeed
  -- the bench has seen the tasks in the order of their times
  have hevaluated : s.log.evaluated <+ s.log.fired :=
    (List.sublist_append_left _ _).trans hbooks.order
  have hord := inOrder_of_times hbench.times (hfeed.ordered.sublist hevaluated)
  exact ⟨hord, related_of_emits hord hbench.raised_eq⟩

end Live

end Sentrix
