import Sentrix.Inference.Detection

/-!
# One bad record

`InferenceWorker._flush_batch` goes through the results of a model and raises an alert for
each record the model flags. An alert can fail: it cannot be built from its record, or the
store or the producer raises. The `try` is around the loop, and not inside it, so the
first failure of a model ends the loop for this model, and costs the flagged records
behind it their alerts. Those before it, and those of other models, have theirs
(`flushBatch_adds`).

A record is known by the model, the record and the id drawn for its alert (`Raised.key`).
The same records can be flagged more than once, so that they are counted
(`List.Subperm`).
-/

namespace Sentrix

/-- A result that asks for an alert: its place in the batch, and its score. -/
structure Flag where
  idx : ℕ
  score : ℚ

namespace InferenceWorker

/-- What an alert was raised for. -/
def Raised.key (r : Raised) : ModelName × Option Value × String :=
  (r.model, some r.record, r.alert.alertId)

/-- The results that ask for an alert, counted from `idx`. -/
def flags (idx : ℕ) (results : List (ℚ × Bool)) : List Flag :=
  (results.zipIdx idx).filterMap fun x =>
    if x.1.2 && decide (x.1.1 > 1 / 2) then some ⟨x.2, x.1.1⟩ else none

variable (w : InferenceWorker) (env : FlushEnv)

/-- The alert can be built, stored and published. -/
def succeeds (m : ModelName) (records : List Value) (x : Flag) : Bool :=
  match records[x.idx]? with
  | none => false
  | some record =>
    (w.buildAlert env m x.idx x.score record).isSome && !env.appendRaises m x.idx &&
      !env.produceRaises m x.idx

/-- What the alert of a flagged record would be known by. -/
def keyOf (m : ModelName) (records : List Value) (x : Flag) : ModelName × Option Value × String :=
  (m, records[x.idx]?, env.alertId m x.idx)

/-- The flagged records of a model in a batch; a model that has nothing to score or does
not return in time flags none. -/
def flaggedIn (b : Batch) (m : ModelName) : List Flag :=
  if (b.pending m).isEmpty || env.timesOut m then []
  else flags 0 (predictBatch w.np (w.sessions m) (b.pending m)).results

/-- The flagged records of all models whose alerts do not fail. -/
def deserving (b : Batch) : List (ModelName × Option Value × String) :=
  w.loaded.flatMap fun m =>
    ((w.flaggedIn env b m).filter (w.succeeds env m (b.pendingMeta m))).map
      (keyOf env m (b.pendingMeta m))

/-- A flush stores and publishes the alerts of all flagged records that do not fail
themselves. -/
def SparesOthers (s : Sinks) (b : Batch) : Prop :=
  ∃ stored published, (w.flushBatch env s b).stored = s.stored ++ stored ∧
    (w.flushBatch env s b).published = s.published ++ published ∧
    (w.deserving env b).Subperm (stored.map Raised.key) ∧
    (w.deserving env b).Subperm (published.map Raised.key)

/-! ### What is added to the sinks -/

/-- The sinks have got more: the published alerts have these keys, and each of them was
stored. -/
def Adds (s s' : Sinks) (keys : List (ModelName × Option Value × String)) : Prop :=
  ∃ stored published, s'.stored = s.stored ++ stored ∧
    s'.published = s.published ++ published ∧ published.Sublist stored ∧
    published.map Raised.key = keys

theorem Adds.refl (s : Sinks) : Adds s s [] :=
  ⟨[], [], (List.append_nil _).symm, (List.append_nil _).symm, List.Sublist.refl _, rfl⟩

theorem Adds.trans {s₁ s₂ s₃ : Sinks} {ks ls : List (ModelName × Option Value × String)}
    (h₁ : Adds s₁ s₂ ks) (h₂ : Adds s₂ s₃ ls) : Adds s₁ s₃ (ks ++ ls) := by
  obtain ⟨st, pb, hst, hpb, hsub, rfl⟩ := h₁
  obtain ⟨st', pb', hst', hpb', hsub', rfl⟩ := h₂
  refine ⟨st ++ st', pb ++ pb', ?_, ?_, hsub.append hsub', List.map_append⟩
  · rw [hst', hst, List.append_assoc]
  · rw [hpb', hpb, List.append_assoc]

variable {w env}

/-- What every answer of a step is, the answer of the whole is. -/
theorem of_bind_eq_some {α β : Type} {x : Option α} {f : α → Option β} {P : β → Prop}
    (hf : ∀ a b, f a = some b → P b) : ∀ b, (x >>= f) = some b → P b := by
  intro b hb
  obtain ⟨a, -, ha⟩ := Option.bind_eq_some_iff.mp hb
  exact hf a b ha

theorem alertId_of_normalize (nz : AlertNormalizer) (c : Coercions) (alertId detectorName : String)
    (rawScore : ℚ) (featureValues : List (String × Value)) (explanation : String)
    (flowInfo : List (String × Value)) (timestamp : Value) (windowStart windowEnd : Option ℚ) :
    ∀ alert, nz.normalize c alertId detectorName rawScore featureValues explanation flowInfo
      timestamp windowStart windowEnd = some alert → alert.alertId = alertId := by
  unfold AlertNormalizer.normalize
  -- the six conversions, and then the record
  refine of_bind_eq_some fun _ => of_bind_eq_some fun _ => of_bind_eq_some fun _ =>
    of_bind_eq_some fun _ => of_bind_eq_some fun _ => of_bind_eq_some fun _ alert halert => ?_
  obtain rfl := Option.some.inj halert
  rfl

/-- An alert has the id that was drawn for it. -/
theorem alertId_of_buildAlert (m : ModelName) (idx : ℕ) (score : ℚ) (record : Value) :
    ∀ alert, w.buildAlert env m idx score record = some alert →
      alert.alertId = env.alertId m idx := by
  unfold buildAlert
  -- the seven reads of the record, the features and the time
  exact of_bind_eq_some fun _ => of_bind_eq_some fun _ => of_bind_eq_some fun _ =>
    of_bind_eq_some fun _ => of_bind_eq_some fun _ => of_bind_eq_some fun _ =>
    of_bind_eq_some fun _ => of_bind_eq_some fun _ => alertId_of_normalize _ _ _ _ _ _ _ _ _ _ _

/-- **One alert** is stored and published, or it fails and is not published. -/
theorem raiseAlert_adds {m : ModelName} {records : List Value} {x : Flag} {record : Value}
    (hrecord : records[x.idx]? = some record) (s : Sinks) :
    (w.raiseAlert env m x.idx x.score record s).2 = w.succeeds env m records x ∧
      Adds s (w.raiseAlert env m x.idx x.score record s).1
        (if w.succeeds env m records x then [keyOf env m records x] else []) := by
  have hsucceeds : w.succeeds env m records x =
      ((w.buildAlert env m x.idx x.score record).isSome && !env.appendRaises m x.idx &&
        !env.produceRaises m x.idx) := by
    unfold succeeds
    rw [hrecord]
  rw [hsucceeds]
  unfold raiseAlert
  split
  · next hbuild =>
    rw [hbuild]
    exact ⟨rfl, Adds.refl s⟩
  · next alert hbuild =>
    have hid := alertId_of_buildAlert m x.idx x.score record alert hbuild
    rw [hbuild, Option.isSome_some, Bool.true_and]
    dsimp only
    split
    · next happend =>
      rw [happend]
      exact ⟨rfl, Adds.refl _⟩
    · next happend =>
      rw [Bool.not_eq_true] at happend
      rw [happend]
      split
      · -- stored, and not published
        next hproduce =>
        rw [hproduce]
        exact ⟨rfl, [_], [], rfl, (List.append_nil _).symm, List.nil_sublist _, rfl⟩
      · next hproduce =>
        rw [Bool.not_eq_true] at hproduce
        rw [hproduce]
        refine ⟨rfl, [_], [_], rfl, rfl, List.Sublist.refl _, ?_⟩
        show [(m, some record, alert.alertId)] = [keyOf env m records x]
        rw [keyOf, hrecord, hid]

/-- **The loop over a model's results** publishes the alerts before the first one that
fails. -/
theorem raiseAlerts_adds (m : ModelName) (records : List Value) (results : List (ℚ × Bool))
    (idx : ℕ) (s : Sinks) :
    Adds s (w.raiseAlerts env m records idx results s)
      (((flags idx results).takeWhile (w.succeeds env m records)).map (keyOf env m records)) := by
  induction results generalizing idx s with
  | nil => exact Adds.refl s
  | cons p results ih =>
    obtain ⟨score, isAnomaly⟩ := p
    unfold raiseAlerts flags
    rw [List.zipIdx_cons, List.filterMap_cons]
    dsimp only
    by_cases hflag : (isAnomaly && decide (score > 1 / 2)) = true
    · rw [if_pos hflag, if_pos hflag]
      dsimp only
      rw [List.takeWhile_cons]
      split
      · -- there is no record to raise an alert for
        next hrecord =>
        have hfails : w.succeeds env m records ⟨idx, score⟩ = false := by
          unfold succeeds
          rw [hrecord]
        rw [hfails]
        exact Adds.refl s
      · next record hrecord =>
        obtain ⟨hgoes, hadds⟩ := @raiseAlert_adds w env m records ⟨idx, score⟩ record hrecord s
        split
        · next s' hraise =>
          rw [hraise] at hgoes hadds
          rw [← hgoes] at hadds ⊢
          exact hadds.trans (ih (idx + 1) s')
        · next s' hraise =>
          rw [hraise] at hgoes hadds
          rw [← hgoes] at hadds ⊢
          exact hadds
    · rw [if_neg hflag, if_neg hflag]
      exact ih (idx + 1) s

/-- The flagged records of a model whose alerts are published. -/
def reached (w : InferenceWorker) (env : FlushEnv) (b : Batch) (m : ModelName) :
    List (ModelName × Option Value × String) :=
  ((w.flaggedIn env b m).takeWhile (w.succeeds env m (b.pendingMeta m))).map
    (keyOf env m (b.pendingMeta m))

theorem flushModel_adds (b : Batch) (s : Sinks) (m : ModelName) :
    Adds s (w.flushModel env b s m) (w.reached env b m) := by
  unfold flushModel reached flaggedIn
  by_cases hempty : (b.pending m).isEmpty = true
  · rw [if_pos hempty, hempty, Bool.true_or, if_pos rfl]
    exact Adds.refl s
  · rw [if_neg hempty, eq_false_of_ne_true hempty, Bool.false_or]
    dsimp only
    -- a failed prediction is noted and adds no alert
    have herrors : Adds s (if (predictBatch w.np (w.sessions m) (b.pending m)).errored = true then
        { s with errors := s.errors ++ [(m, b.pending m)] } else s) [] := by
      split
      · exact ⟨[], [], (List.append_nil _).symm, (List.append_nil _).symm, List.Sublist.refl _, rfl⟩
      · exact Adds.refl s
    split
    · exact herrors
    · exact herrors.trans (raiseAlerts_adds m (b.pendingMeta m) _ 0 _)

/-- **The whole batch**: each model publishes the alerts before its first failure. -/
theorem flushBatch_adds (w : InferenceWorker) (env : FlushEnv) (s : Sinks) (b : Batch) :
    Adds s (w.flushBatch env s b) (w.loaded.flatMap (w.reached env b)) := by
  unfold flushBatch
  generalize w.loaded = ms
  induction ms generalizing s with
  | nil => exact Adds.refl s
  | cons m ms ih =>
    rw [List.foldl_cons, List.flatMap_cons]
    exact (flushModel_adds b s m).trans (ih _)

theorem reached_sublist (w : InferenceWorker) (env : FlushEnv) (b : Batch) (m : ModelName) :
    (w.reached env b m).Sublist
      (((w.flaggedIn env b m).filter (w.succeeds env m (b.pendingMeta m))).map
        (keyOf env m (b.pendingMeta m))) :=
  (takeWhile_sublist_filter _ _).map _

/-- **When the others are spared.** A flush stores and publishes the alerts of all flagged
records that do not fail exactly if, for every model, none of these comes behind a
flagged record that fails. -/
theorem sparesOthers_iff (w : InferenceWorker) (env : FlushEnv) (s : Sinks) (b : Batch) :
    w.SparesOthers env s b ↔ ∀ m ∈ w.loaded, (w.flaggedIn env b m).Pairwise fun x y =>
      w.succeeds env m (b.pendingMeta m) y = true →
      w.succeeds env m (b.pendingMeta m) x = true := by
  obtain ⟨stored, published, hstored, hpublished, hsub, hkeys⟩ := w.flushBatch_adds env s b
  constructor
  · rintro ⟨stored', published', -, hpublished', -, hspared⟩ m hm
    -- what is published is no more than what is reached
    have hsame : published' = published :=
      List.append_cancel_left (hpublished'.symm.trans hpublished)
    rw [hsame, hkeys] at hspared
    have hall := eq_of_length_flatMap_le (fun m _ => w.reached_sublist env b m)
      hspared.length_le m hm
    have hlen := congrArg List.length hall
    rw [reached, List.length_map, List.length_map] at hlen
    rw [← takeWhile_eq_filter_iff]
    exact (takeWhile_sublist_filter _ _).eq_of_length hlen
  · intro hnone
    have hdeserving : w.deserving env b = w.loaded.flatMap (w.reached env b) := by
      refine List.flatMap_congr fun m hm => ?_
      rw [reached, (takeWhile_eq_filter_iff _ _).mpr (hnone m hm)]
    refine ⟨stored, published, hstored, hpublished, ?_, ?_⟩
    · rw [hdeserving, ← hkeys]
      exact (hsub.map _).subperm
    · rw [hdeserving, ← hkeys]

/-- A worker with one model, which flags every record. -/
def alarmed : InferenceWorker :=
  ofFiles 2 ["exfil_iso.onnx"] fun _ => (alarmSession (some 5)).session

/-- Two records, of which the first has a time that is none. -/
def twoRecords : Batch :=
  (Batch.empty.add .exfil (List.replicate 5 (.num 0)) (.dict [("timestamp", .str "soon")])).add
    .exfil (List.replicate 5 (.num 0)) (.dict [("timestamp", .num 1)])

/-- **A bad record costs the next one its alert.** Both records are flagged; no alert can
be built from the first, and none is published for the second. -/
theorem bad_record_costs_alert :
    ¬ (∀ (w : InferenceWorker) (env : FlushEnv) (s : Sinks) (b : Batch),
      w.SparesOthers env s b) := by
  intro hall
  obtain ⟨-, published, -, hpublished, -, hspared⟩ := hall alarmed calm Sinks.empty twoRecords
  have hnone : (alarmed.flushBatch calm Sinks.empty twoRecords).published.length = 0 := by
    decide +kernel
  have hone : (alarmed.deserving calm twoRecords).length = 1 := by decide +kernel
  have hle := hspared.length_le
  rw [hpublished, List.length_append] at hnone
  rw [hone, List.length_map] at hle
  omega

end InferenceWorker

end Sentrix
