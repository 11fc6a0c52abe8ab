import Mathlib.Data.List.ReduceOption
import Sentrix.Inference.Worker

/-!
# The worker's batch accumulator

Whatever is polled and wherever the flushes fall, the batches passed to
`_flush_batch` are, put end to end and read at one model, the feature vectors of
the records that model can score, in arrival order
(`InferenceWorker.flushCalls_account`).

The invariant behind it (`Accounts`) speaks about the batches flushed so far
*and* the batch under construction: their concatenation is what the polled
records contribute. A flush moves the batch from one side of `++` to the other,
so it cannot lose or repeat anything, and features and records move together.
-/

namespace Sentrix

namespace InferenceWorker

/-- The feature vector a model scores a record by: a non-empty one. -/
def scored (m : ModelName) (record : Value) : Option (List Value) :=
  (extractFeaturesForModel m record).filter fun feats => !feats.isEmpty

/-- A record is scored by the features extracted, unless there are none. -/
theorem scored_eq_some {m : ModelName} {record : Value} {feats : List Value} :
    scored m record = some feats ↔ extractFeaturesForModel m record = some feats ∧ feats ≠ [] := by
  simp [scored, Option.filter_eq_some_iff]

/-- The records a list of polls delivers. -/
def records (polls : List Poll) : List Value := polls.filterMap Poll.record?

/-- The records among `rs` that a model scores. -/
def scoredRecords (m : ModelName) (rs : List Value) : List Value :=
  rs.filter fun r => (scored m r).isSome

/-- Features and records of a batch correspond, entry by entry. -/
def Batch.Aligned (b : Batch) : Prop :=
  ∀ m, List.Forall₂ (fun feats record => scored m record = some feats)
    (b.pending m) (b.pendingMeta m)

theorem Batch.Aligned.empty : Batch.empty.Aligned := fun _ => List.Forall₂.nil

/-! ### One record -/

/-- What a record adds to the two lists of one model. -/
theorem addRecord_spec (record : Value) (b : Batch) (m k : ModelName) :
    (Batch.addRecord record b m).pending k =
      b.pending k ++ (if k = m then (scored m record).toList else []) ∧
    (Batch.addRecord record b m).pendingMeta k =
      b.pendingMeta k ++ (if k = m then scoredRecords m [record] else []) := by
  unfold Batch.addRecord
  split
  · next f feats hex =>
    -- features were extracted: both lists of `m` grow, the others stay
    have hsc : scored m record = some (f :: feats) := scored_eq_some.mpr ⟨hex, by simp⟩
    have hrec : scoredRecords m [record] = [record] := by simp [scoredRecords, hsc]
    rw [hsc, hrec]
    by_cases hk : k = m
    · subst hk
      simp [Batch.add]
    · simp [Batch.add, hk]
  · next hex =>
    -- `None` or an empty list: nothing is scored
    have hsc : scored m record = none := by
      cases hfe : extractFeaturesForModel m record with
      | none => simp [scored, hfe]
      | some feats =>
        cases feats with
        | nil => simp [scored, hfe]
        | cons f feats => exact absurd hfe (hex f feats)
    have hrec : scoredRecords m [record] = [] := by simp [scoredRecords, hsc]
    rw [hsc, hrec]
    simp

/-- What the loop over the models adds, for a list of distinct models. -/
theorem foldl_addRecord (record : Value) (k : ModelName) {ms : List ModelName} (hms : ms.Nodup)
    (b : Batch) :
    (ms.foldl (Batch.addRecord record) b).pending k =
      b.pending k ++ (if k ∈ ms then (scored k record).toList else []) ∧
    (ms.foldl (Batch.addRecord record) b).pendingMeta k =
      b.pendingMeta k ++ (if k ∈ ms then scoredRecords k [record] else []) := by
  induction ms generalizing b with
  | nil => simp
  | cons m ms ih =>
    have hm : m ∉ ms := (List.nodup_cons.mp hms).1
    have hstep := addRecord_spec record b m k
    have hrest := ih (List.nodup_cons.mp hms).2 (Batch.addRecord record b m)
    rw [List.foldl_cons, hrest.1, hrest.2, hstep.1, hstep.2]
    -- `k` is the head, or it can only be in the tail
    by_cases hk : k = m
    · subst hk
      simp [hm]
    · simp [hk]

variable (w : InferenceWorker)

theorem nodup_loaded : w.loaded.Nodup := by
  have hnames : (modelFiles.map Prod.fst).Nodup := by decide
  exact hnames.sublist (List.filter_sublist.map _)

/-- A record joins the features and the records of the models that score it alike. -/
theorem Batch.Aligned.addRecords {b : Batch} (hb : b.Aligned) (record : Value) :
    (w.loaded.foldl (Batch.addRecord record) b).Aligned := by
  intro k
  obtain ⟨hpending, hmeta⟩ := foldl_addRecord record k w.nodup_loaded b
  rw [hpending, hmeta]
  refine List.rel_append (hb k) ?_
  -- the new entries correspond: the record and the features it was scored by
  split
  · cases hsc : scored k record with
    | none => simp [scoredRecords, hsc]
    | some feats => simp [scoredRecords, hsc]
  · exact List.Forall₂.nil

/-! ### Whole runs -/

/-- The batches flushed while the polls were consumed. -/
def flushed (polls : List Poll) : List Batch := (w.machine.emits polls).reduceOption

/-- One more poll flushes at most one batch. -/
theorem flushed_concat (polls : List Poll) (p : Poll) :
    w.flushed (polls ++ [p]) = w.flushed polls ++ (w.step (w.machine.after polls) p).2.toList := by
  have hemit : w.machine.emits (polls ++ [p]) =
      w.machine.emits polls ++ [(w.step (w.machine.after polls) p).2] :=
    w.machine.emits_concat polls p
  rw [flushed, hemit, List.reduceOption_append]
  cases (w.step (w.machine.after polls) p).2 <;> rfl

/-- Nothing is lost or repeated: what was flushed and what is pending are, for
each loaded model, what the polled records contribute. -/
structure Accounts (polls : List Poll) (s : Accumulator) : Prop where
  running : s.raised = false
  pending : ∀ m ∈ w.loaded, (w.flushed polls).flatMap (Batch.pending · m) ++ s.batch.pending m =
    (records polls).filterMap (scored m)
  pendingMeta : ∀ m ∈ w.loaded,
    (w.flushed polls).flatMap (Batch.pendingMeta · m) ++ s.batch.pendingMeta m =
      scoredRecords m (records polls)
  aligned : ∀ b ∈ s.batch :: w.flushed polls, b.Aligned

/-- Polls that deliver no record change nothing. -/
theorem Accounts.skip {polls : List Poll} {p : Poll} {s : Accumulator} (hs : w.Accounts polls s)
    (hafter : w.machine.after polls = s) (hstep : w.step s p = (s, none))
    (hrec : p.record? = none) : w.Accounts (polls ++ [p]) (w.step s p).1 := by
  -- the poll flushes nothing and brings no record
  have hflushed : w.flushed (polls ++ [p]) = w.flushed polls := by
    rw [flushed_concat, hafter, hstep]
    simp
  have hrecords : records (polls ++ [p]) = records polls := by
    simp [records, List.filterMap_append, hrec]
  rw [hstep]
  refine ⟨hs.running, ?_, ?_, ?_⟩
  · rw [hflushed, hrecords]
    exact hs.pending
  · rw [hflushed, hrecords]
    exact hs.pendingMeta
  · rw [hflushed]
    exact hs.aligned

section

variable {w} {polls : List Poll} {s : Accumulator}

/-- Before the flush decision, everything is accounted for with the new record's
entries pending. -/
theorem Accounts.pending_record (hs : w.Accounts polls s) (r : Value) {m : ModelName}
    (hm : m ∈ w.loaded) :
    (w.flushed polls).flatMap (Batch.pending · m) ++
      (w.loaded.foldl (Batch.addRecord r) s.batch).pending m =
      (records polls ++ [r]).filterMap (scored m) := by
  rw [(foldl_addRecord r m w.nodup_loaded s.batch).1, if_pos hm, ← List.append_assoc,
    hs.pending m hm, List.filterMap_append]
  cases hsc : scored m r <;> simp [hsc]

/-- A record is pending for the models that score it. -/
theorem Accounts.pendingMeta_record (hs : w.Accounts polls s) (r : Value) {m : ModelName}
    (hm : m ∈ w.loaded) :
    (w.flushed polls).flatMap (Batch.pendingMeta · m) ++
      (w.loaded.foldl (Batch.addRecord r) s.batch).pendingMeta m =
      scoredRecords m (records polls ++ [r]) := by
  rw [(foldl_addRecord r m w.nodup_loaded s.batch).2, if_pos hm, ← List.append_assoc,
    hs.pendingMeta m hm]
  simp only [scoredRecords, List.filter_append]

end

/-- A record is added to the batch under construction, which is then flushed or kept. -/
theorem Accounts.record {polls : List Poll} {r : Value} {s : Accumulator} (hs : w.Accounts polls s)
    (hafter : w.machine.after polls = s) :
    w.Accounts (polls ++ [.message (.value r)]) (w.step s (.message (.value r))).1 := by
  -- the record is added to the batch, which is flushed if that fills it
  set batch := w.loaded.foldl (Batch.addRecord r) s.batch with hbatch
  have hrecords : records (polls ++ [.message (.value r)]) = records polls ++ [r] := by
    simp [records, List.filterMap_append, Poll.record?]
  have haligned : batch.Aligned :=
    Batch.Aligned.addRecords w (hs.aligned _ List.mem_cons_self) r
  have hold : ∀ b ∈ w.flushed polls, b.Aligned := fun b hb =>
    hs.aligned b (List.mem_cons_of_mem _ hb)
  by_cases hfull : w.full batch = true
  · -- flushed: the batch moves to the flushed side
    have hstep : w.step s (.message (.value r)) =
        ({ s with batch := Batch.empty }, some batch) := by
      simp [step, hs.running, ← hbatch, hfull]
    have hflushed : w.flushed (polls ++ [.message (.value r)]) = w.flushed polls ++ [batch] := by
      rw [flushed_concat, hafter, hstep]
      rfl
    rw [hstep]
    refine ⟨hs.running, ?_, ?_, ?_⟩
    · intro m hm
      rw [hflushed, hrecords, ← hs.pending_record r hm]
      simp [Batch.empty, hbatch]
    · intro m hm
      rw [hflushed, hrecords, ← hs.pendingMeta_record r hm]
      simp [Batch.empty, hbatch]
    · intro b hb
      rw [hflushed, List.mem_cons, List.mem_append, List.mem_singleton] at hb
      obtain rfl | hb | rfl := hb
      · exact Batch.Aligned.empty
      · exact hold b hb
      · exact haligned
  · -- kept: nothing was flushed
    have hstep : w.step s (.message (.value r)) = ({ s with batch := batch }, none) := by
      simp [step, hs.running, ← hbatch, hfull]
    have hflushed : w.flushed (polls ++ [.message (.value r)]) = w.flushed polls := by
      rw [flushed_concat, hafter, hstep]
      simp
    rw [hstep]
    refine ⟨hs.running, ?_, ?_, ?_⟩
    · rw [hflushed, hrecords]
      exact fun m hm => hs.pending_record r hm
    · rw [hflushed, hrecords]
      exact fun m hm => hs.pendingMeta_record r hm
    · intro b hb
      rw [hflushed, List.mem_cons] at hb
      obtain rfl | hb := hb
      · exact haligned
      · exact hold b hb

/-- Every message's value is a JSON document or is skipped as an invalid one. -/
def Decodes (polls : List Poll) : Prop := ∀ p ∈ polls, p ≠ .message .raises

/-- What every run over polls that decode preserves. -/
theorem accounts_after (polls : List Poll) (hdec : Decodes polls) :
    w.Accounts polls (w.machine.after polls) := by
  -- along the polls; only messages that decode or are skipped keep the loop running
  refine w.machine.invariant_of Decodes w.Accounts ?_ ?_ ?_ polls hdec
  · intro h p hok q hq
    exact hok q (List.mem_append_left _ hq)
  · refine ⟨rfl, fun m _ => rfl, fun m _ => rfl, ?_⟩
    intro b hb
    obtain rfl : b = Batch.empty := by
      simpa [flushed, Machine.emits, Machine.emitsFrom, machine, List.reduceOption_nil] using hb
    exact Batch.Aligned.empty
  · intro h p hok hs
    have hp : p ≠ .message .raises := hok p (by simp)
    have hskip : w.step (w.machine.after h) p = (w.machine.after h, none) → p.record? = none →
        w.Accounts (h ++ [p]) (w.machine.next (w.machine.after h) p) :=
      Accounts.skip w hs rfl
    cases p with
    | none => exact hskip (by simp [step]) rfl
    | error => exact hskip (by simp [step]) rfl
    | message m =>
      cases m with
      | invalid => exact hskip (by simp [step]) rfl
      | raises => exact absurd rfl hp
      | value r => exact Accounts.record w hs rfl

/-- What is left when the loop is stopped is flushed, or there is nothing left. -/
theorem flushCalls_flatMap {β : Type*} (polls : List Poll) (hdec : Decodes polls)
    (f : Batch → List β)
    (hf : (∀ m ∈ w.loaded, (w.machine.after polls).batch.pending m = []) →
      f (w.machine.after polls).batch = []) :
    (w.flushCalls polls).flatMap f =
      (w.flushed polls).flatMap f ++ f (w.machine.after polls).batch := by
  have hs := w.accounts_after polls hdec
  unfold flushCalls finalFlush
  rw [List.flatMap_append, ← flushed]
  -- the last batch is passed on, or nothing in it would be
  split
  · simp
  · next hempty =>
    have hnil : ∀ m ∈ w.loaded, (w.machine.after polls).batch.pending m = [] := by
      simpa [hs.running] using hempty
    rw [hf hnil, List.flatMap_nil]

/-- Features and records of a flushed batch correspond. -/
theorem aligned_of_mem_flushCalls {polls : List Poll} (hdec : Decodes polls) {b : Batch}
    (hb : b ∈ w.flushCalls polls) : b.Aligned := by
  have hs := w.accounts_after polls hdec
  unfold flushCalls finalFlush at hb
  rw [List.mem_append, ← flushed] at hb
  obtain hb | hb := hb
  · exact hs.aligned b (List.mem_cons_of_mem _ hb)
  · split at hb
    · obtain rfl := List.mem_singleton.mp hb
      exact hs.aligned _ List.mem_cons_self
    · exact absurd hb List.not_mem_nil

/-- The vectors flushed for a model are those of the records it scores, in order. -/
theorem flushCalls_pending {polls : List Poll} (hdec : Decodes polls) {m : ModelName}
    (hm : m ∈ w.loaded) :
    (w.flushCalls polls).flatMap (Batch.pending · m) = (records polls).filterMap (scored m) := by
  have hs := w.accounts_after polls hdec
  rw [w.flushCalls_flatMap polls hdec _ fun hnil => hnil m hm]
  exact hs.pending m hm

/-- All flushes together hold each model's scored records, in order. -/
theorem flushCalls_pendingMeta {polls : List Poll} (hdec : Decodes polls) {m : ModelName}
    (hm : m ∈ w.loaded) :
    (w.flushCalls polls).flatMap (Batch.pendingMeta · m) = scoredRecords m (records polls) := by
  have hs := w.accounts_after polls hdec
  rw [w.flushCalls_flatMap polls hdec _ ?_]
  · exact hs.pendingMeta m hm
  · intro hnil
    -- no features are pending, so by alignment no records are
    have hal := hs.aligned _ List.mem_cons_self m
    rw [hnil m hm] at hal
    exact List.forall₂_nil_left_iff.mp hal

/-- **The accumulator scores each record once per model.** For every batch size,
every set of loaded models and every stream of polls: put end to end, the
batches passed to `_flush_batch` hold for each model the non-empty feature
vectors of the decoded records, in arrival order; the record lists hold the
records these were extracted from; and in each call the two lists correspond
entry by entry. -/
theorem flushCalls_account (w : InferenceWorker) (polls : List Poll) (hdec : Decodes polls) :
    (∀ m ∈ w.loaded,
      (w.flushCalls polls).flatMap (Batch.pending · m) = (records polls).filterMap (scored m) ∧
      (w.flushCalls polls).flatMap (Batch.pendingMeta · m) = scoredRecords m (records polls)) ∧
    ∀ b ∈ w.flushCalls polls, ∀ m ∈ w.loaded,
      List.Forall₂ (fun feats record => extractFeaturesForModel m record = some feats ∧ feats ≠ [])
        (b.pending m) (b.pendingMeta m) := by
  refine ⟨fun m hm => ⟨w.flushCalls_pending hdec hm, w.flushCalls_pendingMeta hdec hm⟩, ?_⟩
  intro b hb m _
  have hal := w.aligned_of_mem_flushCalls hdec hb m
  exact hal.imp fun feats record hsc => scored_eq_some.mp hsc

/-- A worker for a directory with the given model files, whose conversions
accept nothing but numbers and strings where these are asked for. -/
def ofFiles (batchSize : ℕ) (files : List String) (session : ModelName → OnnxSession ℚ) :
    InferenceWorker where
  batchSize := batchSize
  present file := decide (file ∈ files)
  session := session
  np := ⟨id, fun _ => none⟩
  coercions := ⟨fun _ => none, fun _ => none, fun _ => none⟩
  normalizer := ⟨fun _ => none⟩
  setOrder := ⟨id, fun _ => .refl _⟩
  fixed3 q := toString q

theorem flushCalls_account_six_polls :
    ((ofFiles 2 ["exfil_iso.onnx"] fun _ => ⟨fun _ => none⟩).flushCalls
      [.none, .message (.value (.dict [("flow_duration", .num 7)])), .message .invalid,
        .message (.value (.list [])), .error, .message (.value (.dict []))]).flatMap
      (Batch.pending · .exfil) =
    [[.num 7, .num 0, .num 0, .num 0, .num 0], [.num 0, .num 0, .num 0, .num 0, .num 0]] := by
  have hdec : Decodes
      [.none, .message (.value (.dict [("flow_duration", .num 7)])), .message .invalid,
        .message (.value (.list [])), .error, .message (.value (.dict []))] := by
    simp [Decodes]
  have hloaded : ModelName.exfil ∈
      (ofFiles 2 ["exfil_iso.onnx"] fun _ => ⟨fun _ => none⟩).loaded := by decide
  rw [((flushCalls_account _ _ hdec).1 _ hloaded).1]
  simp [records, Poll.record?, scored, extractFeaturesForModel, Value.get, List.filterMap_cons,
    List.lookup_cons, Option.filter]

end InferenceWorker

end Sentrix
