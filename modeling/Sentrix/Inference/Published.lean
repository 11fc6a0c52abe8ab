import Sentrix.Inference.Batching
import Sentrix.Lib.Conveyor

/-!
# What the worker publishes

Whatever times out or raises and whatever the sessions answer, an alert that the worker publishes
is one it has built for a record it has polled, and for one model a record is used once and in
its turn (`published_run`). What the correlator adds to an alert are the ids of other alerts; the
rest of it is as it was built (`Grounded`).

A batch goes through the models one after the other, so that the alerts of a run are in order
for each model (`share`), and not for all of them together.
-/

namespace Sentrix

namespace InferenceWorker

open scoped List

/-- The model and the record an alert was raised for. -/
def Raised.tag (r : Raised) : ModelName × Value := (r.model, r.record)

variable (w : InferenceWorker)

/-- The alert is the one that is built for its record, but for the ids of related alerts. -/
def Grounded (r : Raised) : Prop :=
  ∃ env idx score built, w.buildAlert env r.model idx score r.record = some built ∧
    r.alert = { built with relatedAlertIds := r.alert.relatedAlertIds }

/-- What one model publishes for some records. -/
structure Publishes (m : ModelName) (records : List Value) (new : List Raised) : Prop where
  model : ∀ r ∈ new, r.model = m
  sublist : new.map Raised.record <+ records
  grounded : ∀ r ∈ new, w.Grounded r

variable {w} {env : FlushEnv} {m : ModelName}

theorem Publishes.nil (records : List Value) : w.Publishes m records [] :=
  ⟨List.forall_mem_nil _, List.nil_sublist _, List.forall_mem_nil _⟩

/-- Two rounds of publishing in a row. -/
theorem Publishes.append {records records' : List Value} {new new' : List Raised}
    (h : w.Publishes m records new) (h' : w.Publishes m records' new') :
    w.Publishes m (records ++ records') (new ++ new') where
  model r hr := (List.mem_append.mp hr).elim (h.model r) (h'.model r)
  sublist := by
    rw [List.map_append]
    exact h.sublist.append h'.sublist
  grounded r hr := (List.mem_append.mp hr).elim (h.grounded r) (h'.grounded r)

/-! ### One batch -/

/-- **One record**: its alert is published, or none is. -/
theorem raiseAlert_publishes (idx : ℕ) (score : ℚ) (record : Value) (s : Sinks) :
    ∃ new, (w.raiseAlert env m idx score record s).1.published = s.published ++ new ∧
      w.Publishes m [record] new := by
  unfold raiseAlert
  split
  · exact ⟨[], (List.append_nil _).symm, Publishes.nil _⟩
  · next built hbuilt =>
    dsimp only
    split
    · exact ⟨[], (List.append_nil _).symm, Publishes.nil _⟩
    · split
      · -- stored, and not published
        exact ⟨[], (List.append_nil _).symm, Publishes.nil _⟩
      · refine ⟨[_], rfl, fun r hr => ?_, List.Sublist.refl _, fun r hr => ?_⟩
        · rw [List.mem_singleton.mp hr]
        · rw [List.mem_singleton.mp hr]
          exact ⟨env, idx, score, built, hbuilt, rfl⟩

/-- **The loop over a model's results** publishes alerts for records from the index on. -/
theorem raiseAlerts_publishes (records : List Value) (results : List (ℚ × Bool)) (idx : ℕ)
    (s : Sinks) :
    ∃ new, (w.raiseAlerts env m records idx results s).published = s.published ++ new ∧
      w.Publishes m (records.drop idx) new := by
  induction results generalizing idx s with
  | nil => exact ⟨[], (List.append_nil _).symm, Publishes.nil _⟩
  | cons p results ih =>
    obtain ⟨score, isAnomaly⟩ := p
    unfold raiseAlerts
    split
    · split
      · exact ⟨[], (List.append_nil _).symm, Publishes.nil _⟩
      · next record hrecord =>
        have hdrop : records.drop idx = [record] ++ records.drop (idx + 1) := by
          obtain ⟨hidx, rfl⟩ := List.getElem?_eq_some_iff.mp hrecord
          exact List.drop_eq_getElem_cons hidx
        obtain ⟨new, hnew, hpub⟩ := @raiseAlert_publishes w env m idx score record s
        rw [hdrop]
        split
        · next s' hraise =>
          rw [hraise] at hnew
          obtain ⟨rest, hrest, hpub'⟩ := ih (idx + 1) s'
          refine ⟨new ++ rest, ?_, hpub.append hpub'⟩
          rw [hrest, hnew, List.append_assoc]
        · next s' hraise =>
          -- the rest of the batch is given up
          rw [hraise] at hnew
          refine ⟨new, hnew, ?_⟩
          have hstop := hpub.append (Publishes.nil (records.drop (idx + 1)))
          rwa [List.append_nil] at hstop
    · obtain ⟨new, hnew, hpub⟩ := ih (idx + 1) s
      exact ⟨new, hnew, hpub.model,
        hpub.sublist.trans (List.drop_sublist_drop_left records (Nat.le_succ idx)), hpub.grounded⟩

/-- What a model's part of a flush publishes comes of the records pending for it. -/
theorem flushModel_publishes (b : Batch) (s : Sinks) :
    ∃ new, (w.flushModel env b s m).published = s.published ++ new ∧
      w.Publishes m (b.pendingMeta m) new := by
  unfold flushModel
  split
  · exact ⟨[], (List.append_nil _).symm, Publishes.nil _⟩
  · dsimp only
    -- an inference error is noted elsewhere
    have herrors : (if (predictBatch w.np (w.sessions m) (b.pending m)).errored = true then
        { s with errors := s.errors ++ [(m, b.pending m)] } else s).published = s.published := by
      split
      · rfl
      · rfl
    split
    · exact ⟨[], herrors.trans (List.append_nil _).symm, Publishes.nil _⟩
    · obtain ⟨new, hnew, hpub⟩ := @raiseAlerts_publishes w env m (b.pendingMeta m)
        (predictBatch w.np (w.sessions m) (b.pending m)).results 0
        (if (predictBatch w.np (w.sessions m) (b.pending m)).errored = true then
          { s with errors := s.errors ++ [(m, b.pending m)] } else s)
      exact ⟨new, by rw [hnew, herrors], hpub⟩

variable (w)

/-- What is published for some records of each model. -/
structure PublishesFrom (records : ModelName → List Value) (new : List Raised) : Prop where
  loaded : ∀ r ∈ new, r.model ∈ w.loaded
  shares : ∀ m, share (new.map Raised.tag) m <+ records m
  grounded : ∀ r ∈ new, w.Grounded r

variable {w}

theorem PublishesFrom.append {records records' : ModelName → List Value} {new new' : List Raised}
    (h : w.PublishesFrom records new) (h' : w.PublishesFrom records' new') :
    w.PublishesFrom (fun m => records m ++ records' m) (new ++ new') where
  loaded r hr := (List.mem_append.mp hr).elim (h.loaded r) (h'.loaded r)
  shares m := by
    rw [share, List.map_append, List.filter_append, List.map_append]
    exact (h.shares m).append (h'.shares m)
  grounded r hr := (List.mem_append.mp hr).elim (h.grounded r) (h'.grounded r)

/-- One model's alerts are its share, and no part of another's. -/
theorem Publishes.share {records : List Value} {new : List Raised} (h : w.Publishes m records new)
    (k : ModelName) : share (new.map Raised.tag) k <+ if k = m then records else [] := by
  -- all that is published carries the model's name
  have htag : ∀ x ∈ new.map Raised.tag, x.1 = m := by
    intro x hx
    obtain ⟨r, hr, rfl⟩ := List.mem_map.mp hx
    exact h.model r hr
  rw [Sentrix.share]
  split
  · next hk =>
    refine (List.filter_sublist.map Prod.snd).trans ?_
    rw [List.map_map]
    exact h.sublist
  · next hk =>
    rw [List.filter_eq_nil_iff.mpr]
    · exact List.Sublist.refl _
    · intro x hx hdec
      exact hk ((of_decide_eq_true hdec).symm.trans (htag x hx))

/-- **The whole batch**: the models publish one after the other. -/
theorem flushBatch_publishes (w : InferenceWorker) (env : FlushEnv) (b : Batch) (s : Sinks) :
    ∃ new, (w.flushBatch env s b).published = s.published ++ new ∧
      w.PublishesFrom b.pendingMeta new := by
  -- the models are distinct, so each of them has its turn once
  have hall : ∀ ms : List ModelName, ms.Nodup → (∀ m ∈ ms, m ∈ w.loaded) → ∀ s : Sinks,
      ∃ new, (ms.foldl (w.flushModel env b) s).published = s.published ++ new ∧
        w.PublishesFrom (fun m => if m ∈ ms then b.pendingMeta m else []) new := by
    intro ms
    induction ms with
    | nil =>
      intro _ _ s
      exact ⟨[], (List.append_nil _).symm, List.forall_mem_nil _, fun m => List.nil_sublist _,
        List.forall_mem_nil _⟩
    | cons m ms ih =>
      intro hms hloaded s
      have hm : m ∉ ms := (List.nodup_cons.mp hms).1
      obtain ⟨new, hnew, hpub⟩ := @flushModel_publishes w env m b s
      obtain ⟨rest, hrest, hfrom⟩ := ih (List.nodup_cons.mp hms).2
        (fun k hk => hloaded k (List.mem_cons_of_mem _ hk)) (w.flushModel env b s m)
      have hone : w.PublishesFrom (fun k => if k = m then b.pendingMeta m else []) new :=
        ⟨fun r hr => by rw [hpub.model r hr]; exact hloaded m List.mem_cons_self, hpub.share,
          hpub.grounded⟩
      refine ⟨new ++ rest, ?_, ?_⟩
      · rw [List.foldl_cons, hrest, hnew, List.append_assoc]
      · have hboth := hone.append hfrom
        refine ⟨hboth.loaded, fun k => (hboth.shares k).trans ?_, hboth.grounded⟩
        by_cases hk : k = m
        · subst hk
          rw [if_pos rfl, if_neg hm, if_pos List.mem_cons_self, List.append_nil]
        · rw [if_neg hk, List.nil_append]
          simp only [List.mem_cons, hk, false_or]
          exact List.Sublist.refl _
  obtain ⟨new, hnew, hfrom⟩ := hall w.loaded w.nodup_loaded (fun _ hm => hm) s
  refine ⟨new, hnew, hfrom.loaded, fun m => (hfrom.shares m).trans ?_, hfrom.grounded⟩
  split
  · exact List.Sublist.refl _
  · exact List.nil_sublist _

/-! ### A run -/

/-- What all flushes publish comes of the records that they were given. -/
theorem flushes_publish (w : InferenceWorker) (envs : ℕ → FlushEnv) (calls : List (Batch × ℕ))
    (s : Sinks) :
    ∃ new, (calls.foldl (fun s c => w.flushBatch (envs c.2) s c.1) s).published =
        s.published ++ new ∧
      w.PublishesFrom (fun m => (calls.map Prod.fst).flatMap (Batch.pendingMeta · m)) new := by
  induction calls generalizing s with
  | nil =>
    exact ⟨[], (List.append_nil _).symm, List.forall_mem_nil _, fun m => List.nil_sublist _,
      List.forall_mem_nil _⟩
  | cons c calls ih =>
    obtain ⟨new, hnew, hfrom⟩ := w.flushBatch_publishes (envs c.2) c.1 s
    obtain ⟨rest, hrest, hfrom'⟩ := ih (w.flushBatch (envs c.2) s c.1)
    refine ⟨new ++ rest, ?_, hfrom.append hfrom'⟩
    rw [List.foldl_cons, hrest, hnew, List.append_assoc]

/-- **What a run publishes.** Each alert of a run is built for a record that was polled, by a
loaded model; and the records that one model raises its alerts for are, in their order, some of
those polled, each used once. -/
theorem published_run (w : InferenceWorker) (envs : ℕ → FlushEnv) {polls : List Poll}
    (hdec : Decodes polls) :
    (∀ r ∈ (w.run envs polls).published, r.model ∈ w.loaded ∧ w.Grounded r) ∧
    ∀ m, share ((w.run envs polls).published.map Raised.tag) m <+ records polls := by
  obtain ⟨new, hnew, hfrom⟩ := w.flushes_publish envs (w.flushCalls polls).zipIdx Sinks.empty
  have hrun : (w.run envs polls).published = new := hnew.trans (List.nil_append _)
  rw [hrun]
  refine ⟨fun r hr => ⟨hfrom.loaded r hr, hfrom.grounded r hr⟩, fun m => ?_⟩
  by_cases hm : m ∈ w.loaded
  · have hshare := hfrom.shares m
    rw [List.zipIdx_map_fst, w.flushCalls_pendingMeta hdec hm] at hshare
    exact hshare.trans List.filter_sublist
  · -- a model that is not loaded raises nothing
    have hnone : share (new.map Raised.tag) m = [] := by
      rw [share, List.filter_eq_nil_iff.mpr, List.map_nil]
      intro x hx hdec
      obtain ⟨r, hr, rfl⟩ := List.mem_map.mp hx
      exact hm (of_decide_eq_true hdec ▸ hfrom.loaded r hr)
    rw [hnone]
    exact List.nil_sublist _

end InferenceWorker

end Sentrix
