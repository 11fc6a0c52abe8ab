import Sentrix.Alerting.StoreRefinement

/-!
# Failing flushes

What becomes of an accepted alert when a flush fails. Over a run in which any
section may meet a failing database and any alert may lack a JSON encoding, two
things are asked of every state reached (`Kept`, `Recoverable`): an accepted
alert that can be serialised has a row under its id or is still buffered, and a
flush against a healthy database would give it a row.

Neither is kept by every run. The `finally` clause of `_flush_locked` clears the
buffer after a rolled back insert (`failed_insert_loses_alert`), and an alert
without an encoding stops every later flush in front of the insert, so that the
alerts buffered with it never reach the table. `failed_flush_iff` says that
these are the only two ways: the two properties hold in every state a run
reaches if and only if no failing insert strikes an alert that has no row yet
(`SparesUnsaved`) and no such alert shares the buffer with one that has no
encoding (`Unblocked`).
-/

namespace Sentrix

namespace AlertStore

variable {cfg : StoreConfig} {ord : OrderByTimestamp} {s : AlertStore}

/-! ### The properties and the conditions -/

/-- Every serialisable alert of `acc` has a row under its id or is buffered. -/
def Kept (s : AlertStore) (acc : List AlertRecord) : Prop :=
  ∀ a ∈ acc, a.Serialisable → a.alertId ∈ s.table.ids ∨ a ∈ s.writeBuffer

/-- A flush against a healthy database gives every serialisable alert of `acc` a
row under its id. -/
def Recoverable (s : AlertStore) (acc : List AlertRecord) : Prop :=
  ∀ a ∈ acc, a.Serialisable → a.alertId ∈ (s.flush .ok).1.table.ids

/-- If the insert of this section fails, it fails on alerts that have rows. -/
def SparesUnsaved (cfg : StoreConfig) (s : AlertStore) (x : Section × DbOutcome) : Prop :=
  x.2 = .error → x.1.flushes cfg s = true →
    (∀ a ∈ (s.accept x.1).writeBuffer, a.Serialisable) →
    ∀ a ∈ (s.accept x.1).writeBuffer, a.alertId ∈ s.table.ids

/-- An alert without an encoding is buffered only with alerts that have rows. -/
def Unblocked (s : AlertStore) : Prop :=
  (∃ b ∈ s.writeBuffer, ¬ b.Serialisable) →
    ∀ a ∈ s.writeBuffer, a.Serialisable → a.alertId ∈ s.table.ids

/-- The alerts accepted along a run. -/
def acceptedOn (p : List (Section × DbOutcome)) : List AlertRecord := accepted (p.map Prod.fst)

theorem acceptedOn_concat (p : List (Section × DbOutcome)) (x : Section × DbOutcome) :
    acceptedOn (p ++ [x]) = acceptedOn p ++ x.1.accepts := by
  unfold acceptedOn
  rw [List.map_append, List.map_cons, List.map_nil]
  exact accepted_concat _ _

/-! ### One flush -/

/-- A flush keeps what it is not made to lose. -/
theorem Kept.flushLocked {db : DbOutcome} {acc : List AlertRecord} (hkept : Kept s acc)
    (hspare : db = .error → (∀ a ∈ s.writeBuffer, a.Serialisable) →
      ∀ a ∈ s.writeBuffer, a.alertId ∈ s.table.ids) :
    Kept (s.flushLocked db).1 acc := by
  by_cases hser : ∀ a ∈ s.writeBuffer, a.Serialisable
  · intro a ha haser
    have hcase := hkept a ha haser
    cases db with
    | ok =>
      -- the whole buffer reaches the table
      rw [flushLocked_ok hser]
      refine Or.inl ((AlertTable.mem_ids_insertMany _ _ _).mpr ?_)
      exact hcase.imp id fun hbuf => ⟨a, hbuf, rfl⟩
    | error =>
      by_cases hne : s.writeBuffer = []
      · rw [flushLocked_of_empty hne]
        exact hcase
      · -- the buffer is cleared, but everything in it has a row
        rw [flushLocked_error hne hser]
        exact Or.inl (hcase.elim id (hspare rfl hser a))
  · rw [flushLocked_of_unserialisable hser]
    exact hkept

/-- What is kept and not blocked is recovered by the next healthy flush. -/
theorem Kept.recoverable {acc : List AlertRecord} (hkept : Kept s acc) (hopen : Unblocked s) :
    Recoverable s acc := by
  intro a ha haser
  show a.alertId ∈ (s.flushLocked .ok).1.table.ids
  by_cases hser : ∀ b ∈ s.writeBuffer, b.Serialisable
  · rw [flushLocked_ok hser]
    refine (AlertTable.mem_ids_insertMany _ _ _).mpr ?_
    exact (hkept a ha haser).imp id fun hbuf => ⟨a, hbuf, rfl⟩
  · rw [flushLocked_of_unserialisable hser]
    -- the flush does nothing, so the row must be there already
    push Not at hser
    exact (hkept a ha haser).elim id fun hbuf => hopen hser a hbuf haser

/-- A buffer that holds an alert without an encoding recovers nothing. -/
theorem Recoverable.unblocked {acc : List AlertRecord} (hrec : Recoverable s acc)
    (hsub : s.writeBuffer ⊆ acc) : Unblocked s := by
  rintro ⟨b, hb, hbad⟩ a ha haser
  -- the probing flush stops at `b`, so a row it shows was there before
  have hser : ¬ ∀ c ∈ s.writeBuffer, c.Serialisable := fun h => hbad (h b hb)
  have hrow : a.alertId ∈ (s.flushLocked .ok).1.table.ids := hrec a (hsub ha) haser
  rwa [flushLocked_of_unserialisable hser] at hrow

/-! ### One section -/

/-- A section that spares unsaved alerts keeps what was accepted. -/
theorem Kept.step {acc : List AlertRecord} {x : Section × DbOutcome} (hkept : Kept s acc)
    (hx : x.1 ≠ .clear) (hspare : SparesUnsaved cfg s x) :
    Kept (step cfg ord s x).1 (acc ++ x.1.accepts) := by
  obtain ⟨htable, hbuffer⟩ := step_settled (s := s) cfg ord x.2 hx
  -- what the section accepts is buffered first, whatever happens to it next
  have haccept : Kept (s.accept x.1) (acc ++ x.1.accepts) := by
    intro a ha haser
    rcases List.mem_append.mp ha with ha | ha
    · exact (hkept a ha haser).imp id (List.mem_append_left _)
    · exact Or.inr (List.mem_append_right _ ha)
  have hsettled : Kept (s.settled cfg x.1 x.2) (acc ++ x.1.accepts) := by
    unfold settled
    split
    · next hfl => exact haccept.flushLocked fun hdb => hspare hdb hfl
    · exact haccept
  intro a ha haser
  rw [htable, hbuffer]
  exact hsettled a ha haser

/-- A section after which everything accepted is kept has spared the unsaved. -/
theorem sparesUnsaved_of_kept {acc : List AlertRecord} {x : Section × DbOutcome}
    (hx : x.1 ≠ .clear) (hsub : (s.accept x.1).writeBuffer ⊆ acc)
    (hkept : Kept (step cfg ord s x).1 acc) : SparesUnsaved cfg s x := by
  intro hdb hfl hser a ha
  have hne : (s.accept x.1).writeBuffer ≠ [] := List.ne_nil_of_mem ha
  obtain ⟨htable, hbuffer⟩ := step_settled (s := s) cfg ord x.2 hx
  have hsettled : s.settled cfg x.1 x.2 = { s.accept x.1 with writeBuffer := [] } := by
    unfold settled
    rw [if_pos hfl, hdb, flushLocked_error hne hser]
  -- the buffer is empty now, so a kept alert has its row, and rows did not change
  have hcase := hkept a (hsub ha) (hser a ha)
  rw [htable, hbuffer, hsettled] at hcase
  exact hcase.elim id fun hbuf => absurd hbuf List.not_mem_nil

/-- The buffer holds accepted alerts only. -/
theorem writeBuffer_step_subset (x : Section × DbOutcome) :
    (step cfg ord s x).1.writeBuffer ⊆ s.writeBuffer ++ x.1.accepts := by
  by_cases hx : x.1 = .clear
  -- `clear` empties the buffer
  · have hclear : (step cfg ord s x).1.writeBuffer = [] := by
      unfold step
      rw [hx]
      rfl
    rw [hclear]
    exact List.nil_subset _
  · rw [(step_settled (s := s) cfg ord x.2 hx).2]
    unfold settled flushLocked
    split
    · split
      · exact List.Subset.refl _
      -- every way out of a flush leaves the buffer as it is or empties it
      · split
        · cases x.2 <;> exact List.nil_subset _
        · exact List.Subset.refl _
    · exact List.Subset.refl _

theorem writeBuffer_subset_accepted (p : List (Section × DbOutcome)) :
    ((machine cfg ord).after p).writeBuffer ⊆ acceptedOn p := by
  refine (machine cfg ord).invariant (fun p s => s.writeBuffer ⊆ acceptedOn p) ?_ ?_ p
  · exact List.nil_subset _
  · intro p x ih a ha
    rw [acceptedOn_concat]
    rcases List.mem_append.mp (writeBuffer_step_subset x ha) with ha | ha
    · exact List.mem_append_left _ (ih ha)
    · exact List.mem_append_right _ ha

/-! ### Whole runs -/

/-- A run whose sections spare unsaved alerts keeps what it accepted. -/
theorem kept_of_spares {h : List (Section × DbOutcome)} (hclear : .clear ∉ h.map Prod.fst)
    (hspare : ∀ p x, p ++ [x] <+: h → SparesUnsaved cfg ((machine cfg ord).after p) x) :
    ∀ p, p <+: h → Kept ((machine cfg ord).after p) (acceptedOn p) := by
  -- along the run, for the condition is about the steps and the states before them
  refine (machine cfg ord).invariant_of (fun p => p <+: h) (fun p s => Kept s (acceptedOn p))
    ?_ ?_ ?_
  · intro p x hpx
    exact (List.prefix_append p [x]).trans hpx
  · intro a ha
    exact absurd ha List.not_mem_nil
  · intro p x hpx ih
    -- a clear forgets alerts on purpose
    have hx : x.1 ≠ .clear := fun hx =>
      hclear (List.mem_map.mpr ⟨x, hpx.subset (by simp), hx⟩)
    rw [acceptedOn_concat]
    exact ih.step hx (hspare p x hpx)

/-- **When failing flushes lose nothing.** In every state a run reaches, every
accepted alert that can be serialised has a row or is buffered and would be
given a row by a healthy flush, if and only if no failing insert of the run
strikes an alert without a row and none of its states holds such an alert in
the buffer together with one that has no encoding. -/
theorem failed_flush_iff (cfg : StoreConfig) (ord : OrderByTimestamp)
    (h : List (Section × DbOutcome)) (hclear : .clear ∉ h.map Prod.fst) :
    (∀ p, p <+: h →
      Kept ((machine cfg ord).after p) (acceptedOn p) ∧
        Recoverable ((machine cfg ord).after p) (acceptedOn p)) ↔
    (∀ p x, p ++ [x] <+: h → SparesUnsaved cfg ((machine cfg ord).after p) x) ∧
      (∀ p, p <+: h → Unblocked ((machine cfg ord).after p)) := by
  refine ⟨fun hall => ⟨fun p x hpx => ?_, fun p hp => ?_⟩, fun hcond p hp => ?_⟩
  · have hx : x.1 ≠ .clear := fun hx =>
      hclear (List.mem_map.mpr ⟨x, hpx.subset (by simp), hx⟩)
    have hkept := (hall (p ++ [x]) hpx).1
    rw [(machine cfg ord).after_concat, acceptedOn_concat] at hkept
    -- what the section's flush meets in the buffer was accepted by now
    refine sparesUnsaved_of_kept hx ?_ hkept
    exact List.append_subset.mpr
      ⟨fun a ha => List.mem_append_left _ (writeBuffer_subset_accepted p ha),
        List.subset_append_right _ _⟩
  · exact (hall p hp).2.unblocked (writeBuffer_subset_accepted p)
  · have hkept := kept_of_spares hclear hcond.1 p hp
    exact ⟨hkept, hkept.recoverable (hcond.2 p hp)⟩

theorem failed_flush_iff_saved_alert :
    Kept ((machine ⟨1, false⟩ orderByTimestamp).after
        [(.append (.between "A" 0 "10.0.0.1" "10.0.0.2"), .ok),
          (.append (.between "A" 0 "10.0.0.1" "10.0.0.2"), .error)])
      (acceptedOn [(.append (.between "A" 0 "10.0.0.1" "10.0.0.2"), .ok),
        (.append (.between "A" 0 "10.0.0.1" "10.0.0.2"), .error)]) ∧
    Recoverable ((machine ⟨1, false⟩ orderByTimestamp).after
        [(.append (.between "A" 0 "10.0.0.1" "10.0.0.2"), .ok),
          (.append (.between "A" 0 "10.0.0.1" "10.0.0.2"), .error)])
      (acceptedOn [(.append (.between "A" 0 "10.0.0.1" "10.0.0.2"), .ok),
        (.append (.between "A" 0 "10.0.0.1" "10.0.0.2"), .error)]) := by
  refine (failed_flush_iff ⟨1, false⟩ orderByTimestamp _ (by simp)).mpr ⟨?_, ?_⟩ _ List.prefix_rfl
  · intro p x hpx
    rcases p with _ | ⟨y, _ | ⟨z, p⟩⟩
    · obtain rfl : x = _ := (List.cons_prefix_cons.mp hpx).1
      exact fun hdb => absurd hdb (by decide)
    · -- the second insert fails on an alert that already has its row
      obtain ⟨rfl, hx⟩ := List.cons_prefix_cons.mp hpx
      obtain rfl : x = _ := (List.cons_prefix_cons.mp hx).1
      intro _ _ _
      decide +kernel
    · have hlen := hpx.length_le
      simp at hlen
  · intro p hp
    rcases p with _ | ⟨y, _ | ⟨z, p⟩⟩
    · rintro ⟨b, hb, -⟩
      exact absurd hb List.not_mem_nil
    · obtain rfl : y = _ := (List.cons_prefix_cons.mp hp).1
      rintro ⟨b, hb, -⟩
      exact absurd hb List.not_mem_nil
    · obtain ⟨rfl, hz⟩ := List.cons_prefix_cons.mp hp
      obtain ⟨rfl, hnil⟩ := List.cons_prefix_cons.mp hz
      obtain rfl := List.prefix_nil.mp hnil
      rintro ⟨b, hb, -⟩
      exact absurd hb List.not_mem_nil

/-- **A failed insert loses alerts.** The alert is accepted, the insert of the
flush fails and is rolled back, and the `finally` clause drops the buffer: the
alert is neither a row nor buffered. -/
theorem failed_insert_loses_alert :
    ((machine ⟨50, false⟩ orderByTimestamp).after
      [(.append (.between "A" 0 "10.0.0.1" "10.0.0.2"), .ok), (.flush, .error)]).table.ids = [] ∧
    ((machine ⟨50, false⟩ orderByTimestamp).after
      [(.append (.between "A" 0 "10.0.0.1" "10.0.0.2"), .ok), (.flush, .error)]).writeBuffer
        = [] ∧
    ¬ ∀ (cfg : StoreConfig) (ord : OrderByTimestamp) (h : List (Section × DbOutcome)),
      .clear ∉ h.map Prod.fst →
      Kept ((machine cfg ord).after h) (acceptedOn h) ∧
        Recoverable ((machine cfg ord).after h) (acceptedOn h) := by
  refine ⟨by decide +kernel, rfl, fun hall => ?_⟩
  -- the flush has emptied the buffer before the insert failed
  have hkept := (hall ⟨50, false⟩ orderByTimestamp
    [(.append (.between "A" 0 "10.0.0.1" "10.0.0.2"), .ok), (.flush, .error)]
    (by simp)).1
  have hcase := hkept (.between "A" 0 "10.0.0.1" "10.0.0.2") List.mem_cons_self (by decide)
  rcases hcase with hrow | hbuf
  · exact absurd hrow (by decide +kernel)
  · exact absurd hbuf List.not_mem_nil

end AlertStore

end Sentrix
