import Sentrix.Alerting.Store

/-!
# Bulk and single insertion

`AlertStore` accepts alerts one by one (`append`) or in bulk (`append_batch`). The two
share the write buffer and the flush, and intermediate flushes make no difference to the
table: `INSERT OR IGNORE` of a list is that of its parts, one after the other
(`AlertTable.insertMany_append`). So both leave the same rows and an empty buffer
(`Buffered`).

They do not share the notifier: `append` starts a notifier thread for its alert, and
`append_batch` starts none for any of its alerts. It also returns before the lock when it
is given no alert, so that it does not flush what was buffered before.

The database answers here (`DbOutcome.ok`); an alert that has no encoding may be among
the buffered ones and among the new ones.
-/

namespace Sentrix

namespace AlertStore

/-- Each alert appended in order, and then a flush; an exception ends it. -/
def appendEach (cfg : StoreConfig) (db : DbOutcome) (s : AlertStore) :
    List AlertRecord → AlertStore × Answer
  | [] => s.flush db
  | a :: as =>
    let r := s.append cfg db a
    match r.2 with
    -- nothing catches it: the alerts that follow are not appended
    | .raised e => (r.1, .raised e)
    | .done => appendEach cfg db r.1 as
    | .rows _ => appendEach cfg db r.1 as

/-- The two ways of inserting the alerts have one observable effect: the same rows, an
empty buffer, and the same alerts for the notifier. -/
structure SameEffect (cfg : StoreConfig) (s : AlertStore) (as : List AlertRecord) : Prop where
  rows : (s.appendBatch .ok as).1.table.rows = (s.appendEach cfg .ok as).1.table.rows
  bulk_buffer : (s.appendBatch .ok as).1.writeBuffer = []
  single_buffer : (s.appendEach cfg .ok as).1.writeBuffer = []
  notified : (s.appendBatch .ok as).1.notified.Perm (s.appendEach cfg .ok as).1.notified

/-! ### Bulk -/

theorem notified_flushLocked (db : DbOutcome) (s : AlertStore) :
    (s.flushLocked db).1.notified = s.notified := by
  unfold flushLocked
  split
  · rfl
  · split
    · cases db <;> rfl
    · rfl

/-- No alert of a bulk insertion reaches the notifier. -/
theorem notified_appendBatch (db : DbOutcome) (s : AlertStore) (as : List AlertRecord) :
    (s.appendBatch db as).1.notified = s.notified := by
  unfold appendBatch
  split
  · rfl
  · exact notified_flushLocked db { s with writeBuffer := s.writeBuffer ++ as }

/-- A bulk insertion that leaves the buffer empty has encoded everything in it. -/
theorem serialisable_of_appendBatch {s : AlertStore} {as : List AlertRecord} (hne : as ≠ [])
    (hbuffer : (s.appendBatch .ok as).1.writeBuffer = []) :
    ∀ a ∈ s.writeBuffer ++ as, a.Serialisable := by
  by_contra hser
  have hflush := @flushLocked_of_unserialisable .ok
    { s with writeBuffer := s.writeBuffer ++ as } hser
  unfold appendBatch at hbuffer
  rw [if_neg hne, hflush] at hbuffer
  exact hne (List.append_eq_nil_iff.mp hbuffer).2

theorem appendBatch_ok {s : AlertStore} {as : List AlertRecord} (hne : as ≠ [])
    (hser : ∀ a ∈ s.writeBuffer ++ as, a.Serialisable) :
    s.appendBatch .ok as =
      ({ s with table := s.table.insertMany (s.writeBuffer ++ as), writeBuffer := [] }, .done) := by
  unfold appendBatch
  rw [if_neg hne, flushLocked_ok hser]
  rfl

/-! ### One by one -/

/-- The store holds the given rows, in the table or still in the buffer, and has started
the given notifier threads. -/
structure Buffered (s : AlertStore) (t : AlertTable) (notified : List AlertRecord) : Prop where
  serialisable : ∀ a ∈ s.writeBuffer, a.Serialisable
  table : s.table.insertMany s.writeBuffer = t
  notified_eq : s.notified = notified

/-- The locked part of `append` does not raise, whether the alert completes a batch or not. -/
theorem Buffered.appendLocked {s : AlertStore} {t : AlertTable} {ns : List AlertRecord}
    (hb : Buffered s t ns) (cfg : StoreConfig) {a : AlertRecord} (ha : a.Serialisable) :
    (s.appendLocked cfg .ok a).2 = none ∧
      Buffered (s.appendLocked cfg .ok a).1 (t.insertMany [a]) ns := by
  have hser : ∀ b ∈ s.writeBuffer ++ [a], b.Serialisable := by
    intro b hmem
    obtain hmem | hmem := List.mem_append.mp hmem
    · exact hb.serialisable b hmem
    · rwa [List.mem_singleton.mp hmem]
  have htable : s.table.insertMany (s.writeBuffer ++ [a]) = t.insertMany [a] := by
    rw [AlertTable.insertMany_append, hb.table]
  unfold AlertStore.appendLocked
  dsimp only
  split
  · -- the alert completes a batch, which moves from the buffer to the table
    rw [flushLocked_ok hser]
    exact ⟨rfl, fun b hmem => absurd hmem List.not_mem_nil, htable, hb.notified_eq⟩
  · exact ⟨rfl, hser, htable, hb.notified_eq⟩

/-- **One alert** is buffered or stored, and handed to the notifier. -/
theorem Buffered.append {cfg : StoreConfig} (hweb : cfg.webhook = true) {s : AlertStore}
    {t : AlertTable} {ns : List AlertRecord} (hb : Buffered s t ns) {a : AlertRecord}
    (ha : a.Serialisable) :
    (s.append cfg .ok a).2 = .done ∧
      Buffered (s.append cfg .ok a).1 (t.insertMany [a]) (ns ++ [a]) := by
  obtain ⟨hnone, hlocked⟩ := hb.appendLocked cfg ha
  unfold AlertStore.append
  dsimp only
  rw [hnone]
  dsimp only
  -- the notifier thread starts after the lock, with the alert alone
  rw [if_pos hweb]
  refine ⟨rfl, hlocked.serialisable, hlocked.table, ?_⟩
  show (s.appendLocked cfg .ok a).1.notified ++ [a] = ns ++ [a]
  rw [hlocked.notified_eq]

/-- **All alerts** are stored, and handed to the notifier. -/
theorem Buffered.appendEach {cfg : StoreConfig} (hweb : cfg.webhook = true) {s : AlertStore}
    {t : AlertTable} {ns as : List AlertRecord} (hb : Buffered s t ns)
    (hser : ∀ a ∈ as, a.Serialisable) :
    s.appendEach cfg .ok as = (⟨t.insertMany as, [], ns ++ as⟩, .done) := by
  -- along the list; whatever batches were flushed on the way, the rows are those of `t`
  induction as generalizing s t ns with
  | nil =>
    show s.flush .ok = _
    unfold flush
    rw [flushLocked_ok hb.serialisable, hb.table, hb.notified_eq, List.append_nil]
    rfl
  | cons a as ih =>
    obtain ⟨hdone, hnext⟩ := hb.append hweb (hser a List.mem_cons_self)
    have hrest := ih hnext fun b hmem => hser b (List.mem_cons_of_mem a hmem)
    unfold AlertStore.appendEach
    dsimp only
    rw [hdone]
    dsimp only
    rw [hrest, ← AlertTable.insertMany_append, List.append_assoc, List.singleton_append]

theorem appendEach_ok {cfg : StoreConfig} (hweb : cfg.webhook = true) {s : AlertStore}
    {as : List AlertRecord} (hser : ∀ a ∈ s.writeBuffer ++ as, a.Serialisable) :
    s.appendEach cfg .ok as =
      (⟨s.table.insertMany (s.writeBuffer ++ as), [], s.notified ++ as⟩, .done) := by
  have hb : Buffered s (s.table.insertMany s.writeBuffer) s.notified :=
    ⟨fun a ha => hser a (List.mem_append_left _ ha), rfl, rfl⟩
  rw [hb.appendEach hweb fun a ha => hser a (List.mem_append_right _ ha),
    AlertTable.insertMany_append]

/-- **Bulk insertion is not single insertion.** For a store with a webhook, the two have
one effect exactly when there is nothing to insert and nothing to flush. The difference
is in the notifications: for every other list, when all alerts have an encoding, the
rows are the same and both buffers are empty, but none of the alerts inserted in bulk is
handed to the notifier. -/
theorem bulk_insert_iff (cfg : StoreConfig) (hweb : cfg.webhook = true) (s : AlertStore)
    (as : List AlertRecord) :
    (SameEffect cfg s as ↔ as = [] ∧ s.writeBuffer = []) ∧
      (as ≠ [] → (∀ a ∈ s.writeBuffer ++ as, a.Serialisable) →
        (s.appendBatch .ok as).1.table = (s.appendEach cfg .ok as).1.table ∧
        (s.appendBatch .ok as).1.writeBuffer = [] ∧
        (s.appendEach cfg .ok as).1.writeBuffer = [] ∧
        (s.appendBatch .ok as).1.notified = s.notified ∧
        (s.appendEach cfg .ok as).1.notified = s.notified ++ as) := by
  refine ⟨⟨?_, ?_⟩, ?_⟩
  · intro hsame
    by_cases hnil : as = []
    · subst hnil
      exact ⟨rfl, hsame.bulk_buffer⟩
    · -- everything was encoded, so that the single path has notified all of it
      have hser := serialisable_of_appendBatch hnil hsame.bulk_buffer
      have hperm := hsame.notified.length_eq
      rw [notified_appendBatch, appendEach_ok hweb hser, List.length_append] at hperm
      have hlen : as.length = 0 := by omega
      exact absurd (List.length_eq_zero_iff.mp hlen) hnil
  · -- nothing to insert: the bulk path returns early, the single one flushes nothing
    rintro ⟨rfl, hbuffer⟩
    have hsingle : s.appendEach cfg .ok [] = (s, .done) := by
      show s.flush .ok = (s, .done)
      unfold flush
      rw [flushLocked_of_empty hbuffer]
      rfl
    have hbulk : s.appendBatch .ok [] = (s, .done) := if_pos rfl
    refine ⟨?_, ?_, ?_, ?_⟩
    · rw [hsingle, hbulk]
    · rw [hbulk]
      exact hbuffer
    · rw [hsingle]
      exact hbuffer
    · rw [hsingle, hbulk]
  · intro hne hser
    rw [appendBatch_ok hne hser, appendEach_ok hweb hser]
    exact ⟨rfl, rfl, rfl, rfl, rfl⟩

/-- A store with a webhook. -/
def notifying : StoreConfig := ⟨50, true⟩

/-- Two alerts between different pairs of hosts. -/
def twoAlerts : List AlertRecord :=
  [.between "a" 0 "10.0.0.1" "10.0.0.2", .between "b" 1 "10.0.0.3" "10.0.0.4"]

theorem bulk_insert_iff_two_alerts :
    SameEffect notifying empty [] ∧ ¬ SameEffect notifying empty twoAlerts ∧
      (empty.appendBatch .ok twoAlerts).1.table =
        (empty.appendEach notifying .ok twoAlerts).1.table ∧
      (empty.appendBatch .ok twoAlerts).1.notified = [] ∧
      (empty.appendEach notifying .ok twoAlerts).1.notified = twoAlerts := by
  have hne : twoAlerts ≠ [] := List.cons_ne_nil _ _
  have hser : ∀ a ∈ empty.writeBuffer ++ twoAlerts, a.Serialisable := by decide
  obtain ⟨hsame, heffects⟩ := bulk_insert_iff notifying rfl empty twoAlerts
  obtain ⟨htable, -, -, hbulk, hsingle⟩ := heffects hne hser
  exact ⟨(bulk_insert_iff notifying rfl empty []).1.mpr ⟨rfl, rfl⟩,
    fun h => hne (hsame.mp h).1, htable, hbulk, hsingle⟩

/-- An alert of high severity, inserted in bulk into an empty store, is stored and never
handed to the notifier. -/
theorem bulk_alert_not_notified :
    ¬ (∀ (cfg : StoreConfig) (s : AlertStore) (as : List AlertRecord), cfg.webhook = true →
      SameEffect cfg s as) := by
  intro hall
  have hsame := hall notifying empty [.between "a" 0 "10.0.0.1" "10.0.0.2"] rfl
  have hlen := hsame.notified.length_eq
  exact absurd hlen (by decide)

end AlertStore

end Sentrix
