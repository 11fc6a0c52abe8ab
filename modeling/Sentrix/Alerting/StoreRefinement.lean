import Mathlib.Logic.Function.Basic
import Sentrix.Alerting.Store

/-!
# The buffered store refines a plain one

`PlainStore` is what an alert store is for: a map from alert ids to alerts in
which the first accepted alert with an id wins and `clear` empties the map. The
state of an `AlertStore` stands for the map of its *contents*, the table with
the buffer inserted behind it (`contents`), and on a healthy database every
section of the lock acts on the contents exactly as the plain store acts on its
map, whenever the buffer is flushed (`view_contents_after`).

A read flushes first, so that the table it selects from is the contents
(`readAlerts_spec`). Between the two sections of a read other threads may run:
they can only add to the table, unless one of them clears it, which is why a
read still returns everything accepted before it began (`read_sees_accepted`).
-/

namespace Sentrix

/-! ### The plain store -/

/-- A plain unbuffered store: the alert kept under each id. -/
abbrev PlainStore : Type := String → Option AlertRecord

namespace PlainStore

/-- The store without alerts. -/
def empty : PlainStore := fun _ => none

/-- Accept an alert: the first one with its id wins. -/
def accept (m : PlainStore) (a : AlertRecord) : PlainStore :=
  if (m a.alertId).isSome then m else Function.update m a.alertId (some a)

/-- What a section means to a plain store. -/
def step (m : PlainStore) : Section → PlainStore
  | .append a => m.accept a
  | .appendBatch as => as.foldl accept m
  | .flush => m
  | .clear => empty
  | .select _ => m

/-- The plain store after a history of sections. -/
def after (h : List Section) : PlainStore := h.foldl step empty

theorem after_append (h k : List Section) : after (h ++ k) = k.foldl step (after h) :=
  List.foldl_append

/-- Every section but a clear only accepts. -/
theorem step_eq_foldl (m : PlainStore) {x : Section} (hx : x ≠ .clear) :
    m.step x = x.accepts.foldl accept m := by
  cases x with
  | clear => exact absurd rfl hx
  | append a => rfl
  | appendBatch as => rfl
  | flush => rfl
  | select q => rfl

/-- An id that is taken stays with its alert. -/
theorem accept_of_some {m : PlainStore} {i : String} {r : AlertRecord} (h : m i = some r)
    (a : AlertRecord) : m.accept a i = some r := by
  unfold accept
  by_cases hs : (m a.alertId).isSome
  · rw [if_pos hs]
    exact h
  -- the new id was free, so it is not `i`
  · have hne : i ≠ a.alertId := by
      rintro rfl
      exact hs (by rw [h]; rfl)
    rw [if_neg hs, Function.update_of_ne hne]
    exact h

/-- An alert that is known stays as it is. -/
theorem foldl_accept_of_some {i : String} {r : AlertRecord} (as : List AlertRecord)
    {m : PlainStore} (h : m i = some r) : as.foldl accept m i = some r := by
  induction as generalizing m with
  | nil => exact h
  | cons a as ih => exact ih (accept_of_some h a)

/-- Nothing but `clear` removes an alert. -/
theorem foldl_step_of_some {i : String} {r : AlertRecord} (h : List Section) {m : PlainStore}
    (hm : m i = some r) (hclear : Section.clear ∉ h) : h.foldl step m i = some r := by
  induction h generalizing m with
  | nil => exact hm
  | cons x h ih =>
    have hx : x ≠ .clear := fun hx => hclear (by simp [hx])
    refine ih ?_ fun hc => hclear (List.mem_cons_of_mem _ hc)
    rw [step_eq_foldl m hx]
    exact foldl_accept_of_some _ hm

/-- An accepted alert's id is taken, by the alert itself if it was free. -/
theorem accept_self (m : PlainStore) (a : AlertRecord) :
    ∃ r, m.accept a a.alertId = some r ∧ (m a.alertId = none → r = a) := by
  unfold accept
  by_cases hs : (m a.alertId).isSome
  · rw [if_pos hs]
    obtain ⟨r, hr⟩ := Option.isSome_iff_exists.mp hs
    exact ⟨r, hr, fun hnone => absurd hr (by rw [hnone]; simp)⟩
  · rw [if_neg hs]
    exact ⟨a, Function.update_self _ _ _, fun _ => rfl⟩

/-- An alert accepted is known. -/
theorem foldl_accept_mem (as : List AlertRecord) {m : PlainStore} {a : AlertRecord}
    (ha : a ∈ as) : ∃ r, as.foldl accept m a.alertId = some r := by
  induction as generalizing m with
  | nil => simp at ha
  | cons b as ih =>
    rcases List.mem_cons.mp ha with rfl | ha
    -- taken now, and kept by the rest of the batch
    · obtain ⟨r, hr, -⟩ := accept_self m a
      exact ⟨r, foldl_accept_of_some as hr⟩
    · exact ih ha

/-- What is known was known or was accepted. -/
theorem mem_of_foldl_accept (as : List AlertRecord) {m : PlainStore} {i : String}
    {r : AlertRecord} (h : as.foldl accept m i = some r) :
    m i = some r ∨ (r ∈ as ∧ r.alertId = i) := by
  induction as generalizing m with
  | nil => exact Or.inl h
  | cons a as ih =>
    rcases ih h with h | ⟨hr, hi⟩
    -- it was in the map once `a` was accepted: before that, or as `a`
    · unfold accept at h
      by_cases hs : (m a.alertId).isSome
      · rw [if_pos hs] at h
        exact Or.inl h
      · rw [if_neg hs] at h
        by_cases hi : i = a.alertId
        · subst hi
          rw [Function.update_self] at h
          obtain rfl := Option.some.inj h
          exact Or.inr ⟨List.mem_cons_self, rfl⟩
        · rw [Function.update_of_ne hi] at h
          exact Or.inl h
    · exact Or.inr ⟨List.mem_cons_of_mem _ hr, hi⟩

end PlainStore

/-- The alerts accepted along a history of sections, oldest first. -/
def accepted (h : List Section) : List AlertRecord := h.flatMap Section.accepts

theorem accepted_append (h k : List Section) : accepted (h ++ k) = accepted h ++ accepted k :=
  List.flatMap_append

theorem accepted_concat (h : List Section) (x : Section) :
    accepted (h ++ [x]) = accepted h ++ x.accepts := by
  rw [accepted_append]
  simp [accepted]

/-- Without a `clear`, the plain store has accepted everything in turn. -/
theorem PlainStore.after_eq_foldl {h : List Section} (hclear : Section.clear ∉ h) :
    after h = (accepted h).foldl accept PlainStore.empty := by
  induction h using List.reverseRecOn with
  | nil => rfl
  | append_singleton h x ih =>
    have hx : x ≠ .clear := fun hx => hclear (by simp [hx])
    rw [after_append, List.foldl_cons, List.foldl_nil, step_eq_foldl _ hx, accepted_concat,
      List.foldl_append, ih fun hc => hclear (List.mem_append_left _ hc)]

/-- Without a `clear`, the ids of the plain store are those of the accepted alerts. -/
theorem PlainStore.isSome_after_iff {h : List Section} (hclear : Section.clear ∉ h) (i : String) :
    (after h i).isSome ↔ ∃ a ∈ accepted h, a.alertId = i := by
  rw [after_eq_foldl hclear, Option.isSome_iff_exists]
  constructor
  · rintro ⟨r, hr⟩
    rcases mem_of_foldl_accept _ hr with hr | ⟨hr, hi⟩
    · exact absurd hr (by simp [PlainStore.empty])
    · exact ⟨r, hr, hi⟩
  · rintro ⟨a, ha, rfl⟩
    exact foldl_accept_mem _ ha

/-- What the plain store holds was accepted, under its own id. -/
theorem PlainStore.mem_accepted {h : List Section} {i : String} {r : AlertRecord}
    (hr : PlainStore.after h i = some r) : r ∈ accepted h ∧ r.alertId = i := by
  induction h using List.reverseRecOn with
  | nil => exact absurd hr (by simp [after, PlainStore.empty])
  | append_singleton h x ih =>
    rw [after_append, List.foldl_cons, List.foldl_nil] at hr
    rw [accepted_concat, List.mem_append]
    by_cases hx : x = .clear
    · -- after a clear there is nothing
      subst hx
      exact absurd hr (by simp [step, PlainStore.empty])
    · rw [step_eq_foldl _ hx] at hr
      -- the row was there, or is one of those this section accepts
      rcases mem_of_foldl_accept _ hr with hr | ⟨hr, hi⟩
      · exact ⟨Or.inl (ih hr).1, (ih hr).2⟩
      · exact ⟨Or.inr hr, hi⟩

/-! ### A table as a map -/

namespace AlertTable

/-- The map a table stands for. -/
def view (t : AlertTable) : PlainStore := fun i => t.rows.find? fun r => decide (r.alertId = i)

/-- A row is what the map holds under the row's own id: ids are distinct. -/
theorem mem_rows (t : AlertTable) (r : AlertRecord) :
    r ∈ t.rows ↔ t.view r.alertId = some r := by
  refine ⟨fun hr => ?_, fun hr => List.mem_of_find?_eq_some hr⟩
  have hpw : t.rows.Pairwise fun a b => a.alertId ≠ b.alertId := List.pairwise_map.mp t.primaryKey
  unfold view
  rw [List.find?_eq_some_iff_append]
  obtain ⟨pre, post, hs⟩ := List.append_of_mem hr
  -- the first match is `r` itself, as no earlier row has its id
  refine ⟨by simp, pre, post, hs, fun b hb => ?_⟩
  rw [hs] at hpw
  have hne : b.alertId ≠ r.alertId := (List.pairwise_append.mp hpw).2.2 b hb r (by simp)
  simpa using hne

theorem mem_ids_iff_view (t : AlertTable) (i : String) : i ∈ t.ids ↔ (t.view i).isSome := by
  unfold ids view
  rw [List.find?_isSome]
  simp

/-- `INSERT OR IGNORE` accepts the row into the map. -/
theorem view_insertOrIgnore (t : AlertTable) (a : AlertRecord) :
    (t.insertOrIgnore a).view = t.view.accept a := by
  unfold insertOrIgnore PlainStore.accept
  by_cases h : a.alertId ∈ t.ids
  · rw [dif_pos h, if_pos ((t.mem_ids_iff_view _).mp h)]
  · rw [dif_neg h, if_neg fun hs => h ((t.mem_ids_iff_view _).mpr hs)]
    -- a fresh id: the appended row is found under it and nowhere else
    have hnone : t.view a.alertId = none := by
      rw [← Option.not_isSome_iff_eq_none, ← mem_ids_iff_view]
      exact h
    funext i
    show (t.rows ++ [a]).find? _ = _
    rw [List.find?_append]
    by_cases hi : i = a.alertId
    · subst hi
      have hfind : t.rows.find? (fun r => decide (r.alertId = a.alertId)) = none := hnone
      rw [Function.update_self, hfind]
      simp
    · rw [Function.update_of_ne hi]
      have hlast : [a].find? (fun r => decide (r.alertId = i)) = none := by
        simp [Ne.symm hi]
      rw [hlast, Option.or_none]
      rfl

/-- The view of an insertion is an acceptance. -/
theorem view_insertMany (t : AlertTable) (as : List AlertRecord) :
    (t.insertMany as).view = as.foldl PlainStore.accept t.view := by
  induction as generalizing t with
  | nil => rfl
  | cons a as ih =>
    have hfold : t.insertMany (a :: as) = (t.insertOrIgnore a).insertMany as := rfl
    rw [hfold, ih, view_insertOrIgnore]
    rfl

end AlertTable

/-! ### The simulation -/

namespace AlertStore

variable {cfg : StoreConfig} {ord : OrderByTimestamp}

/-- The contents of a store: its table with the buffer inserted behind it. -/
def contents (s : AlertStore) : AlertTable := s.table.insertMany s.writeBuffer

/-- The run of a history of sections on a healthy database. -/
def healthy (h : List Section) : List (Section × DbOutcome) := h.map fun x => (x, .ok)

theorem healthy_append (h k : List Section) : healthy (h ++ k) = healthy h ++ healthy k :=
  List.map_append

/-- The state after a history of sections on a healthy database. -/
def afterHealthy (cfg : StoreConfig) (ord : OrderByTimestamp) (h : List Section) : AlertStore :=
  (machine cfg ord).after (healthy h)

theorem afterHealthy_concat (h : List Section) (x : Section) :
    afterHealthy cfg ord (h ++ [x]) = (step cfg ord (afterHealthy cfg ord h) (x, .ok)).1 := by
  unfold afterHealthy
  rw [healthy_append]
  exact (machine cfg ord).after_concat (healthy h) (x, .ok)

/-- Accepting inserts into the contents. -/
theorem contents_accept (s : AlertStore) (x : Section) :
    (s.accept x).contents = s.contents.insertMany x.accepts :=
  s.table.insertMany_append s.writeBuffer x.accepts

/-- A healthy flush moves the buffer to the table and leaves the contents. -/
theorem contents_flushLocked {s : AlertStore} (h : ∀ a ∈ s.writeBuffer, a.Serialisable) :
    (s.flushLocked .ok).1.table = s.contents ∧ (s.flushLocked .ok).1.contents = s.contents := by
  rw [flushLocked_ok h]
  exact ⟨rfl, rfl⟩

/-- **One section.** The contents change as the plain store's map does. -/
theorem view_contents_step {s : AlertStore} {x : Section}
    (hbuf : ∀ a ∈ s.writeBuffer, a.Serialisable) (hx : ∀ a ∈ x.accepts, a.Serialisable) :
    (step cfg ord s (x, .ok)).1.contents.view = s.contents.view.step x ∧
      ∀ a ∈ (step cfg ord s (x, .ok)).1.writeBuffer, a.Serialisable := by
  by_cases hclear : x = .clear
  · subst hclear
    exact ⟨rfl, fun a ha => absurd ha (List.not_mem_nil)⟩
  -- whatever a flush may meet can be encoded
  have hacc : ∀ a ∈ (s.accept x).writeBuffer, a.Serialisable := by
    intro a ha
    rcases List.mem_append.mp ha with ha | ha
    · exact hbuf a ha
    · exact hx a ha
  obtain ⟨htable, hbuffer⟩ := step_settled (s := s) cfg ord .ok hclear
  have hcontents : (step cfg ord s (x, .ok)).1.contents = (s.settled cfg x .ok).contents := by
    unfold contents
    rw [htable, hbuffer]
  -- accepting is the visible part, flushing is not
  have hview : (s.accept x).contents.view = s.contents.view.step x := by
    rw [contents_accept, AlertTable.view_insertMany, PlainStore.step_eq_foldl _ hclear]
  rw [hcontents, hbuffer]
  unfold settled
  split
  · rw [(contents_flushLocked hacc).2, flushLocked_ok hacc]
    exact ⟨hview, fun a ha => absurd ha (List.not_mem_nil)⟩
  · exact ⟨hview, hacc⟩

/-- **The simulation.** After every history on a healthy database, for every
batch size, the contents are the plain store's map. -/
theorem view_contents_after (cfg : StoreConfig) (ord : OrderByTimestamp) (h : List Section)
    (hser : ∀ a ∈ accepted h, a.Serialisable) :
    (afterHealthy cfg ord h).contents.view = PlainStore.after h ∧
      ∀ a ∈ (afterHealthy cfg ord h).writeBuffer, a.Serialisable := by
  induction h using List.reverseRecOn with
  | nil => exact ⟨rfl, fun a ha => absurd ha (List.not_mem_nil)⟩
  | append_singleton h x ih =>
    rw [accepted_concat] at hser
    obtain ⟨hview, hbuf⟩ := ih fun a ha => hser a (List.mem_append_left _ ha)
    rw [afterHealthy_concat, PlainStore.after_append, List.foldl_cons, List.foldl_nil, ← hview]
    exact view_contents_step hbuf fun a ha => hser a (List.mem_append_right _ ha)

/-! ### Reads -/

/-- **A read without interference** returns the matching alerts of the plain
store, each once, by nondecreasing timestamp. -/
theorem readAlerts_spec (cfg : StoreConfig) (ord : OrderByTimestamp) (h : List Section) (q : Query)
    (hser : ∀ a ∈ accepted h, a.Serialisable) :
    ∃ l, ((afterHealthy cfg ord h).readAlerts ord .ok q).2 = .ok l ∧
      l.Pairwise (fun a b => a.timestamp ≤ b.timestamp) ∧ l.Nodup ∧
      ∀ a, a ∈ l ↔ PlainStore.after h a.alertId = some a ∧ q.Matches a := by
  obtain ⟨hview, hbuf⟩ := view_contents_after cfg ord h hser
  set s := afterHealthy cfg ord h with hs
  have hrows : s.contents.rows.Nodup := List.Nodup.of_map _ s.contents.primaryKey
  refine ⟨ord.sort (s.contents.rows.filter q.matches), ?_, ord.sorted _, ?_, fun a => ?_⟩
  -- the read's own flush has made the contents the table
  · unfold readAlerts
    rw [flushLocked_ok hbuf]
    rfl
  · exact (ord.perm _).nodup_iff.mpr (hrows.filter _)
  · rw [(ord.perm _).mem_iff, List.mem_filter, AlertTable.mem_rows, hview, Query.matches_iff]

/-- A row survives every section but `clear`. -/
theorem mem_rows_step {s : AlertStore} {db : DbOutcome} {x : Section} {r : AlertRecord}
    (hx : x ≠ .clear) (hr : r ∈ s.table.rows) :
    r ∈ (step cfg ord s (x, db)).1.table.rows := by
  have hinsert : ∀ as, r ∈ (s.table.insertMany as).rows := by
    intro as
    rw [AlertTable.mem_rows, AlertTable.view_insertMany]
    exact PlainStore.foldl_accept_of_some as ((AlertTable.mem_rows _ r).mp hr)
  rw [(step_settled cfg ord db hx).1]
  unfold settled flushLocked
  split
  · split
    · exact hr
    · split
      -- only a healthy flush writes to the table
      · cases db with
        | ok => exact hinsert _
        | error => exact hr
      · exact hr
  · exact hr

/-- A row stays until a clear. -/
theorem mem_rows_afterHealthy {h k : List Section} {r : AlertRecord}
    (hr : r ∈ (afterHealthy cfg ord h).table.rows) (hclear : Section.clear ∉ k) :
    r ∈ (afterHealthy cfg ord (h ++ k)).table.rows := by
  induction k using List.reverseRecOn with
  | nil => rwa [List.append_nil]
  | append_singleton k x ih =>
    have hx : x ≠ .clear := fun hx => hclear (by simp [hx])
    rw [← List.append_assoc, afterHealthy_concat]
    exact mem_rows_step hx (ih fun hc => hclear (List.mem_append_left _ hc))

/-- **Reads among threads.** An alert accepted before a read began, in the
history `e₁ ++ x :: e₂`, and not cleared before the read selects, is in the
read's result, whatever runs between the read's two sections. If other alerts
were accepted with its id, the first of them stands for it. -/
theorem read_sees_accepted (e₁ e₂ e₃ : List Section) (x : Section) (a : AlertRecord) (q : Query)
    (hser : ∀ b ∈ accepted (e₁ ++ x :: e₂), b.Serialisable) (ha : a ∈ x.accepts)
    (h₂ : Section.clear ∉ e₂) (h₃ : Section.clear ∉ e₃) :
    ∃ r, r ∈ accepted (e₁ ++ [x]) ∧ r.alertId = a.alertId ∧
      ((∀ b ∈ accepted (e₁ ++ [x]), b.alertId = a.alertId → b = a) → r = a) ∧
      (q.Matches r →
        r ∈ (afterHealthy cfg ord (e₁ ++ x :: e₂ ++ [.flush] ++ e₃)).select ord q) := by
  -- the id is taken once `x` has run, and stays taken up to the read
  have hx : x ≠ .clear := by
    rintro rfl
    exact absurd ha (List.not_mem_nil)
  obtain ⟨r, hr⟩ : ∃ r, PlainStore.after (e₁ ++ [x]) a.alertId = some r := by
    rw [PlainStore.after_append, List.foldl_cons, List.foldl_nil, PlainStore.step_eq_foldl _ hx]
    exact PlainStore.foldl_accept_mem _ ha
  obtain ⟨hracc, hrid⟩ := PlainStore.mem_accepted hr
  have hr₂ : PlainStore.after (e₁ ++ x :: e₂) r.alertId = some r := by
    have hsplit : e₁ ++ x :: e₂ = (e₁ ++ [x]) ++ e₂ := by simp
    rw [hsplit, PlainStore.after_append, hrid]
    exact PlainStore.foldl_step_of_some e₂ hr h₂
  refine ⟨r, hracc, hrid, fun huniq => huniq r hracc hrid, fun hq => ?_⟩
  -- the read's flush makes it a row, and rows survive
  obtain ⟨hview, hbuf⟩ := view_contents_after cfg ord (e₁ ++ x :: e₂) hser
  have hrow : r ∈ (afterHealthy cfg ord (e₁ ++ x :: e₂ ++ [.flush])).table.rows := by
    rw [afterHealthy_concat]
    show r ∈ ((afterHealthy cfg ord (e₁ ++ x :: e₂)).flushLocked .ok).1.table.rows
    rw [(contents_flushLocked hbuf).1, AlertTable.mem_rows, hview]
    exact hr₂
  have hlast := mem_rows_afterHealthy hrow h₃
  unfold select
  rw [(ord.perm _).mem_iff, List.mem_filter]
  exact ⟨hlast, (q.matches_iff r).mpr hq⟩

/-- **Micro-batching is unobservable.** Over every history on a healthy database:
a read returns, by nondecreasing timestamp, exactly the matching alerts of the
plain store; two stores that differ in their batch size (and in how the
database arranges equal timestamps) return the same alerts; and with threads
interleaving at the granularity of the lock, an alert accepted before a read
began and not cleared since is in the read's result, the first accepted alert
with an id standing for all of them. -/
theorem micro_batching_unobservable :
    (∀ (cfg : StoreConfig) (ord : OrderByTimestamp) (h : List Section) (q : Query),
      (∀ a ∈ accepted h, a.Serialisable) →
      ∃ l, ((afterHealthy cfg ord h).readAlerts ord .ok q).2 = .ok l ∧
        l.Pairwise (fun a b => a.timestamp ≤ b.timestamp) ∧ l.Nodup ∧
        ∀ a, a ∈ l ↔ PlainStore.after h a.alertId = some a ∧ q.Matches a) ∧
    (∀ (cfg cfg' : StoreConfig) (ord ord' : OrderByTimestamp) (h : List Section) (q : Query),
      (∀ a ∈ accepted h, a.Serialisable) →
      ∃ l l', ((afterHealthy cfg ord h).readAlerts ord .ok q).2 = .ok l ∧
        ((afterHealthy cfg' ord' h).readAlerts ord' .ok q).2 = .ok l' ∧ l.Perm l') ∧
    (∀ (cfg : StoreConfig) (ord : OrderByTimestamp) (e₁ e₂ e₃ : List Section) (x : Section)
      (a : AlertRecord) (q : Query),
      (∀ b ∈ accepted (e₁ ++ x :: e₂), b.Serialisable) → a ∈ x.accepts →
      Section.clear ∉ e₂ → Section.clear ∉ e₃ →
      ∃ r, r ∈ accepted (e₁ ++ [x]) ∧ r.alertId = a.alertId ∧
        ((∀ b ∈ accepted (e₁ ++ [x]), b.alertId = a.alertId → b = a) → r = a) ∧
        (q.Matches r →
          r ∈ (afterHealthy cfg ord (e₁ ++ x :: e₂ ++ [.flush] ++ e₃)).select ord q)) := by
  refine ⟨?_, ?_, ?_⟩
  · intro cfg ord h q hser
    exact readAlerts_spec cfg ord h q hser
  · intro cfg cfg' ord ord' h q hser
    obtain ⟨l, hl, -, hnd, hmem⟩ := readAlerts_spec cfg ord h q hser
    obtain ⟨l', hl', -, hnd', hmem'⟩ := readAlerts_spec cfg' ord' h q hser
    -- both lists have the rows of the plain store, each of them once
    refine ⟨l, l', hl, hl', (List.perm_ext_iff_of_nodup hnd hnd').mpr fun a => ?_⟩
    rw [hmem, hmem']
  · intro cfg ord e₁ e₂ e₃ x a q hser ha h₂ h₃
    exact read_sees_accepted e₁ e₂ e₃ x a q hser ha h₂ h₃

theorem micro_batching_unobservable_sample :
    (∃ l, ((afterHealthy ⟨2, false⟩ orderByTimestamp
        [.append (.between "A" 5 "10.0.0.1" "10.0.0.2"),
          .appendBatch [.between "B" 3 "10.0.0.1" "10.0.0.2"]]).readAlerts
        orderByTimestamp .ok ⟨some 4, none, none, none⟩).2 = .ok l ∧ l.Nodup ∧
      AlertRecord.between "A" 5 "10.0.0.1" "10.0.0.2" ∈ l) ∧
    (∃ r, r.alertId = "A" ∧
      r ∈ (afterHealthy ⟨2, false⟩ orderByTimestamp
        [.append (.between "A" 5 "10.0.0.1" "10.0.0.2"), .flush, .flush]).select
        orderByTimestamp ⟨none, none, none, none⟩) := by
  refine ⟨?_, ?_⟩
  · -- a read with one alert in the table and one in the buffer
    obtain ⟨l, hl, -, hnd, hmem⟩ := micro_batching_unobservable.1 ⟨2, false⟩ orderByTimestamp
      [.append (.between "A" 5 "10.0.0.1" "10.0.0.2"),
        .appendBatch [.between "B" 3 "10.0.0.1" "10.0.0.2"]] ⟨some 4, none, none, none⟩
      (by decide +kernel)
    refine ⟨l, hl, hnd, (hmem _).mpr ⟨rfl, (Query.matches_iff _ _).mp (by decide +kernel)⟩⟩
  · -- the alert is durable after a flush
    obtain ⟨r, -, hid, -, hsel⟩ := micro_batching_unobservable.2.2 ⟨2, false⟩ orderByTimestamp
      [] [] [.flush] (.append (.between "A" 5 "10.0.0.1" "10.0.0.2"))
      (.between "A" 5 "10.0.0.1" "10.0.0.2") ⟨none, none, none, none⟩ (by decide +kernel)
      (List.mem_singleton_self _) (by simp) (by simp)
    exact ⟨r, hid, hsel ((Query.matches_iff _ r).mp rfl)⟩

end AlertStore

end Sentrix
