import Mathlib.Algebra.Order.Ring.Rat
import Mathlib.Data.List.Nodup
import Mathlib.Tactic.Common
import Sentrix.Lib.Lists
import Sentrix.Lib.Machine
import Sentrix.Alerting.Schema

/-!
# The SQLite alert store

`AlertStore` of `alerting/store.py`: accepted alerts gather in a write buffer
and reach the `alerts` table in batches. The table's primary key is the alert
id and the insertion is `INSERT OR IGNORE`, so the first row with an id stays
(`AlertTable.insertOrIgnore`); that ids are distinct is a field of the table.

The unit of interleaving is a section of the store's lock (`Section`): `append`,
`append_batch`, `flush` and `clear` are one section each, `read_alerts` is two,
a flush and a select, with the lock free in between (`readAlerts`). A run of
`AlertStore.machine` is therefore any interleaving of any number of threads.

A section comes with what the database answers to the insert it may run
(`DbOutcome`). `_flush_locked` fails at two places. An alert that has no JSON
encoding is met while the rows are built, before anything else happens, and
leaves the buffer as it is. A failing `executemany` or `commit` is rolled back,
and the `finally` clause clears the buffer on the way out, as it does after a
success.

Rows are kept as the alerts they encode: SQLite and JSON round trips are taken
as exact. A `clear` is modelled on a database that answers.
-/

namespace Sentrix

/-! ### The table -/

/-- The `alerts` table: its rows in insertion order, no `alert_id` twice. -/
structure AlertTable where
  rows : List AlertRecord
  /-- `alert_id TEXT PRIMARY KEY`. -/
  primaryKey : (rows.map AlertRecord.alertId).Nodup

namespace AlertTable

/-- The table without rows. -/
def empty : AlertTable := ⟨[], List.nodup_nil⟩

/-- The ids that have a row. -/
def ids (t : AlertTable) : List String := t.rows.map AlertRecord.alertId

/-- `INSERT OR IGNORE` of one row. -/
def insertOrIgnore (t : AlertTable) (a : AlertRecord) : AlertTable :=
  -- a conflict on the primary key: the row that is there stays
  if h : a.alertId ∈ t.ids then t
  else
    { rows := t.rows ++ [a]
      primaryKey := by
        rw [List.map_append, List.map_cons, List.map_nil]
        exact t.primaryKey.append (List.nodup_singleton _) (by simpa [ids] using h) }

/-- `executemany` of the insertion over a list of rows. -/
def insertMany (t : AlertTable) (as : List AlertRecord) : AlertTable :=
  as.foldl insertOrIgnore t

@[simp] theorem insertMany_nil (t : AlertTable) : t.insertMany [] = t := rfl

theorem insertMany_append (t : AlertTable) (as bs : List AlertRecord) :
    t.insertMany (as ++ bs) = (t.insertMany as).insertMany bs :=
  List.foldl_append

/-- The ids after an insertion: the old ones and the alert's. -/
theorem mem_ids_insertOrIgnore (t : AlertTable) (a : AlertRecord) (i : String) :
    i ∈ (t.insertOrIgnore a).ids ↔ i ∈ t.ids ∨ i = a.alertId := by
  unfold insertOrIgnore
  split
  · next h =>
    refine ⟨Or.inl, fun hi => ?_⟩
    rcases hi with hi | rfl
    · exact hi
    · exact h
  · simp [ids]

/-- The ids after a batch: those of the table and those of the batch. -/
theorem mem_ids_insertMany (t : AlertTable) (as : List AlertRecord) (i : String) :
    i ∈ (t.insertMany as).ids ↔ i ∈ t.ids ∨ ∃ a ∈ as, a.alertId = i := by
  induction as generalizing t with
  | nil => simp
  | cons a as ih =>
    have hfold : t.insertMany (a :: as) = (t.insertOrIgnore a).insertMany as := rfl
    rw [hfold, ih, mem_ids_insertOrIgnore, List.exists_mem_cons_iff, or_assoc,
      @eq_comm _ i a.alertId]

end AlertTable

/-! ### The operations -/

/-- What the constructor fixes. -/
structure StoreConfig where
  batchSize : ℤ
  /-- Whether `notifier.webhook_url` is set. -/
  webhook : Bool

/-- The state of an `AlertStore`. -/
structure AlertStore where
  table : AlertTable
  writeBuffer : List AlertRecord
  /-- The alerts a notifier thread was started for, in order. -/
  notified : List AlertRecord

/-- What the database answers to a section's insert: `error` when `executemany`
or `commit` raises (the rollback that follows succeeds). -/
inductive DbOutcome
  | ok
  | error
deriving DecidableEq

/-- The exceptions of `_flush_locked`. -/
inductive StoreError
  /-- `model_dump_json` of a buffered alert raised. -/
  | serialisation
  /-- `executemany` or `commit` raised. -/
  | database
deriving DecidableEq

/-- The arguments of `read_alerts`. -/
structure Query where
  startTime : Option ℚ
  endTime : Option ℚ
  detector : Option String
  severity : Option String

/-- The `WHERE` clause: each argument that is not `None` adds its condition. -/
def Query.Matches (q : Query) (a : AlertRecord) : Prop :=
  (∀ t, q.startTime = some t → t ≤ a.timestamp) ∧
  (∀ t, q.endTime = some t → a.timestamp ≤ t) ∧
  (∀ d, q.detector = some d → a.detector = d) ∧
  (∀ v, q.severity = some v → a.severity = v)

/-- The decision the `WHERE` clause takes on a row. -/
def Query.matches (q : Query) (a : AlertRecord) : Bool :=
  q.startTime.all (fun t => decide (t ≤ a.timestamp)) &&
  q.endTime.all (fun t => decide (a.timestamp ≤ t)) &&
  q.detector.all (fun d => decide (a.detector = d)) &&
  q.severity.all (fun v => decide (a.severity = v))

/-- The test of a query is what it says. -/
theorem Query.matches_iff (q : Query) (a : AlertRecord) : q.matches a = true ↔ q.Matches a := by
  simp only [Query.matches, Query.Matches, Bool.and_eq_true, Option.all_eq_true, decide_eq_true_eq,
    and_assoc]

/-- `ORDER BY timestamp ASC`: some arrangement of the selected rows by
nondecreasing timestamp; nothing is said about rows with equal timestamps. -/
structure OrderByTimestamp where
  sort : List AlertRecord → List AlertRecord
  perm : ∀ l, (sort l).Perm l
  sorted : ∀ l, (sort l).Pairwise fun a b => a.timestamp ≤ b.timestamp

/-- The arrangement that keeps rows with equal timestamps as they were inserted. -/
def orderByTimestamp : OrderByTimestamp where
  sort l := l.mergeSort fun a b => decide (a.timestamp ≤ b.timestamp)
  perm l := List.mergeSort_perm l _
  sorted l := by
    have htrans : ∀ a b c : AlertRecord, a.timestamp ≤ b.timestamp → b.timestamp ≤ c.timestamp →
        a.timestamp ≤ c.timestamp := fun _ _ _ => le_trans
    have htotal : ∀ a b : AlertRecord, a.timestamp ≤ b.timestamp ∨ b.timestamp ≤ a.timestamp :=
      fun _ _ => le_total _ _
    exact pairwise_mergeSort_of_total htrans htotal l

/-- A section of the store's lock. -/
inductive Section
  | append (a : AlertRecord)
  | appendBatch (as : List AlertRecord)
  | flush
  | clear
  /-- The second section of `read_alerts`. -/
  | select (q : Query)

/-- What a section answers. -/
inductive Answer
  | done
  | rows (l : List AlertRecord)
  | raised (e : StoreError)

namespace AlertStore

/-- A store over an empty table. -/
def empty : AlertStore := ⟨AlertTable.empty, [], []⟩

/-- `_flush_locked`, with the exception it raises, if any. -/
def flushLocked (db : DbOutcome) (s : AlertStore) : AlertStore × Option StoreError :=
  if s.writeBuffer = [] then (s, none)
  else if ∀ a ∈ s.writeBuffer, a.Serialisable then
    match db with
    -- `executemany`, `commit`, then the `finally` clause
    | .ok => ({ s with table := s.table.insertMany s.writeBuffer, writeBuffer := [] }, none)
    -- rolled back, and cleared by the `finally` clause
    | .error => ({ s with writeBuffer := [] }, some .database)
  -- the rows are built before the `try`, so the buffer survives
  else (s, some .serialisation)

/-- The answer of a call that only flushes. -/
def answerOf : Option StoreError → Answer
  | none => .done
  | some e => .raised e

/-- The locked part of `append`. -/
def appendLocked (cfg : StoreConfig) (db : DbOutcome) (s : AlertStore) (a : AlertRecord) :
    AlertStore × Option StoreError :=
  let s₁ := { s with writeBuffer := s.writeBuffer ++ [a] }
  -- the alert just accepted is part of the batch it completes
  if (s₁.writeBuffer.length : ℤ) ≥ cfg.batchSize then s₁.flushLocked db else (s₁, none)

/-- `append`. The notifier thread is started once the lock is released, which an
exception of the flush prevents. -/
def append (cfg : StoreConfig) (db : DbOutcome) (s : AlertStore) (a : AlertRecord) :
    AlertStore × Answer :=
  let r := s.appendLocked cfg db a
  match r.2 with
  | some e => (r.1, .raised e)
  | none =>
    (if cfg.webhook then { r.1 with notified := r.1.notified ++ [a] } else r.1, .done)

/-- `append_batch`. -/
def appendBatch (db : DbOutcome) (s : AlertStore) (as : List AlertRecord) :
    AlertStore × Answer :=
  -- `if not alerts: return`, before the lock is taken
  if as = [] then (s, .done)
  else
    let r := { s with writeBuffer := s.writeBuffer ++ as }.flushLocked db
    (r.1, answerOf r.2)

/-- `flush`. -/
def flush (db : DbOutcome) (s : AlertStore) : AlertStore × Answer :=
  let r := s.flushLocked db
  (r.1, answerOf r.2)

/-- `clear`, on a database that answers. -/
def clear (s : AlertStore) : AlertStore := { s with table := AlertTable.empty, writeBuffer := [] }

/-- The second section of `read_alerts`. -/
def select (ord : OrderByTimestamp) (s : AlertStore) (q : Query) : List AlertRecord :=
  ord.sort (s.table.rows.filter q.matches)

/-- One section, with the outcome of the insert it may run. -/
def step (cfg : StoreConfig) (ord : OrderByTimestamp) (s : AlertStore)
    (x : Section × DbOutcome) : AlertStore × Answer :=
  match x.1 with
  | .append a => s.append cfg x.2 a
  | .appendBatch as => s.appendBatch x.2 as
  | .flush => s.flush x.2
  | .clear => (s.clear, .done)
  | .select q => (s, .rows (s.select ord q))

/-- The store as a machine that runs sections of its lock. -/
def machine (cfg : StoreConfig) (ord : OrderByTimestamp) :
    Machine AlertStore (Section × DbOutcome) Answer where
  init := empty
  step := step cfg ord

/-- `read_alerts` without interference: flush, then select. -/
def readAlerts (ord : OrderByTimestamp) (db : DbOutcome) (s : AlertStore) (q : Query) :
    AlertStore × Except StoreError (List AlertRecord) :=
  let r := s.flushLocked db
  match r.2 with
  | some e => (r.1, .error e)
  | none => (r.1, .ok (r.1.select ord q))

/-! ### What a flush does -/

variable {db : DbOutcome} {s : AlertStore}

/-- An empty buffer needs no transaction. -/
theorem flushLocked_of_empty (h : s.writeBuffer = []) : s.flushLocked db = (s, none) :=
  if_pos h

/-- An alert without an encoding stops the flush before it touches anything. -/
theorem flushLocked_of_unserialisable (h : ¬ ∀ a ∈ s.writeBuffer, a.Serialisable) :
    s.flushLocked db = (s, some .serialisation) := by
  have hne : s.writeBuffer ≠ [] := fun h0 => h (by simp [h0])
  unfold flushLocked
  rw [if_neg hne, if_neg h]

/-- A failing insert leaves the table alone and empties the buffer. -/
theorem flushLocked_error (hne : s.writeBuffer ≠ []) (h : ∀ a ∈ s.writeBuffer, a.Serialisable) :
    s.flushLocked .error = ({ s with writeBuffer := [] }, some .database) := by
  unfold flushLocked
  rw [if_neg hne, if_pos h]

/-- A healthy flush of a serialisable buffer moves it to the table, whether it
is empty or not. -/
theorem flushLocked_ok (h : ∀ a ∈ s.writeBuffer, a.Serialisable) :
    s.flushLocked .ok =
      ({ s with table := s.table.insertMany s.writeBuffer, writeBuffer := [] }, none) := by
  by_cases hne : s.writeBuffer = []
  -- nothing buffered: the insert of no rows is the early return
  · rw [flushLocked_of_empty hne, hne, AlertTable.insertMany_nil, ← hne]
  · unfold flushLocked
    rw [if_neg hne, if_pos h]

/-! ### What a section does

Up to the notifier, every section but `clear` accepts some alerts into the
buffer and then flushes or does not (`settled`). -/

end AlertStore

/-- The alerts a section adds to the write buffer. -/
def Section.accepts : Section → List AlertRecord
  | .append a => [a]
  | .appendBatch as => as
  | .flush => []
  | .clear => []
  | .select _ => []

/-- Whether a section calls `_flush_locked` in the state `s`. -/
def Section.flushes (cfg : StoreConfig) (s : AlertStore) : Section → Bool
  | .append _ => decide (((s.writeBuffer.length + 1 : ℕ) : ℤ) ≥ cfg.batchSize)
  | .appendBatch as => !as.isEmpty
  | .flush => true
  | .clear => false
  | .select _ => false

namespace AlertStore

variable {db : DbOutcome} {s : AlertStore}

/-- The state with the alerts of a section in the buffer, before any flush. -/
def accept (s : AlertStore) (x : Section) : AlertStore :=
  { s with writeBuffer := s.writeBuffer ++ x.accepts }

/-- The state a section other than `clear` leads to, up to the notifier. -/
def settled (cfg : StoreConfig) (s : AlertStore) (x : Section) (db : DbOutcome) : AlertStore :=
  if x.flushes cfg s then ((s.accept x).flushLocked db).1 else s.accept x

theorem accept_of_accepts_nil (x : Section) (h : x.accepts = []) : s.accept x = s := by
  unfold accept
  rw [h, List.append_nil]

/-- The listener's call is the last of an append and leaves table and buffer. -/
theorem append_fst (cfg : StoreConfig) (a : AlertRecord) :
    (s.append cfg db a).1.table = (s.appendLocked cfg db a).1.table ∧
      (s.append cfg db a).1.writeBuffer = (s.appendLocked cfg db a).1.writeBuffer := by
  unfold append
  cases h : (s.appendLocked cfg db a).2 with
  | some e => simp only [h, and_self]
  | none =>
    simp only [h]
    split <;> exact ⟨rfl, rfl⟩

/-- **Inversion of a section.** Every section other than `clear` leads to the
table and the buffer of `settled`. -/
theorem step_settled (cfg : StoreConfig) (ord : OrderByTimestamp) (db : DbOutcome) {x : Section}
    (hx : x ≠ .clear) :
    (step cfg ord s (x, db)).1.table = (s.settled cfg x db).table ∧
      (step cfg ord s (x, db)).1.writeBuffer = (s.settled cfg x db).writeBuffer := by
  cases x with
  | append a =>
    -- the test on the longer buffer is `flushes`, written out
    have hsettled : s.settled cfg (.append a) db = (s.appendLocked cfg db a).1 := by
      unfold settled appendLocked accept
      simp only [Section.flushes, Section.accepts, List.length_append, List.length_singleton,
        decide_eq_true_eq]
      split <;> rfl
    rw [hsettled]
    exact append_fst cfg a
  | appendBatch as =>
    show (s.appendBatch db as).1.table = _ ∧ (s.appendBatch db as).1.writeBuffer = _
    unfold appendBatch settled
    by_cases has : as = []
    · -- nothing is accepted and the call returns before the lock
      subst has
      rw [if_pos rfl, accept_of_accepts_nil (.appendBatch []) rfl]
      exact ⟨rfl, rfl⟩
    · have hfl : (Section.appendBatch as).flushes cfg s = true := by
        simp [Section.flushes, has]
      rw [if_neg has, if_pos hfl]
      exact ⟨rfl, rfl⟩
  | flush =>
    show (s.flush db).1.table = _ ∧ (s.flush db).1.writeBuffer = _
    have hfl : Section.flush.flushes cfg s = true := rfl
    unfold flush settled
    rw [if_pos hfl, accept_of_accepts_nil .flush rfl]
    exact ⟨rfl, rfl⟩
  | clear => exact absurd rfl hx
  | select q =>
    -- a select reads the table only
    have hs : s.settled cfg (.select q) db = s := accept_of_accepts_nil (.select q) rfl
    rw [hs]
    exact ⟨rfl, rfl⟩

end AlertStore

end Sentrix
