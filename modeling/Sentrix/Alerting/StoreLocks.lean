import Sentrix.Alerting.Store
import Sentrix.Lib.Locked

/-!
# The lock of the store

The calls of `alerting/store.py`, statement by statement, with the lock they take,
the calls to SQLite they make and the exceptions they handle. Any call to SQLite may
succeed, raise a `sqlite3.DatabaseError`, or raise something else. What the calls
return is left out: under the lock the code stores it and does nothing else with it.

`_init_db` takes the lock. The constructor calls it without the lock, and there it
is tidy; `clear` calls it from the clause that recovers a corrupt database, while it
holds the lock, and waits for itself. Nothing else takes the lock twice
(`lock_discipline_iff`).
-/

namespace Sentrix

/-- What a call to SQLite raises. -/
inductive SqlError
  /-- A `sqlite3.DatabaseError`. -/
  | database
  /-- Another exception. -/
  | other
deriving DecidableEq

/-- What the calls read and write of the store. -/
structure StoreFields where
  /-- `_conn` is not `None`. -/
  conn : Bool
  writeBuffer : List AlertRecord

namespace StoreLocks

open Locked

/-- A program of the store. -/
abbrev Call : Type := Locked StoreFields SqlError Unit

/-- `except sqlite3.DatabaseError`. -/
def isDatabase (e : SqlError) : Bool := decide (e = .database)

/-! ### The operations -/

/-- `_get_connection`. -/
def getConnection : Call := do
  let s ← get
  if s.conn then pure ()
  else
    -- `sqlite3.connect`
    call
    modify fun s => { s with conn := true }
    -- `PRAGMA journal_mode`, `synchronous`, `cache_size`, `temp_store`
    call
    call
    call
    call

/-- `_recover_corrupt_db`. A file that does not exist counts as removed. -/
def recoverCorruptDb : Call := do
  let s ← get
  if s.conn then
    -- `self._conn.close()`
    ignoring call
    modify fun s => { s with conn := false }
    -- `os.remove` of the file, of its `-wal` and of its `-shm`
    ignoring call
    ignoring call
    ignoring call
  else
    ignoring call
    ignoring call
    ignoring call

/-- The statements of `_init_db`. -/
def createSchema : Call := do
  getConnection
  -- `conn.cursor()`
  call
  -- `CREATE TABLE`, and an index for the timestamp, the detector and the severity
  call
  call
  call
  call
  -- `conn.commit()`
  call

/-- `_init_db`. -/
def initDb : Call :=
  withLock <| tryExcept createSchema isDatabase fun _ => do
    recoverCorruptDb
    createSchema

/-- The constructor. -/
def init : Call := do
  modify fun _ => ⟨false, []⟩
  initDb

/-- The body of the `try` of `clear`. -/
def deleteAlerts : Call := do
  getConnection
  -- `DELETE FROM alerts`
  call
  -- `conn.commit()`
  call
  -- `PRAGMA wal_checkpoint` and `VACUUM`
  ignoring do
    call
    call

/-- `clear`. -/
def clear : Call :=
  withLock do
    modify fun s => { s with writeBuffer := [] }
    tryExcept deleteAlerts isDatabase fun _ => do
      recoverCorruptDb
      initDb

/-- The insertion of `_flush_locked`, from its `try` on. -/
def insertRecords : Call :=
  tryFinally
    (tryExcept
      (do
        -- `executemany`
        call
        -- `conn.commit()`
        call)
      (fun _ => true)
      fun e => do
        -- `conn.rollback()`
        call
        raise e)
    fun s => { s with writeBuffer := [] }

/-- `_flush_locked`. -/
def flushLocked : Call := do
  let s ← get
  if s.writeBuffer = [] then pure ()
  else
    getConnection
    -- the rows are built before the `try`
    if ∀ a ∈ s.writeBuffer, a.Serialisable then insertRecords else raise .other

/-- `append`, up to the notifier. -/
def append (batchSize : ℤ) (a : AlertRecord) : Call :=
  withLock do
    modify fun s => { s with writeBuffer := s.writeBuffer ++ [a] }
    let s ← get
    if (s.writeBuffer.length : ℤ) ≥ batchSize then flushLocked else pure ()

/-- `append_batch`. -/
def appendBatch (as : List AlertRecord) : Call :=
  if as = [] then pure ()
  else
    withLock do
      modify fun s => { s with writeBuffer := s.writeBuffer ++ as }
      flushLocked

/-- `flush`. -/
def flush : Call := withLock flushLocked

/-- A statement and the rows it returns: `execute`, then `fetchone` or `fetchall`. -/
def query : Call := do
  call
  call

/-- A read with some queries under one lock. -/
def readWith (queries : Call) : Call := do
  flush
  withLock do
    getConnection
    -- `conn.cursor()`
    call
    queries

/-- `read_alerts`. -/
def readAlerts : Call := readWith query

/-- `get_alert_by_id`. -/
def getAlertById : Call := readWith query

/-- `read_alerts_paginated`: the count, then the page. -/
def readAlertsPaginated : Call := readWith do
  query
  query

/-- `get_summary_stats`: the total, the classes, then the talkers. -/
def getSummaryStats : Call := readWith do
  query
  query
  query

/-- `close`. -/
def close : Call :=
  withLock do
    flushLocked
    let s ← get
    if s.conn then
      -- `self._conn.close()`
      call
      modify fun s => { s with conn := false }
    else pure ()

/-- The public operations. -/
inductive Operation
  | init
  | clear
  | append (a : AlertRecord)
  | appendBatch (as : List AlertRecord)
  | flush
  | readAlerts
  | getAlertById
  | readAlertsPaginated
  | getSummaryStats
  | close

/-- The program of an operation. -/
def Operation.run (batchSize : ℤ) : Operation → Call
  | .init => StoreLocks.init
  | .clear => StoreLocks.clear
  | .append a => StoreLocks.append batchSize a
  | .appendBatch as => StoreLocks.appendBatch as
  | .flush => StoreLocks.flush
  | .readAlerts => StoreLocks.readAlerts
  | .getAlertById => StoreLocks.getAlertById
  | .readAlertsPaginated => StoreLocks.readAlertsPaginated
  | .getSummaryStats => StoreLocks.getSummaryStats
  | .close => StoreLocks.close

/-! ### What runs under the lock -/

theorem lockFree_getConnection : LockFree getConnection := by
  refine LockFree.get.bind fun s => ?_
  split
  · exact LockFree.pure ()
  · exact LockFree.call.bind fun _ => (LockFree.modify _).bind fun _ => LockFree.call.bind fun _ =>
      LockFree.call.bind fun _ => LockFree.call.bind fun _ => LockFree.call

/-- Recovery swallows every exception. -/
theorem returns_recoverCorruptDb : Returns recoverCorruptDb := by
  have hfile : Returns (ignoring call : Call) := LockFree.call.returns_ignoring
  have hfiles : Returns
      (ignoring call >>= fun _ => ignoring call >>= fun _ => ignoring call : Call) :=
    hfile.bind fun _ => hfile.bind fun _ => hfile
  refine Returns.get_bind fun s => ?_
  split
  · exact hfile.bind fun _ => (Returns.modify _).bind fun _ => hfiles
  · exact hfiles

theorem lockFree_createSchema : LockFree createSchema :=
  lockFree_getConnection.bind fun _ => LockFree.call.bind fun _ => LockFree.call.bind fun _ =>
    LockFree.call.bind fun _ => LockFree.call.bind fun _ => LockFree.call.bind fun _ =>
      LockFree.call

theorem lockFree_deleteAlerts : LockFree deleteAlerts :=
  lockFree_getConnection.bind fun _ => LockFree.call.bind fun _ => LockFree.call.bind fun _ =>
    (LockFree.call.bind fun _ => LockFree.call).ignoring

theorem lockFree_insertRecords : LockFree insertRecords := by
  refine LockFree.tryFinally (LockFree.tryExcept ?_ fun e => ?_) _
  · exact LockFree.call.bind fun _ => LockFree.call
  · exact LockFree.call.bind fun _ => LockFree.raise e

/-- A flush is written for a caller that holds the lock: it does not ask for it. -/
theorem lockFree_flushLocked : LockFree flushLocked := by
  refine LockFree.get.bind fun s => ?_
  split
  · exact LockFree.pure ()
  · refine lockFree_getConnection.bind fun _ => ?_
    split
    · exact lockFree_insertRecords
    · exact LockFree.raise _

theorem lockFree_query : LockFree query := LockFree.call.bind fun _ => LockFree.call

/-! ### The flush and the store

With an open connection, `_flush_locked` is the flush of the store's sections. -/

/-- The answer to the insert of a flush whose `executemany` is the `k`-th call. -/
def insertOutcome (o : ℕ → CallOutcome SqlError) (k : ℕ) : DbOutcome :=
  match o k, o (k + 1) with
  | .ok, .ok => .ok
  | _, _ => .error

/-- The inserts end as their calls do, and empty the buffer either way. -/
theorem insertRecords_agrees (o : ℕ → CallOutcome SqlError) (w : World StoreFields) :
    (insertRecords o w).2.state = { w.state with writeBuffer := [] } ∧
      ((insertRecords o w).1 = .ok () ↔ insertOutcome o w.calls = .ok) := by
  unfold insertRecords insertOutcome
  cases h₀ : o w.calls with
  | ok =>
    cases h₁ : o (w.calls + 1) with
    | ok => simp [Locked.tryFinally, tryExcept, bind_apply, Locked.bind, call, h₀, h₁]
    | raises e =>
      -- the commit failed, and the rollback may fail as well
      cases h₂ : o (w.calls + 2) with
      | ok =>
        simp [Locked.tryFinally, tryExcept, bind_apply, Locked.bind, call, raise, h₀, h₁, h₂,
          Nat.add_assoc]
      | raises e' =>
        simp [Locked.tryFinally, tryExcept, bind_apply, Locked.bind, call, h₀, h₁, h₂,
          Nat.add_assoc]
  | raises e =>
    cases h₁ : o (w.calls + 1) with
    | ok => simp [Locked.tryFinally, tryExcept, bind_apply, Locked.bind, call, raise, h₀, h₁]
    | raises e' => simp [Locked.tryFinally, tryExcept, bind_apply, Locked.bind, call, h₀, h₁]

/-- **The flush refines the store's.** With an open connection, `_flush_locked` leaves
the buffer that `AlertStore.flushLocked` leaves, and raises if and only if that does. -/
theorem flushLocked_agrees (o : ℕ → CallOutcome SqlError) {w : World StoreFields}
    (hconn : w.state.conn = true) {s : AlertStore} (hbuf : w.state.writeBuffer = s.writeBuffer) :
    (flushLocked o w).2.state.writeBuffer =
        (s.flushLocked (insertOutcome o w.calls)).1.writeBuffer ∧
      ((flushLocked o w).1 = .ok () ↔ (s.flushLocked (insertOutcome o w.calls)).2 = none) := by
  have hrun : flushLocked o w =
      if s.writeBuffer = [] then (.ok (), w)
      else if ∀ a ∈ s.writeBuffer, a.Serialisable then insertRecords o w
      else (.raised .other, w) := by
    unfold flushLocked
    rw [bind_apply]
    unfold Locked.bind Locked.get
    simp only [hbuf]
    split
    · rfl
    -- an open connection is returned as it is
    · rw [bind_apply]
      unfold Locked.bind getConnection
      simp only [bind_apply, Locked.bind, Locked.get, hconn, if_true, pure, Locked.pure]
      split <;> rfl
  rw [hrun]
  unfold AlertStore.flushLocked
  split
  · exact ⟨hbuf, iff_of_true rfl rfl⟩
  · split
    · obtain ⟨hstate, hok⟩ := insertRecords_agrees o w
      rw [hstate, hok]
      cases insertOutcome o w.calls with
      | ok => exact ⟨rfl, iff_of_true rfl rfl⟩
      | error => exact ⟨rfl, iff_of_false nofun nofun⟩
    · exact ⟨hbuf, iff_of_false nofun nofun⟩

/-! ### The operations but `clear` -/

/-- Setting up the database gives the lock back. -/
theorem tidy_initDb : Tidy initDb := by
  refine LockFree.withLock (lockFree_createSchema.tryExcept fun _ => ?_)
  exact returns_recoverCorruptDb.lockFree.bind fun _ => lockFree_createSchema

theorem tidy_flush : Tidy flush := lockFree_flushLocked.withLock

/-- A read flushes and queries under one lock. -/
theorem tidy_readWith {queries : Call} (hq : LockFree queries) : Tidy (readWith queries) :=
  tidy_flush.bind fun _ =>
    (lockFree_getConnection.bind fun _ => LockFree.call.bind fun _ => hq).withLock

/-- An append gives the lock back, whether it flushes or not. -/
theorem tidy_append (batchSize : ℤ) (a : AlertRecord) : Tidy (append batchSize a) := by
  refine LockFree.withLock ((LockFree.modify _).bind fun _ => LockFree.get.bind fun s => ?_)
  split
  · exact lockFree_flushLocked
  · exact LockFree.pure ()

/-- So does a batch. -/
theorem tidy_appendBatch (as : List AlertRecord) : Tidy (appendBatch as) := by
  unfold appendBatch
  split
  · exact (LockFree.pure ()).tidy
  · exact LockFree.withLock ((LockFree.modify _).bind fun _ => lockFree_flushLocked)

/-- So does the end. -/
theorem tidy_close : Tidy close := by
  refine LockFree.withLock (lockFree_flushLocked.bind fun _ => LockFree.get.bind fun s => ?_)
  split
  · exact LockFree.call.bind fun _ => LockFree.modify _
  · exact LockFree.pure ()

/-- Every operation but `clear` takes the lock at most once at a time and releases it. -/
theorem Operation.tidy_run (batchSize : ℤ) {op : Operation} (hop : op ≠ .clear) :
    Tidy (op.run batchSize) := by
  cases op with
  | init => exact (LockFree.modify _).tidy.bind fun _ => tidy_initDb
  | clear => exact absurd rfl hop
  | append a => exact tidy_append batchSize a
  | appendBatch as => exact tidy_appendBatch as
  | flush => exact tidy_flush
  -- the reads only differ in their queries
  | readAlerts => exact tidy_readWith lockFree_query
  | getAlertById => exact tidy_readWith lockFree_query
  | readAlertsPaginated => exact tidy_readWith (lockFree_query.bind fun _ => lockFree_query)
  | getSummaryStats =>
    exact tidy_readWith (lockFree_query.bind fun _ => lockFree_query.bind fun _ => lockFree_query)
  | close => exact tidy_close

/-! ### `clear` -/

/-- The number of calls to SQLite that the `try` of `clear` guards: those that open the
connection, unless it is open, the `DELETE` and its commit. -/
def guardedCalls (s : StoreFields) : ℕ := if s.conn then 2 else 7

/-- The body of the `try` raises a `DatabaseError` exactly if the first of the guarded
calls that fails does. -/
theorem raises_deleteAlerts_iff (o : ℕ → CallOutcome SqlError) (w : World StoreFields) :
    Raises .database deleteAlerts o w ↔ FirstRaises o .database w.calls (guardedCalls w.state) := by
  have hvacuum : ∀ w', ¬ Raises .database (ignoring (call >>= fun _ => call) : Call) o w' :=
    fun w' => ((LockFree.call.bind fun _ => LockFree.call).returns_ignoring).not_raises _ o w'
  unfold deleteAlerts getConnection guardedCalls
  rw [Locked.bind_assoc, raises_get_bind_iff]
  by_cases hconn : w.state.conn = true
  · rw [if_pos hconn, if_pos hconn, raises_pure_bind_iff]
    simp only [raises_call_bind_iff, hvacuum, and_false, or_false, FirstRaises]
  · rw [if_neg hconn, if_neg hconn]
    simp only [Locked.bind_assoc, raises_call_bind_iff, raises_modify_bind_iff, hvacuum, and_false,
      or_false, FirstRaises, Nat.add_assoc, Nat.reduceAdd]

/-- `clear` is tidy as long as its `try` catches nothing, and blocks when it does. -/
theorem clear_cases (o : ℕ → CallOutcome SqlError) (w : World StoreFields) (hw : w.held = false) :
    ((clear o w).1 ≠ .blocked ∧ (clear o w).2.held = false) ↔
      ¬ FirstRaises o .database w.calls (guardedCalls w.state) := by
  set w₁ : World StoreFields :=
    { w with held := true, state := { w.state with writeBuffer := [] } } with hw₁
  have hguard : Raises .database deleteAlerts o w₁ ↔
      FirstRaises o .database w.calls (guardedCalls w.state) := raises_deleteAlerts_iff o w₁
  unfold clear
  rw [withLock_tidy_iff _ o hw, ← hguard]
  show (tryExcept deleteAlerts isDatabase (fun _ => recoverCorruptDb >>= fun _ => initDb) o w₁).1 ≠
    .blocked ↔ _
  constructor
  · intro hnot hraises
    refine hnot ?_
    rw [tryExcept_of_raises rfl hraises]
    -- recovery returns with the lock still held, and `_init_db` waits for it
    obtain ⟨u, w₂, hrecover, hheld⟩ := returns_recoverCorruptDb o (deleteAlerts o w₁).2
    have hstill : w₂.held = true := hheld.trans (lockFree_deleteAlerts o w₁).2
    rw [bind_apply]
    unfold Locked.bind
    rw [hrecover]
    exact congrArg Prod.fst (withLock_of_held _ o hstill)
  · intro hnot
    have hcaught : ∀ e, isDatabase e = true → ¬ Raises e deleteAlerts o w₁ := by
      intro e he
      rw [of_decide_eq_true he]
      exact hnot
    rw [tryExcept_of_not_raises hcaught]
    exact (lockFree_deleteAlerts o w₁).1

/-- **When an operation blocks on itself.** For every operation, every state and every
outcome of the calls to SQLite: the thread never waits for the lock it holds, and the
lock is free when the operation returns or raises, if and only if the operation is not
a `clear` whose first failing guarded call raises a `DatabaseError`. -/
theorem lock_discipline_iff (batchSize : ℤ) (op : Operation) (outcomes : ℕ → CallOutcome SqlError)
    (s : StoreFields) :
    ((op.run batchSize outcomes ⟨false, 0, s⟩).1 ≠ .blocked ∧
      (op.run batchSize outcomes ⟨false, 0, s⟩).2.held = false) ↔
      ¬ (op = .clear ∧ FirstRaises outcomes .database 0 (guardedCalls s)) := by
  by_cases hop : op = .clear
  · subst hop
    rw [eq_self_iff_true, true_and]
    exact clear_cases outcomes ⟨false, 0, s⟩ rfl
  · have htidy := Operation.tidy_run batchSize hop outcomes ⟨false, 0, s⟩ rfl
    exact ⟨fun _ h => hop h.1, fun _ => htidy⟩

/-- **A `clear` that waits for itself.** The connection is open and the `DELETE` raises
a `DatabaseError`. -/
theorem clear_blocks_on_itself :
    (clear (fun _ => .raises .database) ⟨false, 0, ⟨true, []⟩⟩).1 = .blocked ∧
    ¬ ∀ (batchSize : ℤ) (op : Operation) (outcomes : ℕ → CallOutcome SqlError) (s : StoreFields),
      (op.run batchSize outcomes ⟨false, 0, s⟩).1 ≠ .blocked ∧
        (op.run batchSize outcomes ⟨false, 0, s⟩).2.held = false := by
  have hblocked : (clear (fun _ => .raises .database) ⟨false, 0, ⟨true, []⟩⟩).1 = .blocked := rfl
  exact ⟨hblocked, fun hall => (hall 50 .clear _ ⟨true, []⟩).1 hblocked⟩

end StoreLocks

end Sentrix
