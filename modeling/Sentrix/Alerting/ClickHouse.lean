import Sentrix.Alerting.StoreRefinement

/-!
# The ClickHouse alert store

`ClickHouseAlertStore` of `alerting/clickhouse_store.py`: accepted alerts gather
in `_pending`, and three callers flush them, an `append` that fills the batch, the
background writer, and `flush` itself. The unit of interleaving is again a section
of the store's lock, together with the two places where the writer and `close`
meet outside of it: `close` sets `_stop`, and the writer tests it before it sleeps.
A run of `ClickHouseStore.machine` is any interleaving of any number of threads.

`_flush_locked` converts the pending alerts one by one and skips those it cannot
convert. It clears `_pending` as a whole, after an insert that succeeded or when no
row is left to insert, and keeps it as a whole after an insert that failed. So the
accepted alerts are, at every moment, the handled ones followed by the pending ones
(`accounts_once`).

The store is duck-typed: `append` takes any object, and whether an object can be
converted is found out when it is flushed. The machine is about any type of alerts
with a conversion to rows. The conversion of an `AlertRecord` is `ClickHouseRow.ofAlert`: it
converts all of them but those whose flow has a port that is `None`, which `int` does not
accept. With the SQLite store on the other side, this decides when both stores keep
the same alerts (`stores_agree_iff`).
-/

namespace Sentrix

/-! ### The store -/

/-- What the constructor fixes. -/
structure ClickHouseConfig where
  batchSize : ℤ
  /-- `_client` is not `None`. -/
  connected : Bool

/-- Where the background writer stands. -/
inductive Writer
  /-- Before the test of `_stop`. -/
  | testing
  /-- In `time.sleep`, before it takes the lock. -/
  | sleeping
  /-- The loop has been left. -/
  | ended
deriving DecidableEq

/-- The state of a `ClickHouseAlertStore` of alerts `α`, with the rows `ρ` of the
`alerts` table in the order of their insertion. -/
structure ClickHouseStore (α ρ : Type*) where
  table : List ρ
  pending : List α
  stop : Bool
  writer : Writer

/-- A step of a thread that uses the store. A `close` is a `setStop`, then, once the
writer has ended or three seconds have passed, a `flush`. -/
inductive ClickHouseStep (α : Type*)
  | append (a : α)
  /-- The writer tests `_stop`. -/
  | writerTest
  /-- The writer's section of the lock. -/
  | writerTick
  | flush
  | setStop

/-- The alerts a step adds to `_pending`. -/
def ClickHouseStep.accepts {α : Type*} : ClickHouseStep α → List α
  | .append a => [a]
  | .writerTest => []
  | .writerTick => []
  | .flush => []
  | .setStop => []

namespace ClickHouseStore

variable {α ρ : Type*} (convert : α → Option ρ) (cfg : ClickHouseConfig)

/-- The store the constructor leaves, over an empty table. -/
def empty : ClickHouseStore α ρ := ⟨[], [], false, .testing⟩

/-- `_flush_locked`, with the answer to the insert it may run: an `execute` that
raises inserts nothing. -/
def flushLocked (db : DbOutcome) (s : ClickHouseStore α ρ) : ClickHouseStore α ρ :=
  if cfg.connected = false ∨ s.pending.length = 0 then s
  else
    -- an alert whose conversion raises is skipped
    match s.pending.filterMap convert with
    | [] => { s with pending := [] }
    | row :: rows =>
      match db with
      | .ok => { s with table := s.table ++ row :: rows, pending := [] }
      -- logged, and tried again with the next flush
      | .error => s

/-- `append`. -/
def append (db : DbOutcome) (s : ClickHouseStore α ρ) (a : α) : ClickHouseStore α ρ :=
  let s₁ := { s with pending := s.pending ++ [a] }
  if (s₁.pending.length : ℤ) ≥ cfg.batchSize then s₁.flushLocked convert cfg db else s₁

/-- The test of `_writer_loop`. -/
def writerTest (s : ClickHouseStore α ρ) : ClickHouseStore α ρ :=
  match s.writer with
  | .testing => { s with writer := if s.stop then .ended else .sleeping }
  | _ => s

/-- The body of `_writer_loop`, from the lock on. -/
def writerTick (db : DbOutcome) (s : ClickHouseStore α ρ) : ClickHouseStore α ρ :=
  match s.writer with
  | .sleeping =>
    let s₁ := { s with writer := .testing }
    if s.pending.length = 0 then s₁ else s₁.flushLocked convert cfg db
  | _ => s

/-- One step, with the answer to the insert it may run. -/
def step (s : ClickHouseStore α ρ) (x : ClickHouseStep α × DbOutcome) : ClickHouseStore α ρ :=
  match x.1 with
  | .append a => s.append convert cfg x.2 a
  | .writerTest => s.writerTest
  | .writerTick => s.writerTick convert cfg x.2
  | .flush => s.flushLocked convert cfg x.2
  | .setStop => { s with stop := true }

/-- The store as a machine; its calls return `None` and raise nothing. -/
def machine : Machine (ClickHouseStore α ρ) (ClickHouseStep α × DbOutcome) Unit where
  init := empty
  step s x := (s.step convert cfg x, ())

/-- The alerts accepted along a history, oldest first. -/
def accepted (h : List (ClickHouseStep α × DbOutcome)) : List α := h.flatMap fun x => x.1.accepts

theorem accepted_append (h k : List (ClickHouseStep α × DbOutcome)) :
    accepted (h ++ k) = accepted h ++ accepted k :=
  List.flatMap_append

theorem accepted_concat (h : List (ClickHouseStep α × DbOutcome))
    (x : ClickHouseStep α × DbOutcome) : accepted (h ++ [x]) = accepted h ++ x.1.accepts := by
  rw [accepted_append]
  exact congrArg _ (List.append_nil _)

/-! ### What a step does -/

/-- Whether a step calls `_flush_locked` in the state `s`. -/
def Flushes (s : ClickHouseStore α ρ) : ClickHouseStep α → Prop
  | .append _ => ((s.pending.length + 1 : ℕ) : ℤ) ≥ cfg.batchSize
  | .writerTest => False
  | .writerTick => s.writer = .sleeping ∧ s.pending.length ≠ 0
  | .flush => True
  | .setStop => False

/-- A flush hands the rows of all pending alerts to the table and none of them
stays, or it changes neither the table nor `_pending`; the second happens only if
there is nothing to insert into or nothing pending, or if the insert fails. -/
theorem flushLocked_cases (db : DbOutcome) (s : ClickHouseStore α ρ) :
    ((s.flushLocked convert cfg db).table = s.table ++ s.pending.filterMap convert ∧
      (s.flushLocked convert cfg db).pending = []) ∨
    ((s.flushLocked convert cfg db).table = s.table ∧
      (s.flushLocked convert cfg db).pending = s.pending ∧
      (cfg.connected = false ∨ s.pending = [] ∨ db = .error)) := by
  unfold flushLocked
  split
  · next hearly =>
    exact Or.inr ⟨rfl, rfl, hearly.imp_right fun hlen => Or.inl (List.length_eq_zero_iff.mp hlen)⟩
  · split
    -- no pending alert has a row
    · next hrows => exact Or.inl ⟨by rw [hrows, List.append_nil], rfl⟩
    · next row rows hrows =>
      cases db with
      | ok => exact Or.inl ⟨by rw [hrows], rfl⟩
      | error => exact Or.inr ⟨rfl, rfl, Or.inr (Or.inr rfl)⟩

/-- A failed insert changes nothing. -/
theorem flushLocked_error {s : ClickHouseStore α ρ} (hrows : s.pending.filterMap convert ≠ []) :
    s.flushLocked convert cfg .error = s := by
  unfold flushLocked
  split
  · rfl
  · split
    · next hnil => exact absurd hnil hrows
    · rfl

/-- **Inversion of a step.** A step accepts its alerts and then flushes, or it does
not; the writer and the flag are not read by a flush. -/
theorem step_cases (s : ClickHouseStore α ρ) (x : ClickHouseStep α) (db : DbOutcome) :
    ∃ s₁ : ClickHouseStore α ρ, s₁.table = s.table ∧ s₁.pending = s.pending ++ x.accepts ∧
      (Flushes cfg s x ∧ s.step convert cfg (x, db) = s₁.flushLocked convert cfg db ∨
        ¬ Flushes cfg s x ∧ s.step convert cfg (x, db) = s₁) := by
  have hnil : s.pending = s.pending ++ [] := (List.append_nil _).symm
  cases x with
  | append a =>
    refine ⟨{ s with pending := s.pending ++ [a] }, rfl, rfl, ?_⟩
    show Flushes cfg s (.append a) ∧ s.append convert cfg db a = _ ∨
      ¬ Flushes cfg s (.append a) ∧ s.append convert cfg db a = _
    unfold append Flushes
    simp only [List.length_append, List.length_singleton]
    by_cases hfull : ((s.pending.length + 1 : ℕ) : ℤ) ≥ cfg.batchSize
    · exact Or.inl ⟨hfull, if_pos hfull⟩
    · exact Or.inr ⟨hfull, if_neg hfull⟩
  | writerTest =>
    refine ⟨s.writerTest, ?_, ?_, Or.inr ⟨id, rfl⟩⟩
    · unfold writerTest
      split <;> rfl
    · refine Eq.trans ?_ hnil
      unfold writerTest
      split <;> rfl
  | writerTick =>
    show ∃ s₁ : ClickHouseStore α ρ, _ ∧ _ ∧ (_ ∧ s.writerTick convert cfg db = _ ∨
      _ ∧ s.writerTick convert cfg db = _)
    unfold writerTick
    split
    · next hwriter =>
      refine ⟨{ s with writer := .testing }, rfl, hnil, ?_⟩
      by_cases hlen : s.pending.length = 0
      · exact Or.inr ⟨fun hfl => hfl.2 hlen, if_pos hlen⟩
      · exact Or.inl ⟨⟨hwriter, hlen⟩, if_neg hlen⟩
    -- the writer is not at its lock
    · next hwriter => exact ⟨s, rfl, hnil, Or.inr ⟨fun hfl => hwriter hfl.1, rfl⟩⟩
  | flush => exact ⟨s, rfl, hnil, Or.inl ⟨trivial, rfl⟩⟩
  | setStop => exact ⟨{ s with stop := true }, rfl, hnil, Or.inr ⟨id, rfl⟩⟩

/-! ### Accounting -/

/-- The accepted alerts are the handled ones followed by the pending ones, and the
table holds the rows of those that could be converted, in order. -/
def Accounted (accepted : List α) (s : ClickHouseStore α ρ) : Prop :=
  ∃ handled, accepted = handled ++ s.pending ∧ s.table = handled.filterMap convert

/-- Accepting more alerts and flushing keeps the account. -/
theorem Accounted.flushLocked {as : List α} {s : ClickHouseStore α ρ}
    (hacc : Accounted convert as s) (db : DbOutcome) :
    Accounted convert as (s.flushLocked convert cfg db) := by
  obtain ⟨handled, has, htable⟩ := hacc
  obtain ⟨hrows, hpending⟩ | ⟨hrows, hpending, -⟩ := flushLocked_cases convert cfg db s
  -- all that was pending is handled now
  · refine ⟨handled ++ s.pending, ?_, ?_⟩
    · rw [hpending, List.append_nil]
      exact has
    · rw [hrows, htable, List.filterMap_append]
  · exact ⟨handled, by rw [hpending]; exact has, by rw [hrows]; exact htable⟩

/-- **One step** keeps the account. -/
theorem Accounted.step {as : List α} {s : ClickHouseStore α ρ} (hacc : Accounted convert as s)
    (x : ClickHouseStep α) (db : DbOutcome) :
    Accounted convert (as ++ x.accepts) (s.step convert cfg (x, db)) := by
  obtain ⟨s₁, htable, hpending, hcases⟩ := step_cases convert cfg s x db
  -- what is accepted is pending first
  have hacc₁ : Accounted convert (as ++ x.accepts) s₁ := by
    obtain ⟨handled, has, hrows⟩ := hacc
    refine ⟨handled, ?_, htable.trans hrows⟩
    rw [hpending, has, List.append_assoc]
  obtain ⟨-, heq⟩ | ⟨-, heq⟩ := hcases
  · rw [heq]
    exact hacc₁.flushLocked convert cfg db
  · rw [heq]
    exact hacc₁

/-- **Every run** keeps the account. -/
theorem accounted_after (h : List (ClickHouseStep α × DbOutcome)) :
    Accounted convert (accepted h) ((machine convert cfg).after h) := by
  refine (machine convert cfg).invariant (fun h s => Accounted convert (accepted h) s)
    ⟨[], rfl, rfl⟩ (fun h x hacc => ?_) h
  rw [accepted_concat]
  exact hacc.step convert cfg x.1 x.2

/-- The step runs an insert: it flushes, and some pending alert can be converted. -/
def Inserts (s : ClickHouseStore α ρ) (x : ClickHouseStep α) : Prop :=
  Flushes cfg s x ∧ (s.pending ++ x.accepts).filterMap convert ≠ []

/-- **Every alert is accounted for exactly once.** In every run of a store with a
client, the accepted alerts are, in order, the handled ones followed by the pending
ones, and the table holds one row for each handled alert that can be converted. An
insert that fails leaves the table and the pending alerts as they are. -/
theorem accounts_once (batchSize : ℤ) (h : List (ClickHouseStep α × DbOutcome)) :
    (∃ handled, accepted h = handled ++ ((machine convert ⟨batchSize, true⟩).after h).pending ∧
      ((machine convert ⟨batchSize, true⟩).after h).table = handled.filterMap convert) ∧
    ∀ x, Inserts convert ⟨batchSize, true⟩ ((machine convert ⟨batchSize, true⟩).after h) x →
      ((machine convert ⟨batchSize, true⟩).after (h ++ [(x, .error)])).pending =
          ((machine convert ⟨batchSize, true⟩).after h).pending ++ x.accepts ∧
        ((machine convert ⟨batchSize, true⟩).after (h ++ [(x, .error)])).table =
          ((machine convert ⟨batchSize, true⟩).after h).table := by
  refine ⟨accounted_after convert ⟨batchSize, true⟩ h, fun x hins => ?_⟩
  rw [Machine.after_concat]
  obtain ⟨s₁, htable, hpending, hcases⟩ := step_cases convert ⟨batchSize, true⟩
    ((machine convert ⟨batchSize, true⟩).after h) x .error
  obtain ⟨-, heq⟩ | ⟨hnot, -⟩ := hcases
  · -- the insert fails, and everything goes back to the buffer
    have hrows : s₁.pending.filterMap convert ≠ [] := by
      rw [hpending]
      exact hins.2
    rw [flushLocked_error convert _ hrows] at heq
    show (ClickHouseStore.step convert _ _ _).pending = _ ∧
      (ClickHouseStore.step convert _ _ _).table = _
    rw [heq]
    exact ⟨hpending, htable⟩
  · -- a step that does not insert is not one of these
    exact absurd hins.1 hnot

/-- A batch of two whose insert fails: both alerts stay pending. The first is an
alert that cannot be converted. -/
theorem accounts_once_failed_batch :
    ((machine (fun a : Option ℕ => a) ⟨2, true⟩).after
      ([(.append none, .ok)] ++ [(.append (some 7), .error)])).pending = [none, some 7] := by
  have hins : Inserts (fun a : Option ℕ => a) ⟨2, true⟩
      ((machine (fun a : Option ℕ => a) ⟨2, true⟩).after [(.append none, .ok)])
      (.append (some 7)) := by
    constructor
    · show ((1 + 1 : ℕ) : ℤ) ≥ 2
      decide
    · exact List.cons_ne_nil _ _
  rw [((accounts_once (fun a : Option ℕ => a) 2 [(.append none, .ok)]).2 _ hins).1]
  rfl

end ClickHouseStore

/-! ### The rows of alert records -/

/-- A row of the `alerts` table, less the column `inserted_at`, which the database
fills in. -/
structure ClickHouseRow where
  alertId : String
  timestamp : ℚ
  threatClass : String
  severity : String
  confidence : ℚ
  srcIp : String
  dstIp : String
  srcPort : ℤ
  dstPort : ℤ
  protocol : String
  explanation : String
  /-- The document of the JSON blob. -/
  features : List (String × Value)
  relatedIds : List String

/-- The conversion of an `AlertRecord`. Its fields are all there, so that no default
of the conversion is used: the `0` for a port does not stand in for a port that is
there and is `None`. -/
def ClickHouseRow.ofAlert (a : AlertRecord) : Option ClickHouseRow := do
  -- `int(None)` raises
  let srcPort ← a.flowId.srcPort
  let dstPort ← a.flowId.dstPort
  some
    { alertId := a.alertId
      timestamp := a.timestamp
      threatClass := a.threatClass
      severity := a.severity
      confidence := a.confidenceScore
      srcIp := a.flowId.srcIp
      dstIp := a.flowId.dstIp
      srcPort := srcPort
      dstPort := dstPort
      protocol := a.flowId.protocol
      explanation := a.evidence.explanation
      features := Value.stringifyDict a.evidence.features
      relatedIds := a.relatedAlertIds }

/-- Both ports of the alert's flow are given. -/
def AlertRecord.HasPorts (a : AlertRecord) : Prop :=
  a.flowId.srcPort.isSome = true ∧ a.flowId.dstPort.isSome = true

/-- An alert has a row if and only if both of its ports are given, and the row has
the alert's id. -/
theorem ClickHouseRow.exists_ofAlert_iff (a : AlertRecord) (i : String) :
    (∃ row, ofAlert a = some row ∧ row.alertId = i) ↔ a.HasPorts ∧ a.alertId = i := by
  unfold ofAlert AlertRecord.HasPorts
  cases a.flowId.srcPort with
  | none => simp
  | some srcPort =>
    cases a.flowId.dstPort with
    | none => simp
    | some dstPort => simp

namespace ClickHouseStore

/-- The ids in the table of a store of alert records. -/
def ids (s : ClickHouseStore AlertRecord ClickHouseRow) : List String :=
  s.table.map ClickHouseRow.alertId

/-- A run on a database that answers. -/
def healthy {α : Type*} (h : List (ClickHouseStep α)) : List (ClickHouseStep α × DbOutcome) :=
  h.map fun x => (x, .ok)

theorem accepted_healthy {α : Type*} (h : List (ClickHouseStep α)) :
    accepted (healthy h) = h.flatMap ClickHouseStep.accepts :=
  List.flatMap_map _ _ _

/-- A healthy run that ends with a flush leaves the rows of all accepted alerts. -/
theorem table_after_flush {α ρ : Type*} (convert : α → Option ρ) (batchSize : ℤ)
    (h : List (ClickHouseStep α)) :
    ((machine convert ⟨batchSize, true⟩).after (healthy (h ++ [.flush]))).table =
      (h.flatMap ClickHouseStep.accepts).filterMap convert := by
  obtain ⟨handled, hacc, htable⟩ :=
    accounted_after convert ⟨batchSize, true⟩ (healthy (h ++ [.flush]))
  have hpending : ((machine convert ⟨batchSize, true⟩).after (healthy (h ++ [.flush]))).pending
      = [] := by
    have hconcat : healthy (h ++ [.flush]) = healthy h ++ [(.flush, .ok)] := List.map_append
    rw [hconcat, Machine.after_concat]
    -- the last flush finds a database that answers, and empties the buffer
    obtain ⟨-, hnil⟩ | ⟨-, hkeep, hwhy⟩ := flushLocked_cases convert ⟨batchSize, true⟩ .ok
      ((machine convert ⟨batchSize, true⟩).after (healthy h))
    · exact hnil
    · -- there is a client and the database answers, so there was nothing to flush
      obtain hclient | hnone | herror := hwhy
      · exact absurd hclient Bool.noConfusion
      · exact hkeep.trans hnone
      · exact absurd herror (by decide)
  rw [accepted_healthy, List.flatMap_append, hpending, List.append_nil] at hacc
  rw [htable, ← hacc]
  exact congrArg _ (List.append_nil _)

/-- The ids the ClickHouse store keeps: those of the accepted alerts with ports. -/
theorem mem_ids_after_flush (batchSize : ℤ) (h : List (ClickHouseStep AlertRecord)) (i : String) :
    i ∈ ids ((machine ClickHouseRow.ofAlert ⟨batchSize, true⟩).after (healthy (h ++ [.flush]))) ↔
      ∃ a ∈ h.flatMap ClickHouseStep.accepts, a.HasPorts ∧ a.alertId = i := by
  unfold ids
  rw [table_after_flush, List.mem_map]
  constructor
  · rintro ⟨row, hrow, hi⟩
    obtain ⟨a, ha, hof⟩ := List.mem_filterMap.mp hrow
    exact ⟨a, ha, (ClickHouseRow.exists_ofAlert_iff a i).mp ⟨row, hof, hi⟩⟩
  · rintro ⟨a, ha, hports⟩
    obtain ⟨row, hof, hi⟩ := (ClickHouseRow.exists_ofAlert_iff a i).mpr hports
    exact ⟨row, List.mem_filterMap.mpr ⟨a, ha, hof⟩, hi⟩

end ClickHouseStore

/-- The ids the SQLite store keeps: those of the accepted alerts. -/
theorem AlertStore.mem_ids_after_flush (cfg : StoreConfig) (ord : OrderByTimestamp)
    {h : List Section} (hser : ∀ a ∈ accepted h, a.Serialisable) (hclear : Section.clear ∉ h)
    (i : String) :
    i ∈ (afterHealthy cfg ord (h ++ [.flush])).table.ids ↔ ∃ a ∈ accepted h, a.alertId = i := by
  obtain ⟨hview, hbuf⟩ := view_contents_after cfg ord h hser
  rw [afterHealthy_concat]
  show i ∈ ((afterHealthy cfg ord h).flushLocked .ok).1.table.ids ↔ _
  rw [(contents_flushLocked hbuf).1, AlertTable.mem_ids_iff_view, hview]
  exact PlainStore.isSome_after_iff hclear i

/-- **When the two stores keep the same alerts.** For every list of alerts with
distinct ids and serialisable features that is appended to both stores and flushed
without database errors: the two tables have the same ids if and only if both ports
of every alert are given. -/
theorem ClickHouseStore.stores_agree_iff (cfg : StoreConfig) (ord : OrderByTimestamp)
    (batchSize : ℤ) (as : List AlertRecord) (hids : (as.map AlertRecord.alertId).Nodup)
    (hser : ∀ a ∈ as, a.Serialisable) (h : List Section) (hacc : Sentrix.accepted h = as)
    (hclear : Section.clear ∉ h) (k : List (ClickHouseStep AlertRecord))
    (kacc : k.flatMap ClickHouseStep.accepts = as) :
    (∀ i, i ∈ (AlertStore.afterHealthy cfg ord (h ++ [.flush])).table.ids ↔
      i ∈ ids ((machine ClickHouseRow.ofAlert ⟨batchSize, true⟩).after
        (healthy (k ++ [.flush])))) ↔
      ∀ a ∈ as, a.HasPorts := by
  have hsql : ∀ i, i ∈ (AlertStore.afterHealthy cfg ord (h ++ [.flush])).table.ids ↔
      ∃ a ∈ as, a.alertId = i := by
    intro i
    rw [AlertStore.mem_ids_after_flush cfg ord (by rw [hacc]; exact hser) hclear, hacc]
  simp only [hsql, mem_ids_after_flush, kacc]
  constructor
  · intro hagree a ha
    obtain ⟨b, hb, hports, hid⟩ := (hagree a.alertId).mp ⟨a, ha, rfl⟩
    -- the ids are distinct, so the row under the id of `a` is the row of `a`
    obtain rfl : b = a := List.inj_on_of_nodup_map hids hb ha hid
    exact hports
  · intro hports i
    constructor
    · rintro ⟨a, ha, hid⟩
      exact ⟨a, ha, hports a ha, hid⟩
    · rintro ⟨a, ha, -, hid⟩
      exact ⟨a, ha, hid⟩

/-- One alert with both ports, in both stores. -/
theorem ClickHouseStore.stores_agree_iff_one_alert :
    (AlertRecord.between "A" 0 "10.0.0.1" "10.0.0.2").HasPorts ∧
    ∀ i, i ∈ (AlertStore.afterHealthy ⟨50, false⟩ orderByTimestamp
        ([.append (.between "A" 0 "10.0.0.1" "10.0.0.2")] ++ [.flush])).table.ids ↔
      i ∈ ids ((machine ClickHouseRow.ofAlert ⟨500, true⟩).after (healthy
        ([.append (.between "A" 0 "10.0.0.1" "10.0.0.2")] ++ [.flush]))) := by
  -- both ports are given, so that neither store passes the alert over
  have hports : (AlertRecord.between "A" 0 "10.0.0.1" "10.0.0.2").HasPorts := ⟨rfl, rfl⟩
  refine ⟨hports, (stores_agree_iff ⟨50, false⟩ orderByTimestamp 500
    [.between "A" 0 "10.0.0.1" "10.0.0.2"] (List.nodup_singleton _) ?_ _ rfl (by simp) _
    rfl).mpr ?_⟩
  · intro a ha
    rw [List.mem_singleton.mp ha]
    rfl
  · intro a ha
    rw [List.mem_singleton.mp ha]
    exact hports

/-- An alert about a flow without ports. -/
def portless : AlertRecord :=
  { AlertRecord.between "A" 0 "10.0.0.1" "10.0.0.2" with
    flowId := ⟨"10.0.0.1", "10.0.0.2", none, none, "ICMP"⟩ }

/-- **A skipped alert.** The SQLite store keeps the alert about a flow without
ports, the ClickHouse store does not. -/
theorem ClickHouseStore.portless_alert_skipped :
    (AlertStore.afterHealthy ⟨50, false⟩ orderByTimestamp
      [.append portless, .flush]).table.ids = ["A"] ∧
    ids ((machine ClickHouseRow.ofAlert ⟨500, true⟩).after
      (healthy [.append portless, .flush])) = [] ∧
    ¬ ∀ (cfg : StoreConfig) (ord : OrderByTimestamp) (batchSize : ℤ) (as : List AlertRecord),
      (as.map AlertRecord.alertId).Nodup → (∀ a ∈ as, a.Serialisable) →
      ∀ i, i ∈ (AlertStore.afterHealthy cfg ord
          (as.map Section.append ++ [.flush])).table.ids ↔
        i ∈ ids ((machine ClickHouseRow.ofAlert ⟨batchSize, true⟩).after
          (healthy (as.map ClickHouseStep.append ++ [.flush]))) := by
  have hsql : (AlertStore.afterHealthy ⟨50, false⟩ orderByTimestamp
      [.append portless, .flush]).table.ids = ["A"] := by
    decide +kernel
  have hclick : ids ((machine ClickHouseRow.ofAlert ⟨500, true⟩).after
      (healthy [.append portless, .flush])) = [] := rfl
  refine ⟨hsql, hclick, fun hall => ?_⟩
  have hser : ∀ a ∈ [portless], a.Serialisable := by
    intro a ha
    rw [List.mem_singleton.mp ha]
    rfl
  -- the one store has the alert, and the other one has nothing
  have hagree := (hall ⟨50, false⟩ orderByTimestamp 500 [portless] (List.nodup_singleton _) hser
    "A").mp (by
      show "A" ∈ (AlertStore.afterHealthy _ _ [.append portless, .flush]).table.ids
      rw [hsql]
      exact List.mem_singleton_self _)
  change "A" ∈ ids ((machine _ _).after (healthy [.append portless, .flush])) at hagree
  rw [hclick] at hagree
  exact List.not_mem_nil hagree

end Sentrix
