import Sentrix.Pipeline.LiveAlerts

/-!
# What a live run leaves in the store

The writer appends the alerts to a store that flushes every fifty of them, and flushes what is
left when it ends. On a database that answers, the contents of the store are at any time the
alerts appended (`StoreInv`), so a run that shuts down in order leaves its alerts in the table
(`stored_rows`). The ids differ, and the features of an alert are numbers, so neither the
primary key nor the encoder refuses a row.
-/

namespace Sentrix

namespace Live

open scoped List

variable {env : LiveEnv}

/-- What holds of the store while the database answers: it holds what was appended, and the
buffer is empty once the writer has ended. -/
structure StoreInv (s : LiveState) : Prop where
  contents : s.store.contents = AlertTable.empty.insertMany s.log.appended
  buffered : ∀ a ∈ s.store.writeBuffer, a.Serialisable
  flushed : s.writer = .ended → s.store.writeBuffer = []

/-- A call on a database that answers. -/
theorem append_ok {cfg : StoreConfig} {s : AlertStore} {a : AlertRecord}
    (hbuf : ∀ b ∈ s.writeBuffer, b.Serialisable) (ha : a.Serialisable) :
    (s.append cfg .ok a).1.contents = s.contents.insertOrIgnore a ∧
      ∀ b ∈ (s.append cfg .ok a).1.writeBuffer, b.Serialisable := by
  -- the buffer holds rows the database can take
  have hacc : ∀ b ∈ (s.accept (.append a)).writeBuffer, b.Serialisable := by
    intro b hb
    obtain hb | hb := List.mem_append.mp hb
    · exact hbuf b hb
    · rw [List.mem_singleton.mp hb]
      exact ha
  have hclear : Section.append a ≠ .clear := nofun
  obtain ⟨htable, hbuffer⟩ := AlertStore.step_settled (s := s) cfg orderByTimestamp .ok hclear
  have haccept : (s.accept (.append a)).contents = s.contents.insertOrIgnore a :=
    AlertStore.contents_accept s (.append a)
  show (AlertStore.step cfg orderByTimestamp s (.append a, .ok)).1.contents = _ ∧
    ∀ b ∈ (AlertStore.step cfg orderByTimestamp s (.append a, .ok)).1.writeBuffer, b.Serialisable
  unfold AlertStore.contents
  rw [htable, hbuffer]
  unfold AlertStore.settled
  split
  · -- a full buffer is flushed at once
    rw [AlertStore.flushLocked_ok hacc]
    exact ⟨haccept, List.forall_mem_nil _⟩
  · exact ⟨haccept, hacc⟩

/-- The database answers to the writer. -/
def Answers (_ : LiveState) (i : PipelineStep DbOutcome) : Prop := i ≠ .writer .error

/-- Only the store, the appended alerts and the writer's phase bear on the invariant. -/
theorem StoreInv.of_eq {s s' : LiveState} (h : StoreInv s) (hstore : s'.store = s.store)
    (hlog : s'.log.appended = s.log.appended) (hwriter : s'.writer = s.writer) : StoreInv s' where
  contents := by
    rw [hstore, hlog]
    exact h.contents
  buffered := by
    rw [hstore]
    exact h.buffered
  flushed := by
    rw [hstore, hwriter]
    exact h.flushed

/-- The main thread has no hand in the store. -/
theorem StoreInv.mainMove {s s' : LiveState} {late : Bool} (h : StoreInv s)
    (hmove : Pipeline.MainMove (stages env) s late s') : StoreInv s' := by
  cases hmove with
  | _ => exact h.of_eq rfl rfl rfl

/-- Nor has the worker. -/
theorem StoreInv.workerMove {s s' : LiveState} (h : StoreInv s)
    (hmove : Pipeline.WorkerMove (stages env) s s') : StoreInv s' := by
  cases hmove with
  | _ => exact h.of_eq rfl rfl rfl

/-- An append or a flush that is answered keeps the store at the alerts appended. -/
theorem StoreInv.writerMove {s s' : LiveState} (h : StoreInv s)
    (hser : ∀ a, s.writer = .storing a → a.Serialisable)
    (hmove : Pipeline.WriterMove (stages env) s .ok s') : StoreInv s' := by
  cases hmove with
  | stays => exact h
  | takes a q hwriter hget => exact ⟨h.contents, h.buffered, nofun⟩
  | closes q hwriter hget => exact ⟨h.contents, h.buffered, nofun⟩
  | appends a hwriter writer hto =>
    have hok : (s.store.append (storeConfig env) .ok a).1.contents =
          s.store.contents.insertOrIgnore a ∧
        ∀ b ∈ (s.store.append (storeConfig env) .ok a).1.writeBuffer, b.Serialisable :=
      append_ok h.buffered (hser a hwriter)
    obtain ⟨hcontents, hbuffered⟩ := hok
    refine ⟨?_, hbuffered, fun hended => ?_⟩
    · show (s.store.append (storeConfig env) .ok a).1.contents = _
      rw [hcontents, h.contents, AlertTable.insertMany_append]
      rfl
    · obtain ⟨-, rfl⟩ | ⟨-, rfl⟩ := hto
      · cases hended
      · cases hended
  | flushes hwriter writer hto =>
    -- the last flush empties the buffer into the table
    have hflush : s.store.flushLocked .ok =
        ({ s.store with
          table := s.store.table.insertMany s.store.writeBuffer, writeBuffer := [] }, none) :=
      AlertStore.flushLocked_ok h.buffered
    have hstore : ((stages env).flush s.store .ok).1 =
        { s.store with
          table := s.store.table.insertMany s.store.writeBuffer, writeBuffer := [] } :=
      congrArg Prod.fst hflush
    refine ⟨?_, ?_, fun _ => ?_⟩
    · show ((stages env).flush s.store .ok).1.contents = _
      rw [hstore]
      exact h.contents
    · show ∀ a ∈ ((stages env).flush s.store .ok).1.writeBuffer, _
      rw [hstore]
      exact List.forall_mem_nil _
    · show ((stages env).flush s.store .ok).1.writeBuffer = []
      rw [hstore]

/-- The alerts of a run have the ids that were drawn, in this order, and can be encoded. -/
theorem raised_after (env : LiveEnv) (cfg : PipelineConfig BankPacket) (now : ℚ)
    (h : List (PipelineStep DbOutcome)) :
    let s := (machine env cfg now).after h
    s.log.raised.map AlertRecord.alertId <+ (List.range s.log.evaluated.length).map env.alertId ∧
      ∀ a ∈ s.log.raised, a.Serialisable := by
  intro s
  have hseq : Pipeline.Sequential (stages env) ⟨now, none, .new⟩ ⟨Correlator.empty, 0⟩ s :=
    Pipeline.sequential_after cfg (stages env) _ _ _ h
  have hbench := benchInv_after env s.log.evaluated
  rw [← hseq.raised_eq] at hbench
  exact ⟨hbench.ids, hbench.serialisable⟩

/-- What every run preserves whose database answers. -/
theorem storeInv_after (env : LiveEnv) (cfg : PipelineConfig BankPacket) (now : ℚ)
    (h : List (PipelineStep DbOutcome)) (hanswers : (machine env cfg now).Along Answers h) :
    StoreInv ((machine env cfg now).after h) := by
  refine (machine env cfg now).invariant_along (fun _ s => StoreInv s) ?_ ?_ h hanswers
  · exact ⟨rfl, List.forall_mem_nil _, nofun⟩
  · intro h i hi hinv
    set s := (machine env cfg now).after h
    -- the alert at hand is one of those raised, and these can be stored
    have hser : ∀ a, s.writer = .storing a → a.Serialisable := by
      intro a ha
      have hbooks : Pipeline.AlertBooks s := Pipeline.alertBooks_after cfg (stages env) _ _ _ h
      refine (raised_after env cfg now h).2 a ((hbooks.mem_iff a).mpr (Or.inr (Or.inl ?_)))
      simp [Pipeline.alertsInside, ha, Pipeline.alertTaken]
    cases i with
    | main late => exact hinv.mainMove (Pipeline.mainStep_moves cfg (stages env) s late)
    | worker late => exact hinv.workerMove (Pipeline.workerStep_moves (stages env) s late)
    | writer answer =>
      cases answer with
      | ok => exact hinv.writerMove hser (Pipeline.writerStep_moves (stages env) s .ok)
      | error => exact absurd rfl hi
    | signal => exact hinv.of_eq rfl rfl rfl

/-- Rows with new and distinct ids are all inserted. -/
theorem rows_insertMany {t : AlertTable} {as : List AlertRecord}
    (hnew : ∀ a ∈ as, a.alertId ∉ t.ids) (hnodup : (as.map AlertRecord.alertId).Nodup) :
    (t.insertMany as).rows = t.rows ++ as := by
  induction as generalizing t with
  | nil => exact (List.append_nil _).symm
  | cons a as ih =>
    obtain ⟨hnot, hnodup⟩ := List.nodup_cons.mp hnodup
    -- a new id is inserted at the end
    have hinsert : (t.insertOrIgnore a).rows = t.rows ++ [a] := by
      unfold AlertTable.insertOrIgnore
      rw [dif_neg (hnew a List.mem_cons_self)]
    have hnew' : ∀ b ∈ as, b.alertId ∉ (t.insertOrIgnore a).ids := by
      intro b hb hmem
      rw [AlertTable.mem_ids_insertOrIgnore] at hmem
      obtain hmem | heq := hmem
      · exact hnew b (List.mem_cons_of_mem _ hb) hmem
      · exact hnot (heq ▸ List.mem_map_of_mem hb)
    show ((t.insertOrIgnore a).insertMany as).rows = t.rows ++ a :: as
    rw [ih hnew' hnodup, hinsert, List.append_assoc, List.singleton_append]

/-- **A run that ends in order stores its alerts.** If the database answers, the ids drawn
differ and the main thread waits for the worker then, once the writer has ended, the table
holds the alerts that were raised, in order, but for those given up on a full queue. -/
theorem stored_rows (env : LiveEnv) (cfg : PipelineConfig BankPacket) (now : ℚ)
    (h : List (PipelineStep DbOutcome)) (hids : Function.Injective env.alertId)
    (hanswers : (machine env cfg now).Along Answers h)
    (hwaits : (machine env cfg now).Along (fun s i => ¬ Pipeline.LeavesWorker s i) h)
    (hended : ((machine env cfg now).after h).writer = .ended) :
    let s := (machine env cfg now).after h
    s.store.writeBuffer = [] ∧ s.store.table.rows = s.log.appended ∧
      Balanced s.log.raised s.store.table.rows [] s.log.dropped := by
  intro s
  have hinv : StoreInv s := storeInv_after env cfg now h hanswers
  have hbalanced : Balanced s.log.raised s.log.appended [] s.log.dropped :=
    (Pipeline.appended_of_ended hwaits hended).2
  have hbuffer := hinv.flushed hended
  -- ids are drawn without repetition, so no row is ignored
  have hnodup : (s.log.raised.map AlertRecord.alertId).Nodup :=
    List.Nodup.sublist (raised_after env cfg now h).1 (List.nodup_range.map hids)
  -- every alert appended was raised
  have happended : s.log.appended <+ s.log.raised := by
    rw [← List.append_nil s.log.appended]
    exact hbalanced.order
  have hrows : s.store.table.rows = s.log.appended := by
    have hcontents := hinv.contents
    rw [AlertStore.contents, hbuffer, AlertTable.insertMany_nil] at hcontents
    rw [hcontents, rows_insertMany (fun _ _ => List.not_mem_nil)
      (hnodup.sublist (happended.map _))]
    rfl
  rw [hrows]
  exact ⟨hbuffer, rfl, hbalanced⟩

/-- Whether the writer has ended. -/
def ended : WriterPhase AlertRecord → Bool
  | .ended => true
  | _ => false

theorem eq_ended {writer : WriterPhase AlertRecord} (h : ended writer = true) :
    writer = .ended := by
  cases writer with
  | ended => rfl
  | _ => cases h

/-- UDP behind an IPv4 header of twenty bytes. -/
def udpTransport (b : List UInt8) : Parsers.Transport :=
  if (b.getD 0 0).toNat % 16 = 5 ∧ b.getD 9 0 = 17 ∧ 28 ≤ b.length then
    .udp (Parsers.be16 b 20) (Parsers.be16 b 22) (b.drop 28)
  else .other

/-- Two bytes from port 40000 of `10.0.0.5` to port 4444 of `203.0.113.9`. -/
def datagram : List UInt8 :=
  [0x45, 0, 0, 30, 0, 0, 0, 0, 64, 17, 0, 0] ++ [10, 0, 0, 5] ++ [203, 0, 113, 9] ++
    [0x9C, 0x40, 0x11, 0x5C, 0, 10, 0, 0] ++ [1, 2]

/-- Surroundings in which the exfiltration model takes every vector for an outlier. -/
def alarmEnv : LiveEnv :=
  { quietEnv with
    dpkt := Parsers.headers udpTransport
    models := fun
      | .exfil => some ⟨none, fun _ => -1, fun _ => none⟩
      | _ => none }

/-- A capture of two datagrams that are a second apart. -/
def twoDatagrams : PipelineConfig BankPacket where
  plan := [("exfil.pcap", 2)]
  pcapCache _ := [(0, datagram), (1, datagram)]
  timed := false

/-- The second datagram's seven tasks are evaluated, the alert of one of them is put on its
queue and stored, and the threads stop in order. -/
def storingSteps : List (PipelineStep DbOutcome) :=
  List.replicate 16 (.main false) ++ List.replicate 12 (.worker false) ++
    List.replicate 3 (.main false) ++ [.worker false] ++ List.replicate 2 (.main false) ++
    List.replicate 4 (.writer .ok)

theorem stored_rows_exfil :
    let s := (machine alarmEnv twoDatagrams 100).after storingSteps
    s.log.raised.map AlertRecord.detector = ["exfil"] ∧ s.store.writeBuffer = [] ∧
      s.store.table.rows.map AlertRecord.detector = ["exfil"] ∧
      Balanced s.log.raised s.store.table.rows [] s.log.dropped := by
  have hsteps : ∀ i ∈ storingSteps, i ≠ .writer .error ∧ i ≠ .main true := by decide
  have hmem : ∀ {h₁ h₂ : List (PipelineStep DbOutcome)} {i : PipelineStep DbOutcome},
      storingSteps = h₁ ++ i :: h₂ → i ∈ storingSteps := by
    intro h₁ h₂ i heq
    rw [heq]
    exact List.mem_append_right _ List.mem_cons_self
  have hanswers : (machine alarmEnv twoDatagrams 100).Along Answers storingSteps :=
    (Machine.along_iff _ _).mpr fun _ i _ heq => (hsteps i (hmem heq)).1
  have hwaits : (machine alarmEnv twoDatagrams 100).Along
      (fun s i => ¬ Pipeline.LeavesWorker s i) storingSteps :=
    (Machine.along_iff _ _).mpr fun _ i _ heq hleaves => (hsteps i (hmem heq)).2 hleaves.1
  -- the ids of the run are distinct by their lengths
  have hids : Function.Injective alarmEnv.alertId := by
    intro m n heq
    have hlength := congrArg List.length (String.ofList_injective heq)
    rwa [List.length_replicate, List.length_replicate] at hlength
  have hended : ((machine alarmEnv twoDatagrams 100).after storingSteps).writer = .ended :=
    eq_ended (by decide +kernel)
  obtain ⟨hbuffer, -, hbalanced⟩ :=
    stored_rows alarmEnv twoDatagrams 100 storingSteps hids hanswers hwaits hended
  exact ⟨by decide +kernel, hbuffer, by decide +kernel, hbalanced⟩

end Live

end Sentrix
