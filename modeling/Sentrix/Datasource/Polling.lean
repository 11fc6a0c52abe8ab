import Sentrix.Dashboard.DatasetStream
import Sentrix.Dashboard.StoreStream

/-!
# Polling a data source

The interface of `datasource/base.py` promises to a consumer that polls
`read_alerts(since_ts)` the "new alert dicts with timestamp > since_ts". A consumer
that always passes the largest timestamp it was returned so far should then get every
alert once. The contract is stated for any source (`Honours`): what a poll returns is
newer than its bound, and the alerts the source accepted are, each once, those returned
and those that a later poll can still return.

The two implementations take opposite ways and both fail on a timestamp that comes
again. `SimulatedSource` of `datasource/simulated.py` reads the alert store, whose
bound is inclusive: the newest alert that was returned is returned again by every
later poll. `DatasetReplaySource` empties its queue and drops what is not strictly
newer than the bound: a record with the timestamp of the newest returned one is taken
out and lost. What decides is whether a poll finds an alert at its bound
(`polling_contract_iff`).
-/

namespace Sentrix

/-! ### The largest timestamp so far -/

/-- The largest of `since` and the timestamps. -/
def largest (since : ℚ) (timestamps : List ℚ) : ℚ := timestamps.foldl max since

theorem largest_append (since : ℚ) (ts us : List ℚ) :
    largest since (ts ++ us) = largest (largest since ts) us :=
  List.foldl_append

theorem le_largest (since : ℚ) (ts : List ℚ) : since ≤ largest since ts := by
  induction ts generalizing since with
  | nil => exact le_rfl
  | cons t ts ih => exact (le_max_left since t).trans (ih (max since t))

/-- No time is above the largest. -/
theorem le_largest_of_mem {since t : ℚ} {ts : List ℚ} (ht : t ∈ ts) : t ≤ largest since ts := by
  induction ts generalizing since with
  | nil => exact absurd ht List.not_mem_nil
  | cons u ts ih =>
    obtain rfl | ht := List.mem_cons.mp ht
    · exact (le_max_right since t).trans (le_largest _ ts)
    · exact ih ht

/-- The largest timestamp is one of them, or nothing exceeds the start. -/
theorem largest_eq_or_mem (since : ℚ) (ts : List ℚ) :
    largest since ts = since ∨ largest since ts ∈ ts := by
  induction ts generalizing since with
  | nil => exact Or.inl rfl
  | cons t ts ih =>
    obtain heq | hmem := ih (max since t)
    · obtain hmax | hmax := max_choice since t
      · exact Or.inl (heq.trans hmax)
      · exact Or.inr (List.mem_cons.mpr (Or.inl (heq.trans hmax)))
    · exact Or.inr (List.mem_cons_of_mem _ hmem)

/-! ### Sources and their consumer -/

/-- A `DataSource`, as far as alerts go, with states `σ`: what it does with a produced
record `ρ`, and the alerts `α` that `read_alerts` returns, with what the environment
decides for this call. -/
structure DataSource (σ ρ α ε : Type) where
  init : σ
  produce : σ → ρ → σ
  readAlerts : σ → ε → ℚ → σ × List α
  /-- The record an alert is made from. -/
  record : α → ρ
  timestamp : ρ → ℚ

namespace Polling

variable {σ ρ α ε : Type}

/-- A step of the producer or of the consumer. -/
inductive Event (ρ ε : Type)
  | produce (r : ρ)
  | poll (e : ε)

/-- The source, the bound of the next poll, and the alerts returned so far. -/
structure State (σ α : Type) where
  source : σ
  sinceTs : ℚ
  returned : List α

variable (D : DataSource σ ρ α ε)

/-- The timestamp of an alert. -/
def alertTime (a : α) : ℚ := D.timestamp (D.record a)

/-- One step, with the alerts it returns. -/
def step (s : State σ α) : Event ρ ε → State σ α × List α
  | .produce r => ({ s with source := D.produce s.source r }, [])
  | .poll e =>
    let r := D.readAlerts s.source e s.sinceTs
    (⟨r.1, largest s.sinceTs (r.2.map (alertTime D)), s.returned ++ r.2⟩, r.2)

/-- A source and its consumer as a machine. -/
def machine (startTs : ℚ) : Machine (State σ α) (Event ρ ε) (List α) where
  init := ⟨D.init, startTs, []⟩
  step := step D

/-- The records produced in a run. -/
def produced : List (Event ρ ε) → List ρ
  | [] => []
  | .produce r :: h => r :: produced h
  | .poll _ :: h => produced h

/-- Records are produced with nondecreasing timestamps, newer than the first bound. -/
structure Ordered (startTs : ℚ) (h : List (Event ρ ε)) : Prop where
  sorted : (produced h).Pairwise fun a b => D.timestamp a ≤ D.timestamp b
  newer : ∀ r ∈ produced h, startTs < D.timestamp r

/-- **The polling contract** of a run, for a source that has accepted some records, some
of which wait for a later poll: polls return newer alerts only, and the accepted records
are, each once, those returned and those that wait. -/
structure Honours (accepted waiting : State σ α → List ρ) (startTs : ℚ)
    (h : List (Event ρ ε)) : Prop where
  newer : (machine D startTs).Along
    (fun s x => ∀ a ∈ (step D s x).2, s.sinceTs < alertTime D a) h
  account : (accepted ((machine D startTs).after h)).Perm
    (((machine D startTs).after h).returned.map D.record ++
      waiting ((machine D startTs).after h))

variable {D}

theorem produced_append (h k : List (Event ρ ε)) :
    produced (h ++ k) = produced h ++ produced k := by
  induction h with
  | nil => rfl
  | cons x h ih =>
    cases x with
    | produce r => exact congrArg (r :: ·) ih
    | poll e => exact ih

theorem Ordered.of_concat {startTs : ℚ} {h : List (Event ρ ε)} {x : Event ρ ε}
    (hord : Ordered D startTs (h ++ [x])) : Ordered D startTs h := by
  obtain ⟨hsorted, hnewer⟩ := hord
  rw [produced_append] at hsorted hnewer
  exact ⟨hsorted.sublist (List.sublist_append_left _ _),
    fun r hr => hnewer r (List.mem_append_left _ hr)⟩

/-- A record produced now is not older than any before. -/
theorem Ordered.le_of_mem {startTs : ℚ} {h : List (Event ρ ε)} {r r' : ρ}
    (hord : Ordered D startTs (h ++ [.produce r])) (hr' : r' ∈ produced h) :
    D.timestamp r' ≤ D.timestamp r := by
  have hsorted := hord.sorted
  rw [produced_append] at hsorted
  exact (List.pairwise_append.mp hsorted).2.2 r' hr' r (List.mem_singleton_self r)

/-- The bound is the largest timestamp returned so far. -/
theorem sinceTs_after (startTs : ℚ) (h : List (Event ρ ε)) :
    ((machine D startTs).after h).sinceTs =
      largest startTs (((machine D startTs).after h).returned.map (alertTime D)) := by
  refine (machine D startTs).invariant
    (fun _ s => s.sinceTs = largest startTs (s.returned.map (alertTime D))) rfl
    (fun h x hsince => ?_) h
  cases x with
  | produce r => exact hsince
  | poll e =>
    show largest _ _ = largest startTs (List.map _ (_ ++ _))
    rw [List.map_append, largest_append, ← hsince]

/-- The bound is that of an alert that was returned, or nothing was returned above the
first bound. -/
theorem sinceTs_cases (startTs : ℚ) (h : List (Event ρ ε)) :
    ((machine D startTs).after h).sinceTs = startTs ∨
      ∃ a ∈ ((machine D startTs).after h).returned,
        alertTime D a = ((machine D startTs).after h).sinceTs := by
  rw [sinceTs_after]
  refine (largest_eq_or_mem _ _).imp_right fun hmem => ?_
  exact List.mem_map.mp hmem

end Polling

/-! ### The simulated source -/

namespace SimulatedSource

open Polling

/-- `SimulatedSource.read_alerts`: a new store over the same file reads it, with the
order the database gives to equal timestamps; any exception is an empty answer. -/
def readAlerts (t : AlertTable) (answer : Option OrderByTimestamp) (sinceTs : ℚ) :
    List AlertRecord :=
  match answer with
  | none => []
  | some ord =>
    match (AlertStore.readAlerts ord .ok ⟨t, [], []⟩ ⟨some sinceTs, none, none, none⟩).2 with
    | .ok alerts => alerts
    | .error _ => []

/-- The source over the table that the replay process writes. A poll fails (`none`) or
is answered. -/
def source : DataSource AlertTable AlertRecord AlertRecord (Option OrderByTimestamp) where
  init := AlertTable.empty
  produce t a := t.insertOrIgnore a
  readAlerts t answer sinceTs := (t, readAlerts t answer sinceTs)
  record := id
  timestamp := AlertRecord.timestamp

/-- The stored alerts. -/
def accepted (s : State AlertTable AlertRecord) : List AlertRecord := s.source.rows

/-- The stored alerts that were not returned and that a later poll reads. -/
def waiting (s : State AlertTable AlertRecord) : List AlertRecord :=
  s.source.rows.filter fun a =>
    decide (a.alertId ∉ s.returned.map AlertRecord.alertId ∧ s.sinceTs ≤ a.timestamp)

/-- An answered poll is made before anything was returned. -/
def FirstRead (s : State AlertTable AlertRecord) :
    Event AlertRecord (Option OrderByTimestamp) → Prop
  | .produce _ => True
  | .poll none => True
  | .poll (some _) => s.returned = []

theorem readAlerts_some (t : AlertTable) (ord : OrderByTimestamp) (sinceTs : ℚ) :
    readAlerts t (some ord) sinceTs = StoreStream.recentAlerts ord t sinceTs := rfl

/-- What holds after an ordered history. -/
structure SimulatedInv (h : List (Event AlertRecord (Option OrderByTimestamp)))
    (s : State AlertTable AlertRecord) : Prop where
  stored : ∀ a ∈ s.source.rows, a ∈ produced h
  read : ∀ a ∈ s.returned, a ∈ s.source.rows
  /-- Nothing that was not returned is below the bound. -/
  kept : ∀ a ∈ s.source.rows, a ∈ s.returned ∨ s.sinceTs ≤ a.timestamp

variable {startTs : ℚ} {h : List (Event AlertRecord (Option OrderByTimestamp))}

/-- A produced alert waits in the table. -/
theorem SimulatedInv.produce {a : AlertRecord}
    (hinv : SimulatedInv h ((machine source startTs).after h))
    (hord : Ordered source startTs (h ++ [.produce a])) :
    SimulatedInv (h ++ [.produce a])
      ((machine source startTs).after (h ++ [.produce a])) := by
  rw [Machine.after_concat]
  set s := (machine source startTs).after h with hs
  have hnew : a ∈ produced (h ++ [Event.produce (ε := Option OrderByTimestamp) a]) := by
    rw [produced_append]
    exact List.mem_append_right _ (List.mem_singleton_self a)
  refine ⟨fun b hb => ?_, fun b hb => ?_, fun b hb => ?_⟩
  · obtain hb | rfl := StoreStream.mem_insertOrIgnore hb
    · rw [produced_append]
      exact List.mem_append_left _ (hinv.stored b hb)
    · exact hnew
  · exact StoreStream.mem_insertOrIgnore_of_mem (hinv.read b hb)
  · obtain hb | rfl := StoreStream.mem_insertOrIgnore hb
    · exact hinv.kept b hb
    -- the new alert is not older than the one the bound comes from
    · refine Or.inr ?_
      show s.sinceTs ≤ b.timestamp
      obtain hstart | ⟨c, hc, hbound⟩ := sinceTs_cases (D := source) startTs h
      · rw [hs, hstart]
        exact (hord.newer b hnew).le
      · rw [hs, ← hbound]
        exact hord.le_of_mem (hinv.stored c (hinv.read c hc))

/-- A poll returns what is at the cursor or later, and moves the cursor there. -/
theorem SimulatedInv.poll {answer : Option OrderByTimestamp}
    (hinv : SimulatedInv h ((machine source startTs).after h)) :
    SimulatedInv (h ++ [.poll answer])
      ((machine source startTs).after (h ++ [.poll answer])) := by
  have hproduced : produced (h ++ [Event.poll answer]) = produced h := by
    rw [produced_append]
    exact List.append_nil _
  rw [Machine.after_concat]
  set s := (machine source startTs).after h
  cases answer with
  | none =>
    have hsame : (machine source startTs).next s (.poll none) = s := by
      show (⟨s.source, s.sinceTs, s.returned ++ []⟩ : State AlertTable AlertRecord) = s
      rw [List.append_nil]
    rw [hsame]
    exact ⟨fun a ha => hproduced ▸ hinv.stored a ha, hinv.read, hinv.kept⟩
  | some ord =>
    refine ⟨fun a ha => hproduced ▸ hinv.stored a ha, fun a ha => ?_, fun a ha => Or.inl ?_⟩
    · obtain ha | ha := List.mem_append.mp ha
      · exact hinv.read a ha
      · exact (StoreStream.mem_recentAlerts.mp ha).1
    -- what was not returned before is at the bound or above it, and is returned now
    · obtain hold | hbound := hinv.kept a ha
      · exact List.mem_append_left _ hold
      · exact List.mem_append_right _ (StoreStream.mem_recentAlerts.mpr ⟨ha, hbound⟩)

/-- What every ordered run preserves. -/
theorem simulatedInv_after (hord : Ordered source startTs h) :
    SimulatedInv h ((machine source startTs).after h) := by
  induction h using List.reverseRecOn with
  | nil =>
    exact ⟨fun a ha => absurd ha List.not_mem_nil, fun a ha => absurd ha List.not_mem_nil,
      fun a ha => absurd ha List.not_mem_nil⟩
  | append_singleton h x ih =>
    have hinv := ih hord.of_concat
    cases x with
    | produce a => exact hinv.produce hord
    | poll answer => exact hinv.poll

/-- A step returns newer alerts only if it is the first read: once an alert was
returned, the one at the bound is read again. -/
theorem newer_iff (hord : Ordered source startTs h)
    (x : Event AlertRecord (Option OrderByTimestamp)) :
    (∀ a ∈ (step source ((machine source startTs).after h) x).2,
      ((machine source startTs).after h).sinceTs < alertTime source a) ↔
      FirstRead ((machine source startTs).after h) x := by
  have hinv := simulatedInv_after hord
  set s := (machine source startTs).after h with hs
  cases x with
  | produce a => exact iff_of_true (fun b hb => absurd hb List.not_mem_nil) trivial
  | poll answer =>
    cases answer with
    | none => exact iff_of_true (fun b hb => absurd hb List.not_mem_nil) trivial
    | some ord =>
      show (∀ a ∈ readAlerts s.source (some ord) s.sinceTs, s.sinceTs < a.timestamp) ↔
        s.returned = []
      rw [readAlerts_some]
      constructor
      · intro hnewer
        by_contra hne
        obtain ⟨b, hb⟩ := List.exists_mem_of_ne_nil _ hne
        -- something was returned, so the bound is the time of a stored alert
        obtain ⟨a, ha, hbound⟩ : ∃ a ∈ s.source.rows, a.timestamp = s.sinceTs := by
          obtain hstart | ⟨a, ha, hbound⟩ := sinceTs_cases (D := source) startTs h
          · have hle : b.timestamp ≤ s.sinceTs := by
              rw [hs, sinceTs_after]
              exact le_largest_of_mem (List.mem_map_of_mem (f := alertTime source) hb)
            have hlt := hord.newer b (hinv.stored b (hinv.read b hb))
            rw [hs, hstart] at hle
            exact absurd hle (not_le.mpr hlt)
          · exact ⟨a, hinv.read a ha, hbound⟩
        have hlt := hnewer a (StoreStream.mem_recentAlerts.mpr ⟨ha, hbound.ge⟩)
        exact absurd hbound hlt.ne'
      · intro hnone a ha
        have hstart : s.sinceTs = startTs := by
          rw [hs, sinceTs_after, ← hs, hnone]
          rfl
        rw [hstart]
        exact hord.newer a (hinv.stored a (StoreStream.mem_recentAlerts.mp ha).1)

/-- Only the first read returns alerts that are all newer than the cursor. -/
theorem along_newer_iff (hord : Ordered source startTs h) :
    (machine source startTs).Along
        (fun s x => ∀ a ∈ (step source s x).2, s.sinceTs < alertTime source a) h ↔
      (machine source startTs).Along FirstRead h := by
  induction h using List.reverseRecOn with
  | nil => exact Iff.rfl
  | append_singleton h x ih =>
    rw [Machine.along_concat, Machine.along_concat, ih hord.of_concat,
      newer_iff hord.of_concat x]

/-- As long as only the first read is answered, nothing is returned twice. -/
theorem nodup_returned (hfirst : (machine source startTs).Along FirstRead h) :
    (((machine source startTs).after h).returned.map AlertRecord.alertId).Nodup := by
  refine (machine source startTs).invariant_along
    (fun _ s => (s.returned.map AlertRecord.alertId).Nodup) List.nodup_nil (fun h x hx hnodup => ?_)
    h hfirst
  cases x with
  | produce a => exact hnodup
  | poll answer =>
    cases answer with
    | none =>
      show (List.map _ (_ ++ [])).Nodup
      rw [List.append_nil]
      exact hnodup
    | some ord =>
      show (List.map _ (_ ++ StoreStream.recentAlerts ord _ _)).Nodup
      -- before the one read nothing was returned
      have hnone : ((machine source startTs).after h).returned = [] := hx
      rw [hnone, List.nil_append]
      exact StoreStream.nodup_recentAlerts ord _ _

/-- **When the simulated source honours the contract.** -/
theorem honours_iff (hord : Ordered source startTs h) :
    Honours source accepted waiting startTs h ↔ (machine source startTs).Along FirstRead h := by
  constructor
  · intro hon
    exact (along_newer_iff hord).mp hon.newer
  · intro hfirst
    refine ⟨(along_newer_iff hord).mpr hfirst, ?_⟩
    have hinv := simulatedInv_after hord
    have hnodup := nodup_returned hfirst
    set s := (machine source startTs).after h
    have hrows : s.source.rows.Nodup := List.Nodup.of_map _ s.source.primaryKey
    -- with distinct ids, a stored alert was returned if its id was
    have hid : ∀ a ∈ s.source.rows, a.alertId ∈ s.returned.map AlertRecord.alertId ↔
        a ∈ s.returned := by
      intro a ha
      refine ⟨fun hmem => ?_, fun hmem => List.mem_map_of_mem hmem⟩
      obtain ⟨b, hb, heq⟩ := List.mem_map.mp hmem
      obtain rfl := List.inj_on_of_nodup_map s.source.primaryKey (hinv.read b hb) ha heq
      exact hb
    have hread : (s.source.rows.filter fun a =>
        decide (a.alertId ∈ s.returned.map AlertRecord.alertId)).Perm s.returned := by
      rw [List.perm_ext_iff_of_nodup (hrows.filter _) (List.Nodup.of_map _ hnodup)]
      intro a
      rw [List.mem_filter, decide_eq_true_eq]
      constructor
      · rintro ⟨ha, hmem⟩
        exact (hid a ha).mp hmem
      · intro ha
        exact ⟨hinv.read a ha, List.mem_map_of_mem ha⟩
    have hwait : waiting s = s.source.rows.filter fun a =>
        !decide (a.alertId ∈ s.returned.map AlertRecord.alertId) := by
      refine List.filter_congr fun a ha => ?_
      by_cases hmem : a.alertId ∈ s.returned.map AlertRecord.alertId
      · simp [hmem]
      · have hbound : s.sinceTs ≤ a.timestamp :=
          (hinv.kept a ha).resolve_left fun hret => hmem ((hid a ha).mpr hret)
        simp [hmem, hbound]
    show s.source.rows.Perm (s.returned.map id ++ waiting s)
    rw [List.map_id, hwait]
    exact (List.filter_append_perm _ _).symm.trans (hread.append_right _)

end SimulatedSource

/-! ### The dataset source -/

namespace DatasetSource

open Polling DatasetStream

/-- The queue and the number of alert ids drawn, with the records that found room in
the queue so far. -/
structure Queue where
  alertQueue : List FlowRecord
  drawn : ℕ
  enqueued : List FlowRecord

/-- The source over the queue that the replay thread fills. -/
def source (cfg : Config) : DataSource Queue FlowRecord AlertDict Unit where
  init := ⟨[], 0, []⟩
  produce q r :=
    -- `queue.Full` is ignored
    if HasRoom cfg q.alertQueue then
      { q with alertQueue := q.alertQueue ++ [r], enqueued := q.enqueued ++ [r] }
    else q
  readAlerts q _ sinceTs :=
    let read := readAlerts cfg sinceTs q.drawn q.alertQueue
    (⟨[], read.2, q.enqueued⟩, read.1)
  record := AlertDict.record
  timestamp := FlowRecord.timestamp

/-- The record is not benign. -/
def Malicious (cfg : Config) (r : FlowRecord) : Prop := cfg.upper r.attackFamily ≠ "BENIGN"

instance (cfg : Config) (r : FlowRecord) : Decidable (Malicious cfg r) :=
  inferInstanceAs (Decidable (_ ≠ _))

/-- The records that are not benign. -/
def malicious (cfg : Config) (l : List FlowRecord) : List FlowRecord :=
  l.filter fun r => decide (Malicious cfg r)

/-- The records that were enqueued and are not benign. -/
def accepted (cfg : Config) (s : State Queue AlertDict) : List FlowRecord :=
  malicious cfg s.source.enqueued

/-- Those that are in the queue. -/
def waiting (cfg : Config) (s : State Queue AlertDict) : List FlowRecord :=
  malicious cfg s.source.alertQueue

/-- A poll finds no record at its bound that is not benign. -/
def NoTie (cfg : Config) (s : State Queue AlertDict) : Event FlowRecord Unit → Prop
  | .produce _ => True
  | .poll _ => ∀ r ∈ s.source.alertQueue, Malicious cfg r → r.timestamp ≠ s.sinceTs

instance (cfg : Config) (s : State Queue AlertDict) : ∀ x, Decidable (NoTie cfg s x)
  | .produce _ => isTrue trivial
  | .poll _ => inferInstanceAs
      (Decidable (∀ r ∈ s.source.alertQueue, Malicious cfg r → r.timestamp ≠ s.sinceTs))

variable {cfg : Config} {h : List (Event FlowRecord Unit)}

/-- The alerts read are made of the records that pass. -/
theorem map_record_readAlerts (sinceTs : ℚ) (drawn : ℕ) (queue : List FlowRecord) :
    (readAlerts cfg sinceTs drawn queue).1.map AlertDict.record =
      queue.filter fun r => decide (Passes cfg sinceTs r) := by
  induction queue generalizing drawn with
  | nil => rfl
  | cons r queue ih =>
    unfold readAlerts
    rw [List.filter_cons]
    by_cases hpass : Passes cfg sinceTs r
    · rw [if_pos hpass, if_pos (decide_eq_true hpass), List.map_cons, ih]
    · rw [if_neg hpass, if_neg (by rw [decide_eq_true_eq]; exact hpass), ih]

/-- What holds after an ordered history: the queue is what was enqueued last, and the
bound is the first one or the time of a record that has left the queue. -/
structure DatasetInv (cfg : Config) (h : List (Event FlowRecord Unit))
    (s : State Queue AlertDict) : Prop where
  enqueued : s.source.enqueued.Sublist (produced h)
  bound : ∃ taken, s.source.enqueued = taken ++ s.source.alertQueue ∧
    (s.sinceTs = cfg.startTs ∨ ∃ r ∈ taken, r.timestamp = s.sinceTs)

/-- A record that is produced is put at the end of the queue, if there is room. -/
theorem produce_cases (cfg : Config) (q : Queue) (r : FlowRecord) :
    (HasRoom cfg q.alertQueue ∧ (source cfg).produce q r =
      { q with alertQueue := q.alertQueue ++ [r], enqueued := q.enqueued ++ [r] }) ∨
    (¬ HasRoom cfg q.alertQueue ∧ (source cfg).produce q r = q) := by
  by_cases hroom : HasRoom cfg q.alertQueue
  · exact Or.inl ⟨hroom, if_pos hroom⟩
  · exact Or.inr ⟨hroom, if_neg hroom⟩

theorem next_produce (cfg : Config) (s : State Queue AlertDict) (r : FlowRecord) :
    (machine (source cfg) cfg.startTs).next s (.produce r) =
      { s with source := (source cfg).produce s.source r } := rfl

/-- A produced record waits, or is refused by a full queue. -/
theorem DatasetInv.produce {s : State Queue AlertDict} (hinv : DatasetInv cfg h s)
    (r : FlowRecord) : DatasetInv cfg (h ++ [.produce r])
      ((machine (source cfg) cfg.startTs).next s (.produce r)) := by
  obtain ⟨hsub, taken, hsplit, hbound⟩ := hinv
  have hproduced : produced (h ++ [Event.produce (ε := Unit) r]) = produced h ++ [r] :=
    produced_append h [.produce r]
  rw [next_produce]
  obtain ⟨-, hput⟩ | ⟨-, hfull⟩ := produce_cases cfg s.source r
  · rw [hput]
    refine ⟨?_, taken, ?_, hbound⟩
    · rw [hproduced]
      exact hsub.append_right [r]
    · show s.source.enqueued ++ [r] = taken ++ (s.source.alertQueue ++ [r])
      rw [hsplit, List.append_assoc]
  · -- a full queue refuses the record: it is produced, but not enqueued
    rw [hfull]
    refine ⟨?_, taken, hsplit, hbound⟩
    rw [hproduced]
    exact hsub.trans (List.sublist_append_left _ _)

/-- A poll takes all that waits. -/
theorem DatasetInv.poll {s : State Queue AlertDict} (hinv : DatasetInv cfg h s) (e : Unit) :
    DatasetInv cfg (h ++ [.poll e]) ((machine (source cfg) cfg.startTs).next s (.poll e)) := by
  obtain ⟨hsub, taken, hsplit, hbound⟩ := hinv
  have hproduced : produced (h ++ [Event.poll e]) = produced h := by
    rw [produced_append]
    exact List.append_nil _
  refine ⟨hproduced.symm ▸ hsub, s.source.enqueued, (List.append_nil _).symm, ?_⟩
  set times := (readAlerts cfg s.sinceTs s.source.drawn s.source.alertQueue).1.map
    (alertTime (source cfg)) with htimes
  show largest s.sinceTs times = cfg.startTs ∨
    ∃ r ∈ s.source.enqueued, r.timestamp = largest s.sinceTs times
  obtain hsame | hmem := largest_eq_or_mem s.sinceTs times
  · rw [hsame]
    refine hbound.imp_right fun ⟨r, hr, heq⟩ => ⟨r, ?_, heq⟩
    rw [hsplit]
    exact List.mem_append_left _ hr
  -- the bound moves to a record that is taken out now
  · obtain ⟨a, ha, heq⟩ := List.mem_map.mp hmem
    refine Or.inr ⟨a.record, ?_, heq⟩
    have hrecord := List.mem_map_of_mem (f := AlertDict.record) ha
    rw [map_record_readAlerts] at hrecord
    rw [hsplit]
    exact List.mem_append_right _ (List.mem_filter.mp hrecord).1

/-- What every run preserves. -/
theorem datasetInv_after (cfg : Config) (h : List (Event FlowRecord Unit)) :
    DatasetInv cfg h ((machine (source cfg) cfg.startTs).after h) := by
  refine (machine (source cfg) cfg.startTs).invariant (DatasetInv cfg)
    ⟨List.Sublist.refl _, [], rfl, Or.inl rfl⟩ (fun h x hinv => ?_) h
  cases x with
  | produce r => exact hinv.produce r
  | poll e => exact hinv.poll e

/-- Nothing in the queue is older than the bound. -/
theorem sinceTs_le_of_mem (hord : Ordered (source cfg) cfg.startTs h) {r : FlowRecord}
    (hr : r ∈ ((machine (source cfg) cfg.startTs).after h).source.alertQueue) :
    ((machine (source cfg) cfg.startTs).after h).sinceTs ≤ r.timestamp := by
  obtain ⟨hsub, taken, hsplit, hbound⟩ := datasetInv_after cfg h
  have hsorted := hord.sorted.sublist hsub
  rw [hsplit, List.pairwise_append] at hsorted
  obtain hstart | ⟨r', hr', heq⟩ := hbound
  · rw [hstart]
    refine (hord.newer r (hsub.subset ?_)).le
    rw [hsplit]
    exact List.mem_append_right _ hr
  · -- the cursor is at a record that was taken before the one waiting
    rw [← heq]
    exact hsorted.2.2 r' hr' r hr

/-- A poll returns all that is not benign if and only if nothing is at its bound. -/
theorem passes_all_iff (hord : Ordered (source cfg) cfg.startTs h) (e : Unit) :
    (((machine (source cfg) cfg.startTs).after h).source.alertQueue.filter fun r =>
        decide (Passes cfg ((machine (source cfg) cfg.startTs).after h).sinceTs r)) =
      waiting cfg ((machine (source cfg) cfg.startTs).after h) ↔
      NoTie cfg ((machine (source cfg) cfg.startTs).after h) (.poll e) := by
  set s := (machine (source cfg) cfg.startTs).after h with hs
  constructor
  · -- a waiting record at the cursor does not pass the strict comparison
    intro heq r hr hmal htie
    have hmem : r ∈ waiting cfg s := List.mem_filter.mpr ⟨hr, decide_eq_true hmal⟩
    rw [← heq, List.mem_filter, decide_eq_true_eq] at hmem
    exact absurd htie hmem.2.1.ne'
  · intro hno
    refine List.filter_congr fun r hr => ?_
    rw [decide_eq_decide]
    refine ⟨fun hpass => hpass.2, fun hmal => ⟨?_, hmal⟩⟩
    exact lt_of_le_of_ne (sinceTs_le_of_mem hord hr) (hno r hr hmal).symm

/-- A poll returns no record twice, and none that is not newer than its bound. -/
theorem along_newer (cfg : Config) (h : List (Event FlowRecord Unit)) :
    (machine (source cfg) cfg.startTs).Along
      (fun s x => ∀ a ∈ (step (source cfg) s x).2, s.sinceTs < alertTime (source cfg) a) h := by
  induction h using List.reverseRecOn with
  | nil => trivial
  | append_singleton h x ih =>
    refine (Machine.along_concat _ h x).mpr ⟨ih, ?_⟩
    cases x with
    | produce r => exact fun a ha => absurd ha List.not_mem_nil
    | poll e =>
      intro a ha
      have hrecord := List.mem_map_of_mem (f := AlertDict.record) ha
      change a.record ∈ (readAlerts cfg _ _ _).1.map AlertDict.record at hrecord
      rw [map_record_readAlerts, List.mem_filter, decide_eq_true_eq] at hrecord
      exact hrecord.2.1

/-- The records that are not benign and were returned, or wait. -/
def accounted (cfg : Config) (s : State Queue AlertDict) : List FlowRecord :=
  s.returned.map AlertDict.record ++ waiting cfg s

/-- A produced record is added to both sides of the account, or to none. -/
theorem account_produce (cfg : Config) (s : State Queue AlertDict) (r : FlowRecord) :
    ∃ more, accepted cfg ((machine (source cfg) cfg.startTs).next s (.produce r)) =
        accepted cfg s ++ more ∧
      accounted cfg ((machine (source cfg) cfg.startTs).next s (.produce r)) =
        accounted cfg s ++ more := by
  rw [next_produce]
  obtain ⟨-, hput⟩ | ⟨-, hfull⟩ := produce_cases cfg s.source r
  · -- a record that is put is accepted and waits
    rw [hput]
    refine ⟨malicious cfg [r], List.filter_append _ _, ?_⟩
    show _ ++ malicious cfg (_ ++ [r]) = (_ ++ malicious cfg _) ++ malicious cfg [r]
    unfold malicious
    rw [List.filter_append, List.append_assoc]
  · rw [hfull]
    exact ⟨[], (List.append_nil _).symm, (List.append_nil _).symm⟩

/-- After a poll, what was returned before and what passes its test are accounted for. -/
theorem accounted_poll (s : State Queue AlertDict) (e : Unit) :
    accounted cfg ((machine (source cfg) cfg.startTs).next s (.poll e)) =
      s.returned.map AlertDict.record ++
        s.source.alertQueue.filter fun r => decide (Passes cfg s.sinceTs r) := by
  show List.map _ (_ ++ (readAlerts cfg _ _ _).1) ++ [] = _
  rw [List.append_nil, List.map_append, map_record_readAlerts]

/-- **The account.** No more is accounted for than was enqueued; as much only if no poll
has found a record at its bound, and then it is the same. -/
theorem account_after (hord : Ordered (source cfg) cfg.startTs h) :
    (accounted cfg ((machine (source cfg) cfg.startTs).after h)).length ≤
        (accepted cfg ((machine (source cfg) cfg.startTs).after h)).length ∧
      ((accounted cfg ((machine (source cfg) cfg.startTs).after h)).length =
          (accepted cfg ((machine (source cfg) cfg.startTs).after h)).length →
        (machine (source cfg) cfg.startTs).Along (NoTie cfg) h) ∧
      ((machine (source cfg) cfg.startTs).Along (NoTie cfg) h →
        accepted cfg ((machine (source cfg) cfg.startTs).after h) =
          accounted cfg ((machine (source cfg) cfg.startTs).after h)) := by
  induction h using List.reverseRecOn with
  | nil => exact ⟨le_rfl, fun _ => trivial, fun _ => rfl⟩
  | append_singleton h x ih =>
    obtain ⟨hle, hlen, heq⟩ := ih hord.of_concat
    rw [Machine.along_concat, Machine.after_concat]
    cases x with
    | produce r =>
      obtain ⟨more, haccepted, haccounted⟩ :=
        account_produce cfg ((machine (source cfg) cfg.startTs).after h) r
      rw [haccepted, haccounted, List.length_append, List.length_append]
      refine ⟨Nat.add_le_add_right hle _, fun hsum => ⟨hlen (Nat.add_right_cancel hsum), trivial⟩,
        fun halong => ?_⟩
      rw [heq halong.1]
    | poll e =>
      have hall := passes_all_iff hord.of_concat e
      rw [accounted_poll, List.length_append]
      set s := (machine (source cfg) cfg.startTs).after h
      set read := s.source.alertQueue.filter fun r => decide (Passes cfg s.sinceTs r)
      have haccepted : accepted cfg ((machine (source cfg) cfg.startTs).next s (.poll e)) =
          accepted cfg s := rfl
      have hbefore : (accounted cfg s).length =
          (s.returned.map AlertDict.record).length + (waiting cfg s).length := List.length_append
      -- what passes is part of what waited
      have hsub : read.Sublist (waiting cfg s) :=
        List.monotone_filter_right _ fun r hpass =>
          decide_eq_true (of_decide_eq_true hpass : Passes cfg s.sinceTs r).2
      have hfew := hsub.length_le
      rw [haccepted]
      refine ⟨by omega, fun hsum => ?_, fun halong => ?_⟩
      · exact ⟨hlen (by omega), hall.mp (hsub.eq_of_length (by omega))⟩
      · rw [hall.mpr halong.2]
        exact heq halong.1

/-- **When the dataset source honours the contract.** -/
theorem honours_iff (hord : Ordered (source cfg) cfg.startTs h) :
    Honours (source cfg) (accepted cfg) (waiting cfg) cfg.startTs h ↔
      (machine (source cfg) cfg.startTs).Along (NoTie cfg) h := by
  obtain ⟨-, hlen, heq⟩ := account_after hord
  constructor
  · intro hon
    exact hlen hon.account.length_eq.symm
  · intro hno
    exact ⟨along_newer cfg h, List.Perm.of_eq (heq hno)⟩

end DatasetSource

/-! ### Both sources -/

namespace Polling

/-- **When the sources honour the polling contract.** For every run in which alerts are
produced with nondecreasing timestamps and a consumer polls with the largest timestamp
returned so far: the simulated source honours the contract if and only if no poll is
answered once an alert was returned, and the dataset source if and only if no poll finds
a queued record that is not benign and has exactly the timestamp of its bound. -/
theorem polling_contract_iff (startTs : ℚ)
    (h : List (Event AlertRecord (Option OrderByTimestamp)))
    (hord : Ordered SimulatedSource.source startTs h) (cfg : DatasetStream.Config)
    (k : List (Event FlowRecord Unit)) (kord : Ordered (DatasetSource.source cfg) cfg.startTs k) :
    (Honours SimulatedSource.source SimulatedSource.accepted SimulatedSource.waiting startTs h ↔
      (machine SimulatedSource.source startTs).Along SimulatedSource.FirstRead h) ∧
    (Honours (DatasetSource.source cfg) (DatasetSource.accepted cfg) (DatasetSource.waiting cfg)
        cfg.startTs k ↔
      (machine (DatasetSource.source cfg) cfg.startTs).Along (DatasetSource.NoTie cfg) k) :=
  ⟨SimulatedSource.honours_iff hord, DatasetSource.honours_iff kord⟩

/-- A stored alert that is polled once. -/
def oneRead : List (Event AlertRecord (Option OrderByTimestamp)) :=
  [.produce (.between "A" 1 "10.0.0.1" "10.0.0.2"), .poll (some orderByTimestamp)]

theorem ordered_oneRead (more : List (Option OrderByTimestamp)) :
    Ordered SimulatedSource.source 0 (oneRead ++ more.map Event.poll) := by
  have hproduced : produced (oneRead ++ more.map Event.poll) =
      [.between "A" 1 "10.0.0.1" "10.0.0.2"] := by
    rw [produced_append]
    -- polls produce nothing
    have hnone : produced (ρ := AlertRecord) (more.map Event.poll) = [] := by
      induction more with
      | nil => rfl
      | cons e more ih => exact ih
    rw [hnone]
    rfl
  refine ⟨?_, ?_⟩
  · rw [hproduced]
    exact List.pairwise_singleton _ _
  · rw [hproduced]
    intro a ha
    rw [List.mem_singleton.mp ha]
    show (0 : ℚ) < 1
    norm_num

/-- Two records, the second with the time `t`, each polled after it was put. -/
def twoPolls (t : ℚ) : List (Event FlowRecord Unit) :=
  [.produce (DatasetStream.synFlood 1), .poll (), .produce (DatasetStream.synFlood t), .poll ()]

theorem ordered_twoPolls {t : ℚ} (ht : 1 ≤ t) :
    Ordered (DatasetSource.source DatasetStream.sampleConfig) 0 (twoPolls t) := by
  refine ⟨List.pairwise_pair.mpr ht, ?_⟩
  intro r hr
  obtain rfl | hr := List.mem_cons.mp hr
  · show (0 : ℚ) < 1
    norm_num
  · rw [List.mem_singleton.mp hr]
    show (0 : ℚ) < t
    exact lt_of_lt_of_le (by norm_num) ht

/-- One poll of a stored alert, and two polls of records with increasing times. -/
theorem polling_contract_iff_no_tie :
    Honours SimulatedSource.source SimulatedSource.accepted SimulatedSource.waiting 0
      (oneRead ++ [].map Event.poll) ∧
    Honours (DatasetSource.source DatasetStream.sampleConfig)
      (DatasetSource.accepted DatasetStream.sampleConfig)
      (DatasetSource.waiting DatasetStream.sampleConfig) 0 (twoPolls 2) := by
  have hboth := polling_contract_iff 0 (oneRead ++ [].map Event.poll) (ordered_oneRead [])
    DatasetStream.sampleConfig (twoPolls 2) (ordered_twoPolls (by norm_num))
  exact ⟨hboth.1.mpr ⟨trivial, rfl, trivial⟩, hboth.2.mpr (by decide +kernel)⟩

/-- **A timestamp that comes again.** The simulated source returns an alert again with
the next poll; the dataset source takes a record out of the queue that has the time of
the one before, and never returns it. -/
theorem tie_breaks_contract :
    (¬ ∀ (startTs : ℚ) (h : List (Event AlertRecord (Option OrderByTimestamp))),
      Ordered SimulatedSource.source startTs h →
      Honours SimulatedSource.source SimulatedSource.accepted SimulatedSource.waiting
        startTs h) ∧
    ¬ ∀ (cfg : DatasetStream.Config) (k : List (Event FlowRecord Unit)),
      Ordered (DatasetSource.source cfg) cfg.startTs k →
      Honours (DatasetSource.source cfg) (DatasetSource.accepted cfg) (DatasetSource.waiting cfg)
        cfg.startTs k := by
  constructor
  · intro hall
    have hon := hall 0 _ (ordered_oneRead [some orderByTimestamp])
    have hfirst := (SimulatedSource.honours_iff (ordered_oneRead [some orderByTimestamp])).mp hon
    -- the second poll finds what the first one returned
    have hnone := ((Machine.along_concat _ oneRead (.poll (some orderByTimestamp))).mp hfirst).2
    have hmem : AlertRecord.between "A" 1 "10.0.0.1" "10.0.0.2" ∈
        ((machine SimulatedSource.source 0).after oneRead).returned := by
      have hread : AlertRecord.between "A" 1 "10.0.0.1" "10.0.0.2" ∈
          StoreStream.recentAlerts orderByTimestamp
            (AlertTable.empty.insertOrIgnore (.between "A" 1 "10.0.0.1" "10.0.0.2")) 0 := by
        refine StoreStream.mem_recentAlerts.mpr ⟨List.mem_singleton_self _, ?_⟩
        show (0 : ℚ) ≤ 1
        norm_num
      exact List.mem_append_right _ hread
    have hempty : ((machine SimulatedSource.source 0).after oneRead).returned = [] := hnone
    rw [hempty] at hmem
    exact List.not_mem_nil hmem
  · intro hall
    have hon := hall DatasetStream.sampleConfig (twoPolls 1) (ordered_twoPolls le_rfl)
    have hlen := hon.account.length_eq
    have haccepted : (DatasetSource.accepted DatasetStream.sampleConfig
        ((machine (DatasetSource.source DatasetStream.sampleConfig) 0).after
          (twoPolls 1))).length = 2 := by
      decide +kernel
    have haccounted : (DatasetSource.accounted DatasetStream.sampleConfig
        ((machine (DatasetSource.source DatasetStream.sampleConfig) 0).after
          (twoPolls 1))).length = 1 := by
      decide +kernel
    exact absurd (haccepted.symm.trans (hlen.trans haccounted)) (by norm_num)

end Polling

end Sentrix
