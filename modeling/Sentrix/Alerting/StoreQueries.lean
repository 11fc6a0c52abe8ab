import Sentrix.Alerting.Store
import Sentrix.Lib.Lists
import Sentrix.Lib.Queries

/-!
# The read paths of the store

Besides `read_alerts`, the store of `alerting/store.py` is read by `get_alert_by_id`,
by `read_alerts_paginated` and by `get_summary_stats`, each with queries of its own.
All of them flush the buffer first and then query the table in a second section of the
lock. With no other thread in between, this makes each of them a function of the
store's contents (`flushThen_ok`), and they agree on what these are (`reads_agree`).

A pending alert without an encoding makes the flush raise. Then every read raises the
same exception and leaves the store as it is.

The orders of the queries (`ORDER BY timestamp DESC`, `ORDER BY cnt DESC`) are
parameters that say nothing about ties, but one order is used for the queries of all
pages. The column `flow_id_json` is always written from a flow, so `json_extract`
finds the source address in every row.
-/

namespace Sentrix

/-- What `get_summary_stats` returns. -/
structure SummaryStats where
  rateByClass : Dict String ℕ
  /-- The entries `ip` and `count`. -/
  topTalkers : List (String × ℕ)
  totalAlerts : ℕ

/-- `ORDER BY timestamp DESC`. -/
abbrev NewestFirst : Type := OrderBy fun a b : AlertRecord => b.timestamp ≤ a.timestamp

/-- `ORDER BY cnt DESC`, of addresses with their counts. -/
abbrev MostFirst : Type := OrderBy fun e f : String × ℕ => f.2 ≤ e.2

/-- The source address of an alert's flow. -/
def AlertRecord.srcIp (a : AlertRecord) : String := a.flowId.srcIp

namespace AlertStore

/-! ### The queries -/

/-- A call that flushes and then queries the table. An exception of the flush is an
exception of the call. -/
def flushThen {β : Type} (db : DbOutcome) (s : AlertStore) (query : AlertTable → β) :
    AlertStore × Except StoreError β :=
  let r := s.flushLocked db
  match r.2 with
  | some e => (r.1, .error e)
  | none => (r.1, .ok (query r.1.table))

/-- `get_alert_by_id`: `WHERE alert_id = ? LIMIT 1`. -/
def getAlertById (db : DbOutcome) (s : AlertStore) (alertId : String) :
    AlertStore × Except StoreError (Option AlertRecord) :=
  s.flushThen db fun t => t.rows.find? fun a => decide (a.alertId = alertId)

/-- The `WHERE` clause of `read_alerts_paginated`. -/
def pageWhere (detector severity : Option String) (a : AlertRecord) : Bool :=
  detector.all (fun d => decide (a.detector = d)) && severity.all (fun v => decide (a.severity = v))

/-- `read_alerts_paginated`: the number of matching rows and a slice of them, newest
first. -/
def readAlertsPaginated (newest : NewestFirst) (db : DbOutcome) (s : AlertStore)
    (limit offset : ℤ) (detector severity : Option String) :
    AlertStore × Except StoreError (ℕ × List AlertRecord) :=
  s.flushThen db fun t =>
    ((t.rows.filter (pageWhere detector severity)).length,
      page limit offset (newest.sort (t.rows.filter (pageWhere detector severity))))

/-- The three queries of `get_summary_stats`. -/
def summarise (most : MostFirst) (t : AlertTable) : SummaryStats where
  totalAlerts := t.rows.length
  rateByClass := Dict.tally (t.rows.map AlertRecord.threatClass)
  topTalkers := (most.sort (Dict.tally (t.rows.map AlertRecord.srcIp)).entries).take 10

/-- `get_summary_stats`. -/
def getSummaryStats (most : MostFirst) (db : DbOutcome) (s : AlertStore) :
    AlertStore × Except StoreError SummaryStats :=
  s.flushThen db (summarise most)

/-- The calls of `read_alerts_paginated` for the first `n` pages, one after the other,
with their answers. -/
def readPages (newest : NewestFirst) (db : DbOutcome) (s : AlertStore) (limit : ℤ)
    (detector severity : Option String) :
    ℕ → AlertStore × List (Except StoreError (ℕ × List AlertRecord))
  | 0 => (s, [])
  | n + 1 =>
    let r := s.readPages newest db limit detector severity n
    let p := r.1.readAlertsPaginated newest db limit (n * limit) detector severity
    (p.1, r.2 ++ [p.2])

/-! ### What a read depends on -/

variable {s : AlertStore}

theorem readAlerts_eq (ord : OrderByTimestamp) (db : DbOutcome) (s : AlertStore) (q : Query) :
    s.readAlerts ord db q = s.flushThen db fun t => ord.sort (t.rows.filter q.matches) := rfl

/-- The table with the buffer behind it, and nothing buffered. -/
def flushed (s : AlertStore) : AlertStore :=
  { s with table := s.table.insertMany s.writeBuffer, writeBuffer := [] }

/-- On a healthy database a read is a query of the flushed store. -/
theorem flushThen_ok {β : Type} (hser : ∀ a ∈ s.writeBuffer, a.Serialisable)
    (query : AlertTable → β) :
    s.flushThen .ok query = (s.flushed, .ok (query s.flushed.table)) := by
  unfold flushThen
  rw [flushLocked_ok hser]
  rfl

/-- A pending alert without an encoding fails every read. -/
theorem flushThen_of_unserialisable {β : Type} {db : DbOutcome}
    (hser : ¬ ∀ a ∈ s.writeBuffer, a.Serialisable) (query : AlertTable → β) :
    s.flushThen db query = (s, .error .serialisation) := by
  unfold flushThen
  rw [flushLocked_of_unserialisable hser]

/-- A read finds a store as it left it: reading changes no answer. -/
theorem flushThen_flushed {β : Type} (hser : ∀ a ∈ s.writeBuffer, a.Serialisable)
    (query : AlertTable → β) : s.flushed.flushThen .ok query = s.flushThen .ok query := by
  have hnone : ∀ a ∈ s.flushed.writeBuffer, a.Serialisable :=
    fun a ha => absurd ha List.not_mem_nil
  rw [flushThen_ok hser, flushThen_ok hnone]
  rfl

theorem pageWhere_eq_matches (detector severity : Option String) :
    pageWhere detector severity = Query.matches ⟨none, none, detector, severity⟩ := by
  funext a
  unfold pageWhere Query.matches
  rw [Option.all_none, Option.all_none, Bool.true_and, Bool.true_and]

/-- The pages that `n` calls answer. -/
theorem readPages_ok (newest : NewestFirst) (hser : ∀ a ∈ s.writeBuffer, a.Serialisable) (m : ℕ)
    (detector severity : Option String) (n : ℕ) :
    (s.readPages newest .ok m detector severity n).2 = (List.range n).map (fun j =>
      .ok ((s.flushed.table.rows.filter (pageWhere detector severity)).length,
        ((newest.sort (s.flushed.table.rows.filter (pageWhere detector severity))).drop
          (j * m)).take m)) ∧
    -- the first call flushes, and the others find nothing to flush
    ((s.readPages newest .ok m detector severity n).1 = s ∨
      (s.readPages newest .ok m detector severity n).1 = s.flushed) := by
  induction n with
  | zero => exact ⟨rfl, Or.inl rfl⟩
  | succ n ih =>
    obtain ⟨hpages, hstate⟩ := ih
    have hcall : (s.readPages newest .ok m detector severity n).1.readAlertsPaginated newest .ok m
        (n * m) detector severity =
        s.readAlertsPaginated newest .ok m (n * m) detector severity := by
      obtain heq | heq := hstate
      · rw [heq]
      · rw [heq]
        exact flushThen_flushed hser _
    have hanswer : s.readAlertsPaginated newest .ok m (n * m) detector severity = (s.flushed, .ok
        ((s.flushed.table.rows.filter (pageWhere detector severity)).length,
          ((newest.sort (s.flushed.table.rows.filter (pageWhere detector severity))).drop
            (n * m)).take m)) := by
      unfold readAlertsPaginated
      rw [flushThen_ok hser, ← Int.natCast_mul, page_nat]
    unfold readPages
    dsimp only
    rw [hcall, hanswer, hpages, List.range_succ, List.map_append]
    exact ⟨rfl, Or.inr rfl⟩

/-- The pages of `n` calls, put together: the first rows in the order of the pages, and
all of them if there are pages enough. -/
theorem pages_ok (newest : NewestFirst) (hser : ∀ a ∈ s.writeBuffer, a.Serialisable) (m : ℕ)
    (detector severity : Option String) (n : ℕ) :
    ∃ pages : List (List AlertRecord), (s.readPages newest .ok m detector severity n).2 =
        pages.map (fun p =>
          .ok ((s.flushed.table.rows.filter (pageWhere detector severity)).length, p)) ∧
      pages.flatten.Pairwise (fun a b => b.timestamp ≤ a.timestamp) ∧
      ((s.flushed.table.rows.filter (pageWhere detector severity)).length ≤ n * m →
        pages.flatten.Perm (s.flushed.table.rows.filter (pageWhere detector severity))) := by
  set selected := s.flushed.table.rows.filter (pageWhere detector severity) with hselected
  -- the pages are consecutive pieces of one sorted list
  refine ⟨(List.range n).map fun j => ((newest.sort selected).drop (j * m)).take m, ?_, ?_, ?_⟩
  · rw [(readPages_ok newest hser m detector severity n).1, List.map_map]
    rfl
  · rw [flatten_pages]
    exact (newest.sorted selected).sublist (List.take_sublist _ _)
  · -- enough pages have all of it
    intro hlen
    rw [← (newest.perm selected).length_eq] at hlen
    rw [flatten_pages, List.take_of_length_le hlen]
    exact newest.perm selected

theorem getAlertById_ok (hser : ∀ a ∈ s.writeBuffer, a.Serialisable) (i : String) :
    ∃ found, (s.getAlertById .ok i).2 = .ok found ∧
      (found.isSome = true ↔ i ∈ s.flushed.table.rows.map AlertRecord.alertId) ∧
      ∀ a, found = some a → a ∈ s.flushed.table.rows ∧ a.alertId = i := by
  refine ⟨s.flushed.table.rows.find? fun a => decide (a.alertId = i), ?_, ?_, fun a ha => ?_⟩
  · unfold getAlertById
    rw [flushThen_ok hser]
  · rw [List.find?_isSome, List.mem_map]
    simp only [decide_eq_true_eq]
  · have hid := List.find?_some ha
    rw [decide_eq_true_eq] at hid
    exact ⟨List.mem_of_find?_eq_some ha, hid⟩

/-! ### Agreement -/

/-- The statistics are those of the alerts `all`. -/
structure SummaryOf (all : List AlertRecord) (stats : SummaryStats) : Prop where
  total : stats.totalAlerts = all.length
  rate : ∀ c, stats.rateByClass.get? c =
    if c ∈ all.map AlertRecord.threatClass then some ((all.map AlertRecord.threatClass).count c)
    else none
  rates_sum : (stats.rateByClass.entries.map Prod.snd).sum = all.length
  talkers : stats.topTalkers.length = min 10 (all.map AlertRecord.srcIp).toFinset.card
  talkers_distinct : (stats.topTalkers.map Prod.fst).Nodup
  talkers_exact : ∀ e ∈ stats.topTalkers, e.1 ∈ all.map AlertRecord.srcIp ∧
    e.2 = (all.map AlertRecord.srcIp).count e.1
  talkers_sorted : stats.topTalkers.Pairwise fun e f => f.2 ≤ e.2
  talkers_top : ∀ ip ∈ all.map AlertRecord.srcIp, ip ∉ stats.topTalkers.map Prod.fst →
    ∀ e ∈ stats.topTalkers, (all.map AlertRecord.srcIp).count ip ≤ e.2

/-- The statistics do not depend on the order of the alerts. -/
theorem SummaryOf.of_perm {all all' : List AlertRecord} {stats : SummaryStats}
    (h : SummaryOf all stats) (hperm : all'.Perm all) : SummaryOf all' stats := by
  have hclass := hperm.map AlertRecord.threatClass
  have hip := hperm.map AlertRecord.srcIp
  refine ⟨h.total.trans hperm.length_eq.symm, fun c => ?_, h.rates_sum.trans hperm.length_eq.symm,
    ?_, h.talkers_distinct, fun e he => ?_, h.talkers_sorted, fun ip hmem hnot e he => ?_⟩
  · rw [h.rate c, hclass.count_eq]
    simp only [hclass.mem_iff]
  · rw [h.talkers, List.toFinset_eq_of_perm _ _ hip]
  · rw [hip.mem_iff, hip.count_eq]
    exact h.talkers_exact e he
  · rw [hip.count_eq]
    exact h.talkers_top ip (hip.mem_iff.mp hmem) hnot e he

/-- The three queries summarise the rows of the table. -/
theorem summaryOf_summarise (most : MostFirst) (t : AlertTable) :
    SummaryOf t.rows (summarise most t) := by
  set ips := t.rows.map AlertRecord.srcIp with hips
  have hperm := most.perm (Dict.tally ips).entries
  have hentry : ∀ e ∈ most.sort (Dict.tally ips).entries, e ∈ (Dict.tally ips).entries :=
    fun e he => hperm.mem_iff.mp he
  have htop : (summarise most t).topTalkers = (most.sort (Dict.tally ips).entries).take 10 := rfl
  refine ⟨rfl, fun c => Dict.get?_tally _ c, ?_, ?_, ?_, fun e he => ?_, ?_,
    fun ip hmem hnot e he => ?_⟩
  · exact (Dict.sum_tally _).trans (List.length_map _)
  · rw [htop, List.length_take, hperm.length_eq, Dict.length_entries_tally]
  · rw [htop, List.map_take]
    have hnodup : ((most.sort (Dict.tally ips).entries).map Prod.fst).Nodup :=
      (hperm.map Prod.fst).nodup_iff.mpr (Dict.tally ips).nodup
    exact hnodup.sublist (List.take_sublist _ _)
  · have hmem := hentry e (List.mem_of_mem_take he)
    exact ⟨(Dict.mem_keys_tally ips e.1).mp (List.mem_map_of_mem hmem), Dict.snd_of_mem_tally hmem⟩
  · exact (most.sorted _).sublist (List.take_sublist _ _)
  -- an omitted address stands behind the listed ones in the order
  · have hget : (ip, ips.count ip) ∈ most.sort (Dict.tally ips).entries := by
      rw [hperm.mem_iff, Dict.mem_entries, Dict.get?_tally, if_pos hmem]
    have hrest : (ip, ips.count ip) ∉ (most.sort (Dict.tally ips).entries).take 10 :=
      fun htake => hnot (List.mem_map_of_mem htake)
    exact rel_of_mem_take (most.sorted _) he hget hrest

/-- **All read paths describe the same table.** On a healthy database, for every table
and every buffer, every filter and every page size: if the pending alerts can be
encoded, the totals of the pages are the number of alerts `read_alerts` returns with
the same filters, enough pages hold each of these alerts once, newest first,
`get_alert_by_id` finds the ids that occur in `read_alerts()`, and the statistics are
those of `read_alerts()`; if they cannot, every read raises the same exception. -/
theorem reads_agree (ord : OrderByTimestamp) (newest : NewestFirst) (most : MostFirst)
    (s : AlertStore) (detector severity : Option String) (limit : ℤ) (hlimit : 1 ≤ limit) :
    ((∀ a ∈ s.writeBuffer, a.Serialisable) → ∃ all matching stats,
      (s.readAlerts ord .ok ⟨none, none, none, none⟩).2 = .ok all ∧
      (s.readAlerts ord .ok ⟨none, none, detector, severity⟩).2 = .ok matching ∧
      matching.Nodup ∧
      (∀ n, ∃ pages : List (List AlertRecord),
        (s.readPages newest .ok limit detector severity n).2 =
          pages.map (fun p => .ok (matching.length, p)) ∧
        pages.flatten.Pairwise (fun a b => b.timestamp ≤ a.timestamp) ∧
        (matching.length ≤ n * limit → pages.flatten.Perm matching)) ∧
      (∀ i, ∃ found, (s.getAlertById .ok i).2 = .ok found ∧
        (found.isSome = true ↔ i ∈ all.map AlertRecord.alertId) ∧
        ∀ a, found = some a → a ∈ all ∧ a.alertId = i) ∧
      (s.getSummaryStats most .ok).2 = .ok stats ∧ SummaryOf all stats) ∧
    ((¬ ∀ a ∈ s.writeBuffer, a.Serialisable) →
      (∀ q, (s.readAlerts ord .ok q).2 = .error .serialisation) ∧
      (∀ offset, (s.readAlertsPaginated newest .ok limit offset detector severity).2 =
        .error .serialisation) ∧
      (∀ i, (s.getAlertById .ok i).2 = .error .serialisation) ∧
      (s.getSummaryStats most .ok).2 = .error .serialisation) := by
  constructor
  · intro hser
    obtain ⟨m, rfl⟩ : ∃ m : ℕ, limit = m := ⟨limit.toNat, by omega⟩
    -- each reader flushes first, so that all of them read the rows of one table
    set rows := s.flushed.table.rows with hrows
    set selected := rows.filter (pageWhere detector severity) with hselected
    have hnodup : rows.Nodup := List.Nodup.of_map _ s.flushed.table.primaryKey
    -- a read without a filter returns every row, in an order of its own
    have hallperm :
        (ord.sort (rows.filter (Query.matches ⟨none, none, none, none⟩))).Perm rows := by
      have hevery : rows.filter (Query.matches ⟨none, none, none, none⟩) = rows :=
        List.filter_eq_self.mpr fun a _ => rfl
      rw [hevery]
      exact ord.perm rows
    have hmatchperm : (ord.sort selected).Perm selected := ord.perm selected
    refine ⟨ord.sort (rows.filter (Query.matches ⟨none, none, none, none⟩)), ord.sort selected,
      summarise most s.flushed.table, ?_, ?_, ?_, fun n => ?_, fun i => ?_, ?_, ?_⟩
    · rw [readAlerts_eq, flushThen_ok hser]
    · rw [readAlerts_eq, flushThen_ok hser, ← pageWhere_eq_matches]
    · exact hmatchperm.nodup_iff.mpr (hnodup.filter _)
    · obtain ⟨pages, hpages, hsorted, hcover⟩ := pages_ok newest hser m detector severity n
      rw [← hselected, ← hmatchperm.length_eq] at hpages hcover
      refine ⟨pages, hpages, hsorted, fun hlen => ?_⟩
      exact (hcover (by exact_mod_cast hlen)).trans hmatchperm.symm
    · obtain ⟨found, hfound, hids, hrow⟩ := getAlertById_ok hser i
      refine ⟨found, hfound, ?_, fun a ha => ?_⟩
      · rw [(hallperm.map _).mem_iff]
        exact hids
      · rw [hallperm.mem_iff]
        exact hrow a ha
    · unfold getSummaryStats
      rw [flushThen_ok hser]
    · exact (summaryOf_summarise most s.flushed.table).of_perm hallperm
  · intro hser
    -- the flush that comes first raises
    unfold getAlertById readAlertsPaginated getSummaryStats
    simp only [readAlerts_eq, flushThen_of_unserialisable hser, implies_true, and_self]

/-- Two alerts of one source, one of them still buffered, read in pages of one. -/
theorem reads_agree_two_alerts :
    ∃ all stats, ((AlertStore.mk (AlertTable.empty.insertMany
        [.between "A" 0 "10.0.0.1" "10.0.0.2"]) [.between "B" 1 "10.0.0.1" "10.0.0.3"]
          []).readAlerts orderByTimestamp .ok ⟨none, none, none, none⟩).2 = .ok all ∧
      ((AlertStore.mk (AlertTable.empty.insertMany
        [.between "A" 0 "10.0.0.1" "10.0.0.2"]) [.between "B" 1 "10.0.0.1" "10.0.0.3"]
          []).getSummaryStats (orderByDesc Prod.snd) .ok).2 = .ok stats ∧
      SummaryOf all stats := by
  -- one alert is in the table and one in the buffer
  have hser : ∀ a ∈ [AlertRecord.between "B" 1 "10.0.0.1" "10.0.0.3"], a.Serialisable := by
    intro a ha
    rw [List.mem_singleton.mp ha]
    rfl
  obtain ⟨all, -, stats, hall, -, -, -, -, hstats, hof⟩ := (reads_agree orderByTimestamp
    (orderByDesc AlertRecord.timestamp) (orderByDesc Prod.snd) (AlertStore.mk
      (AlertTable.empty.insertMany [.between "A" 0 "10.0.0.1" "10.0.0.2"])
      [.between "B" 1 "10.0.0.1" "10.0.0.3"] []) none none 1 le_rfl).1 hser
  exact ⟨all, stats, hall, hstats, hof⟩

end AlertStore

end Sentrix
