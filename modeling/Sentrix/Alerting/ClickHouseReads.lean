import Sentrix.Alerting.ClickHouse
import Sentrix.Alerting.StoreQueries

/-!
# The read paths of the ClickHouse store

`read_alerts` and `get_summary` of `alerting/clickhouse_store.py` are the counterparts of
`read_alerts_paginated` and `get_summary_stats` of the SQLite store. Neither flushes, and neither
takes the lock: `get_summary` runs three queries, and rows may be inserted in between. An
exception of the client is logged, and the answer is then the one for an empty table.

Once both stores have been given the same alerts and the ClickHouse store has been flushed, the
two answer alike, up to the order among ties (`reads_of_both_stores`). The severity is put into
the text of the query, so that this is about severities that are their own SQL literals; and the
empty one is a filter for the SQLite store and none for the other.
-/

namespace Sentrix

/-- What the database makes of the queries. -/
structure ClickHouseClient where
  /-- `ORDER BY timestamp DESC`. -/
  newest : OrderBy fun a b : ClickHouseRow => b.timestamp ≤ a.timestamp
  /-- `ORDER BY cnt DESC`. -/
  most : MostFirst
  /-- The answers to `read_alerts` queries with a negative limit, or with a severity whose
  quotes or backslashes make another query of it; `none` is an exception. -/
  other : ℤ → String → List ClickHouseRow → Option (List ClickHouseRow)

/-- What `get_summary` returns. -/
structure ClickHouseSummary where
  total : ℕ
  rateByClass : Dict String ℕ
  /-- The entries `ip` and `count`. -/
  topTalkers : List (String × ℕ)

namespace ClickHouseStore

/-! ### The queries -/

/-- The text between two quotes is read as itself: no quote and no backslash in it. -/
def quotable (text : String) : Bool :=
  text.toList.all fun c => decide (c.toNat ≠ 39 ∧ c.toNat ≠ 92)

/-- `WHERE severity = '…'`, if a severity is asked for. -/
def severityWhere (severity : String) (row : ClickHouseRow) : Bool :=
  decide (severity = "" ∨ row.severity = severity)

/-- `read_alerts`. -/
def readAlerts (cfg : ClickHouseConfig) (client : ClickHouseClient) (db : DbOutcome) (limit : ℤ)
    (severity : Option String) (s : ClickHouseStore AlertRecord ClickHouseRow) :
    List ClickHouseRow :=
  -- `if severity` takes the empty one for none
  let text := severity.getD ""
  if cfg.connected = false then []
  else
    match db with
    | .ok =>
      if 0 ≤ limit ∧ quotable text then
        page limit 0 (client.newest.sort (s.table.filter (severityWhere text)))
      else (client.other limit text s.table).getD []
    | .error => []

/-- `get_summary`, on the tables that its three queries find. -/
def getSummary (cfg : ClickHouseConfig) (client : ClickHouseClient) (db : DbOutcome)
    (t₁ t₂ t₃ : List ClickHouseRow) : ClickHouseSummary :=
  if cfg.connected = false then ⟨0, .empty, []⟩
  else
    match db with
    | .ok =>
      { total := t₁.length
        rateByClass := Dict.empty.update
          (client.most.sort (Dict.tally (t₂.map ClickHouseRow.threatClass)).entries)
        topTalkers := (client.most.sort (Dict.tally (t₃.map ClickHouseRow.srcIp)).entries).take 10 }
    | .error => ⟨0, .empty, []⟩

/-! ### The rows of alerts with ports -/

variable {as : List AlertRecord}

theorem exists_ofAlert {a : AlertRecord} (h : a.HasPorts) :
    ∃ row, ClickHouseRow.ofAlert a = some row := by
  obtain ⟨row, hrow, -⟩ := (ClickHouseRow.exists_ofAlert_iff a a.alertId).mpr ⟨h, rfl⟩
  exact ⟨row, hrow⟩

/-- What a row has of its alert. -/
theorem ofAlert_fields {a : AlertRecord} {row : ClickHouseRow}
    (h : ClickHouseRow.ofAlert a = some row) :
    row.timestamp = a.timestamp ∧ row.threatClass = a.threatClass ∧ row.severity = a.severity ∧
      row.srcIp = a.srcIp := by
  unfold ClickHouseRow.ofAlert at h
  simp only [Option.bind_eq_bind, Option.bind_eq_some_iff, Option.some.injEq] at h
  obtain ⟨_, -, _, -, rfl⟩ := h
  exact ⟨rfl, rfl, rfl, rfl⟩

/-- A column of the rows is the alerts' own. -/
theorem map_rows {β : Type*} {f : ClickHouseRow → β} {g : AlertRecord → β}
    (hports : ∀ a ∈ as, a.HasPorts)
    (hfg : ∀ a row, ClickHouseRow.ofAlert a = some row → f row = g a) :
    (as.filterMap ClickHouseRow.ofAlert).map f = as.map g := by
  induction as with
  | nil => rfl
  | cons a as ih =>
    obtain ⟨row, hrow⟩ := exists_ofAlert (hports a List.mem_cons_self)
    rw [List.filterMap_cons_some hrow, List.map_cons, List.map_cons, hfg a row hrow,
      ih fun b hb => hports b (List.mem_cons_of_mem _ hb)]

/-- Selecting rows is selecting alerts. -/
theorem filter_rows {p : ClickHouseRow → Bool} {q : AlertRecord → Bool}
    (hports : ∀ a ∈ as, a.HasPorts)
    (hpq : ∀ a row, ClickHouseRow.ofAlert a = some row → p row = q a) :
    (as.filterMap ClickHouseRow.ofAlert).filter p =
      (as.filter q).filterMap ClickHouseRow.ofAlert := by
  induction as with
  | nil => rfl
  | cons a as ih =>
    -- an alert with ports has a row, and the tests agree on the two
    obtain ⟨row, hrow⟩ := exists_ofAlert (hports a List.mem_cons_self)
    have hrest := ih fun b hb => hports b (List.mem_cons_of_mem _ hb)
    rw [List.filterMap_cons_some hrow, List.filter_cons, List.filter_cons, hpq a row hrow, hrest]
    split
    · rw [List.filterMap_cons_some hrow]
    · rfl

end ClickHouseStore

/-- The rows that a read of the SQLite store finds: without a `clear`, the accepted alerts. -/
theorem AlertStore.rows_flushed_perm (cfg : StoreConfig) (ord : OrderByTimestamp)
    {as : List AlertRecord} (hids : (as.map AlertRecord.alertId).Nodup)
    (hser : ∀ a ∈ as, a.Serialisable) {h : List Section} (hacc : accepted h = as)
    (hclear : Section.clear ∉ h) :
    (∀ a ∈ (afterHealthy cfg ord h).writeBuffer, a.Serialisable) ∧
      (afterHealthy cfg ord h).flushed.table.rows.Perm as := by
  subst hacc
  obtain ⟨hview, hbuf⟩ := view_contents_after cfg ord h hser
  refine ⟨hbuf, ?_⟩
  have hrows : (afterHealthy cfg ord h).flushed.table.rows.Nodup :=
    List.Nodup.of_map _ (afterHealthy cfg ord h).flushed.table.primaryKey
  rw [List.perm_ext_iff_of_nodup hrows (List.Nodup.of_map _ hids)]
  intro a
  rw [AlertTable.mem_rows]
  show (afterHealthy cfg ord h).contents.view a.alertId = some a ↔ _
  rw [hview]
  constructor
  · exact fun ha => (PlainStore.mem_accepted ha).1
  · intro ha
    -- some alert is held under the id, and there is one only
    obtain ⟨r, hr⟩ := Option.isSome_iff_exists.mp
      ((PlainStore.isSome_after_iff hclear a.alertId).mpr ⟨a, ha, rfl⟩)
    obtain ⟨hmem, hid⟩ := PlainStore.mem_accepted hr
    rw [hr, List.inj_on_of_nodup_map hids hmem ha hid]

namespace ClickHouseStore

open scoped List

/-! ### Agreement -/

/-- The summary has the total, the rates and the counts of the talkers of `stats`, and its
talkers have these counts among the alerts `as`. -/
structure Agrees (as : List AlertRecord) (summary : ClickHouseSummary) (stats : SummaryStats) :
    Prop where
  total : summary.total = stats.totalAlerts
  rates : ∀ c, summary.rateByClass.get? c = stats.rateByClass.get? c
  counts : summary.topTalkers.map Prod.snd = stats.topTalkers.map Prod.snd
  talkers : ∀ e ∈ summary.topTalkers, e.2 = (as.map AlertRecord.srcIp).count e.1

/-- The rates are the counts of the classes, in whichever order the query lists them. -/
theorem get?_rateByClass (client : ClickHouseClient) (classes : List String) (c : String) :
    (Dict.empty.update (client.most.sort (Dict.tally classes).entries)).get? c =
      (Dict.tally classes).get? c := by
  have hperm := client.most.perm (Dict.tally classes).entries
  have hnodup : ((client.most.sort (Dict.tally classes).entries).map Prod.fst).Nodup :=
    (hperm.map Prod.fst).nodup_iff.mpr (Dict.tally classes).nodup
  have hentries : (Dict.empty.update (client.most.sort (Dict.tally classes).entries)).entries =
      client.most.sort (Dict.tally classes).entries :=
    Dict.entries_update Dict.empty hnodup
  ext n
  rw [← Dict.mem_entries, ← Dict.mem_entries, hentries]
  exact hperm.mem_iff

/-- On the rows of the alerts that the SQLite table holds, the summaries agree. -/
theorem agrees_of_perm (batchSize : ℤ) (client : ClickHouseClient) (most : MostFirst)
    {as : List AlertRecord} (hports : ∀ a ∈ as, a.HasPorts) {t : AlertTable}
    (ht : t.rows.Perm as) {rows : List ClickHouseRow}
    (hrows : rows = as.filterMap ClickHouseRow.ofAlert) :
    Agrees as (getSummary ⟨batchSize, true⟩ client .ok rows rows rows)
      (AlertStore.summarise most t) := by
  have hclasses : rows.map ClickHouseRow.threatClass = as.map AlertRecord.threatClass := by
    rw [hrows]
    exact map_rows hports fun a row h => (ofAlert_fields h).2.1
  have hips : rows.map ClickHouseRow.srcIp = as.map AlertRecord.srcIp := by
    rw [hrows]
    exact map_rows hports fun a row h => (ofAlert_fields h).2.2.2
  refine ⟨?_, fun c => ?_, ?_, fun e he => ?_⟩
  · show rows.length = t.rows.length
    rw [ht.length_eq, ← List.length_map ClickHouseRow.threatClass, hclasses, List.length_map]
  · show (Dict.empty.update (client.most.sort (Dict.tally (rows.map _)).entries)).get? c =
      (Dict.tally (t.rows.map AlertRecord.threatClass)).get? c
    rw [get?_rateByClass, hclasses, Dict.get?_tally, Dict.get?_tally,
      (ht.map AlertRecord.threatClass).count_eq]
    simp only [(ht.map AlertRecord.threatClass).mem_iff]
  · -- both list the counts of the same tally in descending order
    show ((client.most.sort (Dict.tally (rows.map _)).entries).take 10).map Prod.snd =
      ((most.sort (Dict.tally (t.rows.map AlertRecord.srcIp)).entries).take 10).map Prod.snd
    rw [List.map_take, List.map_take, hips]
    refine congrArg _ (map_eq_of_sorted (client.most.sorted _) (most.sorted _) ?_)
    have hentries := Dict.entries_tally_perm (ht.map AlertRecord.srcIp)
    exact (((client.most.perm _).trans hentries.symm).trans (most.perm _).symm).map _
  · have hmem := (client.most.perm _).mem_iff.mp (List.mem_of_mem_take he)
    rw [← hips]
    exact Dict.snd_of_mem_tally hmem

/-- **The read paths of the two stores agree.** If alerts with distinct ids, ports and an
encoding are appended to both stores on healthy databases, and the ClickHouse store is flushed,
then the summaries agree, and for every limit and every severity that is its own literal
`read_alerts` returns rows of accepted alerts of that severity, at the times of the first page of
`read_alerts_paginated`. -/
theorem reads_of_both_stores (cfg : StoreConfig) (ord : OrderByTimestamp) (newest : NewestFirst)
    (most : MostFirst) (client : ClickHouseClient) (batchSize : ℤ) (as : List AlertRecord)
    (hids : (as.map AlertRecord.alertId).Nodup) (hser : ∀ a ∈ as, a.Serialisable)
    (hports : ∀ a ∈ as, a.HasPorts) (h : List Section) (hacc : Sentrix.accepted h = as)
    (hclear : Section.clear ∉ h) (k : List (ClickHouseStep AlertRecord))
    (kacc : k.flatMap ClickHouseStep.accepts = as) :
    let sql := AlertStore.afterHealthy cfg ord h
    let click := (machine ClickHouseRow.ofAlert ⟨batchSize, true⟩).after (healthy (k ++ [.flush]))
    (∃ stats, (sql.getSummaryStats most .ok).2 = .ok stats ∧
      Agrees as (getSummary ⟨batchSize, true⟩ client .ok click.table click.table click.table)
        stats) ∧
    ∀ (limit : ℕ) (severity : Option String), severity ≠ some "" → quotable (severity.getD "") →
      ∃ total alerts, (sql.readAlertsPaginated newest .ok limit 0 none severity).2 =
          .ok (total, alerts) ∧
        (click.readAlerts ⟨batchSize, true⟩ client .ok limit severity).map
            ClickHouseRow.timestamp = alerts.map AlertRecord.timestamp ∧
        ∀ row ∈ click.readAlerts ⟨batchSize, true⟩ client .ok limit severity,
          ∃ a ∈ as, ClickHouseRow.ofAlert a = some row ∧ ∀ v ∈ severity, a.severity = v := by
  intro sql click
  obtain ⟨hbuf, hperm⟩ := AlertStore.rows_flushed_perm cfg ord hids hser hacc hclear
  have htable : click.table = as.filterMap ClickHouseRow.ofAlert := by
    rw [← kacc]
    exact table_after_flush ClickHouseRow.ofAlert batchSize k
  refine ⟨⟨AlertStore.summarise most sql.flushed.table, ?_, ?_⟩,
    fun limit severity hne hquote => ?_⟩
  · unfold AlertStore.getSummaryStats
    rw [AlertStore.flushThen_ok hbuf]
  · exact agrees_of_perm batchSize client most hports hperm htable
  · -- the two filters select the same alerts
    have hwhere : ∀ a row, ClickHouseRow.ofAlert a = some row →
        severityWhere (severity.getD "") row = AlertStore.pageWhere none severity a := by
      intro a row hrow
      unfold severityWhere AlertStore.pageWhere
      rw [(ofAlert_fields hrow).2.2.1]
      cases severity with
      | none => simp
      | some v =>
        have hv : v ≠ "" := fun hv => hne (congrArg some hv)
        simp [hv]
    have hselected : click.table.filter (severityWhere (severity.getD "")) =
        (as.filter (AlertStore.pageWhere none severity)).filterMap ClickHouseRow.ofAlert := by
      rw [htable]
      exact filter_rows hports hwhere
    have hread : click.readAlerts ⟨batchSize, true⟩ client .ok limit severity =
        (client.newest.sort
          (click.table.filter (severityWhere (severity.getD "")))).take limit := by
      refine Eq.trans (if_pos ⟨Int.natCast_nonneg limit, hquote⟩) ?_
      exact (page_nat limit 0 _).trans (congrArg _ List.drop_zero)
    have hpage : (sql.readAlertsPaginated newest .ok limit 0 none severity).2 =
        .ok ((sql.flushed.table.rows.filter (AlertStore.pageWhere none severity)).length,
          (newest.sort (sql.flushed.table.rows.filter
            (AlertStore.pageWhere none severity))).take limit) := by
      have hfirst := page_nat limit 0
        (newest.sort (sql.flushed.table.rows.filter (AlertStore.pageWhere none severity)))
      rw [List.drop_zero] at hfirst
      unfold AlertStore.readAlertsPaginated
      rw [AlertStore.flushThen_ok hbuf, ← hfirst]
      rfl
    refine ⟨_, _, hpage, ?_, fun row hrow => ?_⟩
    · rw [hread, List.map_take, List.map_take]
      refine congrArg _ (map_eq_of_sorted (client.newest.sorted _) (newest.sorted _) ?_)
      have htimes : (click.table.filter (severityWhere (severity.getD ""))).map
          ClickHouseRow.timestamp =
          (as.filter (AlertStore.pageWhere none severity)).map AlertRecord.timestamp := by
        rw [hselected]
        exact map_rows (fun a ha => hports a (List.mem_of_mem_filter ha))
          fun a row hrow => (ofAlert_fields hrow).1
      calc (client.newest.sort (click.table.filter (severityWhere (severity.getD "")))).map
            ClickHouseRow.timestamp
          ~ (click.table.filter (severityWhere (severity.getD ""))).map ClickHouseRow.timestamp :=
            (client.newest.perm _).map _
        _ = (as.filter (AlertStore.pageWhere none severity)).map AlertRecord.timestamp := htimes
        _ ~ (sql.flushed.table.rows.filter (AlertStore.pageWhere none severity)).map
              AlertRecord.timestamp := ((hperm.filter _).map _).symm
        _ ~ (newest.sort (sql.flushed.table.rows.filter (AlertStore.pageWhere none severity))).map
              AlertRecord.timestamp := ((newest.perm _).map _).symm
    · rw [hread] at hrow
      have hmem := (client.newest.perm _).mem_iff.mp (List.mem_of_mem_take hrow)
      rw [hselected] at hmem
      obtain ⟨a, ha, hof⟩ := List.mem_filterMap.mp hmem
      obtain ⟨ha, hwanted⟩ := List.mem_filter.mp ha
      refine ⟨a, ha, hof, fun v hv => ?_⟩
      rw [Option.mem_def] at hv
      subst hv
      unfold AlertStore.pageWhere at hwanted
      simpa using hwanted

/-- Two alerts of one source, read without a filter. -/
theorem reads_of_both_stores_two_alerts :
    ∃ total alerts, ((AlertStore.afterHealthy ⟨50, false⟩ orderByTimestamp
        [.append (.between "A" 0 "10.0.0.1" "10.0.0.2"),
          .append (.between "B" 1 "10.0.0.1" "10.0.0.3")]).readAlertsPaginated
        (orderByDesc AlertRecord.timestamp) .ok 50 0 none none).2 = .ok (total, alerts) ∧
      (readAlerts ⟨500, true⟩ ⟨orderByDesc ClickHouseRow.timestamp, orderByDesc Prod.snd,
          fun _ _ _ => none⟩ .ok 50 none
        ((machine ClickHouseRow.ofAlert ⟨500, true⟩).after (healthy
          ([.append (.between "A" 0 "10.0.0.1" "10.0.0.2"),
            .append (.between "B" 1 "10.0.0.1" "10.0.0.3")] ++ [.flush])))).map
        ClickHouseRow.timestamp = alerts.map AlertRecord.timestamp := by
  -- what both stores ask of an alert
  have hall : ∀ a ∈ [AlertRecord.between "A" 0 "10.0.0.1" "10.0.0.2",
      AlertRecord.between "B" 1 "10.0.0.1" "10.0.0.3"], a.Serialisable ∧ a.HasPorts := by
    intro a ha
    obtain rfl | ha := List.mem_cons.mp ha
    · exact ⟨rfl, rfl, rfl⟩
    · rw [List.mem_singleton.mp ha]
      exact ⟨rfl, rfl, rfl⟩
  obtain ⟨total, alerts, hpage, htimes, -⟩ := (reads_of_both_stores ⟨50, false⟩ orderByTimestamp
    (orderByDesc AlertRecord.timestamp) (orderByDesc Prod.snd)
    ⟨orderByDesc ClickHouseRow.timestamp, orderByDesc Prod.snd, fun _ _ _ => none⟩ 500
    [.between "A" 0 "10.0.0.1" "10.0.0.2", .between "B" 1 "10.0.0.1" "10.0.0.3"] (by decide)
    (fun a ha => (hall a ha).1) (fun a ha => (hall a ha).2)
    [.append (.between "A" 0 "10.0.0.1" "10.0.0.2"), .append (.between "B" 1 "10.0.0.1" "10.0.0.3")]
    rfl (by simp)
    [.append (.between "A" 0 "10.0.0.1" "10.0.0.2"), .append (.between "B" 1 "10.0.0.1" "10.0.0.3")]
    rfl).2 50 none (Option.some_ne_none _).symm rfl
  exact ⟨total, alerts, hpage, htimes⟩

end ClickHouseStore

end Sentrix
