import Sentrix.Datasource.Quotas
import Sentrix.Datasource.ReplayTelemetry

/-!
# The records of a replay

`_replay_thread` loads the CSV files and the label sidecars of the data directory and
filters the records by scenario. If nothing was loaded it synthesizes records instead, a
share of 500 for each family of the scenario and at least one.

A file is read until an exception, and keeps what it has by then: it gives records if and
only if the first entry that is not skipped can be converted. The filter answers a list
that is not empty (`Sampling.filterByScenario_ne_nil`). The weights of the fallback are looked
up with a default mix of families, for a scenario that is not in the table. `random` is in
the table, with no families at all, so that nothing is synthesized for it. The replay has
records if and only if the directory has one or the scenario is not `random`
(`keepsReplaying_iff`).

Numbers are exact and finite. A field that holds something else than its declared type is
kept as its text, and `features` that are no dictionary are left empty.
-/

namespace Sentrix

/-- `_SEVERITY_MAP`. -/
def severityMap : List (String × String) :=
  [("BENIGN", "LOW"), ("SYN_FLOOD", "CRITICAL"), ("UDP_FLOOD", "HIGH"),
    ("UDP_AMPLIFICATION", "CRITICAL"), ("SLOWLORIS", "HIGH"), ("DNS_TUNNEL", "CRITICAL"),
    ("DNS_EXFIL", "HIGH"), ("DGA", "HIGH"), ("C2_BEACON", "CRITICAL"), ("PORT_SCAN", "MEDIUM"),
    ("RECON", "MEDIUM"), ("EXFIL", "HIGH")]

/-- `_CONFIDENCE_MAP`. -/
def confidenceMap : List (String × ℚ) :=
  [("BENIGN", 1 / 10), ("SYN_FLOOD", 97 / 100), ("UDP_FLOOD", 93 / 100),
    ("UDP_AMPLIFICATION", 98 / 100), ("SLOWLORIS", 88 / 100), ("DNS_TUNNEL", 95 / 100),
    ("DNS_EXFIL", 91 / 100), ("DGA", 87 / 100), ("C2_BEACON", 94 / 100), ("PORT_SCAN", 82 / 100),
    ("RECON", 79 / 100), ("EXFIL", 86 / 100)]

/-- The draws for one record, each by the name of what is drawn. -/
structure RecordDraws where
  /-- `random.randint`. -/
  randint : String → ℤ → ℤ → ℤ
  /-- `random.uniform`. -/
  uniform : String → ℚ → ℚ → ℚ

/-- What the thread is given besides the files and the scenario. -/
structure DatasetHost extends Sampling where
  /-- `float(v)`; `none` if it raises. -/
  float : Value → Option ℚ
  /-- `int(v)`; `none` if it raises. -/
  int : Value → Option ℤ
  /-- `str(v)`. -/
  str : Value → String
  round : ℚ → ℕ → ℚ
  /-- `time.time()`, when the fallback begins. -/
  now : ℚ
  /-- The draws for each record of the fallback. -/
  draws : String → ℕ → RecordDraws

/-- A row of a CSV file by the names of its columns. -/
abbrev CsvRow : Type := List (String × Value)

structure CsvFile where
  path : String
  /-- The rows; `none` if reading one raises. -/
  rows : List (Option CsvRow)
  /-- `time.time()` at each row. -/
  clock : ℕ → ℚ

structure JsonFile where
  path : String
  /-- What the file holds; `none` if it cannot be opened or decoded. -/
  document : Option Value
  /-- `time.time()` at each entry. -/
  clock : ℕ → ℚ

/-- The files the patterns find, in the order in which they are read. -/
structure DataDirectory where
  csvFiles : List CsvFile
  jsonFiles : List JsonFile

/-- `os.path.basename`. -/
def basename (path : String) : String :=
  String.ofList (path.toList.reverse.takeWhile fun c => decide (c ≠ '/')).reverse

namespace DatasetHost

variable (host : DatasetHost)

/-! ### Loading -/

/-- `str(v)`, which leaves text as it is. -/
def text : Value → String
  | .str s => s
  | v => host.str v

/-- `.upper().replace(" ", "_")`. -/
def familyName (label : String) : String := (host.upper label).replace " " "_"

/-- `_try_float`. -/
def tryFloat (v : Value) : Value := ((host.float v).map Value.num).getD v

/-- The columns that are no features. -/
def recordColumns : List String :=
  ["timestamp", "src_ip", "dst_ip", "src_port", "dst_port", "protocol", "attack_family",
    "severity", "generator"]

/-- The record of a row in `_load_csv`; `none` if a conversion raises. -/
def csvRecord (path : String) (now : ℚ) (row : CsvRow) : Option FlowRecord := do
  let get (key : String) (default : Value) := (row.lookup key).getD default
  let wholeNumber (v : Value) : Option ℤ := (host.float v).map ReplayTelemetry.toInt
  -- only text has a method `upper`
  let family ← match get "attack_family" (.str "BENIGN") with
    | .str s => some (host.familyName s)
    | _ => none
  let timestamp ← host.float (get "timestamp" (.num now))
  let srcPort ← wholeNumber (get "src_port" (.num 0))
  let dstPort ← wholeNumber (get "dst_port" (.num 0))
  let pktCount ← wholeNumber (get "pkt_count" (.num 0))
  let byteCount ← wholeNumber (get "byte_count" (.num 0))
  let durationS ← host.float (get "duration_s" (.num 0))
  let file := basename path
  return {
    timestamp := timestamp
    srcIp := host.text (get "src_ip" (.str "0.0.0.0"))
    dstIp := host.text (get "dst_ip" (.str "0.0.0.0"))
    srcPort := srcPort
    dstPort := dstPort
    protocol := host.text (get "protocol" (.str "TCP"))
    attackFamily := family
    severity := (severityMap.lookup family).getD "LOW"
    confidence := (confidenceMap.lookup family).getD (75 / 100)
    generator := host.text (get "generator" (.str "nfstream"))
    features := (row.filter fun kv => decide (kv.1 ∉ recordColumns)).map fun kv =>
      (kv.1, host.tryFloat kv.2)
    explanation := s!"Dataset replay [{file}]: {family}"
    pktCount := pktCount
    byteCount := byteCount
    durationS := durationS }

/-- `_load_csv`. -/
def loadCsv (file : CsvFile) : List FlowRecord :=
  collect (fun i (row : Option CsvRow) =>
    (row.bind (host.csvRecord file.path (file.clock i))).map some) 0 file.rows

/-- `attack_family` of a label, or its `label`. -/
def labelFamily (entry : Value) : Option String := do
  let label ← entry.get "label" (.str "BENIGN")
  let family ← entry.get "attack_family" label
  return host.familyName (host.text family)

/-- The record of a label in `_load_json_labels`; `none` if a conversion raises. -/
def labelRecord (path : String) (now : ℚ) (family : String) (entry : Value) :
    Option FlowRecord := do
  let timestamp ← host.float (← entry.get "timestamp" (.num now))
  let flow ← entry.get "flow" (.dict [])
  -- a field of the flow, or else of the entry itself
  let flowField (key : String) (default : Value) : Option Value := do
    flow.get key (← entry.get key default)
  let srcIp ← flowField "src_ip" (.str "0.0.0.0")
  let dstIp ← flowField "dst_ip" (.str "0.0.0.0")
  let srcPort ← host.int (← flowField "src_port" (.num 0))
  let dstPort ← host.int (← flowField "dst_port" (.num 0))
  let protocol ← flowField "protocol" (.str "TCP")
  let confidence ← host.float
    (← entry.get "confidence" (.num ((confidenceMap.lookup family).getD (80 / 100))))
  let generator ← entry.get "generator" (.str "dataset")
  let pktCount ← host.int (← entry.get "pkt_count" (.num 1))
  let byteCount ← host.int (← entry.get "byte_count" (.num (host.str entry).length))
  let durationS ← host.float (← entry.get "duration_s" (.num (1 / 1000)))
  let features ← entry.get "features" (.dict [])
  let file := basename path
  let explanation ← entry.get "explanation" (.str s!"Dataset replay [{file}]: {family}")
  return {
    timestamp := timestamp
    srcIp := host.text srcIp
    dstIp := host.text dstIp
    srcPort := srcPort
    dstPort := dstPort
    protocol := host.text protocol
    attackFamily := family
    severity := (severityMap.lookup family).getD "MEDIUM"
    confidence := confidence
    generator := host.text generator
    features :=
      match features with
      | .dict kvs => kvs
      | _ => []
    explanation := host.text explanation
    pktCount := pktCount
    byteCount := byteCount
    durationS := durationS }

/-- The turn of the loop for a label: `none` is an exception, `some none` a benign one. -/
def labelTurn (path : String) (now : ℚ) (entry : Value) : Option (Option FlowRecord) :=
  match host.labelFamily entry with
  | none => none
  | some family =>
    if family = "BENIGN" then some none
    else (host.labelRecord path now family entry).map some

/-- The labels of a document. What is no list has none that can be read: its characters
and its keys are text, and a number cannot be iterated. -/
def labels (document : Option Value) : List Value :=
  let raw := match document with
    | some (.dict kvs) => (kvs.lookup "labels").getD ((kvs.lookup "packets").getD (.list []))
    | some v => v
    | none => .none
  match raw with
  | .list entries => entries
  | _ => []

/-- `_load_json_labels`. -/
def loadJsonLabels (file : JsonFile) : List FlowRecord :=
  collect (fun i => host.labelTurn file.path (file.clock i)) 0 (labels file.document)

/-- `_load_records`. -/
def loadRecords (dir : DataDirectory) : List FlowRecord :=
  dir.csvFiles.flatMap host.loadCsv ++ dir.jsonFiles.flatMap host.loadJsonLabels

/-- A CSV file begins with a row that can be converted, or the first label of a sidecar
that is not benign can be. -/
def HasRecord (dir : DataDirectory) : Prop :=
  (∃ file ∈ dir.csvFiles, ∃ row rest r, file.rows = some row :: rest ∧
    host.csvRecord file.path (file.clock 0) row = some r) ∨
  ∃ file ∈ dir.jsonFiles, ∃ skipped entry rest, labels file.document = skipped ++ entry :: rest ∧
    (∀ e ∈ skipped, host.labelFamily e = some "BENIGN") ∧
    ∃ family r, host.labelFamily entry = some family ∧ family ≠ "BENIGN" ∧
      host.labelRecord file.path (file.clock skipped.length) family entry = some r

/-! ### The fallback -/

/-- The names in `SCENARIO_WEIGHTS`. -/
def scenarioNames : List String :=
  ["random", "massive_ddos", "stealth_c2_exfil", "recon_storm", "quiet_hours",
    "coordinated_campaign"]

/-- `SCENARIO_WEIGHTS.get(scenario, …)` with the mix of the fallback as its default. -/
def fallbackWeights (scenario : String) : List (String × ℚ) :=
  if scenario ∈ scenarioNames then scenarioWeights scenario
  else
    [("SYN_FLOOD", 15 / 100), ("UDP_AMPLIFICATION", 10 / 100), ("C2_BEACON", 15 / 100),
      ("DNS_TUNNEL", 15 / 100), ("PORT_SCAN", 20 / 100), ("BENIGN", 25 / 100)]

/-- `part in family`. -/
def mentions (family part : String) : Bool := decide (part.toList <:+: family.toList)

/-- `_fake_features`. -/
def fakeFeatures (d : RecordDraws) (family : String) : List (String × Value) :=
  let draw (name : String) (lo hi : ℚ) : String × Value := (name, .num (d.uniform name lo hi))
  if mentions family "SYN" then
    [draw "syn_synack_ratio" 10 50, draw "dst_pkt_ewma" 800 3000,
      draw "src_ip_entropy" (35 / 10) 5]
  else if mentions family "UDP" then [draw "amp_byte_ratio" 10 80, draw "dst_pkt_ewma" 500 2000]
  else if mentions family "C2" || mentions family "BEACON" then
    [draw "iat_cv" (2 / 100) (1 / 10), draw "mean_iat" 25 60]
  else if mentions family "DNS" || mentions family "TUNNEL" then
    [draw "txt_cname_avg_entropy" (45 / 10) (55 / 10), draw "txt_cname_avg_len" 40 80,
      draw "txt_cname_rate" 5 30]
  else if mentions family "PORT" || mentions family "RECON" then
    [draw "syn_only_ratio" (85 / 100) 1, draw "scan_activity_score" 50 300]
  else if mentions family "EXFIL" then
    [draw "outbound_inbound_ratio" 10 50, draw "outbound_bytes_ewma" 5000 50000]
  else [draw "pkt_rate" 10 200]

/-- The record `i` of a family in `_synthesize_fallback_records`. -/
def fallbackRecord (scenario family : String) (i : ℕ) : FlowRecord :=
  let d := host.draws family i
  let a := d.randint "src_1" 0 255
  let b := d.randint "src_2" 0 255
  let c := d.randint "src_3" 1 254
  let subnet := d.randint "dst_1" 0 10
  let address := d.randint "dst_2" 1 254
  { timestamp := host.now + i * (5 / 100) + d.uniform "timestamp" 0 (2 / 100)
    srcIp := s!"10.{a}.{b}.{c}"
    dstIp := s!"192.168.{subnet}.{address}"
    srcPort := d.randint "src_port" 1024 65535
    dstPort :=
      if mentions family "DNS" then 53
      else if mentions family "HTTP" || decide (family = "BENIGN") then 80
      else if mentions family "C2" || mentions family "BEACON" then 443
      else d.randint "dst_port" 1024 65535
    protocol := if mentions family "DNS" || mentions family "UDP" then "UDP" else "TCP"
    attackFamily := family
    severity := (severityMap.lookup family).getD "LOW"
    confidence := (confidenceMap.lookup family).getD (75 / 100) +
      d.uniform "confidence" (-5 / 100) (5 / 100)
    generator := "synthetic_fallback"
    features := fakeFeatures d family
    explanation := s!"Synthetic fallback [{scenario}]: {family}"
    pktCount := d.randint "pkt_count" 1 500
    byteCount := d.randint "byte_count" 64 65000
    durationS := host.round (d.uniform "duration_s" (1 / 1000) 30) 3 }

/-- The records of `_synthesize_fallback_records` before they are shuffled. -/
def fallbackRecords (scenario : String) (count : ℕ) : List FlowRecord :=
  (fallbackWeights scenario).flatMap fun fw =>
    -- no family is left out for its small weight
    (List.range (max 1 (host.target count fw.2))).map (host.fallbackRecord scenario fw.1)

/-! ### The records of the thread -/

/-- The heap with these records, at the addresses from 0 on. -/
def heapOf (records : List FlowRecord) : RecordHeap :=
  fun r => records.getD r (.ofFamily "BENIGN" 0)

/-- The records `_replay_thread` is about to sort, and the heap they live in. -/
def replayRecords (dir : DataDirectory) (scenario : String) : RecordHeap × List ℕ :=
  let loaded := host.loadRecords dir
  if loaded = [] then
    let records := host.fallbackRecords scenario 500
    (heapOf records, host.shuffle (List.range records.length))
  else
    (heapOf loaded,
      host.filterByScenario (heapOf loaded) (List.range loaded.length) scenario)

/-- The replay always has something to replay: the sorted list is not empty, its first
record has a timestamp at the end of each pass, and every turn of the loop visits a
record. -/
structure KeepsReplaying (speedFactor now : ℚ) (heap : RecordHeap) (records : List ℕ) :
    Prop where
  nonempty : sortByTimestamp heap records ≠ []
  first : ∀ heap' : RecordHeap,
    (ReplayThread.firstTimestamp heap' (sortByTimestamp heap records)).isSome = true
  visits : ∀ h x, ((ReplayThread.machine speedFactor heap records now).out
    ((ReplayThread.machine speedFactor heap records now).after h) x).isSome = true

/-! ### When there are records -/

section Loading

variable {host}

theorem loadCsv_ne_nil_iff {file : CsvFile} :
    host.loadCsv file ≠ [] ↔ ∃ row rest r, file.rows = some row :: rest ∧
      host.csvRecord file.path (file.clock 0) row = some r := by
  unfold loadCsv
  rw [collect_ne_nil_iff]
  constructor
  · rintro ⟨skipped, line, rest, r, hrows, hskip, hr⟩
    cases skipped with
    | nil =>
      obtain ⟨r', hr', heq⟩ := Option.map_eq_some_iff.mp hr
      obtain ⟨row, rfl, hrecord⟩ := Option.bind_eq_some_iff.mp hr'
      exact ⟨row, rest, r', hrows, hrecord⟩
    | cons line' skipped =>
      -- no row of a CSV file is skipped
      obtain ⟨r', -, heq⟩ := Option.map_eq_some_iff.mp (hskip 0 line' rfl)
      exact absurd heq (Option.some_ne_none r')
  · rintro ⟨row, rest, r, hrows, hrecord⟩
    refine ⟨[], some row, rest, r, hrows, fun i x hx => absurd hx (by simp), ?_⟩
    show ((some row).bind (host.csvRecord file.path (file.clock 0))).map some = some (some r)
    rw [Option.bind_some, hrecord, Option.map_some]

theorem labelTurn_eq_skip_iff {path : String} {now : ℚ} {entry : Value} :
    host.labelTurn path now entry = some none ↔ host.labelFamily entry = some "BENIGN" := by
  unfold labelTurn
  cases host.labelFamily entry with
  | none => exact iff_of_false nofun nofun
  | some family =>
    dsimp only
    -- any other family makes a record or raises
    by_cases hbenign : family = "BENIGN"
    · rw [if_pos hbenign, hbenign]
      exact iff_of_true rfl rfl
    · rw [if_neg hbenign]
      refine iff_of_false (fun h => ?_) (fun h => hbenign (Option.some.inj h))
      obtain ⟨r, -, heq⟩ := Option.map_eq_some_iff.mp h
      exact Option.some_ne_none r heq

theorem labelTurn_eq_some_iff {path : String} {now : ℚ} {entry : Value} {r : FlowRecord} :
    host.labelTurn path now entry = some (some r) ↔ ∃ family,
      host.labelFamily entry = some family ∧ family ≠ "BENIGN" ∧
        host.labelRecord path now family entry = some r := by
  unfold labelTurn
  cases host.labelFamily entry with
  | none =>
    refine iff_of_false nofun ?_
    rintro ⟨family, hfamily, -⟩
    exact Option.some_ne_none family hfamily.symm
  | some family =>
    dsimp only
    -- a benign entry is turned into no record
    by_cases hbenign : family = "BENIGN"
    · rw [if_pos hbenign]
      refine iff_of_false nofun ?_
      rintro ⟨family', hfamily, hne, -⟩
      exact hne ((Option.some.inj hfamily).symm.trans hbenign)
    · rw [if_neg hbenign]
      constructor
      · intro h
        obtain ⟨r', hr', heq⟩ := Option.map_eq_some_iff.mp h
        exact ⟨family, rfl, hbenign, Option.some.inj heq ▸ hr'⟩
      · rintro ⟨family', hfamily, -, hrecord⟩
        rw [Option.some.inj hfamily, hrecord, Option.map_some]

theorem loadJsonLabels_ne_nil_iff {file : JsonFile} :
    host.loadJsonLabels file ≠ [] ↔ ∃ skipped entry rest,
      labels file.document = skipped ++ entry :: rest ∧
      (∀ e ∈ skipped, host.labelFamily e = some "BENIGN") ∧
      ∃ family r, host.labelFamily entry = some family ∧ family ≠ "BENIGN" ∧
        host.labelRecord file.path (file.clock skipped.length) family entry = some r := by
  unfold loadJsonLabels
  rw [collect_ne_nil_iff]
  constructor
  · -- the first record comes of the first entry that is not benign
    rintro ⟨skipped, entry, rest, r, hlabels, hskip, hr⟩
    rw [Nat.zero_add, labelTurn_eq_some_iff] at hr
    obtain ⟨family, hfamily, hbenign, hrecord⟩ := hr
    refine ⟨skipped, entry, rest, hlabels, fun e he => ?_, family, r, hfamily, hbenign, hrecord⟩
    obtain ⟨i, hi⟩ := List.mem_iff_getElem?.mp he
    exact labelTurn_eq_skip_iff.mp (hskip i e hi)
  · rintro ⟨skipped, entry, rest, hlabels, hskip, family, r, hfamily, hbenign, hrecord⟩
    refine ⟨skipped, entry, rest, r, hlabels, fun i e hi => ?_, ?_⟩
    · exact labelTurn_eq_skip_iff.mpr (hskip e (List.mem_of_getElem? hi))
    · rw [Nat.zero_add]
      exact labelTurn_eq_some_iff.mpr ⟨family, hfamily, hbenign, hrecord⟩

/-- **What is loaded**: something if and only if the directory has a record. -/
theorem loadRecords_ne_nil_iff (dir : DataDirectory) :
    host.loadRecords dir ≠ [] ↔ host.HasRecord dir := by
  unfold loadRecords HasRecord
  rw [ne_eq, List.append_eq_nil_iff, not_and_or, List.flatMap_eq_nil_iff, List.flatMap_eq_nil_iff]
  push Not
  simp only [loadCsv_ne_nil_iff, loadJsonLabels_ne_nil_iff]

end Loading

/-- A scenario has no families in the fallback if and only if it is `random`. -/
theorem fallbackWeights_eq_nil_iff (scenario : String) :
    fallbackWeights scenario = [] ↔ scenario = "random" := by
  unfold fallbackWeights
  constructor
  · intro h
    split at h
    · -- of the six named scenarios only this one has no weights
      next hname =>
      by_contra hne
      simp only [scenarioNames, List.mem_cons, List.not_mem_nil, or_false] at hname
      obtain rfl | rfl | rfl | rfl | rfl | rfl := hname
      · exact hne rfl
      all_goals exact absurd h (List.cons_ne_nil _ _)
    · exact absurd h (List.cons_ne_nil _ _)
  · rintro rfl
    rfl

theorem fallbackRecords_eq_nil_iff (scenario : String) (count : ℕ) :
    host.fallbackRecords scenario count = [] ↔ scenario = "random" := by
  rw [← fallbackWeights_eq_nil_iff]
  unfold fallbackRecords
  constructor
  · intro h
    by_contra hne
    obtain ⟨fw, hfw⟩ := List.exists_mem_of_ne_nil _ hne
    -- each family has at least one record
    have hempty := List.map_eq_nil_iff.mp (List.flatMap_eq_nil_iff.mp h fw hfw)
    have hzero := List.range_eq_nil.mp hempty
    exact absurd (le_max_left 1 (host.target count fw.2)) (by omega)
  · intro h
    rw [h]
    rfl

/-- **What is replayed**: nothing if and only if nothing was loaded for `random`. -/
theorem replayRecords_eq_nil_iff (dir : DataDirectory) (scenario : String) :
    (host.replayRecords dir scenario).2 = [] ↔
      host.loadRecords dir = [] ∧ scenario = "random" := by
  unfold replayRecords
  dsimp only
  split
  · next hnone =>
    -- a shuffled list is empty if and only if it was before
    rw [and_iff_right hnone, ← host.fallbackRecords_eq_nil_iff scenario 500]
    dsimp only
    rw [← List.perm_nil, (host.shuffle_perm _).congr_left, List.perm_nil, List.range_eq_nil,
      List.length_eq_zero_iff]
  · next hsome =>
    refine iff_of_false ?_ fun h => hsome h.1
    refine host.filterByScenario_ne_nil _ ?_ scenario
    rw [ne_eq, List.range_eq_nil, List.length_eq_zero_iff]
    exact hsome

/-- Over a list that is not empty the thread is always at one of its records. -/
theorem position_lt_after (speedFactor now : ℚ) (heap : RecordHeap) {records : List ℕ}
    (hne : records ≠ []) (h : List ReplayTick) :
    ((ReplayThread.machine speedFactor heap records now).after h).position <
      (sortByTimestamp heap records).length := by
  have hpos : 0 < (sortByTimestamp heap records).length := by
    rw [(sortByTimestamp_perm heap records).length_eq]
    exact List.length_pos_of_ne_nil hne
  refine (ReplayThread.machine speedFactor heap records now).invariant
    (fun _ s => s.position < (sortByTimestamp heap records).length) hpos ?_ h
  intro h x hlt
  set s := (ReplayThread.machine speedFactor heap records now).after h
  show (ReplayThread.step (ReplayThread.speedOf speedFactor) (sortByTimestamp heap records) s
    x).1.position < _
  have hr := List.getElem?_eq_getElem hlt
  by_cases hlast : s.position + 1 < (sortByTimestamp heap records).length
  · rw [ReplayThread.step_fst_of_lt hr hlast]
    exact hlast
  · -- the end of a pass leads back to the first record
    rw [ReplayThread.step_fst_of_last hr hlast]
    exact hpos

/-- The replay goes on if and only if there are records. -/
theorem keepsReplaying_iff_ne_nil (speedFactor now : ℚ) (heap : RecordHeap) (records : List ℕ) :
    KeepsReplaying speedFactor now heap records ↔ records ≠ [] := by
  have hsort : sortByTimestamp heap records = [] ↔ records = [] := by
    rw [← List.perm_nil, (sortByTimestamp_perm heap records).congr_left, List.perm_nil]
  constructor
  · exact fun hkeeps hnil => hkeeps.nonempty (hsort.mpr hnil)
  · intro hne
    -- a sorted list has a first record, and the thread never leaves it
    have hsorted := mt hsort.mp hne
    refine ⟨hsorted, fun heap' => ?_, fun h x => ?_⟩
    · unfold ReplayThread.firstTimestamp
      rw [Option.isSome_map, List.isSome_head?]
      simpa using hsorted
    · have hr := List.getElem?_eq_getElem (position_lt_after speedFactor now heap hne h)
      exact Option.isSome_iff_exists.mpr ⟨_, ReplayThread.step_snd hr x⟩

/-- **When there is something to replay.** The thread has records, whatever it loads and
draws, if and only if the directory has one or the scenario is not `random`. -/
theorem keepsReplaying_iff (dir : DataDirectory) (scenario : String) (speedFactor now : ℚ) :
    KeepsReplaying speedFactor now (host.replayRecords dir scenario).1
        (host.replayRecords dir scenario).2 ↔
      host.HasRecord dir ∨ scenario ≠ "random" := by
  rw [keepsReplaying_iff_ne_nil, ne_eq, replayRecords_eq_nil_iff, not_and_or,
    ← loadRecords_ne_nil_iff]

/-- A host that reads numbers only and draws the least number. -/
def plainHost : DatasetHost where
  toSampling := ReplayThread.plainSampling
  float v :=
    match v with
    | .num q => some q
    | _ => none
  int v :=
    match v with
    | .num q => some (ReplayTelemetry.toInt q)
    | _ => none
  str _ := ""
  round x _ := x
  now := 100
  draws _ _ := ⟨fun _ lo _ => lo, fun _ lo _ => lo⟩

/-- **Nothing to replay.** The directory is empty, and the scenario is `random`: the list is
empty, and it has no first record when the first pass is over. -/
theorem nothing_replayed_for_random :
    (plainHost.replayRecords ⟨[], []⟩ "random").2 = [] ∧
    (∀ heap, ReplayThread.firstTimestamp heap (plainHost.replayRecords ⟨[], []⟩ "random").2 =
      none) ∧
    ¬ ∀ (host : DatasetHost) (dir : DataDirectory) (scenario : String) (speedFactor now : ℚ),
      KeepsReplaying speedFactor now (host.replayRecords dir scenario).1
        (host.replayRecords dir scenario).2 := by
  have hnil : (plainHost.replayRecords ⟨[], []⟩ "random").2 = [] :=
    (plainHost.replayRecords_eq_nil_iff ⟨[], []⟩ "random").mpr ⟨rfl, rfl⟩
  refine ⟨hnil, fun heap => ?_, fun hall => ?_⟩
  · rw [hnil]
    rfl
  · have hkeeps := hall plainHost ⟨[], []⟩ "random" 1 100
    exact (keepsReplaying_iff_ne_nil _ _ _ _).mp hkeeps hnil

end DatasetHost

end Sentrix
