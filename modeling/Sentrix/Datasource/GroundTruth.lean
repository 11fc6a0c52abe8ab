import Sentrix.Datasource.Labels
import Sentrix.Lib.Csv
import Sentrix.Lib.Texts

/-!
# Ground truth on disk

`_write_csv` of `datasource/feature_extractor.py` writes the labelled rows of a capture, and
`_load_csv` of `datasource/dataset_replay.py` makes a record of each row of such a file.

Addresses, ports, times, counts and families are read back as they were written, whatever
characters a label put into them. A family is upper case without spaces when it is written,
and is brought to that form once more when it is read. The severity is another matter: the
reader leaves the column alone and looks the family up in a table of its own, which has a
family less than that of the extractor (`getD_severityMap_eq_iff`). It is the one of the row
only if that table says the same (`roundTrips_iff`).

A field that has more characters than the reader of the standard library takes ends the
loading. No rows write no file, and a file that is not there has no records. The names of a
header are different from each other. A number has one text, whether it is whole or not, and
what a line has beyond the header is left out.
-/

namespace Sentrix

namespace FeatureExtractor

/-- The items of a row, in the order of its keys. -/
def FeatureRow.items (row : FeatureRow) : List (String × Value) :=
  [("src_ip", .str row.srcIp), ("dst_ip", .str row.dstIp), ("src_port", .num row.srcPort),
    ("dst_port", .num row.dstPort), ("protocol", .str row.protocol),
    ("timestamp", .num row.timestamp), ("duration_s", .num row.durationS),
    ("pkt_count", .num row.pktCount), ("byte_count", .num row.byteCount),
    ("pkts_per_sec", .num row.pktsPerSec), ("bytes_per_sec", .num row.bytesPerSec),
    ("avg_pkt_size", .num row.avgPktSize), ("iat_mean_ms", .num row.iatMeanMs),
    ("iat_std_ms", .num row.iatStdMs), ("iat_min_ms", .num row.iatMinMs),
    ("iat_max_ms", .num row.iatMaxMs), ("syn_count", .num row.synCount),
    ("ack_count", .num row.ackCount), ("fin_count", .num row.finCount),
    ("rst_count", .num row.rstCount), ("syn_synack_ratio", .num row.synSynackRatio),
    ("dns_query_len", .num row.dnsQueryLen), ("dns_entropy", .num row.dnsEntropy),
    ("attack_family", .str row.attackFamily), ("severity", row.severity),
    ("generator", row.generator)]

/-- The keys of a row. -/
def FeatureRow.keys (row : FeatureRow) : List String := row.items.map Prod.fst

/-- The columns of the file. -/
def fieldnames : List String :=
  ["src_ip", "dst_ip", "src_port", "dst_port", "protocol", "timestamp", "duration_s", "pkt_count",
    "byte_count", "pkts_per_sec", "bytes_per_sec", "avg_pkt_size", "iat_mean_ms", "iat_std_ms",
    "iat_min_ms", "iat_max_ms", "syn_count", "ack_count", "fin_count", "rst_count",
    "syn_synack_ratio", "dns_query_len", "dns_entropy", "attack_family", "severity", "generator"]

theorem FeatureRow.keys_eq (row : FeatureRow) : row.keys = fieldnames := rfl

/-- What a row has in a column; the writer leaves a column empty that the row does not have. -/
def FeatureRow.column (row : FeatureRow) (key : String) : Value :=
  (row.items.lookup key).getD (.str "")

/-- What both backends fill in before there are labels. -/
structure FeatureRow.IsExtracted (row : FeatureRow) : Prop where
  attackFamily : row.attackFamily = "BENIGN"
  severity : row.severity = .str "LOW"

/-- The numbers of a row that are read back as numbers. -/
def FeatureRow.numbers (row : FeatureRow) : List ℚ :=
  [row.timestamp, row.durationS, row.srcPort, row.dstPort, row.pktCount, row.byteCount]

/-- A row and the record of the same flow. -/
structure FeatureRow.SameTruth (row : FeatureRow) (r : FlowRecord) : Prop where
  srcIp : r.srcIp = row.srcIp
  dstIp : r.dstIp = row.dstIp
  srcPort : r.srcPort = row.srcPort
  dstPort : r.dstPort = row.dstPort
  protocol : r.protocol = row.protocol
  timestamp : r.timestamp = row.timestamp
  pktCount : r.pktCount = row.pktCount
  byteCount : r.byteCount = row.byteCount
  attackFamily : r.attackFamily = row.attackFamily
  severity : row.severity = .str r.severity

end FeatureExtractor

namespace DatasetHost

open FeatureExtractor

variable (host : DatasetHost)

/-! ### Writing -/

/-- The text of a value in a file. -/
def cell : Value → String
  | .none => ""
  | v => host.text v

/-- A line of the file. -/
def cells (fieldnames : List String) (row : FeatureRow) : List (List Char) :=
  fieldnames.map fun key => (host.cell (row.column key)).toList

/-- `_write_csv`: the characters of the file; `none` if nothing is written. -/
def writeCsv : List FeatureRow → Option (List Char)
  | [] => none
  | row :: rows =>
    some (Csv.write (row.keys.map String.toList :: (row :: rows).map (host.cells row.keys)))

/-! ### Loading -/

/-- `csv.field_size_limit()`. -/
def fieldSizeLimit : ℕ := 131072

/-- A line under a header. What it does not have is `None`. -/
def csvRow (header fields : List (List Char)) : CsvRow :=
  ((header.zip fields).map fun kv => (String.ofList kv.1, .str (String.ofList kv.2))) ++
    (header.drop fields.length).map fun key => (String.ofList key, .none)

/-- The rows of a `DictReader`, which passes over empty lines. -/
def dictRows (text : List Char) : List (Option CsvRow) :=
  match Csv.read fieldSizeLimit text with
  | [] => []
  | none :: _ => [none]
  | some header :: lines => (lines.filter (· ≠ some [])).map (Option.map (csvRow header))

/-- The file with these characters, if it is there. -/
def csvFile (path : String) (clock : ℕ → ℚ) (text : Option (List Char)) : CsvFile :=
  ⟨path, (text.map dictRows).getD [], clock⟩

/-- Writing the rows and loading the file gives one record for each row, in order, of the same
flow. -/
def RoundTrips (path : String) (clock : ℕ → ℚ) (rows : List FeatureRow) : Prop :=
  List.Forall₂ FeatureRow.SameTruth rows (host.loadCsv (csvFile path clock (host.writeCsv rows)))

/-- The severity of a family when it is loaded. -/
def loadedSeverity (family : String) : String := (Sentrix.severityMap.lookup family).getD "LOW"

/-- Whether every field of a row can be read. -/
def CellsFit (row : FeatureRow) : Prop :=
  ∀ key ∈ row.keys, (host.cell (row.column key)).length ≤ fieldSizeLimit

instance (row : FeatureRow) : Decidable (host.CellsFit row) :=
  inferInstanceAs (Decidable (∀ key ∈ row.keys, _))

/-- `str.upper` leaves alone what is upper case. -/
structure UpperCases : Prop where
  familyName : ∀ label, host.upper (host.familyName label) = host.familyName label
  benign : host.upper "BENIGN" = "BENIGN"
  beacon : host.upper "C2_BEACON" = "C2_BEACON"

/-- `float` reads what `str` writes for a number. -/
def ReadsBack (q : ℚ) : Prop := host.float (.str (host.str (.num q))) = some q

variable {host}

/-! ### Families -/

theorem familyName_eq_self {family : String} (hupper : host.upper family = family)
    (hspace : ' ' ∉ family.toList) : host.familyName family = family := by
  rw [familyName, hupper]
  exact Texts.replace_eq_self rfl "_" hspace

theorem UpperCases.familyName_familyName (h : host.UpperCases) (label : String) :
    host.familyName (host.familyName label) = host.familyName label := by
  apply familyName_eq_self (h.familyName label)
  exact Texts.not_mem_replace rfl (by decide) (host.upper label)

/-- The attack of a capture is a family name, if there is one. -/
theorem attackType_sidecar (data : Value) :
    (host.sidecar data).attackType = "" ∨
      ∃ label, (host.sidecar data).attackType = host.familyName label := by
  cases data with
  | dict kvs => exact .inr ⟨_, rfl⟩
  | _ => exact .inl rfl

/-- Whatever labels a row, its family is a family name. -/
theorem familyName_of_labelled (h : host.UpperCases) {data : Value} {entries : List Value}
    {row row' : FeatureRow} (hrow : row.IsExtracted)
    (hlabelled : host.Labelled (host.sidecar data) entries row row') :
    host.familyName row'.attackFamily = row'.attackFamily := by
  cases hlabelled with
  | entry last hfamily =>
    -- the family of the entry was brought to that form already
    show host.familyName _ = _
    rw [hfamily]
    exact h.familyName_familyName _
  | capture last attack =>
    show host.familyName (if _ then _ else _) = if _ then _ else _
    split
    · exact familyName_eq_self h.beacon (by decide)
    · rcases host.attackType_sidecar data with hempty | ⟨label, hlabel⟩
      · exact absurd hempty attack.1
      · rw [hlabel]
        exact h.familyName_familyName label
  | unchanged last benign =>
    rw [hrow.attackFamily]
    exact familyName_eq_self h.benign (by decide)

/-! ### Severities -/

/-- The tables of the two modules differ in one family. -/
theorem getD_severityMap_eq_iff (family : String) :
    (FeatureExtractor.severityMap.lookup family).getD "LOW" = loadedSeverity family ↔
      family ≠ "DGA_BEACON" := by
  constructor
  · rintro h rfl
    exact absurd h (by decide)
  · intro hne
    have hskip (l : List (String × String)) :
        (("DGA_BEACON", "CRITICAL") :: l).lookup family = l.lookup family := by
      rw [List.lookup_cons, beq_eq_false_iff_ne.mpr hne]
    -- the two tables differ in one entry
    have hsplit : FeatureExtractor.severityMap =
        Sentrix.severityMap.take 8 ++ ("DGA_BEACON", "CRITICAL") :: Sentrix.severityMap.drop 8 :=
      rfl
    rw [loadedSeverity, hsplit, List.lookup_append, hskip, ← List.lookup_append,
      List.take_append_drop]

/-! ### Loading one row -/

/-- A line of the file has what the row has. -/
theorem lookup_csvRow {row : FeatureRow} {fieldnames : List String} {key : String}
    (hkey : key ∈ fieldnames) :
    (csvRow (fieldnames.map String.toList) (host.cells fieldnames row)).lookup key =
      some (.str (host.cell (row.column key))) := by
  -- no name is left over, and each has its own cell
  have hmap : csvRow (fieldnames.map String.toList) (host.cells fieldnames row) =
      fieldnames.map fun key => (key, .str (host.cell (row.column key))) := by
    have hdrop : (fieldnames.map String.toList).drop (host.cells fieldnames row).length = [] := by
      apply List.drop_eq_nil_of_le
      rw [cells, List.length_map, List.length_map]
    rw [csvRow, hdrop, cells, List.zip_map', List.map_map, List.map_nil, List.append_nil]
    refine List.map_congr_left fun key _ => ?_
    simp only [Function.comp_apply, String.ofList_toList]
  rw [hmap]
  exact List.lookup_graph _ hkey

theorem toInt_natCast (n : ℕ) : ReplayTelemetry.toInt (n : ℚ) = n := by
  rw [ReplayTelemetry.toInt_eq_floor (Nat.cast_nonneg n), Int.floor_natCast]

/-- The record of a row that was read from a line of the file. -/
def loadedRecord (host : DatasetHost) (path : String) (csv : CsvRow) (row : FeatureRow) :
    FlowRecord where
  timestamp := row.timestamp
  srcIp := row.srcIp
  dstIp := row.dstIp
  srcPort := row.srcPort
  dstPort := row.dstPort
  protocol := row.protocol
  attackFamily := row.attackFamily
  severity := loadedSeverity row.attackFamily
  confidence := (confidenceMap.lookup row.attackFamily).getD (75 / 100)
  generator := host.cell row.generator
  features := (csv.filter fun kv => decide (kv.1 ∉ recordColumns)).map fun kv =>
    (kv.1, host.tryFloat kv.2)
  explanation := s!"Dataset replay [{basename path}]: {row.attackFamily}"
  pktCount := row.pktCount
  byteCount := row.byteCount
  durationS := row.durationS

/-- **One row** is loaded. -/
theorem csvRecord_eq_some {row : FeatureRow} {csv : CsvRow}
    (hlook : ∀ key ∈ fieldnames, csv.lookup key = some (.str (host.cell (row.column key))))
    (hfamily : host.familyName row.attackFamily = row.attackFamily)
    (hnumbers : ∀ q ∈ row.numbers, host.ReadsBack q) (path : String) (now : ℚ) :
    host.csvRecord path now csv = some (host.loadedRecord path csv row) := by
  have hcell (key : String) (hkey : key ∈ fieldnames) (v : Value) (hv : row.column key = v)
      (d : Value) : (csv.lookup key).getD d = .str (host.cell v) := by
    rw [hlook key hkey, hv]
    rfl
  -- the text of a family is the family
  have hname : host.familyName (host.cell (.str row.attackFamily)) = row.attackFamily := hfamily
  have hfloat : ∀ q ∈ row.numbers, host.float (.str (host.cell (.num q))) = some q := hnumbers
  simp only [FeatureRow.numbers, List.forall_mem_cons] at hfloat
  obtain ⟨htimestamp, hduration, hsrcPort, hdstPort, hpkts, hbytes, -⟩ := hfloat
  unfold csvRecord
  -- each column that is read has the cell of the row, so that no default is used
  simp only [hcell "attack_family" (by decide) (.str row.attackFamily) rfl,
    hcell "timestamp" (by decide) (.num row.timestamp) rfl,
    hcell "src_ip" (by decide) (.str row.srcIp) rfl,
    hcell "dst_ip" (by decide) (.str row.dstIp) rfl,
    hcell "src_port" (by decide) (.num row.srcPort) rfl,
    hcell "dst_port" (by decide) (.num row.dstPort) rfl,
    hcell "protocol" (by decide) (.str row.protocol) rfl,
    hcell "generator" (by decide) row.generator rfl,
    hcell "pkt_count" (by decide) (.num row.pktCount) rfl,
    hcell "byte_count" (by decide) (.num row.byteCount) rfl,
    hcell "duration_s" (by decide) (.num row.durationS) rfl]
  -- and each cell is converted to what it was written for
  simp only [hname, htimestamp, hduration, hsrcPort, hdstPort, hpkts, hbytes,
    Option.map_some, toInt_natCast]
  rfl

/-- Nothing but the severity can be another one. -/
theorem sameTruth_loadedRecord_iff (path : String) (csv : CsvRow) (row : FeatureRow) :
    row.SameTruth (host.loadedRecord path csv row) ↔
      row.severity = .str (loadedSeverity row.attackFamily) :=
  ⟨fun h => h.severity, fun h => ⟨rfl, rfl, rfl, rfl, rfl, rfl, rfl, rfl, rfl, h⟩⟩

/-! ### Loading all rows -/

theorem cellsFit_iff (row : FeatureRow) :
    host.CellsFit row ↔ Csv.Fits fieldSizeLimit (host.cells row.keys row) := by
  unfold Csv.Fits cells
  rw [List.forall_mem_map]
  exact forall₂_congr fun key _ => by rw [String.length_toList]

/-- The header of the file. -/
def header : List (List Char) := fieldnames.map String.toList

/-- What the reader has for the rows, one line after another. -/
def loadedLines (host : DatasetHost) (rows : List FeatureRow) : List (Option CsvRow) :=
  ((Csv.upToError fieldSizeLimit (rows.map (host.cells fieldnames))).filter (· ≠ some [])).map
    (Option.map (csvRow header))

theorem loadedLines_cons (row : FeatureRow) (rows : List FeatureRow) :
    host.loadedLines (row :: rows) =
      if host.CellsFit row then some (csvRow header (host.cells fieldnames row)) ::
        host.loadedLines rows
      else [none] := by
  have hfits : host.CellsFit row ↔ Csv.Fits fieldSizeLimit (host.cells fieldnames row) :=
    cellsFit_iff row
  unfold loadedLines
  rw [List.map_cons, Csv.upToError]
  by_cases hfit : host.CellsFit row
  · -- no line of a row is passed over
    have hne : some (host.cells fieldnames row) ≠ some [] :=
      fun h => List.cons_ne_nil _ _ (Option.some.inj h)
    rw [if_pos hfit, if_pos (hfits.mp hfit),
      List.filter_cons_of_pos (p := fun line => decide (line ≠ some [])) (decide_eq_true hne),
      List.map_cons, Option.map_some]
  · -- the reader raises in this line
    rw [if_neg hfit, if_neg (mt hfits.mpr hfit)]
    rfl

/-- The file holds the header and the rows. -/
theorem rows_csvFile (path : String) (clock : ℕ → ℚ) (rows : List FeatureRow) :
    (csvFile path clock (host.writeCsv rows)).rows = host.loadedLines rows := by
  cases rows with
  | nil => rfl
  | cons row rows =>
    have hheader : Csv.Fits fieldSizeLimit header := by decide
    have hwrite : host.writeCsv (row :: rows) =
        some (Csv.write (header :: (row :: rows).map (host.cells fieldnames))) := by
      rw [writeCsv, FeatureRow.keys_eq, header]
    rw [hwrite, csvFile, Option.map_some, Option.getD_some, dictRows]
    rw [Csv.read_write, Csv.upToError, if_pos hheader]
    rfl

/-- **All rows.** Each is loaded with its severity if that is the one of its family, up to the
first row with a field that is too large. -/
theorem forall₂_collect_iff (path : String) (clock : ℕ → ℚ) (k : ℕ) {rows : List FeatureRow}
    (hfamily : ∀ row ∈ rows, host.familyName row.attackFamily = row.attackFamily)
    (hnumbers : ∀ row ∈ rows, ∀ q ∈ row.numbers, host.ReadsBack q) :
    List.Forall₂ FeatureRow.SameTruth rows
        (collect (fun i (row : Option CsvRow) =>
          (row.bind (host.csvRecord path (clock i))).map some) k (host.loadedLines rows)) ↔
      ∀ row ∈ rows, row.severity = .str (loadedSeverity row.attackFamily) ∧
        host.CellsFit row := by
  induction rows generalizing k with
  | nil => exact iff_of_true .nil fun _ h => absurd h List.not_mem_nil
  | cons row rows ih =>
    rw [List.forall_mem_cons] at hfamily hnumbers ⊢
    rw [loadedLines_cons]
    by_cases hfit : host.CellsFit row
    · set csv := csvRow header (host.cells fieldnames row)
      have hrecord : host.csvRecord path (clock k) csv = some (host.loadedRecord path csv row) :=
        csvRecord_eq_some (fun _ => lookup_csvRow) hfamily.1 hnumbers.1 path (clock k)
      have hturn : ((some csv).bind (host.csvRecord path (clock k))).map some =
          some (some (host.loadedRecord path csv row)) := by
        rw [Option.bind_some]
        exact congrArg (Option.map some) hrecord
      rw [if_pos hfit, collect_of_some hturn, List.forall₂_cons, sameTruth_loadedRecord_iff,
        ih (k + 1) hfamily.2 hnumbers.2, and_iff_left hfit]
    · -- the row itself has no record any more
      rw [if_neg hfit, collect_of_raises rfl]
      exact iff_of_false (fun h => nomatch h) fun h => hfit h.1.2

/-- Rows of family names survive where the reader's table has their severity, and no field is
too large. -/
theorem roundTrips_iff_of_families (path : String) (clock : ℕ → ℚ) {rows : List FeatureRow}
    (hfamily : ∀ row ∈ rows, host.familyName row.attackFamily = row.attackFamily)
    (hnumbers : ∀ row ∈ rows, ∀ q ∈ row.numbers, host.ReadsBack q) :
    host.RoundTrips path clock rows ↔
      ∀ row ∈ rows, row.severity = .str (loadedSeverity row.attackFamily) ∧
        host.CellsFit row := by
  unfold RoundTrips loadCsv
  rw [rows_csvFile]
  exact forall₂_collect_iff path clock 0 hfamily hnumbers

/-! ### Labelled rows -/

theorem familyName_of_mem_attachLabels (h : host.UpperCases) {label : Option (Option Value)}
    {extracted : List FeatureRow} (hextracted : ∀ row ∈ extracted, row.IsExtracted) :
    ∀ row ∈ host.attachLabels label extracted,
      host.familyName row.attackFamily = row.attackFamily := by
  rcases host.attachLabels_cases label extracted with hsame | ⟨data, entries, hrows⟩
  · rw [hsame]
    intro row hrow
    rw [(hextracted row hrow).attackFamily]
    exact familyName_eq_self h.benign (by decide)
  · exact forall_mem_of_forall₂ hrows hextracted fun _ _ hlabelled hrow =>
      familyName_of_labelled h hrow hlabelled

theorem readsBack_of_mem_attachLabels {label : Option (Option Value)}
    {extracted : List FeatureRow} (h : ∀ row ∈ extracted, ∀ q ∈ row.numbers, host.ReadsBack q) :
    ∀ row ∈ host.attachLabels label extracted, ∀ q ∈ row.numbers, host.ReadsBack q := by
  refine forall_mem_of_forall₂ (host.forall₂_attachLabels label extracted) h ?_
  rintro row _ ⟨family, severity, generator, rfl⟩ hrow
  exact hrow

/-- **Ground truth on disk.** Labelled rows that are written and loaded give one record each,
in order and of the same flow, if and only if the table of the reader has the severity of
every row for its family and no field is too large for the reader. -/
theorem roundTrips_iff (host : DatasetHost) (hupper : host.UpperCases) (path : String)
    (clock : ℕ → ℚ) (label : Option (Option Value)) (extracted : List FeatureRow)
    (hextracted : ∀ row ∈ extracted, row.IsExtracted)
    (hnumbers : ∀ row ∈ extracted, ∀ q ∈ row.numbers, host.ReadsBack q) :
    host.RoundTrips path clock (host.attachLabels label extracted) ↔
      ∀ row ∈ host.attachLabels label extracted,
        row.severity = .str (loadedSeverity row.attackFamily) ∧ host.CellsFit row :=
  roundTrips_iff_of_families path clock (familyName_of_mem_attachLabels hupper hextracted)
    (readsBack_of_mem_attachLabels hnumbers)

/-! ### A capture with a label -/

/-- The upper case of ASCII. -/
theorem upperCases_of_toUpper (h : host.upper = String.toUpper) : host.UpperCases := by
  refine ⟨fun label => ?_, ?_, ?_⟩
  · unfold familyName
    rw [h]
    apply Texts.toUpper_eq_self
    refine (List.map_congr_left (g := id) fun c hc => ?_).trans (List.map_id _)
    rw [Texts.toList_replace (show " ".toList = [' '] from rfl), List.mem_flatMap] at hc
    obtain ⟨d, hd, hcd⟩ := hc
    by_cases hspace : d = ' '
    · -- a space became an underscore, which has no upper case
      rw [if_pos hspace] at hcd
      rw [List.mem_singleton.mp hcd]
      rfl
    · rw [if_neg hspace] at hcd
      rw [List.mem_singleton.mp hcd]
      have hd' : d ∈ label.toList.map Char.toUpper := String.toList_map ▸ hd
      obtain ⟨e, -, rfl⟩ := List.mem_map.mp hd'
      exact Texts.toUpper_toUpper e
  · rw [h]
    exact Texts.toUpper_eq_self (by decide)
  · rw [h]
    exact Texts.toUpper_eq_self (by decide)

theorem isExtracted_of_mem_extractScapy {math : PyMath ℚ} {capture : List ScapyPacket}
    {row : FeatureRow} (hrow : row ∈ extractScapy math capture) : row.IsExtracted := by
  obtain ⟨e, -, rfl⟩ := List.mem_map.mp hrow
  exact ⟨rfl, rfl⟩

/-- One packet of a connection. -/
def beaconPacket : ScapyPacket where
  ip := some ("192.168.1.20", "203.0.113.9")
  ipv6 := none
  tcp := some ⟨50000, 443, 0x02⟩
  udp := none
  qname := none
  time := 0
  len := 60

/-- Its numbers as `str` writes them. -/
def beaconTexts : List (ℚ × String) :=
  [(0, "0.0"), (1 / 1000, "0.001"), (50000, "50000"), (443, "443"), (1, "1"), (60, "60")]

/-- A host that writes and reads the numbers of the packet. -/
def beaconHost : DatasetHost :=
  { plainHost with
    str := fun v =>
      match v with
      | .num q => (beaconTexts.lookup q).getD ""
      | _ => ""
    float := fun v =>
      match v with
      | .str s => (beaconTexts.find? fun qs => qs.2 == s).map Prod.fst
      | _ => none }

/-- A label that gives the connection a family. -/
def beaconLabel (family : String) : Value :=
  .dict [("labels", .list [.dict [("src_ip", .str "192.168.1.20"),
    ("dst_ip", .str "203.0.113.9"), ("dst_port", .num 443), ("attack_family", .str family)]])]

theorem upperCases_beaconHost : beaconHost.UpperCases := upperCases_of_toUpper rfl

/-- The row of the packet. -/
def beaconRow : FeatureRow where
  srcIp := "192.168.1.20"
  dstIp := "203.0.113.9"
  srcPort := 50000
  dstPort := 443
  protocol := "TCP"
  timestamp := 0
  durationS := 1 / 1000
  pktCount := 1
  byteCount := 60
  pktsPerSec := 1000
  bytesPerSec := 60000
  avgPktSize := 60
  iatMeanMs := 0
  iatStdMs := 0
  iatMinMs := 0
  iatMaxMs := 0
  synCount := 1
  ackCount := 0
  finCount := 0
  rstCount := 0
  synSynackRatio := 1
  dnsQueryLen := 0
  dnsEntropy := 0
  attackFamily := "BENIGN"
  severity := .str "LOW"
  generator := .str "scapy"

theorem extractScapy_beaconPacket : extractScapy exactMath [beaconPacket] = [beaconRow] := by
  have hflows : (flows [beaconPacket]).entries.map Prod.snd =
      [record (openFlow ⟨"192.168.1.20", "203.0.113.9", 50000, 443, "TCP"⟩ 0) beaconPacket] :=
    rfl
  have hmap : extractScapy exactMath [beaconPacket] =
      ((flows [beaconPacket]).entries.map Prod.snd).map (FlowEntry.toRow exactMath) := by
    rw [List.map_map]
    rfl
  rw [hmap, hflows, List.map_singleton]
  norm_num [FlowEntry.toRow, record, openFlow, beaconPacket, beaconRow, FlowEntry.durS,
    FlowEntry.meanIat, FlowEntry.iatsMs, FlowEntry.stdIat, exactMath, hasFlag]
  -- the flags of the packet, and numbers that have their decimals already
  decide +kernel

theorem readsBack_beaconRow : ∀ q ∈ beaconRow.numbers, beaconHost.ReadsBack q := by
  unfold ReadsBack
  decide +kernel

/-- What a label says about the row. -/
theorem attachLabels_beaconRow {family : String} (hfamily : beaconHost.familyName family = family) :
    beaconHost.attachLabels (some (some (beaconLabel family))) [beaconRow] =
      [beaconRow.relabel family
        (.str ((FeatureExtractor.severityMap.lookup family).getD "LOW")) (.str "scapy")] := by
  calc beaconHost.attachLabels (some (some (beaconLabel family))) [beaconRow]
      = [beaconRow.relabel (beaconHost.familyName family)
          (.str ((FeatureExtractor.severityMap.lookup
            (beaconHost.familyName family)).getD "LOW")) (.str "scapy")] := rfl
    _ = _ := by rw [hfamily]

theorem familyName_synFlood : beaconHost.familyName "SYN_FLOOD" = "SYN_FLOOD" :=
  familyName_eq_self (Texts.toUpper_eq_self (by decide)) (by decide)

theorem familyName_dgaBeacon : beaconHost.familyName "DGA_BEACON" = "DGA_BEACON" :=
  familyName_eq_self (Texts.toUpper_eq_self (by decide)) (by decide)

/-- A row survives with a label whose family both tables have. -/
theorem roundTrips_iff_synFlood :
    beaconHost.RoundTrips "flows.csv" (fun _ => 0)
      (beaconHost.attachLabels (some (some (beaconLabel "SYN_FLOOD")))
        (extractScapy exactMath [beaconPacket])) := by
  refine (roundTrips_iff beaconHost upperCases_beaconHost "flows.csv" (fun _ => 0)
    (some (some (beaconLabel "SYN_FLOOD"))) (extractScapy exactMath [beaconPacket])
    (fun _ => isExtracted_of_mem_extractScapy) ?_).mpr ?_
  · rw [extractScapy_beaconPacket]
    exact List.forall_mem_singleton.mpr readsBack_beaconRow
  · rw [extractScapy_beaconPacket, attachLabels_beaconRow familyName_synFlood]
    have hsame := (getD_severityMap_eq_iff "SYN_FLOOD").mpr (by decide)
    exact List.forall_mem_singleton.mpr ⟨congrArg Value.str hsame, by decide +kernel⟩

/-- The row of a family that only the table of the extractor has loses its severity. -/
theorem dgaBeacon_not_roundTrips :
    ¬ beaconHost.RoundTrips "flows.csv" (fun _ => 0)
      (beaconHost.attachLabels (some (some (beaconLabel "DGA_BEACON")))
        (extractScapy exactMath [beaconPacket])) := by
  rw [extractScapy_beaconPacket, attachLabels_beaconRow familyName_dgaBeacon]
  intro htrips
  have hnumbers : ∀ severity,
      ∀ q ∈ (beaconRow.relabel "DGA_BEACON" severity (.str "scapy")).numbers,
      beaconHost.ReadsBack q := fun _ => readsBack_beaconRow
  have hall := (roundTrips_iff_of_families _ _ (List.forall_mem_singleton.mpr familyName_dgaBeacon)
    (List.forall_mem_singleton.mpr (hnumbers _))).mp htrips
  -- the extractor calls it critical, the reader does not know it
  have hseverity := Value.str.inj (hall _ (List.mem_singleton_self _)).1
  exact (getD_severityMap_eq_iff "DGA_BEACON").mp hseverity rfl

end DatasetHost

end Sentrix
