import Mathlib.Data.List.Forall2
import Sentrix.Datasource.FallbackRecords
import Sentrix.Datasource.FeatureExtractor

/-!
# Labels of extracted flows

`_apply_labels` of `datasource/feature_extractor.py` attaches the ground truth of a label
sidecar to the rows of a capture. It opens and decodes the file, builds a map from addresses,
port and protocol to the entries, and changes the rows in place, all in one `try`, so that
what raises on the way leaves the rows as they are by then.

Building the map may raise at every entry: one that is no dictionary, a `flow` that is none,
a port that is no number. But the map only ever holds dictionaries, and nothing that is done
with a dictionary in the second loop raises. So either no row is changed, or each has the
label that is meant for it (`applyLabels_all_or_nothing`).

The conversions are those of the host that also replays the records.
-/

namespace Sentrix

namespace FeatureExtractor

/-- `_SEVERITY_MAP` of the extractor, which has a family more than that of the replay. -/
def severityMap : List (String × String) :=
  [("BENIGN", "LOW"), ("SYN_FLOOD", "CRITICAL"), ("UDP_FLOOD", "HIGH"),
    ("UDP_AMPLIFICATION", "CRITICAL"), ("SLOWLORIS", "HIGH"), ("DNS_TUNNEL", "CRITICAL"),
    ("DNS_EXFIL", "HIGH"), ("DGA", "HIGH"), ("DGA_BEACON", "CRITICAL"),
    ("C2_BEACON", "CRITICAL"), ("PORT_SCAN", "MEDIUM"), ("RECON", "MEDIUM"), ("EXFIL", "HIGH")]

/-- What a label is looked up by. -/
structure LabelKey where
  srcIp : String
  dstIp : String
  dstPort : ℤ
  protocol : String
deriving DecidableEq

/-- The key a row is looked up with. -/
def FeatureRow.labelKey (row : FeatureRow) : LabelKey :=
  ⟨row.srcIp, row.dstIp, row.dstPort, row.protocol⟩

/-- The row with another label. -/
def FeatureRow.relabel (row : FeatureRow) (family : String) (severity generator : Value) :
    FeatureRow :=
  { row with attackFamily := family, severity := severity, generator := generator }

/-- What is read of a sidecar before its entries. -/
structure Sidecar where
  attackType : String
  generatorMode : String
  raw : Value

/-- What is left of the rows, and whether the message about a failure is printed. -/
structure Attachment where
  rows : List FeatureRow
  failed : Bool

/-- The elements a `for` loop meets; `none` for a value that cannot be iterated. -/
def elements : Value → Option (List Value)
  | .list vs => some vs
  | .str s => some (s.toList.map fun c => .str (String.singleton c))
  | .dict kvs => some (kvs.map fun kv => .str kv.1)
  | _ => none

end FeatureExtractor

namespace DatasetHost

open FeatureExtractor

variable (host : DatasetHost)

/-! ### Reading a sidecar -/

/-- The head of a sidecar. What is neither a dictionary nor a list has no entries. -/
def sidecar (data : Value) : Sidecar :=
  match data with
  | .dict kvs =>
    { attackType := host.familyName (host.text ((kvs.lookup "attack").getD (.str "")))
      generatorMode := host.text ((kvs.lookup "generator_mode").getD (.str "dataset"))
      raw := (kvs.lookup "labels").getD ((kvs.lookup "packets").getD (.list [])) }
  | .list vs => ⟨"", "dataset", .list vs⟩
  | _ => ⟨"", "dataset", .list []⟩

/-- The key of an entry; `none` if a conversion raises. -/
def entryKey (entry : Value) : Option LabelKey := do
  let flow ← entry.get "flow" entry
  let srcIp ← flow.get "src_ip" (.str "")
  let dstIp ← flow.get "dst_ip" (.str "")
  let dstPort ← host.int (← flow.get "dst_port" (.num 0))
  let protocol ← flow.get "protocol" (.str "TCP")
  return ⟨host.text srcIp, host.text dstIp, dstPort, host.text protocol⟩

/-- `label_map`; `none` if building it raises. -/
def labelMap (raw : Value) : Option (Dict LabelKey Value) :=
  (elements raw).bind (Dict.accumulateAll host.entryKey fun _ _ entry => entry)

/-! ### Labelling the rows -/

/-- The row with the label of an entry; `none` if reading the entry raises, which it does
before the row is changed. -/
def labelFrom (entry : Value) (row : FeatureRow) : Option FeatureRow := do
  let family ← host.labelFamily entry
  let severity ← entry.get "severity"
    (.str ((FeatureExtractor.severityMap.lookup family).getD "LOW"))
  let generator ← entry.get "generator" row.generator
  return row.relabel family severity generator

/-- The row with the attack of the whole capture. -/
def labelCapture (s : Sidecar) (row : FeatureRow) : FeatureRow :=
  let family := if mentions s.attackType "DGA" then "C2_BEACON" else s.attackType
  row.relabel family (.str ((FeatureExtractor.severityMap.lookup family).getD "HIGH"))
    (.str s.generatorMode)

/-- Whether a capture is of an attack. -/
def IsAttack (s : Sidecar) : Prop := s.attackType ≠ "" ∧ s.attackType ≠ "BENIGN"

instance (s : Sidecar) : Decidable (IsAttack s) := inferInstanceAs (Decidable (_ ∧ _))

/-- One turn of the loop over the rows; `none` if it raises. -/
def labelRow (s : Sidecar) (labels : Dict LabelKey Value) (row : FeatureRow) :
    Option FeatureRow :=
  match labels.get? row.labelKey with
  | some entry => host.labelFrom entry row
  | none => if IsAttack s then some (labelCapture s row) else some row

/-- The loop over the rows. An exception leaves the rows it has not come to. -/
def labelRows (s : Sidecar) (labels : Dict LabelKey Value) : List FeatureRow → Attachment
  | [] => ⟨[], false⟩
  | row :: rows =>
    match host.labelRow s labels row with
    | none => ⟨row :: rows, true⟩
    | some row' =>
      let rest := labelRows s labels rows
      ⟨row' :: rest.rows, rest.failed⟩

/-- `_apply_labels`, for a sidecar that holds a document, or that cannot be opened or
decoded. -/
def applyLabels (document : Option Value) (rows : List FeatureRow) : Attachment :=
  match document with
  | none => ⟨rows, true⟩
  | some data =>
    match host.labelMap (host.sidecar data).raw with
    | none => ⟨rows, true⟩
    | some labels => host.labelRows (host.sidecar data) labels rows

/-! ### What labelling does -/

/-- The entry of a row: the last one with its key. -/
def lastEntry (entries : List Value) (row : FeatureRow) : Option Value :=
  (Dict.withKey host.entryKey row.labelKey entries).getLast?

/-- A row and what it becomes. -/
inductive Labelled (s : Sidecar) (entries : List Value) (row : FeatureRow) : FeatureRow → Prop
  /-- The label of its entry, with the defaults of what the entry does not say. -/
  | entry {kvs : List (String × Value)} {family : String}
      (last : host.lastEntry entries row = some (.dict kvs))
      (hfamily : family = host.familyName (host.text
        ((kvs.lookup "attack_family").getD ((kvs.lookup "label").getD (.str "BENIGN"))))) :
      Labelled s entries row (row.relabel family
        ((kvs.lookup "severity").getD
          (.str ((FeatureExtractor.severityMap.lookup family).getD "LOW")))
        ((kvs.lookup "generator").getD row.generator))
  /-- The attack of the capture. -/
  | capture (last : host.lastEntry entries row = none) (attack : IsAttack s) :
      Labelled s entries row (labelCapture s row)
  | unchanged (last : host.lastEntry entries row = none) (benign : ¬ IsAttack s) :
      Labelled s entries row row

variable {host} {s : Sidecar} {entries : List Value}

/-- An entry with a key is a dictionary. -/
theorem exists_dict_of_entryKey {entry : Value} (h : (host.entryKey entry).isSome) :
    ∃ kvs, entry = .dict kvs := by
  cases entry with
  | dict kvs => exact ⟨kvs, rfl⟩
  | _ => exact absurd h Bool.false_ne_true

/-- Where building the map does not raise, it maps the key of each row to its entry. -/
theorem get?_labelMap {raw : Value} {labels : Dict LabelKey Value}
    (h : host.labelMap raw = some labels) :
    ∃ entries, elements raw = some entries ∧ (∀ entry ∈ entries, (host.entryKey entry).isSome) ∧
      ∀ row : FeatureRow, labels.get? row.labelKey = host.lastEntry entries row := by
  obtain ⟨entries, helements, hall⟩ := Option.bind_eq_some_iff.mp h
  obtain ⟨hkeys, rfl⟩ := (Dict.accumulateAll_eq_some_iff _ _ entries labels).mp hall
  refine ⟨entries, helements, hkeys, fun row => ?_⟩
  -- a later entry replaces an earlier one of the same key
  rw [Dict.get?_accumulate]
  exact Dict.account_latest _

/-- **One row.** A turn of the loop does not raise once the map is built. -/
theorem exists_labelRow {labels : Dict LabelKey Value} {row : FeatureRow}
    (hkeys : ∀ entry ∈ entries, (host.entryKey entry).isSome)
    (hlook : labels.get? row.labelKey = host.lastEntry entries row) :
    ∃ row', host.labelRow s labels row = some row' ∧ host.Labelled s entries row row' := by
  unfold labelRow
  rw [hlook]
  cases hlast : host.lastEntry entries row with
  | none =>
    by_cases hattack : IsAttack s
    · exact ⟨labelCapture s row, if_pos hattack, .capture hlast hattack⟩
    · exact ⟨row, if_neg hattack, .unchanged hlast hattack⟩
  | some entry =>
    -- an entry with a key is a dictionary, and reading one does not raise
    have hmem : entry ∈ entries := List.mem_of_mem_filter (List.mem_of_getLast? hlast)
    obtain ⟨kvs, rfl⟩ := exists_dict_of_entryKey (hkeys entry hmem)
    exact ⟨_, rfl, .entry hlast rfl⟩

/-- **All rows.** The loop comes to its end. -/
theorem labelRows_labelled {labels : Dict LabelKey Value}
    (hkeys : ∀ entry ∈ entries, (host.entryKey entry).isSome)
    (hlook : ∀ row : FeatureRow, labels.get? row.labelKey = host.lastEntry entries row)
    (rows : List FeatureRow) :
    (host.labelRows s labels rows).failed = false ∧
      List.Forall₂ (host.Labelled s entries) rows (host.labelRows s labels rows).rows := by
  induction rows with
  | nil => exact ⟨rfl, .nil⟩
  | cons row rows ih =>
    obtain ⟨row', hrow, hlabelled⟩ := exists_labelRow (s := s) hkeys (hlook row)
    rw [labelRows, hrow]
    exact ⟨ih.1, .cons hlabelled ih.2⟩

/-- A label touches nothing but family, severity and generator. -/
theorem Labelled.exists_relabel {row row' : FeatureRow} (h : host.Labelled s entries row row') :
    ∃ family severity generator, row' = row.relabel family severity generator := by
  cases h with
  | entry last hfamily => exact ⟨_, _, _, rfl⟩
  | capture last attack => exact ⟨_, _, _, rfl⟩
  | unchanged last benign => exact ⟨row.attackFamily, row.severity, row.generator, rfl⟩

theorem applyLabels_of_labelMap_eq_none {data : Value} (rows : List FeatureRow)
    (h : host.labelMap (host.sidecar data).raw = none) :
    host.applyLabels (some data) rows = ⟨rows, true⟩ := by
  unfold applyLabels
  dsimp only
  rw [h]

theorem applyLabels_of_labelMap_eq_some {data : Value} {labels : Dict LabelKey Value}
    (rows : List FeatureRow) (h : host.labelMap (host.sidecar data).raw = some labels) :
    host.applyLabels (some data) rows = host.labelRows (host.sidecar data) labels rows := by
  unfold applyLabels
  dsimp only
  rw [h]

/-- **Labelling is all or nothing.** Whatever the sidecar holds, either building the map fails
and the rows are as they were, or every row is labelled by its last entry, by the attack of
the capture, or not at all; number, order and all other columns of the rows stay. -/
theorem applyLabels_all_or_nothing (host : DatasetHost) (document : Option Value)
    (rows : List FeatureRow) :
    ((document.bind fun data => host.labelMap (host.sidecar data).raw) = none ∧
      host.applyLabels document rows = ⟨rows, true⟩) ∨
    ∃ data entries, document = some data ∧ elements (host.sidecar data).raw = some entries ∧
      (∀ entry ∈ entries, (host.entryKey entry).isSome) ∧
      (host.applyLabels document rows).failed = false ∧
      List.Forall₂ (fun row row' => host.Labelled (host.sidecar data) entries row row' ∧
          ∃ family severity generator, row' = row.relabel family severity generator)
        rows (host.applyLabels document rows).rows := by
  cases document with
  | none => exact .inl ⟨rfl, rfl⟩
  | some data =>
    cases hmap : host.labelMap (host.sidecar data).raw with
    | none => exact .inl ⟨hmap, applyLabels_of_labelMap_eq_none rows hmap⟩
    | some labels =>
      -- from here on nothing raises
      obtain ⟨entries, helements, hkeys, hlook⟩ := get?_labelMap hmap
      obtain ⟨hfailed, hrows⟩ := labelRows_labelled (s := host.sidecar data) hkeys hlook rows
      rw [applyLabels_of_labelMap_eq_some rows hmap]
      refine .inr ⟨data, entries, rfl, helements, hkeys, hfailed, ?_⟩
      exact hrows.imp fun row row' h => ⟨h, h.exists_relabel⟩

/-! ### Extraction -/

/-- The labels of a sidecar, if a path to one is given and exists. -/
def attachLabels (host : DatasetHost) (label : Option (Option Value)) (rows : List FeatureRow) :
    List FeatureRow :=
  match label with
  | none => rows
  | some document => (host.applyLabels document rows).rows

/-- `extract_features` with the Scapy backend. -/
def extractFeatures (host : DatasetHost) (math : PyMath ℚ) (capture : List ScapyPacket)
    (label : Option (Option Value)) : List FeatureRow :=
  attachLabels host label (extractScapy math capture)

/-- Rows stay as they are, or each of them is labelled from one sidecar. -/
theorem attachLabels_cases (host : DatasetHost) (label : Option (Option Value))
    (rows : List FeatureRow) :
    host.attachLabels label rows = rows ∨ ∃ data entries,
      List.Forall₂ (host.Labelled (host.sidecar data) entries) rows
        (host.attachLabels label rows) := by
  cases label with
  | none => exact .inl rfl
  | some document =>
    show (host.applyLabels document rows).rows = rows ∨ ∃ data entries,
      List.Forall₂ (host.Labelled (host.sidecar data) entries) rows
        (host.applyLabels document rows).rows
    cases document with
    | none => exact .inl rfl
    | some data =>
      -- rows are labelled only once the whole map has been built
      cases hmap : host.labelMap (host.sidecar data).raw with
      | none =>
        rw [applyLabels_of_labelMap_eq_none rows hmap]
        exact .inl rfl
      | some labels =>
        obtain ⟨entries, -, hkeys, hlook⟩ := get?_labelMap hmap
        rw [applyLabels_of_labelMap_eq_some rows hmap]
        exact .inr ⟨data, entries, (labelRows_labelled hkeys hlook rows).2⟩

/-- Labelling a list of rows relabels each of them. -/
theorem forall₂_attachLabels (host : DatasetHost) (label : Option (Option Value))
    (rows : List FeatureRow) :
    List.Forall₂ (fun row row' => ∃ family severity generator,
      row' = row.relabel family severity generator) rows (host.attachLabels label rows) := by
  rcases host.attachLabels_cases label rows with hsame | ⟨data, entries, hrows⟩
  · rw [hsame]
    exact List.forall₂_same.mpr fun row _ => ⟨row.attackFamily, row.severity, row.generator, rfl⟩
  · exact hrows.imp fun _ _ h => h.exists_relabel

theorem map_key_attachLabels (host : DatasetHost) (label : Option (Option Value))
    (rows : List FeatureRow) :
    (host.attachLabels label rows).map FeatureRow.key = rows.map FeatureRow.key := by
  have hrows := host.forall₂_attachLabels label rows
  generalize host.attachLabels label rows = rows' at hrows
  induction hrows with
  | nil => rfl
  | cons hrow _ ih =>
    obtain ⟨family, severity, generator, rfl⟩ := hrow
    exact congrArg (List.cons _) ih

end DatasetHost

end Sentrix
