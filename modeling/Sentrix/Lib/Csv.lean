import Mathlib.Data.List.Basic
import Mathlib.Order.Basic

/-!
# Comma-separated values

The writer and the reader of the `excel` dialect: commas between the fields, `\r\n` after a
record, and quotes around a field with a character that would end it.

A quoted field may have line breaks of its own, so the reader takes the characters of the
file one by one, and the ends of its lines besides. It raises at the first field with more
characters than a limit allows, and then there is nothing more to read. What was written is
read back up to the first record with such a field (`read_write`).
-/

namespace Sentrix

namespace Csv

/-! ### Writing -/

def isLineBreak (c : Char) : Bool := decide (c = '\r' ∨ c = '\n')

/-- The characters a field is quoted for. -/
def isSpecial (c : Char) : Bool := decide (c = ',' ∨ c = '"') || isLineBreak c

/-- The field with its quotes doubled. -/
def doubleQuotes (w : List Char) : List Char :=
  w.flatMap fun c => if c = '"' then ['"', '"'] else [c]

def quoted (w : List Char) : List Char := '"' :: (doubleQuotes w ++ ['"'])

def writeField (w : List Char) : List Char := if w.any isSpecial then quoted w else w

/-- A record. A single empty field is quoted, for an empty line is a record with none. -/
def writeRecord (fields : List (List Char)) : List Char :=
  (if fields = [[]] then quoted [] else [','].intercalate (fields.map writeField)) ++
    ['\r', '\n']

def write (records : List (List (List Char))) : List Char := records.flatMap writeRecord

/-! ### Reading -/

inductive Phase where
  | startRecord
  | startField
  | inField
  | inQuotedField
  | quoteInQuotedField
  /-- Behind the line break that ends a record. -/
  | eatCrnl
deriving DecidableEq

/-- What the reader keeps of the record it is reading. -/
structure Reader where
  phase : Phase
  field : List Char
  fields : List (List Char)

/-- The reader in front of a record. -/
def Reader.start : Reader := ⟨.startRecord, [], []⟩

namespace Reader

variable (limit : ℕ) (r : Reader)

def goto (phase : Phase) : Reader := { r with phase := phase }

def saveField : Reader := { r with field := [], fields := r.fields ++ [r.field] }

/-- `none` if the field is larger than the limit. -/
def addChar (c : Char) : Option Reader :=
  if limit ≤ r.field.length then none else some { r with field := r.field ++ [c] }

/-- A character in front of a field. -/
def beginField (c : Char) : Option Reader :=
  if isLineBreak c then some (r.saveField.goto .eatCrnl)
  else if c = '"' then some (r.goto .inQuotedField)
  else if c = ',' then some (r.saveField.goto .startField)
  else (r.goto .inField).addChar limit c

/-- A character of the file; `none` if it is an error. -/
def processChar (c : Char) : Option Reader :=
  match r.phase with
  | .startRecord => if isLineBreak c then some (r.goto .eatCrnl) else r.beginField limit c
  | .startField => r.beginField limit c
  | .inField =>
    if isLineBreak c then some (r.saveField.goto .eatCrnl)
    else if c = ',' then some (r.saveField.goto .startField)
    else r.addChar limit c
  | .inQuotedField =>
    if c = '"' then some (r.goto .quoteInQuotedField) else r.addChar limit c
  | .quoteInQuotedField =>
    if c = '"' then (r.goto .inQuotedField).addChar limit c
    else if c = ',' then some (r.saveField.goto .startField)
    else if isLineBreak c then some (r.saveField.goto .eatCrnl)
    else (r.goto .inField).addChar limit c
  | .eatCrnl => if isLineBreak c then some r else none

/-- The end of a line. A quoted field goes on behind it. -/
def endLine : Reader :=
  match r.phase with
  | .startRecord | .inQuotedField => r
  | .startField | .inField | .quoteInQuotedField => r.saveField.goto .startRecord
  | .eatCrnl => r.goto .startRecord

end Reader

/-- Whether a line of a file ends behind a character. Its line breaks are kept as they are. -/
def endsLine (c : Char) (rest : List Char) : Bool :=
  decide (c = '\n' ∨ (c = '\r' ∧ rest.head? ≠ some '\n') ∨ rest = [])

/-- The records in the rest of a file; `none` is an error, which ends the reading. -/
def readFrom (limit : ℕ) (r : Reader) : List Char → List (Option (List (List Char)))
  | [] => if r.field ≠ [] ∨ r.phase = .inQuotedField then [some r.saveField.fields] else []
  | c :: rest =>
    match r.processChar limit c with
    | none => [none]
    | some s =>
      if endsLine c rest then
        if s.endLine.phase = .startRecord then
          some s.endLine.fields :: readFrom limit .start rest
        else readFrom limit s.endLine rest
      else readFrom limit s rest

/-- The records of a file. -/
def read (limit : ℕ) (text : List Char) : List (Option (List (List Char))) :=
  readFrom limit .start text

/-! ### Reading one character -/

variable {limit : ℕ} {r s : Reader} {c : Char} {w : List Char} {fields : List (List Char)}

/-- Only what the next character does tells readers apart. -/
theorem readFrom_congr (h : r.processChar limit c = s.processChar limit c) (rest : List Char) :
    readFrom limit r (c :: rest) = readFrom limit s (c :: rest) := by
  rw [readFrom, readFrom, h]

theorem readFrom_of_error (h : r.processChar limit c = none) (rest : List Char) :
    readFrom limit r (c :: rest) = [none] := by
  rw [readFrom, h]

/-- Inside of a line the reader goes on. -/
theorem readFrom_of_char {rest : List Char} (h : r.processChar limit c = some s)
    (hend : endsLine c rest = false) :
    readFrom limit r (c :: rest) = readFrom limit s rest := by
  rw [readFrom, h]
  exact if_neg (Bool.eq_false_iff.mp hend)

/-- A line break does not end a quoted field. -/
theorem readFrom_of_quoted {rest : List Char} (h : r.processChar limit c = some s)
    (hquoted : s.phase = .inQuotedField) :
    readFrom limit r (c :: rest) = readFrom limit s rest := by
  have hend : s.endLine = s := by
    rw [Reader.endLine, hquoted]
  rw [readFrom, h]
  dsimp only
  rw [hend, hquoted]
  by_cases hline : endsLine c rest
  · rw [if_pos hline]
    exact if_neg Phase.noConfusion
  · exact if_neg hline

theorem endsLine_eq_false {rest : List Char} (hc : isLineBreak c = false) (hrest : rest ≠ []) :
    endsLine c rest = false := by
  have hno : ¬(c = '\r' ∨ c = '\n') := of_decide_eq_false hc
  apply decide_eq_false
  rintro (h | ⟨h, -⟩ | h)
  · exact hno (.inr h)
  · exact hno (.inl h)
  · exact hrest h

/-- **One more character of a field.** -/
theorem readFrom_of_addChar {p : Phase} {rest : List Char}
    (h : r.processChar limit c = Reader.addChar limit ⟨p, w, fields⟩ c)
    (hgo : p = .inQuotedField ∨ endsLine c rest = false) :
    readFrom limit r (c :: rest) =
      if w.length < limit then readFrom limit ⟨p, w ++ [c], fields⟩ rest else [none] := by
  by_cases hlt : w.length < limit
  · have hadd : Reader.addChar limit ⟨p, w, fields⟩ c = some ⟨p, w ++ [c], fields⟩ :=
      if_neg (Nat.not_le.mpr hlt)
    rw [if_pos hlt]
    rcases hgo with hp | hend
    · exact readFrom_of_quoted (h.trans hadd) hp
    · exact readFrom_of_char (h.trans hadd) hend
  · -- the field is at its limit: the reader raises
    have hfull : Reader.addChar limit ⟨p, w, fields⟩ c = none := if_pos (Nat.not_lt.mp hlt)
    rw [if_neg hlt]
    exact readFrom_of_error (h.trans hfull) rest

/-! ### Reading one field -/

variable {v : List Char} {rest : List Char}

/-- Room for one character, and then for the others. -/
theorem ite_length_cons {α : Type*} (x y : α) :
    (if v.length < limit then if (v ++ [c] ++ w).length ≤ limit then x else y else y) =
      if (v ++ c :: w).length ≤ limit then x else y := by
  rw [List.append_assoc, List.singleton_append]
  by_cases hlt : v.length < limit
  · rw [if_pos hlt]
  · have hlong : ¬(v ++ c :: w).length ≤ limit := by
      rw [List.length_append, List.length_cons]
      omega
    rw [if_neg hlt, if_neg hlong]

/-- **The characters of a field**, however each is written, are read up to its end unless
there are too many. -/
theorem readFrom_flatMap {p : Phase} {encode : Char → List Char} (hv : v.length ≤ limit)
    (hrest : rest ≠ [])
    (hstep : ∀ c ∈ w, ∀ v rest : List Char, rest ≠ [] →
      readFrom limit ⟨p, v, fields⟩ (encode c ++ rest) =
        if v.length < limit then readFrom limit ⟨p, v ++ [c], fields⟩ rest else [none]) :
    readFrom limit ⟨p, v, fields⟩ (w.flatMap encode ++ rest) =
      if (v ++ w).length ≤ limit then readFrom limit ⟨p, v ++ w, fields⟩ rest else [none] := by
  induction w generalizing v with
  | nil =>
    rw [List.append_nil, if_pos hv]
    rfl
  | cons c w ih =>
    have hfirst := hstep c List.mem_cons_self v (w.flatMap encode ++ rest)
      (List.append_ne_nil_of_right_ne_nil _ hrest)
    rw [List.flatMap_cons, List.append_assoc, hfirst, ← ite_length_cons]
    -- the limit is met here or somewhere in the rest
    by_cases hlt : v.length < limit
    · have hlen : (v ++ [c]).length ≤ limit := by
        rw [List.length_append]
        exact hlt
      rw [if_pos hlt, if_pos hlt, ih hlen fun d hd => hstep d (List.mem_cons_of_mem c hd),
        List.append_assoc, List.singleton_append]
    · rw [if_neg hlt, if_neg hlt]

/-- A character between the quotes of a field. -/
theorem readFrom_doubled (c : Char) (v : List Char) (_ : rest ≠ []) :
    readFrom limit ⟨.inQuotedField, v, fields⟩
        ((if c = '"' then ['"', '"'] else [c]) ++ rest) =
      if v.length < limit then readFrom limit ⟨.inQuotedField, v ++ [c], fields⟩ rest
      else [none] := by
  by_cases hc : c = '"'
  · -- the first quote might be the last one, the second one says that it is not
    subst hc
    rw [if_pos rfl, List.cons_append, List.singleton_append]
    rw [readFrom_of_char (s := ⟨.quoteInQuotedField, v, fields⟩) rfl
      (endsLine_eq_false rfl (List.cons_ne_nil _ _))]
    exact readFrom_of_addChar rfl (.inl rfl)
  · rw [if_neg hc, List.singleton_append]
    exact readFrom_of_addChar (if_neg hc) (.inl rfl)

/-- Whether a field is complete if it ends here. -/
def Phase.EndsField (p : Phase) : Prop := p ∈ [startField, inField, quoteInQuotedField]

instance (p : Phase) : Decidable p.EndsField := inferInstanceAs (Decidable (_ ∈ _))

theorem isSpecial_eq_false (h : isSpecial c = false) :
    c ≠ ',' ∧ c ≠ '"' ∧ isLineBreak c = false := by
  obtain ⟨hc, hline⟩ := Bool.or_eq_false_iff.mp h
  have hno := not_or.mp (of_decide_eq_false hc)
  exact ⟨hno.1, hno.2, hline⟩

/-- A character of a field without quotes. -/
theorem processChar_inField (hc : isSpecial c = false) (v : List Char) :
    Reader.processChar limit ⟨.inField, v, fields⟩ c =
      Reader.addChar limit ⟨.inField, v, fields⟩ c := by
  obtain ⟨hcomma, -, hline⟩ := isSpecial_eq_false hc
  unfold Reader.processChar
  dsimp only
  rw [if_neg (Bool.eq_false_iff.mp hline), if_neg hcomma]

/-- The first one takes the reader into the field. -/
theorem processChar_startField (hc : isSpecial c = false) :
    Reader.processChar limit ⟨.startField, [], fields⟩ c =
      Reader.processChar limit ⟨.inField, [], fields⟩ c := by
  obtain ⟨hcomma, hquote, hline⟩ := isSpecial_eq_false hc
  rw [processChar_inField hc]
  unfold Reader.processChar Reader.beginField
  dsimp only
  rw [if_neg (Bool.eq_false_iff.mp hline), if_neg hquote, if_neg hcomma]
  rfl

/-- A field without quotes. -/
theorem readFrom_plain {out : List (Option (List (List Char)))} (hrest : rest ≠ [])
    (hend : ∀ p : Phase, p.EndsField → readFrom limit ⟨p, w, fields⟩ rest = out)
    (hplain : ∀ c ∈ w, isSpecial c = false) :
    readFrom limit ⟨.startField, [], fields⟩ (w ++ rest) =
      if w.length ≤ limit then out else [none] := by
  have hstep : ∀ c ∈ w, ∀ v rest : List Char, rest ≠ [] →
      readFrom limit ⟨.inField, v, fields⟩ ([c] ++ rest) =
        if v.length < limit then readFrom limit ⟨.inField, v ++ [c], fields⟩ rest
        else [none] := by
    intro c hc v rest hrest
    have hline := (isSpecial_eq_false (hplain c hc)).2.2
    exact readFrom_of_addChar (processChar_inField (hplain c hc) v)
      (.inr (endsLine_eq_false hline hrest))
  have hrun := readFrom_flatMap (v := []) (Nat.zero_le limit) hrest hstep
  rw [List.flatMap_singleton', List.nil_append] at hrun
  -- an empty field ends where it starts; any other one leaves the start by its first character
  cases w with
  | nil => exact (hend .startField (by decide)).trans (if_pos (Nat.zero_le limit)).symm
  | cons c w =>
    rw [List.cons_append, readFrom_congr (processChar_startField (hplain c List.mem_cons_self)),
      ← List.cons_append, hrun, hend .inField (by decide)]

/-- **A field** is read back, and what it ends with is read behind it. -/
theorem readFrom_writeField {out : List (Option (List (List Char)))} (hrest : rest ≠ [])
    (hend : ∀ p : Phase, p.EndsField → readFrom limit ⟨p, w, fields⟩ rest = out) :
    readFrom limit ⟨.startField, [], fields⟩ (writeField w ++ rest) =
      if w.length ≤ limit then out else [none] := by
  unfold writeField
  by_cases hany : w.any isSpecial
  · -- behind the closing quote the field is complete
    have hclose : readFrom limit ⟨.inQuotedField, w, fields⟩ ('"' :: rest) = out :=
      calc readFrom limit ⟨.inQuotedField, w, fields⟩ ('"' :: rest)
          = readFrom limit ⟨.quoteInQuotedField, w, fields⟩ rest :=
            readFrom_of_char rfl (endsLine_eq_false rfl hrest)
        _ = out := hend _ (by decide)
    rw [if_pos hany, quoted, List.cons_append, List.append_assoc, List.singleton_append,
      readFrom_of_quoted (s := ⟨.inQuotedField, [], fields⟩) rfl rfl, doubleQuotes,
      readFrom_flatMap (Nat.zero_le limit) (List.cons_ne_nil _ _)
        fun c _ v _ => readFrom_doubled c v,
      List.nil_append, hclose]
  · rw [if_neg hany]
    refine readFrom_plain hrest hend fun c hc => Bool.eq_false_iff.mpr fun hspecial => ?_
    exact hany (List.any_eq_true.mpr ⟨c, hc, hspecial⟩)

/-! ### Reading what was written -/

/-- The record that is complete at a line break. -/
theorem readFrom_eatCrnl (rest : List Char) :
    readFrom limit ⟨.eatCrnl, [], fields⟩ ('\n' :: rest) =
      some fields :: readFrom limit .start rest := by
  rfl

section EndsField

variable {p : Phase} (hp : p.EndsField)
include hp

theorem readFrom_comma (hrest : rest ≠ []) :
    readFrom limit ⟨p, w, fields⟩ (',' :: rest) =
      readFrom limit ⟨.startField, [], fields ++ [w]⟩ rest := by
  have hsave : Reader.processChar limit ⟨p, w, fields⟩ ',' =
      some ⟨.startField, [], fields ++ [w]⟩ := by
    cases p <;> first | rfl | exact absurd hp (by decide)
  exact readFrom_of_char hsave (endsLine_eq_false rfl hrest)

theorem readFrom_crlf (rest : List Char) :
    readFrom limit ⟨p, w, fields⟩ ('\r' :: '\n' :: rest) =
      some (fields ++ [w]) :: readFrom limit .start rest := by
  have hsave : Reader.processChar limit ⟨p, w, fields⟩ '\r' =
      some ⟨.eatCrnl, [], fields ++ [w]⟩ := by
    cases p <;> first | rfl | exact absurd hp (by decide)
  exact (readFrom_of_char hsave rfl).trans (readFrom_eatCrnl rest)

end EndsField

/-- Whether no field of a record is too large. -/
def Fits (limit : ℕ) (fields : List (List Char)) : Prop := ∀ w ∈ fields, w.length ≤ limit

instance (limit : ℕ) (fields : List (List Char)) : Decidable (Fits limit fields) :=
  inferInstanceAs (Decidable (∀ w ∈ fields, w.length ≤ limit))

theorem readFrom_intercalate (limit : ℕ) (fields : List (List Char)) {ws : List (List Char)}
    (hws : ws ≠ []) (rest : List Char) :
    readFrom limit ⟨.startField, [], fields⟩
        ([','].intercalate (ws.map writeField) ++ '\r' :: '\n' :: rest) =
      if Fits limit ws then some (fields ++ ws) :: readFrom limit .start rest else [none] := by
  induction ws generalizing fields with
  | nil => exact absurd rfl hws
  | cons w ws ih =>
    have hsplit (a b : List (Option (List (List Char)))) :
        (if Fits limit (w :: ws) then a else b) =
          if w.length ≤ limit then if Fits limit ws then a else b else b := by
      rw [← ite_and]
      exact if_congr List.forall_mem_cons rfl rfl
    rw [hsplit]
    cases ws with
    | nil =>
      -- the last field ends with the line
      rw [List.map_singleton, List.intercalate_singleton,
        readFrom_writeField (List.cons_ne_nil _ _) fun p hp => readFrom_crlf hp rest,
        if_pos (show Fits limit [] from fun _ h => absurd h List.not_mem_nil)]
    | cons w' ws =>
      -- every other one with a comma
      have hrest : [','].intercalate ((w' :: ws).map writeField) ++ '\r' :: '\n' :: rest ≠ [] :=
        List.append_ne_nil_of_right_ne_nil _ (List.cons_ne_nil _ _)
      rw [List.map_cons, List.map_cons, List.intercalate_cons_cons, ← List.map_cons,
        List.append_assoc, List.append_assoc, List.singleton_append,
        readFrom_writeField (List.cons_ne_nil _ _) fun p hp => readFrom_comma hp hrest,
        ih _ (List.cons_ne_nil _ _), List.append_assoc, List.singleton_append]

/-- A field that is not empty does not begin with a line break. -/
theorem exists_writeField_eq_cons (hw : w ≠ []) :
    ∃ c t, writeField w = c :: t ∧ isLineBreak c = false := by
  unfold writeField
  by_cases hany : w.any isSpecial
  · exact ⟨_, _, if_pos hany, rfl⟩
  · obtain ⟨c, t, rfl⟩ := List.exists_cons_of_ne_nil hw
    refine ⟨c, t, if_neg hany, ?_⟩
    rw [List.any_cons, Bool.or_eq_true, not_or] at hany
    exact (isSpecial_eq_false (Bool.eq_false_iff.mpr hany.1)).2.2

/-- A line with fields begins with one. -/
theorem exists_intercalate_eq_cons {ws : List (List Char)} (hws : w :: ws ≠ [[]]) :
    ∃ c t, [','].intercalate ((w :: ws).map writeField) = c :: t ∧ isLineBreak c = false := by
  cases ws with
  | nil =>
    have hw : w ≠ [] := fun h => hws (congrArg (fun w => [w]) h)
    rw [List.map_singleton, List.intercalate_singleton]
    exact exists_writeField_eq_cons hw
  | cons w' ws =>
    rw [List.map_cons, List.map_cons, List.intercalate_cons_cons]
    by_cases hw : w = []
    · -- an empty first field is followed by a comma
      subst hw
      exact ⟨',', _, rfl, rfl⟩
    · obtain ⟨c, t, hct, hc⟩ := exists_writeField_eq_cons hw
      rw [hct]
      exact ⟨c, _, rfl, hc⟩

/-- **A record** is read back, unless one of its fields is too large. -/
theorem readFrom_writeRecord (ws : List (List Char)) (rest : List Char) :
    readFrom limit .start (writeRecord ws ++ rest) =
      if Fits limit ws then some ws :: readFrom limit .start rest else [none] := by
  unfold writeRecord
  by_cases hempty : ws = [[]]
  · -- the quotes of the field are all there is
    subst hempty
    have hfits : Fits limit [[]] := fun w hw => by
      rw [List.mem_singleton.mp hw]
      exact Nat.zero_le limit
    rw [if_pos rfl, if_pos hfits]
    calc readFrom limit .start (quoted [] ++ ['\r', '\n'] ++ rest)
        = readFrom limit ⟨.inQuotedField, [], []⟩ ('"' :: '\r' :: '\n' :: rest) :=
          readFrom_of_quoted rfl rfl
      _ = readFrom limit ⟨.quoteInQuotedField, [], []⟩ ('\r' :: '\n' :: rest) :=
          readFrom_of_char rfl rfl
      _ = some [[]] :: readFrom limit .start rest := readFrom_crlf (by decide) rest
  · rw [if_neg hempty, List.append_assoc]
    show readFrom limit .start
      ([','].intercalate (ws.map writeField) ++ '\r' :: '\n' :: rest) = _
    rcases ws with _ | ⟨w, ws⟩
    · -- an empty line is a record without fields
      have hfits : Fits limit [] := fun _ h => absurd h List.not_mem_nil
      rw [if_pos hfits]
      exact (readFrom_of_char rfl rfl).trans (readFrom_eatCrnl rest)
    · -- the line does not begin with a line break, so a field begins
      obtain ⟨c, t, htext, hc⟩ := exists_intercalate_eq_cons hempty
      have hfields := readFrom_intercalate limit [] (List.cons_ne_nil w ws) rest
      rw [List.nil_append, htext, List.cons_append] at hfields
      rw [htext, List.cons_append, ← hfields]
      refine readFrom_congr ?_ _
      exact if_neg (Bool.eq_false_iff.mp hc)

/-- The records up to the first one with a field that is too large. -/
def upToError (limit : ℕ) : List (List (List Char)) → List (Option (List (List Char)))
  | [] => []
  | ws :: records =>
    if Fits limit ws then some ws :: upToError limit records else [none]

/-- **What was written is read back**, up to the first record with a field that is too
large. -/
theorem read_write (limit : ℕ) (records : List (List (List Char))) :
    read limit (write records) = upToError limit records := by
  induction records with
  | nil => rfl
  | cons ws records ih =>
    show readFrom limit .start (writeRecord ws ++ write records) = _
    rw [readFrom_writeRecord, upToError, ← ih]
    rfl

end Csv

end Sentrix
