import Mathlib.Data.List.Basic
import Mathlib.Tactic.Common

/-!
# Reading JSON from bytes

What `json.loads` of the host language does with a value that is bytes or nothing: it
guesses the encoding from the first bytes (`detectEncoding`), decodes
(`Encoding.decode`), and scans the text (`scan`). Each of the three can fail, with its
own exception (`JsonError`), and only a text that is no JSON document is a
`JSONDecodeError`.

A text is the list of its code points; a lone surrogate is one, as the decoder is asked
to let it pass. The scanner is a machine that is fed code points and keeps the stack of
open containers. It reports the exception that comes first in the text, and it does not
build the document.

Two of the exceptions are limits of the interpreter: on the depth of the stack, and on
the digits of an integer (`JsonLimits`). A text that is shorter than both limits cannot
reach them (`scan_of_short`).
-/

namespace Sentrix

/-- The exceptions of the scanner. -/
inductive ScanError
  /-- The text is not a JSON document. -/
  | jsonDecodeError
  /-- An integer has too many digits. -/
  | valueError
  /-- Containers are nested too deeply. -/
  | recursionError
deriving DecidableEq

/-- The exceptions of `json.loads`. -/
inductive JsonError
  /-- The value is neither a string nor bytes. -/
  | typeError
  /-- The bytes are not in the encoding they were taken for. -/
  | unicodeDecodeError
  | scan (e : ScanError)
deriving DecidableEq

/-- The limits of an interpreter. -/
structure JsonLimits where
  /-- The number of containers that can be open. -/
  recursion : ℕ
  /-- `sys.get_int_max_str_digits`, and `none` for no limit. -/
  intDigits : Option ℕ

namespace Json

/-! ### Encodings -/

inductive Encoding
  | utf8 | utf8Sig
  | utf16 | utf16Be | utf16Le
  | utf32 | utf32Be | utf32Le
deriving DecidableEq

/-- `detect_encoding`. -/
def detectEncoding (b : List UInt8) : Encoding :=
  if [0x00, 0x00, 0xFE, 0xFF] <+: b ∨ [0xFF, 0xFE, 0x00, 0x00] <+: b then .utf32
  else if [0xFE, 0xFF] <+: b ∨ [0xFF, 0xFE] <+: b then .utf16
  else if [0xEF, 0xBB, 0xBF] <+: b then .utf8Sig
  else
    match b with
    | b₀ :: b₁ :: b₂ :: b₃ :: _ =>
      if b₀ = 0 then (if b₁ ≠ 0 then .utf16Be else .utf32Be)
      else if b₁ = 0 then (if b₂ ≠ 0 ∨ b₃ ≠ 0 then .utf16Le else .utf32Le)
      else .utf8
    | [b₀, b₁] => if b₀ = 0 then .utf16Be else if b₁ = 0 then .utf16Le else .utf8
    | _ => .utf8

/-- A byte that continues a character. -/
def IsTail (b : UInt8) : Prop := 0x80 ≤ b ∧ b ≤ 0xBF

instance (b : UInt8) : Decidable (IsTail b) := inferInstanceAs (Decidable (_ ∧ _))

/-- The six bits a continuation adds. -/
def extend (high : ℕ) (b : UInt8) : ℕ := high * 64 + (b.toNat - 0x80)

/-- The first two bytes of a character of three; those of surrogates are let pass. -/
def StartsThree (a b : UInt8) : Prop := (a = 0xE0 ∧ 0xA0 ≤ b) ∨ (0xE1 ≤ a ∧ a ≤ 0xEF)

/-- The first two bytes of a character of four. -/
def StartsFour (a b : UInt8) : Prop :=
  (a = 0xF0 ∧ 0x90 ≤ b) ∨ (0xF1 ≤ a ∧ a ≤ 0xF3) ∨ (a = 0xF4 ∧ b ≤ 0x8F)

instance (a b : UInt8) : Decidable (StartsThree a b) := inferInstanceAs (Decidable (_ ∨ _))

instance (a b : UInt8) : Decidable (StartsFour a b) := inferInstanceAs (Decidable (_ ∨ _))

/-- UTF-8. -/
def decodeUtf8 : List UInt8 → Option (List ℕ)
  | [] => some []
  | a :: bs =>
    if a < 0x80 then (decodeUtf8 bs).map (a.toNat :: ·)
    else
      match bs with
      | [] => none
      | b :: bs =>
        if ¬ IsTail b then none
        else if 0xC2 ≤ a ∧ a ≤ 0xDF then
          (decodeUtf8 bs).map (extend (a.toNat - 0xC0) b :: ·)
        else
          match bs with
          | [] => none
          | c :: bs =>
            if ¬ IsTail c then none
            else if StartsThree a b then
              (decodeUtf8 bs).map (extend (extend (a.toNat - 0xE0) b) c :: ·)
            else
              match bs with
              | [] => none
              | d :: bs =>
                if IsTail d ∧ StartsFour a b then
                  (decodeUtf8 bs).map (extend (extend (extend (a.toNat - 0xF0) b) c) d :: ·)
                else none

/-- The number two bytes stand for. -/
def unit16 (bigEndian : Bool) (a b : UInt8) : ℕ :=
  if bigEndian then a.toNat * 256 + b.toNat else b.toNat * 256 + a.toNat

/-- The code units of UTF-16. -/
def units16 (bigEndian : Bool) : List UInt8 → Option (List ℕ)
  | [] => some []
  | [_] => none
  | a :: b :: bs => (units16 bigEndian bs).map (unit16 bigEndian a b :: ·)

/-- A high surrogate is joined with a low one behind it; any other is let pass. -/
def joinSurrogates : List ℕ → List ℕ
  | [] => []
  | [u] => [u]
  | u :: v :: us =>
    if 0xD800 ≤ u ∧ u ≤ 0xDBFF ∧ 0xDC00 ≤ v ∧ v ≤ 0xDFFF then
      (0x10000 + (u - 0xD800) * 1024 + (v - 0xDC00)) :: joinSurrogates us
    else u :: joinSurrogates (v :: us)

/-- UTF-16. -/
def decodeUtf16 (bigEndian : Bool) (b : List UInt8) : Option (List ℕ) :=
  (units16 bigEndian b).map joinSurrogates

/-- UTF-32. -/
def decodeUtf32 (bigEndian : Bool) : List UInt8 → Option (List ℕ)
  | [] => some []
  | a :: b :: c :: d :: bs =>
    let u :=
      if bigEndian then unit16 true a b * 65536 + unit16 true c d
      else unit16 false c d * 65536 + unit16 false a b
    if u ≤ 0x10FFFF then (decodeUtf32 bigEndian bs).map (u :: ·) else none
  | _ => none

/-- `bytes.decode(encoding, 'surrogatepass')`; a byte order mark is read where the
encoding has one. -/
def Encoding.decode (b : List UInt8) : Encoding → Option (List ℕ)
  | .utf8 => decodeUtf8 b
  | .utf8Sig => decodeUtf8 (if [0xEF, 0xBB, 0xBF] <+: b then b.drop 3 else b)
  | .utf16 =>
    if [0xFE, 0xFF] <+: b then decodeUtf16 true (b.drop 2)
    else if [0xFF, 0xFE] <+: b then decodeUtf16 false (b.drop 2)
    else decodeUtf16 false b
  | .utf16Be => decodeUtf16 true b
  | .utf16Le => decodeUtf16 false b
  | .utf32 =>
    if [0x00, 0x00, 0xFE, 0xFF] <+: b then decodeUtf32 true (b.drop 4)
    else if [0xFF, 0xFE, 0x00, 0x00] <+: b then decodeUtf32 false (b.drop 4)
    else decodeUtf32 false b
  | .utf32Be => decodeUtf32 true b
  | .utf32Le => decodeUtf32 false b

/-- The text in a list of bytes. -/
def text? (b : List UInt8) : Option (List ℕ) := (detectEncoding b).decode b

/-! ### The scanner -/

/-- A list or an object that has been opened. -/
inductive Container
  | array
  | object
deriving DecidableEq

/-- Where in a string the scanner is. -/
inductive StringState
  | plain
  /-- Behind a backslash. -/
  | escape
  /-- In the digits of an escape; so many are missing. -/
  | hex (missing : ℕ)
deriving DecidableEq

/-- Where in a number the scanner is. A number ends before the first character that does
not go on with it, and before a point or an exponent that has no digit: `whole` are the
digits of the integer it is then, and zero if it has a fraction. -/
inductive NumberState
  | minus
  | zero
  | int (digits : ℕ)
  | point (whole : ℕ)
  | fraction
  | exponent (whole : ℕ)
  | exponentSign (whole : ℕ)
  | exponentDigits
deriving DecidableEq

/-- What the scanner expects or is in. -/
inductive ScanState
  /-- A value. -/
  | value
  /-- The first value of an array, or its end. -/
  | arrayStart
  /-- The first key of an object, or its end. -/
  | objectStart
  /-- A key. -/
  | key
  /-- The colon behind a key. -/
  | colon
  /-- What follows a value. -/
  | done
  | string (isKey : Bool) (s : StringState)
  /-- The rest of a literal. -/
  | literal (rest : List ℕ)
  | number (s : NumberState)
deriving DecidableEq

/-- The scanner, or the exception it has raised. -/
inductive Scanner
  | running (state : ScanState) (stack : List Container)
  | failed (e : ScanError)
deriving DecidableEq

/-- `WHITESPACE`: space, tab, newline and carriage return. -/
def IsSpace (c : ℕ) : Prop := c = 32 ∨ c = 9 ∨ c = 10 ∨ c = 13

def IsDigit (c : ℕ) : Prop := 48 ≤ c ∧ c ≤ 57

def IsHex (c : ℕ) : Prop := IsDigit c ∨ (65 ≤ c ∧ c ≤ 70) ∨ (97 ≤ c ∧ c ≤ 102)

instance (c : ℕ) : Decidable (IsSpace c) := inferInstanceAs (Decidable (_ ∨ _))

instance (c : ℕ) : Decidable (IsDigit c) := inferInstanceAs (Decidable (_ ∧ _))

instance (c : ℕ) : Decidable (IsHex c) := inferInstanceAs (Decidable (_ ∨ _))

/-- The characters behind a backslash that stand for one character. -/
def escapes : List ℕ := "\"\\/bfnrt".toList.map Char.toNat

/-- The literals, with their first characters. -/
def literals : List (ℕ × List ℕ) :=
  ["null", "true", "false", "NaN", "Infinity"].filterMap fun l =>
    match l.toList.map Char.toNat with
    | [] => none
    | c :: rest => some (c, rest)

/-- The text is no JSON document. -/
def refuse : Scanner := .failed .jsonDecodeError

/-- A character that opens a value. -/
def openValue (limits : JsonLimits) (stack : List Container) (c : ℕ) : Scanner :=
  -- a quotation mark
  if c = 34 then .running (.string false .plain) stack
  -- a bracket or a brace
  else if c = 91 then
    if limits.recursion ≤ stack.length then .failed .recursionError
    else .running .arrayStart (.array :: stack)
  else if c = 123 then
    if limits.recursion ≤ stack.length then .failed .recursionError
    else .running .objectStart (.object :: stack)
  -- a minus sign or a digit
  else if c = 45 then .running (.number .minus) stack
  else if c = 48 then .running (.number .zero) stack
  else if IsDigit c then .running (.number (.int 1)) stack
  else
    match literals.lookup c with
    | some rest => .running (.literal rest) stack
    | none => refuse

/-- A character behind a value. -/
def afterValue (stack : List Container) (c : ℕ) : Scanner :=
  if IsSpace c then .running .done stack
  else
    match stack with
    -- extra data
    | [] => refuse
    -- a comma, or the closing bracket or brace
    | .array :: rest =>
      if c = 44 then .running .value stack else if c = 93 then .running .done rest else refuse
    | .object :: rest =>
      if c = 44 then .running .key stack else if c = 125 then .running .done rest else refuse

/-- The end of a number before the character `c`. -/
def endNumber (limits : JsonLimits) (stack : List Container) (whole c : ℕ) : Scanner :=
  if limits.intDigits.any fun limit => decide (limit < whole) then .failed .valueError
  else afterValue stack c

/-- A point or an exponent behind the digits of a number. -/
def afterDigits (limits : JsonLimits) (stack : List Container) (whole c : ℕ) : Scanner :=
  if c = 46 then .running (.number (.point whole)) stack
  else if c = 69 ∨ c = 101 then .running (.number (.exponent whole)) stack
  else endNumber limits stack whole c

/-- The end of a number before a point or an exponent, which is extra data. -/
def backOut (limits : JsonLimits) (stack : List Container) (whole : ℕ) : Scanner :=
  endNumber limits stack whole 46

/-- A character of a number, or behind it. -/
def stepNumber (limits : JsonLimits) (stack : List Container) (c : ℕ) : NumberState → Scanner
  | .minus =>
    if c = 48 then .running (.number .zero) stack
    else if IsDigit c then .running (.number (.int 1)) stack
    -- `-Infinity`
    else if c = 73 then .running (.literal ((literals.lookup c).getD [])) stack
    else refuse
  | .zero => afterDigits limits stack 1 c
  | .int digits =>
    if IsDigit c then .running (.number (.int (digits + 1))) stack
    else afterDigits limits stack digits c
  | .point whole =>
    if IsDigit c then .running (.number .fraction) stack else backOut limits stack whole
  | .fraction =>
    if IsDigit c then .running (.number .fraction) stack
    else if c = 69 ∨ c = 101 then .running (.number (.exponent 0)) stack
    else endNumber limits stack 0 c
  | .exponent whole =>
    if IsDigit c then .running (.number .exponentDigits) stack
    else if c = 43 ∨ c = 45 then .running (.number (.exponentSign whole)) stack
    else backOut limits stack whole
  | .exponentSign whole =>
    if IsDigit c then .running (.number .exponentDigits) stack else backOut limits stack whole
  | .exponentDigits =>
    if IsDigit c then .running (.number .exponentDigits) stack else endNumber limits stack 0 c

/-- A character of a string. -/
def stepString (stack : List Container) (isKey : Bool) (c : ℕ) : StringState → Scanner
  | .plain =>
    if c = 34 then .running (if isKey then .colon else .done) stack
    else if c = 92 then .running (.string isKey .escape) stack
    -- control characters
    else if c < 32 then refuse
    else .running (.string isKey .plain) stack
  | .escape =>
    if c ∈ escapes then .running (.string isKey .plain) stack
    else if c = 117 then .running (.string isKey (.hex 4)) stack
    else refuse
  | .hex missing =>
    if IsHex c then
      .running (.string isKey (if missing ≤ 1 then .plain else .hex (missing - 1))) stack
    else refuse

/-- One character. -/
def Scanner.step (limits : JsonLimits) (s : Scanner) (c : ℕ) : Scanner :=
  match s with
  | .failed e => .failed e
  | .running state stack =>
    match state with
    | .value => if IsSpace c then s else openValue limits stack c
    | .arrayStart =>
      if IsSpace c then s
      else if c = 93 then .running .done stack.tail
      else openValue limits stack c
    | .objectStart =>
      if IsSpace c then s
      else if c = 125 then .running .done stack.tail
      else if c = 34 then .running (.string true .plain) stack
      else refuse
    | .key =>
      if IsSpace c then s
      else if c = 34 then .running (.string true .plain) stack
      else refuse
    | .colon => if IsSpace c then s else if c = 58 then .running .value stack else refuse
    | .done => afterValue stack c
    | .string isKey st => stepString stack isKey c st
    | .literal (d :: rest) =>
      if c = d then .running (if rest = [] then .done else .literal rest) stack else refuse
    | .literal [] => refuse
    | .number st => stepNumber limits stack c st

/-- `JSONDecoder.decode` of a text. The end of the text is taken for a space, which ends a
number and goes on with nothing else. -/
def scan (limits : JsonLimits) (text : List ℕ) : Except ScanError Unit :=
  match (text ++ [32]).foldl (Scanner.step limits) (.running .value []) with
  | .running .done [] => .ok ()
  | .running _ _ => .error .jsonDecodeError
  | .failed e => .error e

/-- `json.loads` of a message's value: the text of the document. -/
def loads (limits : JsonLimits) (value : Option (List UInt8)) : Except JsonError (List ℕ) :=
  match value with
  | none => .error .typeError
  | some b =>
    match text? b with
    | none => .error .unicodeDecodeError
    | some text =>
      match scan limits text with
      | .ok () => .ok text
      | .error e => .error (.scan e)

/-! ### Short texts -/

/-- The digits of the integer a number may still be. -/
def ScanState.digits : ScanState → ℕ
  | .number .zero => 1
  | .number (.int digits) => digits
  | .number (.point whole) => whole
  | .number (.exponent whole) => whole
  | .number (.exponentSign whole) => whole
  | _ => 0

/-- A scanner that has read `n` characters of a text: neither the stack nor an integer is
longer than that, and no limit was reached. -/
def Within (n : ℕ) : Scanner → Prop
  | .running state stack => state.digits ≤ n ∧ stack.length ≤ n
  | .failed e => e = .jsonDecodeError

/-- The limits admit `n` open containers and one more, and integers of `n` digits. -/
def Admits (limits : JsonLimits) (n : ℕ) : Prop :=
  n < limits.recursion ∧ ∀ limit, limits.intDigits = some limit → n ≤ limit

section Short

variable {limits : JsonLimits} {n : ℕ} {stack : List Container} {c : ℕ}

theorem within_refuse : Within n refuse := rfl

/-- A character that opens nothing and counts no digit. -/
theorem within_running {state : ScanState} (hdigits : state.digits = 0)
    (hstack : stack.length ≤ n) : Within n (.running state stack) := by
  refine ⟨?_, hstack⟩
  rw [hdigits]
  exact Nat.zero_le n

/-- A value that opens makes the stack at most one deeper. -/
theorem within_openValue (hlimits : Admits limits n) (hstack : stack.length ≤ n) :
    Within (n + 1) (openValue limits stack c) := by
  -- the stack is no deeper than the characters read
  have hroom : ¬ limits.recursion ≤ stack.length := by
    have hlt := hlimits.1
    omega
  have hkeep : stack.length ≤ n + 1 := Nat.le_succ_of_le hstack
  have hpush : ∀ k : Container, (k :: stack).length ≤ n + 1 := fun k => Nat.succ_le_succ hstack
  unfold openValue
  rw [if_neg hroom, if_neg hroom]
  split
  · exact within_running rfl hkeep
  · split
    · exact within_running rfl (hpush _)
    · split
      · exact within_running rfl (hpush _)
      · split
        · exact within_running rfl hkeep
        · split
          · exact ⟨Nat.le_add_left 1 n, hkeep⟩
          · split
            · exact ⟨Nat.le_add_left 1 n, hkeep⟩
            · split
              · exact within_running rfl hkeep
              · exact within_refuse

/-- After a value the stack gets no deeper. -/
theorem within_afterValue (hstack : stack.length ≤ n) :
    Within (n + 1) (afterValue stack c) := by
  have hkeep : stack.length ≤ n + 1 := Nat.le_succ_of_le hstack
  unfold afterValue
  split
  · exact within_running rfl hkeep
  · cases stack with
    | nil => exact within_refuse
    | cons k rest =>
      -- closing a container only makes the stack shorter
      have hpop : rest.length ≤ n + 1 := Nat.le_trans (Nat.le_succ _) hkeep
      cases k <;> dsimp only <;> split
      · exact within_running rfl hkeep
      · split
        · exact within_running rfl hpop
        · exact within_refuse
      · exact within_running rfl hkeep
      · split
        · exact within_running rfl hpop
        · exact within_refuse

/-- A number that ends has no more digits than were read. -/
theorem within_endNumber (hlimits : Admits limits n) (hstack : stack.length ≤ n)
    {whole : ℕ} (hwhole : whole ≤ n) : Within (n + 1) (endNumber limits stack whole c) := by
  have hshort : (limits.intDigits.any fun limit => decide (limit < whole)) = false := by
    cases hlimit : limits.intDigits with
    | none => rfl
    | some limit =>
      have hle := hlimits.2 limit hlimit
      exact decide_eq_false (by omega)
  unfold endNumber
  rw [hshort, if_neg Bool.false_ne_true]
  exact within_afterValue hstack

theorem within_afterDigits (hlimits : Admits limits n) (hstack : stack.length ≤ n)
    {whole : ℕ} (hwhole : whole ≤ n) : Within (n + 1) (afterDigits limits stack whole c) := by
  have hkeep : stack.length ≤ n + 1 := Nat.le_succ_of_le hstack
  unfold afterDigits
  split
  · exact ⟨Nat.le_succ_of_le hwhole, hkeep⟩
  · split
    · exact ⟨Nat.le_succ_of_le hwhole, hkeep⟩
    · exact within_endNumber hlimits hstack hwhole

/-- A number takes at most one more digit. -/
theorem within_stepNumber (hlimits : Admits limits n) (hstack : stack.length ≤ n)
    {st : NumberState} (hdigits : (ScanState.number st).digits ≤ n) :
    Within (n + 1) (stepNumber limits stack c st) := by
  have hkeep : stack.length ≤ n + 1 := Nat.le_succ_of_le hstack
  -- only the digits of the whole part are counted, and a step adds one of them
  cases st with
  | minus =>
    rw [stepNumber]
    split
    · exact ⟨Nat.le_add_left 1 n, hkeep⟩
    · split
      · exact ⟨Nat.le_add_left 1 n, hkeep⟩
      · split
        · exact within_running rfl hkeep
        · exact within_refuse
  | zero => exact within_afterDigits hlimits hstack hdigits
  | int digits =>
    rw [stepNumber]
    split
    · exact ⟨Nat.succ_le_succ hdigits, hkeep⟩
    · exact within_afterDigits hlimits hstack hdigits
  | point whole =>
    rw [stepNumber]
    split
    · exact within_running rfl hkeep
    · exact within_endNumber hlimits hstack hdigits
  | fraction =>
    rw [stepNumber]
    split
    · exact within_running rfl hkeep
    · split
      · exact within_running rfl hkeep
      · exact within_endNumber hlimits hstack (Nat.zero_le n)
  | exponent whole =>
    rw [stepNumber]
    split
    · exact within_running rfl hkeep
    · split
      · exact ⟨Nat.le_succ_of_le hdigits, hkeep⟩
      · exact within_endNumber hlimits hstack hdigits
  | exponentSign whole =>
    rw [stepNumber]
    split
    · exact within_running rfl hkeep
    · exact within_endNumber hlimits hstack hdigits
  | exponentDigits =>
    rw [stepNumber]
    split
    · exact within_running rfl hkeep
    · exact within_endNumber hlimits hstack (Nat.zero_le n)

/-- A string touches neither stack nor digits. -/
theorem within_stepString (hstack : stack.length ≤ n) (isKey : Bool) (st : StringState) :
    Within n (stepString stack isKey c st) := by
  have hstring : ∀ st', Within n (.running (.string isKey st') stack) :=
    fun st' => within_running rfl hstack
  cases st with
  | plain =>
    rw [stepString]
    split
    · cases isKey <;> exact within_running rfl hstack
    · split
      · exact hstring _
      · split
        · exact within_refuse
        · exact hstring _
  | escape =>
    -- inside a string the stack stays as it is
    rw [stepString]
    split
    · exact hstring _
    · split
      · exact hstring _
      · exact within_refuse
  | hex missing =>
    rw [stepString]
    split
    · exact hstring _
    · exact within_refuse

/-- Whitespace is passed over where something else is expected. -/
theorem within_unless_space {state : ScanState} {rest : Scanner} (hdigits : state.digits = 0)
    (hstack : stack.length ≤ n) (hrest : Within n rest) :
    Within n (if IsSpace c then .running state stack else rest) := by
  split
  · exact within_running hdigits hstack
  · exact hrest

/-- One character is accepted. -/
theorem within_accept {state : ScanState} {k : ℕ} {rest : Scanner} (hdigits : state.digits = 0)
    (hstack : stack.length ≤ n) (hrest : Within n rest) :
    Within n (if c = k then .running state stack else rest) := by
  split
  · exact within_running hdigits hstack
  · exact hrest

/-- **One character** opens one container at most, and is one digit at most. -/
theorem Within.step {s : Scanner} (hs : Within n s) (hlimits : Admits limits n) :
    Within (n + 1) (s.step limits c) := by
  cases s with
  | failed e => exact hs
  | running state stack =>
    obtain ⟨hdigits, hstack⟩ := hs
    have hkeep : stack.length ≤ n + 1 := Nat.le_succ_of_le hstack
    have htail : stack.tail.length ≤ n + 1 := by
      rw [List.length_tail]
      omega
    have hkey : Within (n + 1) (if c = 34 then .running (.string true .plain) stack else refuse) :=
      within_accept rfl hkeep within_refuse
    -- whitespace keeps the state, and a bracket changes the stack by one container
    cases state with
    | value => exact within_unless_space rfl hkeep (within_openValue hlimits hstack)
    | arrayStart =>
      refine within_unless_space rfl hkeep ?_
      exact within_accept rfl htail (within_openValue hlimits hstack)
    | objectStart => exact within_unless_space rfl hkeep (within_accept rfl htail hkey)
    | key => exact within_unless_space rfl hkeep hkey
    | colon => exact within_unless_space rfl hkeep (within_accept rfl hkeep within_refuse)
    | done => exact within_afterValue hstack
    | string isKey st => exact within_stepString hkeep isKey st
    | number st => exact within_stepNumber hlimits hstack hdigits
    | literal rest =>
      cases rest with
      | nil => exact within_refuse
      | cons d rest =>
        unfold Scanner.step
        dsimp only
        split
        · split <;> exact within_running rfl hkeep
        · exact within_refuse

/-- **All characters**, while the limits admit them. -/
theorem Within.foldl {N : ℕ} (hlimits : Admits limits N) (cs : List ℕ) {n : ℕ}
    {s : Scanner} (hs : Within n s) (hle : n + cs.length ≤ N + 1) :
    Within (n + cs.length) (cs.foldl (Scanner.step limits) s) := by
  induction cs generalizing n s with
  | nil => exact hs
  | cons c cs ih =>
    rw [List.length_cons] at hle
    -- what the whole text admits, its parts do
    have hhere : Admits limits n := by
      refine ⟨?_, fun limit hlimit => ?_⟩
      · have hlt := hlimits.1
        omega
      · have hdigits := hlimits.2 limit hlimit
        omega
    have hrest := ih (hs.step (c := c) hhere) (by omega)
    rw [List.foldl_cons, List.length_cons, Nat.add_comm cs.length 1, ← Nat.add_assoc]
    exact hrest

/-- **A short text reaches no limit.** Scanning a text that is shorter than the limits
admit succeeds, or finds that it is no JSON document. -/
theorem scan_of_short {text : List ℕ} (hshort : Admits limits text.length) :
    scan limits text = .ok () ∨ scan limits text = .error .jsonDecodeError := by
  have hwithin := Within.foldl hshort (text ++ [32]) (n := 0) (s := .running .value [])
    ⟨Nat.le_refl 0, Nat.le_refl 0⟩ (by rw [List.length_append, List.length_singleton]; omega)
  unfold scan
  generalize (text ++ [32]).foldl (Scanner.step limits) (.running .value []) = s at hwithin
  -- neither limit was reached, so only the decoder's own error is left
  cases s with
  | failed e =>
    right
    rw [show e = .jsonDecodeError from hwithin]
  | running state stack =>
    split
    · exact Or.inl rfl
    · exact Or.inr rfl
    · next heq => cases heq

end Short

end Json

end Sentrix
