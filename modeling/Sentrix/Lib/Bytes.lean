import Mathlib.Data.Nat.Digits.Defs

/-!
# Numbers and frames in bytes

Unsigned numbers of a fixed width, least significant byte first, and formats that are a
sequence of frames: a frame says how long it is, so a reader that is given the bytes of one
frame and whatever follows hands back what follows. Reading a whole file reads frame by frame
until no byte is left (`readAll_append`).
-/

namespace Sentrix

namespace Bytes

/-! ### Numbers -/

/-- The bytes of a number in the given width; what does not fit is cut off. -/
def encodeLE : ℕ → ℕ → List UInt8
  | 0, _ => []
  | width + 1, n => UInt8.ofNat n :: encodeLE width (n / 256)

/-- The number of a list of bytes. -/
def decodeLE (bytes : List UInt8) : ℕ := Nat.ofDigits 256 (bytes.map UInt8.toNat)

/-- A number takes up as many bytes as its width says. -/
@[simp] theorem length_encodeLE (width n : ℕ) : (encodeLE width n).length = width := by
  induction width generalizing n with
  | zero => rfl
  | succ width ih => rw [encodeLE, List.length_cons, ih]

theorem decodeLE_cons (b : UInt8) (bytes : List UInt8) :
    decodeLE (b :: bytes) = b.toNat + 256 * decodeLE bytes := by
  rw [decodeLE, List.map_cons, Nat.ofDigits_cons]
  rfl

/-- Encoding keeps what fits the width. -/
theorem decodeLE_encodeLE (width n : ℕ) : decodeLE (encodeLE width n) = n % 256 ^ width := by
  induction width generalizing n with
  | zero => exact (Nat.mod_one n).symm
  | succ width ih =>
    calc decodeLE (encodeLE (width + 1) n)
        = (UInt8.ofNat n).toNat + 256 * decodeLE (encodeLE width (n / 256)) :=
          decodeLE_cons _ _
      _ = n % 256 + 256 * (n / 256 % 256 ^ width) := by rw [ih, UInt8.toNat_ofNat']
      _ = n % 256 ^ (width + 1) := by rw [pow_succ', Nat.mod_mul]

/-! ### Frames -/

variable {α β : Type*}

/-- The first `n` of a list, and the rest; `none` if there are fewer. -/
def takeExactly (n : ℕ) (l : List β) : Option (List β × List β) :=
  if n ≤ l.length then some (l.take n, l.drop n) else none

/-- What is written in front is taken off again. -/
theorem takeExactly_append (l rest : List β) :
    takeExactly l.length (l ++ rest) = some (l, rest) := by
  have hle : l.length ≤ (l ++ rest).length := by
    rw [List.length_append]
    exact Nat.le_add_right _ _
  unfold takeExactly
  rw [if_pos hle, List.take_left, List.drop_left]

theorem length_of_takeExactly {n : ℕ} {l frame rest : List β}
    (h : takeExactly n l = some (frame, rest)) : frame.length = n := by
  unfold takeExactly at h
  by_cases hle : n ≤ l.length
  · rw [if_pos hle] at h
    obtain ⟨rfl, -⟩ := Prod.mk.inj (Option.some.inj h)
    exact List.length_take_of_le hle
  · rw [if_neg hle] at h
    exact absurd h (Option.some_ne_none _).symm

/-- Read a number. -/
def readLE (width : ℕ) (bytes : List UInt8) : Option (ℕ × List UInt8) :=
  (takeExactly width bytes).map fun split => (decodeLE split.1, split.2)

/-- A number that fits its width is read back, and the rest is left. -/
theorem readLE_encodeLE_append {width n : ℕ} (hn : n < 256 ^ width) (rest : List UInt8) :
    readLE width (encodeLE width n ++ rest) = some (n, rest) := by
  have htake := takeExactly_append (encodeLE width n) rest
  rw [length_encodeLE] at htake
  rw [readLE, htake, Option.map_some, decodeLE_encodeLE, Nat.mod_eq_of_lt hn]

/-- Read frames until nothing is left; `none` if a frame cannot be read, or is empty. -/
def readAll (read : List β → Option (α × List β)) (l : List β) : Option (List α) :=
  match l with
  | [] => some []
  | b :: l =>
    match read (b :: l) with
    | none => none
    | some (a, rest) =>
      if rest.length < (b :: l).length then (readAll read rest).map (a :: ·) else none
termination_by l.length
decreasing_by assumption

variable (read : List β → Option (α × List β))

theorem readAll_nil : readAll read [] = some [] := by
  rw [readAll]

/-- A frame at the front is read first. -/
theorem readAll_append {frame rest : List β} {a : α} (hframe : frame ≠ [])
    (hread : read (frame ++ rest) = some (a, rest)) :
    readAll read (frame ++ rest) = (readAll read rest).map (a :: ·) := by
  obtain ⟨b, l, rfl⟩ := List.exists_cons_of_ne_nil hframe
  have hlt : rest.length < (b :: (l ++ rest)).length := by
    rw [List.length_cons, List.length_append]
    exact Nat.lt_succ_of_le (Nat.le_add_left _ _)
  rw [List.cons_append] at hread ⊢
  rw [readAll]
  simp only [hread, if_pos hlt]

/-- What is read of a list that is not empty begins with its first frame. -/
theorem exists_of_readAll_eq_some {l : List β} {as : List α} (hl : l ≠ [])
    (h : readAll read l = some as) :
    ∃ a rest as', read l = some (a, rest) ∧ as = a :: as' := by
  obtain ⟨b, l, rfl⟩ := List.exists_cons_of_ne_nil hl
  rw [readAll] at h
  cases hread : read (b :: l) with
  | none =>
    simp only [hread] at h
    exact absurd h (Option.some_ne_none _).symm
  | some frame =>
    obtain ⟨a, rest⟩ := frame
    simp only [hread] at h
    -- a frame that does not shorten the input is an error
    by_cases hlt : rest.length < (b :: l).length
    · rw [if_pos hlt] at h
      obtain ⟨as', -, rfl⟩ := Option.map_eq_some_iff.mp h
      exact ⟨a, rest, as', rfl, rfl⟩
    · rw [if_neg hlt] at h
      exact absurd h (Option.some_ne_none _).symm

end Bytes

end Sentrix
