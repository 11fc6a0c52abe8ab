import Mathlib.Data.List.Basic

/-!
# Replacing characters

`String.replace` searches the text for a pattern and joins what is between the matches. For a
pattern of one character that is a replacement character by character (`toList_replace`). What
is shown about the search is an induction over its steps: it matches at a position, or it
skips a slice the pattern occurs nowhere in.

Upper case, which is a replacement as well, is done when it is done once.
-/

namespace Sentrix

namespace Texts

open String Slice Slice.Pattern Slice.Pattern.Model

variable {pat b : String} {a : Char}

theorem flatMap_eq_self {b l : List Char} (h : a ∉ l) :
    (l.flatMap fun c => if c = a then b else [c]) = l := by
  induction l with
  | nil => rfl
  | cons c l ih =>
    rw [List.flatMap_cons, if_neg (List.ne_of_not_mem_cons h).symm,
      ih (List.not_mem_of_not_mem_cons h)]
    rfl

/-- What is behind a position is split at a later one. -/
theorem splits_slice {s : Slice} {p q : s.Pos} (hle : p ≤ q) {t₁ t₂ : String}
    (h : p.Splits t₁ t₂) :
    t₂ = (s.slice p q hle).copy ++ (s.sliceFrom q).copy ∧
      q.Splits (t₁ ++ (s.slice p q hle).copy) (s.sliceFrom q).copy := by
  have hcopy : s.copy =
      (s.sliceTo p).copy ++ (s.slice p q hle).copy ++ (s.sliceFrom q).copy :=
    Slice.copy_eq_copy_slice
  obtain rfl := h.eq_left p.splits
  obtain rfl := h.eq_right p.splits
  -- the whole is front, slice and back, whichever way it is cut
  have hback : (s.sliceFrom p).copy = (s.slice p q hle).copy ++ (s.sliceFrom q).copy := by
    apply String.toList_injective
    have hlist := congrArg String.toList (p.splits.eq_append.symm.trans hcopy)
    simp only [String.toList_append, List.append_assoc] at hlist ⊢
    exact List.append_cancel_left hlist
  have hfront : (s.sliceTo q).copy = (s.sliceTo p).copy ++ (s.slice p q hle).copy := by
    apply String.toList_injective
    have hlist := congrArg String.toList (q.splits.eq_append.symm.trans hcopy)
    simp only [String.toList_append] at hlist ⊢
    exact List.append_cancel_right hlist
  refine ⟨hback, ?_⟩
  rw [← hfront]
  exact q.splits

/-- A slice that no match begins in does not have the character. -/
theorem not_mem_slice {s : Slice} {p q : s.Pos} (hpat : pat.toList = [a]) (hle : p ≤ q)
    {t₁ t₂ : String} (h : p.Splits t₁ t₂)
    (hno : ∀ r : s.Pos, p ≤ r → r < q → ¬ MatchesAt pat r) :
    a ∉ (s.slice p q hle).copy.toList := by
  intro hmem
  obtain ⟨ht₂, hend⟩ := splits_slice hle h
  obtain ⟨xs, ys, hxy⟩ := List.append_of_mem hmem
  have hslice : (s.slice p q hle).copy = String.ofList xs ++ (pat ++ String.ofList ys) := by
    apply String.toList_injective
    simp only [String.toList_append, String.toList_ofList, hpat, hxy, List.singleton_append]
  rw [ht₂, hslice, String.append_assoc] at h
  rw [hslice] at hend
  -- the pattern matches behind the characters in front of it
  have hpos := h.splits_rotateRight
  refine hno h.rotateRight ?_ ?_ ?_
  · exact (h.le_iff_exists_eq_append hpos).mpr ⟨_, rfl, rfl⟩
  · refine (hpos.lt_iff_exists_eq_append hend).mpr ⟨pat ++ String.ofList ys, ?_, ?_, rfl⟩
    · intro hempty
      have hlist := congrArg String.toList hempty
      rw [String.toList_append, hpat] at hlist
      exact List.cons_ne_nil _ _ hlist
    · rw [String.append_assoc]
  · have hpos' := hpos.of_eq rfl String.append_assoc
    exact ForwardStringSearcher.matchesAt_iff_splits.mpr ⟨_, _, hpos'⟩

/-- **The steps of the search**, from a position to the end of the text. -/
theorem toList_foldl_steps (hpat : pat.toList = [a]) (b : String) {s : Slice}
    {f : String → SearchStep s → String}
    (hmatched : ∀ acc p q, f acc (.matched p q) = (acc ++ b.toSlice : String))
    (hrejected : ∀ acc p q, f acc (.rejected p q) = (acc ++ s.slice! p q : String))
    {pos : s.Pos} {steps : List (SearchStep s)} (hsteps : IsValidSearchFrom pat pos steps)
    {t₁ t₂ : String} (hsplit : pos.Splits t₁ t₂) (acc : String) :
    (steps.foldl f acc).toList =
      acc.toList ++ t₂.toList.flatMap fun c => if c = a then b.toList else [c] := by
  induction hsteps generalizing t₁ t₂ acc with
  | endPos =>
    obtain rfl : t₂ = "" := hsplit.eq_right s.splits_endPos
    simp
  | @matched steps startPos endPos hmatch hrest ih =>
    obtain ⟨u₁, u₂, hs, he⟩ := ForwardStringSearcher.isLongestMatchAt_iff_splits.mp hmatch
    obtain rfl := hsplit.eq_right hs
    -- a match is the character
    rw [List.foldl_cons, ih he, hmatched]
    simp [hpat]
  | @mismatched steps startPos endPos hlt hno hrest ih =>
    have hle : startPos ≤ endPos := Std.le_of_lt hlt
    obtain ⟨ht₂, hend⟩ := splits_slice hle hsplit
    -- what is skipped is appended as it is
    have hnot := not_mem_slice hpat hle hsplit hno
    have hslice : s.slice! startPos endPos = s.slice startPos endPos hle :=
      Slice.slice_eq_slice!.symm
    rw [List.foldl_cons, ih hend, ht₂, hrejected, hslice]
    simp only [String.toList_append, List.flatMap_append, flatMap_eq_self hnot]
    simp

/-- **Replacing a character** in a text replaces each of its occurrences. -/
theorem toList_replace (hpat : pat.toList = [a]) (b s : String) :
    (s.replace pat b).toList = s.toList.flatMap fun c => if c = a then b.toList else [c] := by
  have hne : pat ≠ "" := by
    rintro rfl
    exact List.cons_ne_nil _ _ hpat.symm
  have hlaw := ForwardStringSearcher.lawfulToForwardSearcherModel hne
  have hvalid := hlaw.isValidSearchFrom_toList s.toSlice
  unfold String.replace Slice.replace
  rw [← Std.Iter.foldl_toList, toList_foldl_steps hpat b (fun _ _ _ => rfl) (fun _ _ _ => rfl)
    hvalid s.toSlice.splits_startPos]
  simp

/-- A text without the character stays as it is. -/
theorem replace_eq_self (hpat : pat.toList = [a]) (b : String) {s : String}
    (h : a ∉ s.toList) : s.replace pat b = s := by
  apply String.toList_injective
  rw [toList_replace hpat, flatMap_eq_self h]

/-- The character is gone. -/
theorem not_mem_replace (hpat : pat.toList = [a]) (hb : a ∉ b.toList) (s : String) :
    a ∉ (s.replace pat b).toList := by
  rw [toList_replace hpat, List.mem_flatMap]
  rintro ⟨c, -, hmem⟩
  by_cases hc : c = a
  · rw [if_pos hc] at hmem
    exact hb hmem
  · rw [if_neg hc] at hmem
    exact hc (List.mem_singleton.mp hmem).symm

/-! ### Upper case -/

theorem toUpper_toUpper (c : Char) : c.toUpper.toUpper = c.toUpper := by
  by_cases hlower : 'a'.val ≤ c.val ∧ c.val ≤ 'z'.val
  · have hval : c.toUpper.val = c.val + ('A'.val - 'a'.val) := by
      unfold Char.toUpper
      rw [dif_pos hlower]
    -- an upper-case letter is no lower-case one
    have hno : ¬('a'.val ≤ c.toUpper.val ∧ c.toUpper.val ≤ 'z'.val) := by
      have hlo : 97 ≤ c.val := hlower.1
      have hhi : c.val ≤ 122 := hlower.2
      rw [hval]
      simp only [Char.reduceVal]
      grind
    generalize c.toUpper = d at hno
    unfold Char.toUpper
    rw [dif_neg hno]
  · have hsame : c.toUpper = c := by
      unfold Char.toUpper
      rw [dif_neg hlower]
    rw [hsame, hsame]

theorem toUpper_eq_self {s : String} (h : s.toList.map Char.toUpper = s.toList) :
    s.toUpper = s := by
  apply String.toList_injective
  calc s.toUpper.toList = s.toList.map Char.toUpper := String.toList_map
    _ = s.toList := h

end Texts

end Sentrix
