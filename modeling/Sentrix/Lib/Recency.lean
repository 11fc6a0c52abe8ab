import Mathlib.Data.List.Dedup
import Mathlib.Data.List.DropRight

/-!
# Recency

The elements of a history in the order of their last occurrences, and the last few of
them (`recent`). A bounded list of distinct elements is kept in this order by one rule:
a use moves its element to the end, and a new element takes the place of the first one
if there is no room (`use_recent`).
-/

namespace Sentrix

variable {α : Type*} [DecidableEq α]

/-- The last `n` distinct elements of a history, in the order of their last occurrences. -/
def recent (n : ℕ) (l : List α) : List α := l.dedup.rtake n

/-- A use of `a` in a list with room for `n` elements. -/
def use (n : ℕ) (keys : List α) (a : α) : List α :=
  if a ∈ keys then keys.erase a ++ [a]
  else if n ≤ keys.length then keys.tail ++ [a]
  else keys ++ [a]

/-- The last element of a history was used last. -/
theorem dedup_concat (l : List α) (a : α) : (l ++ [a]).dedup = l.dedup.erase a ++ [a] := by
  induction l with
  | nil => rfl
  | cons b l ih =>
    rw [List.cons_append]
    by_cases hba : b = a
    · -- the head occurs again at the end: its place is the last one
      subst hba
      rw [List.dedup_cons_of_mem (List.mem_append_right _ (List.mem_singleton_self b)), ih]
      by_cases hmem : b ∈ l
      · rw [List.dedup_cons_of_mem hmem]
      · have hnot : b ∉ l.dedup := fun h => hmem (List.mem_dedup.mp h)
        rw [List.dedup_cons_of_notMem hmem, List.erase_cons_head, List.erase_of_not_mem hnot]
    · by_cases hmem : b ∈ l
      · rw [List.dedup_cons_of_mem (List.mem_append_left _ hmem), ih, List.dedup_cons_of_mem hmem]
      · have hnot : b ∉ l ++ [a] := by
          rw [List.mem_append, List.mem_singleton]
          exact not_or.mpr ⟨hmem, hba⟩
        have hne : ¬ (b == a) = true := by
          rw [beq_iff_eq]
          exact hba
        rw [List.dedup_cons_of_notMem hnot, ih, List.dedup_cons_of_notMem hmem,
          List.erase_cons_tail hne, List.cons_append]

omit [DecidableEq α] in
theorem rtake_append_left (xs : List α) {ys : List α} {n : ℕ} (h : ys.length = n) :
    (xs ++ ys).rtake n = ys := by
  unfold List.rtake
  rw [List.length_append, h, Nat.add_sub_cancel, List.drop_left]

omit [DecidableEq α] in
theorem rtake_of_length_le {l : List α} {n : ℕ} (h : l.length ≤ n) : l.rtake n = l := by
  unfold List.rtake
  rw [Nat.sub_eq_zero_of_le h, List.drop_zero]

omit [DecidableEq α] in
theorem length_rtake (l : List α) (n : ℕ) : (l.rtake n).length = min n l.length := by
  unfold List.rtake
  rw [List.length_drop]
  omega

theorem length_recent (n : ℕ) (l : List α) : (recent n l).length = min n l.dedup.length :=
  length_rtake _ _

/-- The history without repetitions is what is too old and what is recent, and
something is too old only if the recent part is full. -/
theorem dedup_eq_append_recent (n : ℕ) (l : List α) :
    ∃ old, l.dedup = old ++ recent n l ∧ (old = [] ∨ (recent n l).length = n) := by
  refine ⟨l.dedup.take (l.dedup.length - n), (List.take_append_drop _ _).symm, ?_⟩
  by_cases hle : l.dedup.length ≤ n
  · left
    rw [Nat.sub_eq_zero_of_le hle, List.take_zero]
  · right
    rw [length_recent]
    omega

/-- An element is recent if fewer than `n` others have occurred since. -/
theorem mem_recent_iff {n : ℕ} {l m : List α} {a : α} (ha : a ∉ m) :
    a ∈ recent n (l ++ a :: m) ↔ m.dedup.length < n := by
  obtain ⟨old, hold⟩ : (a :: m).dedup <:+ (l ++ a :: m).dedup := by
    rw [List.dedup_append]
    exact List.suffix_union_right l _
  rw [List.dedup_cons_of_notMem ha] at hold
  unfold recent List.rtake
  rw [← hold, List.length_append, List.length_cons]
  constructor
  · intro hmem
    by_contra hlen
    -- the list of recent elements begins behind `a`
    obtain ⟨j, hj⟩ : ∃ j, old.length + (m.dedup.length + 1) - n = (old ++ [a]).length + j := by
      refine ⟨m.dedup.length - n, ?_⟩
      rw [List.length_append, List.length_singleton]
      omega
    have hsplit : old ++ a :: m.dedup = (old ++ [a]) ++ m.dedup := by
      rw [List.append_assoc, List.singleton_append]
    rw [hj, hsplit, ← List.drop_drop, List.drop_left] at hmem
    exact ha (List.mem_dedup.mp (List.mem_of_mem_drop hmem))
  · intro hlen
    rw [List.drop_append_of_le_length (by omega)]
    exact List.mem_append_right _ List.mem_cons_self

/-- A use takes away no element but the first one. -/
theorem head?_of_not_mem_use {n : ℕ} {keys : List α} {a k : α} (hmem : k ∈ keys)
    (hnot : k ∉ use n keys a) : keys.head? = some k := by
  unfold use at hnot
  split at hnot
  · -- the element used only moves
    by_cases hka : k = a
    · exact absurd (List.mem_append_right _ (List.mem_singleton.mpr hka)) hnot
    · exact absurd (List.mem_append_left _ ((List.mem_erase_of_ne hka).mpr hmem)) hnot
  · split at hnot
    · cases keys with
      | nil => exact absurd hmem List.not_mem_nil
      | cons b rest =>
        rw [List.tail_cons] at hnot
        obtain rfl | hrest := List.mem_cons.mp hmem
        · rfl
        · exact absurd (List.mem_append_left _ hrest) hnot
    · exact absurd (List.mem_append_left _ hmem) hnot

/-- **The rule.** For a list with room, a use keeps the recent elements. -/
theorem use_recent {n : ℕ} (hn : 0 < n) (l : List α) (a : α) :
    use n (recent n l) a = recent n (l ++ [a]) := by
  obtain ⟨old, hsplit, hold⟩ := dedup_eq_append_recent n l
  have hnodup := List.nodup_dedup l
  rw [hsplit] at hnodup
  have hright : recent n (l ++ [a]) = ((old ++ recent n l).erase a ++ [a]).rtake n := by
    rw [recent, dedup_concat, ← hsplit]
  rw [hright]
  unfold use
  set keys := recent n l with hkeys
  have hle : keys.length ≤ n := by
    rw [hkeys, length_recent]
    exact Nat.min_le_left _ _
  by_cases hmem : a ∈ keys
  · -- the element only changes its place
    have hnot : a ∉ old := fun h => (List.nodup_append.mp hnodup).2.2 a h a hmem rfl
    have hlen : (keys.erase a ++ [a]).length = keys.length := by
      rw [List.length_append, List.length_erase_of_mem hmem, List.length_singleton]
      exact Nat.sub_add_cancel (List.length_pos_of_mem hmem)
    rw [if_pos hmem, List.erase_append_right _ hnot, List.append_assoc]
    obtain rfl | hfull := hold
    · rw [List.nil_append, rtake_of_length_le (hlen.trans_le hle)]
    · rw [rtake_append_left _ (hlen.trans hfull)]
  · -- a new element, or one that was used too long ago to be in the list
    have herase : (old ++ keys).erase a = old.erase a ++ keys := by
      by_cases hin : a ∈ old
      · exact List.erase_append_left _ hin
      · rw [List.erase_of_not_mem hin, List.erase_of_not_mem]
        exact fun h => (List.mem_append.mp h).elim hin hmem
    rw [if_neg hmem, herase]
    by_cases hfull : n ≤ keys.length
    · -- the first element makes room
      obtain ⟨k, rest, hcons⟩ : ∃ k rest, keys = k :: rest :=
        List.exists_cons_of_length_pos (by omega)
      rw [if_pos hfull, hcons, List.tail_cons, List.append_assoc]
      rw [hcons, List.length_cons] at hfull hle
      have hlast : old.erase a ++ (k :: rest ++ [a]) = (old.erase a ++ [k]) ++ (rest ++ [a]) := by
        rw [List.append_assoc, List.singleton_append, List.cons_append]
      rw [hlast, rtake_append_left]
      rw [List.length_append, List.length_singleton]
      omega
    · -- there is room, so that no element is too old
      have hnil : old = [] := hold.resolve_right (by omega)
      rw [if_neg hfull, hnil, List.erase_nil, List.nil_append, rtake_of_length_le]
      rw [List.length_append, List.length_singleton]
      omega

end Sentrix
