import Mathlib.Algebra.BigOperators.Group.List.Lemmas
import Mathlib.Data.Finset.Dedup
import Mathlib.Data.Finset.Card
import Mathlib.Algebra.GroupWithZero.Nat
import Sentrix.Lib.Dict
import Sentrix.Lib.Lists

/-!
# Grouping, ordering and paging

The operations of a query on a list of rows.

* `Dict.tally` counts how often each element of a list occurs, as a grouping query or
  a counting loop does. Its entries are the elements of the list, each once, with
  their counts (`entries_tally`), so that the counts sum up to the length of the list.
* `Dict.groupBy` collects the elements of a list by a key.
* `OrderBy` is an arrangement along a relation that says nothing about ties; along a key, it
  shows the keys in one way only (`map_eq_of_sorted`).
* `page` is a slice of a list. Consecutive pages of one size put the list back
  together (`flatten_pages`).
-/

namespace Sentrix

namespace Dict

variable {κ : Type*} [DecidableEq κ]

/-- How often each element occurs, in the order of their first occurrence. -/
def tally (l : List κ) : Dict κ ℕ :=
  l.foldl (fun d k => d.set k ((d.get? k).getD 0 + 1)) empty

theorem tally_concat (l : List κ) (k : κ) :
    tally (l ++ [k]) = (tally l).set k (((tally l).get? k).getD 0 + 1) :=
  List.foldl_append

/-- An element that occurs is there with its count; others are not there. -/
theorem get?_tally (l : List κ) (k : κ) :
    (tally l).get? k = if k ∈ l then some (l.count k) else none := by
  induction l using List.reverseRecOn with
  | nil => rfl
  | append_singleton l k₀ ih =>
    rw [tally_concat, get?_set, List.count_append]
    by_cases hk : k = k₀
    · subst hk
      have hmem : k ∈ l ++ [k] := List.mem_append_right _ (List.mem_singleton_self k)
      rw [if_pos rfl, if_pos hmem, ih, List.count_singleton_self]
      -- the key is new, or one more is counted
      split
      · rfl
      · next hnot => rw [List.count_eq_zero.mpr hnot, Option.getD_none]
    · have hlast : k ∉ [k₀] := fun hmem => hk (List.mem_singleton.mp hmem)
      rw [if_neg hk, ih, List.count_eq_zero.mpr hlast, Nat.add_zero]
      simp only [List.mem_append, hlast, or_false]

/-- The count of an element, whether it occurs or not. -/
theorem getD_tally (l : List κ) (k : κ) : ((tally l).get? k).getD 0 = l.count k := by
  rw [get?_tally]
  split
  · rfl
  · next hnot => rw [List.count_eq_zero.mpr hnot, Option.getD_none]

theorem mem_keys_tally (l : List κ) (k : κ) : k ∈ (tally l).keys ↔ k ∈ l := by
  rw [mem_keys, get?_tally]
  split
  · next hmem => exact ⟨fun _ => hmem, fun _ => ⟨_, rfl⟩⟩
  · next hnot =>
    exact ⟨fun ⟨_, hn⟩ => absurd hn (Option.some_ne_none _).symm, fun h => absurd h hnot⟩

/-- The count of an entry is the count of its key. -/
theorem snd_of_mem_tally {l : List κ} {e : κ × ℕ} (he : e ∈ (tally l).entries) :
    e.2 = l.count e.1 := by
  have hget : (tally l).get? e.1 = some e.2 := (mem_entries _ _ _).mp he
  rw [get?_tally] at hget
  split at hget
  · exact (Option.some.inj hget).symm
  · exact absurd hget (Option.some_ne_none _).symm

theorem entries_tally (l : List κ) :
    (tally l).entries = (tally l).keys.map fun k => (k, l.count k) := by
  rw [keys, List.map_map]
  refine (List.map_id _).symm.trans (List.map_congr_left fun e he => ?_)
  exact Prod.ext rfl (snd_of_mem_tally he)

/-- The keys are the elements, without repetitions. -/
theorem keys_tally_perm (l : List κ) : (tally l).keys.Perm l.dedup := by
  rw [List.perm_ext_iff_of_nodup (nodup_keys _) (List.nodup_dedup l)]
  intro k
  rw [mem_keys_tally, List.mem_dedup]

theorem length_entries_tally (l : List κ) : (tally l).entries.length = l.toFinset.card := by
  have hkeys : (tally l).entries.length = (tally l).keys.length := (length_keys _).symm
  rw [hkeys, (keys_tally_perm l).length_eq, List.card_toFinset]

/-- A rearranged list has the same counts. -/
theorem entries_tally_perm {l m : List κ} (h : l.Perm m) :
    (tally l).entries.Perm (tally m).entries := by
  rw [List.perm_ext_iff_of_nodup (nodup_entries _) (nodup_entries _)]
  intro e
  rw [mem_entries, mem_entries, get?_tally, get?_tally, h.count_eq]
  simp only [h.mem_iff]

/-- The counts sum up to the length of the list. -/
theorem sum_tally (l : List κ) : ((tally l).entries.map Prod.snd).sum = l.length := by
  have hsnd : (tally l).entries.map Prod.snd = (tally l).keys.map fun k => l.count k := by
    rw [entries_tally, List.map_map]
    rfl
  calc ((tally l).entries.map Prod.snd).sum
      = ((tally l).keys.map fun k => l.count k).sum := by rw [hsnd]
    _ = (l.dedup.map fun k => l.count k).sum := ((keys_tally_perm l).map _).sum_eq
    _ = l.length := List.sum_map_count_dedup_eq_length l

/-! ### Groups -/

/-- The elements of a list by their keys, in the order of the list. -/
def groupBy {α : Type*} (key : α → κ) (l : List α) : Dict κ (List α) :=
  l.foldl (fun d a => d.set (key a) ((d.get? (key a)).getD [] ++ [a])) empty

theorem groupBy_concat {α : Type*} (key : α → κ) (l : List α) (a : α) :
    groupBy key (l ++ [a]) =
      (groupBy key l).set (key a) (((groupBy key l).get? (key a)).getD [] ++ [a]) :=
  List.foldl_append

/-- A group holds the elements with its key. -/
theorem getD_groupBy {α : Type*} (key : α → κ) (l : List α) (k : κ) :
    ((groupBy key l).get? k).getD [] = l.filter fun a => decide (key a = k) := by
  induction l using List.reverseRecOn with
  | nil => rfl
  | append_singleton l a ih =>
    rw [groupBy_concat, get?_set, List.filter_append]
    by_cases hk : k = key a
    · subst hk
      have hlast : [a].filter (fun b => decide (key b = key a)) = [a] :=
        List.filter_eq_self.mpr (by simp)
      rw [if_pos rfl, Option.getD_some, ih, hlast]
    · -- the last element joins its own group
      have hlast : [a].filter (fun b => decide (key b = k)) = [] :=
        List.filter_eq_nil_iff.mpr (by simpa using Ne.symm hk)
      rw [if_neg hk, ih, hlast, List.append_nil]

/-- The groups are those of the keys that occur. -/
theorem mem_keys_groupBy {α : Type*} (key : α → κ) (l : List α) (k : κ) :
    k ∈ (groupBy key l).keys ↔ ∃ a ∈ l, key a = k := by
  induction l using List.reverseRecOn with
  | nil => simp [groupBy, empty, keys]
  | append_singleton l a ih =>
    rw [mem_keys] at ih ⊢
    rw [groupBy_concat, get?_set]
    by_cases hk : k = key a
    · rw [if_pos hk]
      exact iff_of_true ⟨_, rfl⟩ ⟨a, List.mem_concat_self, hk.symm⟩
    · rw [if_neg hk, ih]
      -- the last element's key is another one
      constructor
      · rintro ⟨b, hb, hkey⟩
        exact ⟨b, List.mem_append_left _ hb, hkey⟩
      · rintro ⟨b, hb, hkey⟩
        obtain hb | hb := List.mem_append.mp hb
        · exact ⟨b, hb, hkey⟩
        · obtain rfl := List.mem_singleton.mp hb
          exact absurd hkey.symm hk

end Dict

variable {α : Type*}

/-! ### Orders -/

/-- `ORDER BY`: some arrangement of the rows along `r`; nothing is said about rows
that `r` does not separate. -/
structure OrderBy (r : α → α → Prop) where
  sort : List α → List α
  perm : ∀ l, (sort l).Perm l
  sorted : ∀ l, (sort l).Pairwise r

/-- The arrangement by a nonincreasing key that keeps rows with equal keys as they
were. -/
def orderByDesc {β : Type*} [LinearOrder β] (key : α → β) : OrderBy fun a b => key b ≤ key a where
  sort l := l.mergeSort fun a b => decide (key b ≤ key a)
  perm l := List.mergeSort_perm l _
  sorted l := by
    have htrans : ∀ a b c : α, key b ≤ key a → key c ≤ key b → key c ≤ key a :=
      fun _ _ _ hab hbc => le_trans hbc hab
    have htotal : ∀ a b : α, key b ≤ key a ∨ key a ≤ key b := fun _ _ => le_total _ _
    exact pairwise_mergeSort_of_total htrans htotal l

/-- Two arrangements of the same keys show the same keys. -/
theorem map_eq_of_sorted {β γ : Type*} [LinearOrder β] {f : α → β} {g : γ → β} {l : List α}
    {m : List γ} (hl : l.Pairwise fun a b => f b ≤ f a) (hm : m.Pairwise fun a b => g b ≤ g a)
    (hkeys : (l.map f).Perm (m.map g)) : l.map f = m.map g := by
  have hl' : (l.map f).Pairwise fun x y => y ≤ x := List.pairwise_map.mpr hl
  have hm' : (m.map g).Pairwise fun x y => y ≤ x := List.pairwise_map.mpr hm
  exact List.Perm.eq_of_pairwise (fun x y _ _ hxy hyx => le_antisymm hyx hxy) hl' hm' hkeys

/-! ### Pages -/

/-- `LIMIT` and `OFFSET`: a negative limit is no limit, a negative offset is zero. -/
def page (limit offset : ℤ) (l : List α) : List α :=
  if limit < 0 then l.drop offset.toNat else (l.drop offset.toNat).take limit.toNat

theorem page_nat (m k : ℕ) (l : List α) : page m k l = (l.drop k).take m := by
  unfold page
  rw [if_neg (by omega), Int.toNat_natCast, Int.toNat_natCast]

/-- The first `n` pages of size `m` are the first `n * m` elements. -/
theorem flatten_pages (m : ℕ) (l : List α) (n : ℕ) :
    ((List.range n).map fun j => (l.drop (j * m)).take m).flatten = l.take (n * m) := by
  induction n with
  | zero => rw [Nat.zero_mul, List.take_zero]; rfl
  | succ n ih =>
    rw [List.range_succ, List.map_append, List.flatten_append, ih, Nat.succ_mul, List.take_add]
    exact congrArg _ (List.append_nil _)

end Sentrix
