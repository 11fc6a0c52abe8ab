import Mathlib.Algebra.BigOperators.Group.List.Basic
import Mathlib.Algebra.GroupWithZero.Nat
import Mathlib.Data.List.Induction
import Sentrix.Lib.Dict

/-!
# Accumulators by key

A loop that files each element of a list under its key and updates what is kept there.
An element without a key is passed over. The loop keeps, for each key, what it would keep
for the elements with this key alone (`get?_accumulate`); the keys stand in the order of
their first occurrence (`keys_accumulate`), and a weight that grows by a share of each
element adds up to all shares (`sum_accumulate`). A loop that raises at an element without a
key does the same if every element has one (`accumulateAll_eq_some_iff`).
-/

namespace Sentrix

namespace Dict

variable {α κ ν : Type*} [DecidableEq κ]

/-- File one element. -/
def file (key : α → Option κ) (add : κ → Option ν → α → ν) (d : Dict κ ν) (a : α) : Dict κ ν :=
  match key a with
  | none => d
  | some k => d.set k (add k (d.get? k) a)

/-- What is kept for the keys of a list. -/
def accumulate (key : α → Option κ) (add : κ → Option ν → α → ν) (l : List α) : Dict κ ν :=
  l.foldl (file key add) empty

/-- What is kept for elements of one key. -/
def account (add : Option ν → α → ν) (l : List α) : Option ν :=
  l.foldl (fun o a => some (add o a)) none

/-- The elements with a key. -/
def withKey (key : α → Option κ) (k : κ) (l : List α) : List α :=
  l.filter fun a => decide (key a = some k)

/-- One more element is added to the account. -/
theorem account_concat (add : Option ν → α → ν) (l : List α) (a : α) :
    account add (l ++ [a]) = some (add (account add l) a) :=
  List.foldl_append

/-- Where the last element replaces what was kept. -/
theorem account_latest (l : List α) : account (fun _ a => a) l = l.getLast? := by
  cases l using List.reverseRecOn with
  | nil => rfl
  | append_singleton l a => rw [account_concat, List.getLast?_concat]

theorem account_eq_none_iff (add : Option ν → α → ν) (l : List α) :
    account add l = none ↔ l = [] := by
  cases l using List.reverseRecOn with
  | nil => exact iff_of_true rfl rfl
  | append_singleton l a =>
    rw [account_concat]
    exact iff_of_false (Option.some_ne_none _)
      (List.append_ne_nil_of_right_ne_nil l (List.cons_ne_nil a []))

variable (key : α → Option κ) (add : κ → Option ν → α → ν)

/-- One more element is filed. -/
theorem accumulate_concat (l : List α) (a : α) :
    accumulate key add (l ++ [a]) = file key add (accumulate key add l) a :=
  List.foldl_append

theorem withKey_concat_self {a : α} {k : κ} (ha : key a = some k) (l : List α) :
    withKey key k (l ++ [a]) = withKey key k l ++ [a] := by
  have hlast : ([a].filter fun a => decide (key a = some k)) = [a] := by simp [ha]
  unfold withKey
  rw [List.filter_append, hlast]

theorem withKey_concat_of_ne {a : α} {k : κ} (ha : key a ≠ some k) (l : List α) :
    withKey key k (l ++ [a]) = withKey key k l := by
  have hlast : ([a].filter fun a => decide (key a = some k)) = [] := by simp [ha]
  unfold withKey
  rw [List.filter_append, hlast, List.append_nil]

/-- **One key at a time.** What is kept for a key is the account of its elements. -/
theorem get?_accumulate (l : List α) (k : κ) :
    (accumulate key add l).get? k = account (add k) (withKey key k l) := by
  induction l using List.reverseRecOn with
  | nil => rfl
  | append_singleton l a ih =>
    rw [accumulate_concat]
    unfold file
    cases ha : key a with
    | none =>
      rw [withKey_concat_of_ne key (by rw [ha]; exact (Option.some_ne_none k).symm)]
      exact ih
    | some k' =>
      dsimp only
      rw [get?_set]
      by_cases hk : k = k'
      · -- the element is filed under the key
        subst hk
        rw [if_pos rfl, ih, withKey_concat_self key ha, account_concat]
      · have hne : key a ≠ some k := by
          rw [ha]
          exact fun heq => hk (Option.some.inj heq).symm
        rw [if_neg hk, ih, withKey_concat_of_ne key hne]

/-- The keys of the table are those of the elements. -/
theorem mem_keys_accumulate (l : List α) (k : κ) :
    k ∈ (accumulate key add l).keys ↔ ∃ a ∈ l, key a = some k := by
  rw [← not_iff_not, ← get?_eq_none, get?_accumulate, account_eq_none_iff]
  unfold withKey
  rw [List.filter_eq_nil_iff]
  simp only [decide_eq_true_eq, not_exists, not_and]

/-- The keys, in the order of their first occurrence. -/
theorem keys_accumulate (l : List α) :
    (accumulate key add l).keys = (l.filterMap key).eraseDups := by
  induction l using List.reverseRecOn with
  | nil => rfl
  | append_singleton l a ih =>
    rw [accumulate_concat, List.filterMap_append, List.filterMap_cons, List.filterMap_nil]
    unfold file
    cases ha : key a with
    | none =>
      dsimp only
      rw [List.append_nil]
      exact ih
    | some k =>
      dsimp only
      rw [List.eraseDups_append]
      by_cases hk : k ∈ (accumulate key add l).keys
      · -- a key that is there keeps its place
        have hold : k ∈ l.filterMap key := by
          rw [List.mem_filterMap]
          exact (mem_keys_accumulate key add l k).mp hk
        have hnone : [k].removeAll (l.filterMap key) = [] := by
          rw [List.removeAll, List.filter_eq_nil_iff]
          intro k' hk'
          rw [List.mem_singleton.mp hk', List.elem_eq_true_of_mem hold]
          exact Bool.false_ne_true
        rw [keys_set_of_mem _ _ hk, ih, hnone, List.eraseDups_nil, List.append_nil]
      · -- a new key comes last
        have hnew : k ∉ l.filterMap key := by
          rw [List.mem_filterMap]
          exact fun h => hk ((mem_keys_accumulate key add l k).mpr h)
        have hone : [k].removeAll (l.filterMap key) = [k] := by
          rw [List.removeAll, List.filter_eq_self]
          intro k' hk'
          rw [List.mem_singleton.mp hk', Bool.not_eq_true', ← Bool.not_eq_true, List.elem_iff]
          exact hnew
        rw [keys_set_of_not_mem _ _ hk, ih, hone]
        rfl

/-- **Totals.** If filing an element adds its share to a weight, the weights of all keys
are the shares of all elements that have one. -/
theorem sum_accumulate {weight : ν → ℕ} {share : α → ℕ}
    (hadd : ∀ k o a, weight (add k o a) = (o.map weight).getD 0 + share a) (l : List α) :
    ((accumulate key add l).entries.map fun e => weight e.2).sum =
      ((l.filter fun a => (key a).isSome).map share).sum := by
  induction l using List.reverseRecOn with
  | nil => rfl
  | append_singleton l a ih =>
    rw [accumulate_concat, List.filter_append, List.map_append, List.sum_append, ← ih]
    unfold file
    cases ha : key a with
    | none => simp [ha]
    | some k =>
      have hlast : ([a].filter fun a => (key a).isSome) = [a] := by simp [ha]
      rw [hlast, List.map_singleton, List.sum_singleton]
      dsimp only
      set d := accumulate key add l
      have hset := ((d.entries_set_perm k (add k (d.get? k) a)).map fun e => weight e.2).sum_eq
      rw [hset, List.map_cons, List.sum_cons, hadd]
      cases hget : d.get? k with
      | none =>
        -- a new key: nothing was kept for it
        have hnot : k ∉ d.keys := (d.get?_eq_none k).mp hget
        have herase : (d.erase k).entries = d.entries := by
          refine List.filter_eq_self.mpr fun e he => decide_eq_true ?_
          rintro rfl
          exact hnot (List.mem_map_of_mem he)
        rw [herase, Option.map_none, Option.getD_none, Nat.zero_add, Nat.add_comm]
      | some v =>
        -- the weight that was kept grows by the share
        have hold := ((d.entries_perm_erase hget).map fun e => weight e.2).sum_eq
        rw [hold, List.map_cons, List.sum_cons, Option.map_some, Option.getD_some]
        exact Nat.add_right_comm _ _ _

/-! ### Loops that raise -/

/-- What is kept by a loop that raises at an element without a key. -/
def accumulateAll (key : α → Option κ) (add : κ → Option ν → α → ν) (l : List α) :
    Option (Dict κ ν) :=
  l.foldlM (fun d a => (key a).map fun k => d.set k (add k (d.get? k) a)) empty

/-- One more element is filed, unless one of them had no key. -/
theorem accumulateAll_concat (l : List α) (a : α) :
    accumulateAll key add (l ++ [a]) =
      (accumulateAll key add l).bind fun d => (key a).map fun k =>
        d.set k (add k (d.get? k) a) := by
  unfold accumulateAll
  rw [List.foldlM_append]
  congr 1
  ext d : 1
  exact bind_pure _

/-- The loop does not raise just if every element has a key, and then nothing is passed
over. -/
theorem accumulateAll_eq_some_iff (l : List α) (d : Dict κ ν) :
    accumulateAll key add l = some d ↔
      (∀ a ∈ l, (key a).isSome) ∧ d = accumulate key add l := by
  induction l using List.reverseRecOn generalizing d with
  | nil =>
    constructor
    · intro h
      exact ⟨fun a ha => absurd ha List.not_mem_nil, (Option.some.inj h).symm⟩
    · rintro ⟨-, rfl⟩
      rfl
  | append_singleton l a ih =>
    rw [accumulateAll_concat, accumulate_concat, Option.bind_eq_some_iff]
    -- the last element has a key, like all before it
    unfold file
    constructor
    · rintro ⟨d', hd', hset⟩
      obtain ⟨hall, rfl⟩ := (ih d').mp hd'
      obtain ⟨k, hk, rfl⟩ := Option.map_eq_some_iff.mp hset
      rw [hk]
      refine ⟨fun b hb => ?_, rfl⟩
      rcases List.mem_append.mp hb with hold | hlast
      · exact hall b hold
      · rw [List.mem_singleton.mp hlast, hk]
        rfl
    · rintro ⟨hall, rfl⟩
      have hlast := hall a (List.mem_append_right l (List.mem_singleton_self a))
      obtain ⟨k, hk⟩ := Option.isSome_iff_exists.mp hlast
      refine ⟨accumulate key add l, (ih _).mpr ⟨fun b hb => ?_, rfl⟩, ?_⟩
      · exact hall b (List.mem_append_left _ hb)
      · rw [hk]
        rfl

end Dict

end Sentrix
