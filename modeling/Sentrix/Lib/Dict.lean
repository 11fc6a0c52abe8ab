import Mathlib.Data.List.Nodup
import Mathlib.Tactic.Common

/-!
# Insertion-ordered dictionaries

The dictionary of the interpreted language: a finite map whose keys are
iterated in the order they were first inserted. `Dict.set` overwrites in place
or appends at the end, `Dict.erase` forgets a key, `Dict.retain` keeps the
entries a predicate selects. That keys are pairwise distinct is a field of the
structure, so no operation needs it as a hypothesis.

A dictionary is read through `Dict.get?` alone: each operation has a lemma that
says what it does to `get?`, and `mem_entries` turns membership of an entry
into a `get?` equation.
-/

namespace Sentrix

/-- A dictionary: its entries in insertion order, no key twice. -/
@[ext]
structure Dict (κ ν : Type*) where
  /-- The entries, oldest key first. -/
  entries : List (κ × ν)
  /-- No key occurs twice. -/
  nodup : (entries.map Prod.fst).Nodup

namespace Dict

variable {κ ν : Type*}

/-- The dictionary without entries. -/
def empty : Dict κ ν := ⟨[], List.nodup_nil⟩

/-- The keys, in insertion order. -/
def keys (d : Dict κ ν) : List κ := d.entries.map Prod.fst

/-- The number of entries. -/
def size (d : Dict κ ν) : ℕ := d.entries.length

theorem nodup_keys (d : Dict κ ν) : d.keys.Nodup := d.nodup

theorem length_keys (d : Dict κ ν) : d.keys.length = d.size := List.length_map _

/-- Keep the entries `p` selects. -/
def retain (d : Dict κ ν) (p : κ → ν → Bool) : Dict κ ν where
  entries := d.entries.filter fun e => p e.1 e.2
  nodup := d.nodup.sublist (List.Sublist.map _ List.filter_sublist)

variable [DecidableEq κ]

/-- The value stored under a key. -/
def get? (d : Dict κ ν) (k : κ) : Option ν := d.entries.lookup k

/-- Overwrite the value of a list's entry for `k`, in place. -/
def overwrite (k : κ) (v : ν) (l : List (κ × ν)) : List (κ × ν) :=
  l.map fun e => if e.1 = k then (k, v) else e

theorem map_fst_overwrite (k : κ) (v : ν) (l : List (κ × ν)) :
    (overwrite k v l).map Prod.fst = l.map Prod.fst := by
  rw [overwrite, List.map_map]
  refine List.map_congr_left fun e _ => ?_
  show (if e.1 = k then (k, v) else e).1 = e.1
  split
  · next h => exact h.symm
  · rfl

/-- Store `v` under `k`: in place if the key is there, else as the last entry. -/
def set (d : Dict κ ν) (k : κ) (v : ν) : Dict κ ν :=
  if h : k ∈ d.keys then
    { entries := overwrite k v d.entries
      nodup := by rw [map_fst_overwrite]; exact d.nodup }
  else
    { entries := d.entries ++ [(k, v)]
      nodup := by
        rw [List.map_append, List.map_cons, List.map_nil]
        exact d.nodup.append (List.nodup_singleton k) (by simpa [keys] using h) }

/-- Store the pairs one after the other. -/
def update (d : Dict κ ν) (l : List (κ × ν)) : Dict κ ν := l.foldl (fun d e => d.set e.1 e.2) d

/-- Forget a key. -/
def erase (d : Dict κ ν) (k : κ) : Dict κ ν := d.retain fun k' _ => decide (k' ≠ k)

/-! ### Order -/

/-- A new key is the last one. -/
theorem keys_set_of_not_mem (d : Dict κ ν) {k : κ} (v : ν) (h : k ∉ d.keys) :
    (d.set k v).keys = d.keys ++ [k] := by
  unfold set
  rw [dif_neg h]
  exact List.map_append

/-- Storing under a key that is there leaves the keys as they are. -/
theorem keys_set_of_mem (d : Dict κ ν) {k : κ} (v : ν) (h : k ∈ d.keys) :
    (d.set k v).keys = d.keys := by
  unfold set
  rw [dif_pos h]
  exact map_fst_overwrite k v d.entries

/-- Forgetting a key leaves the others in their order. -/
theorem keys_erase (d : Dict κ ν) (k : κ) : (d.erase k).keys = d.keys.erase k := by
  rw [d.nodup_keys.erase_eq_filter]
  unfold keys erase retain
  rw [List.filter_map]
  congr 1
  refine List.filter_congr fun e _ => ?_
  rw [Function.comp_apply]
  by_cases he : e.1 = k <;> simp [he]

/-! ### Lookup -/

/-- Looking a key up in a list whose keys are distinct finds the entry. -/
theorem lookup_eq_some_iff {l : List (κ × ν)} (hl : (l.map Prod.fst).Nodup) (k : κ) (v : ν) :
    l.lookup k = some v ↔ (k, v) ∈ l := by
  induction l with
  | nil => simp
  | cons e l ih =>
    obtain ⟨k', v'⟩ := e
    rw [List.map_cons, List.nodup_cons] at hl
    rw [List.lookup_cons, List.mem_cons]
    by_cases h : k = k'
    · subst h
      -- the key is nowhere else
      have hfresh : (k, v) ∉ l := fun hm => hl.1 (List.mem_map.mpr ⟨(k, v), hm, rfl⟩)
      simp [hfresh, eq_comm]
    · have hb : (k == k') = false := by simpa using h
      rw [hb, ih hl.2]
      simp [h]

/-- The entries of a dictionary are its look-ups. -/
theorem mem_entries (d : Dict κ ν) (k : κ) (v : ν) :
    (k, v) ∈ d.entries ↔ d.get? k = some v :=
  (lookup_eq_some_iff d.nodup k v).symm

/-- A key is one under which something is found. -/
theorem mem_keys (d : Dict κ ν) (k : κ) : k ∈ d.keys ↔ ∃ v, d.get? k = some v := by
  simp only [keys, List.mem_map, Prod.exists, exists_and_right, exists_eq_right, mem_entries]

theorem get?_eq_none (d : Dict κ ν) (k : κ) : d.get? k = none ↔ k ∉ d.keys := by
  rw [mem_keys, Option.eq_none_iff_forall_ne_some, not_exists]

/-- Two dictionaries agree at `k` as soon as they hold the same values there. -/
theorem get?_eq_of_forall {d : Dict κ ν} {k : κ} {o : Option ν}
    (h : ∀ v, (k, v) ∈ d.entries ↔ o = some v) : d.get? k = o := by
  refine Option.ext fun v => ?_
  rw [← h v, mem_entries]

/-- The entries after a write: the new one, and the old ones of other keys. -/
theorem mem_entries_set (d : Dict κ ν) (k k' : κ) (v v' : ν) :
    (k', v') ∈ (d.set k v).entries ↔ (k' = k ∧ v' = v) ∨ (k' ≠ k ∧ (k', v') ∈ d.entries) := by
  unfold set
  split
  · next h =>
    -- the entry of the key is overwritten in its place
    obtain ⟨w, hw⟩ := (d.mem_keys k).mp h
    have hmem : (k, w) ∈ d.entries := (d.mem_entries k w).mpr hw
    simp only [overwrite, List.mem_map]
    constructor
    · rintro ⟨e, he, heq⟩
      split at heq
      · exact Or.inl (by simpa using heq.symm)
      · next hne =>
        subst heq
        exact Or.inr ⟨hne, he⟩
    · rintro (⟨rfl, rfl⟩ | ⟨hne, he⟩)
      · exact ⟨_, hmem, if_pos rfl⟩
      · exact ⟨_, he, if_neg hne⟩
  · next h =>
    -- a new key comes last
    have hne : ∀ w, (k, w) ∉ d.entries := fun w hw =>
      h ((d.mem_keys k).mpr ⟨w, (d.mem_entries k w).mp hw⟩)
    rw [List.mem_append, List.mem_singleton, Prod.mk.injEq]
    constructor
    · rintro (he | he)
      · exact Or.inr ⟨fun hk => hne v' (hk ▸ he), he⟩
      · exact Or.inl he
    · rintro (he | ⟨-, he⟩)
      · exact Or.inr he
      · exact Or.inl he

@[simp] theorem get?_set_self (d : Dict κ ν) (k : κ) (v : ν) : (d.set k v).get? k = some v :=
  (mem_entries _ k v).mp ((d.mem_entries_set k k v v).mpr (Or.inl ⟨rfl, rfl⟩))

/-- A write under another key changes no look-up. -/
theorem get?_set_of_ne (d : Dict κ ν) {k k' : κ} (v : ν) (h : k' ≠ k) :
    (d.set k v).get? k' = d.get? k' := by
  refine get?_eq_of_forall fun v' => ?_
  rw [mem_entries_set, mem_entries]
  simp [h]

/-- What is found after a write. -/
theorem get?_set (d : Dict κ ν) (k k' : κ) (v : ν) :
    (d.set k v).get? k' = if k' = k then some v else d.get? k' := by
  split
  · next h => subst h; exact d.get?_set_self k' v
  · next h => exact d.get?_set_of_ne v h

/-- Retaining filters the lookup. -/
theorem get?_retain (d : Dict κ ν) (p : κ → ν → Bool) (k : κ) :
    (d.retain p).get? k = (d.get? k).filter (p k) := by
  refine get?_eq_of_forall fun v => ?_
  rw [Option.filter_eq_some_iff, ← mem_entries]
  simp [retain]

@[simp] theorem get?_erase_self (d : Dict κ ν) (k : κ) : (d.erase k).get? k = none := by
  rw [erase, get?_retain]
  cases d.get? k <;> simp

theorem get?_erase_of_ne (d : Dict κ ν) {k k' : κ} (h : k' ≠ k) :
    (d.erase k).get? k' = d.get? k' := by
  rw [erase, get?_retain]
  cases d.get? k' <;> simp [h]

/-! ### Entries -/

omit [DecidableEq κ] in
theorem nodup_entries (d : Dict κ ν) : d.entries.Nodup := List.Nodup.of_map _ d.nodup

/-- The entries after an erasure are those of other keys. -/
theorem mem_entries_erase (d : Dict κ ν) (k : κ) (e : κ × ν) :
    e ∈ (d.erase k).entries ↔ e ∈ d.entries ∧ e.1 ≠ k := by
  rw [erase, retain, List.mem_filter, decide_eq_true_eq]

/-- An entry is there besides the entries of the other keys. -/
theorem entries_perm_erase (d : Dict κ ν) {k : κ} {v : ν} (h : d.get? k = some v) :
    d.entries.Perm ((k, v) :: (d.erase k).entries) := by
  have hnot : (k, v) ∉ (d.erase k).entries := fun hmem => ((d.mem_entries_erase k _).mp hmem).2 rfl
  rw [List.perm_ext_iff_of_nodup d.nodup_entries
    (List.nodup_cons.mpr ⟨hnot, (d.erase k).nodup_entries⟩)]
  intro e
  rw [List.mem_cons, mem_entries_erase]
  constructor
  · -- the entry erased, or one of another key
    intro he
    by_cases hk : e.1 = k
    · have hget : d.get? k = some e.2 := hk ▸ (d.mem_entries e.1 e.2).mp he
      exact Or.inl (Prod.ext hk (Option.some.inj (hget.symm.trans h)))
    · exact Or.inr ⟨he, hk⟩
  · rintro (rfl | ⟨he, -⟩)
    · exact (d.mem_entries k v).mpr h
    · exact he

/-- Storing under a key replaces its entry, or adds one. -/
theorem entries_set_perm (d : Dict κ ν) (k : κ) (v : ν) :
    (d.set k v).entries.Perm ((k, v) :: (d.erase k).entries) := by
  have herase : ((d.set k v).erase k).entries.Perm (d.erase k).entries := by
    rw [List.perm_ext_iff_of_nodup (nodup_entries _) (nodup_entries _)]
    rintro ⟨k', v'⟩
    rw [mem_entries_erase, mem_entries_erase, mem_entries_set]
    simp only [ne_eq]
    tauto
  exact ((d.set k v).entries_perm_erase (d.get?_set_self k v)).trans (herase.cons _)

/-! ### Storing many -/

/-- A new key goes to the end. -/
theorem entries_set_of_not_mem (d : Dict κ ν) {k : κ} (v : ν) (h : k ∉ d.keys) :
    (d.set k v).entries = d.entries ++ [(k, v)] := by
  unfold set
  rw [dif_neg h]

/-- New keys are appended in their order. -/
theorem entries_update (d : Dict κ ν) {l : List (κ × ν)} (h : (d.keys ++ l.map Prod.fst).Nodup) :
    (d.update l).entries = d.entries ++ l := by
  induction l generalizing d with
  | nil => exact (List.append_nil _).symm
  | cons e l ih =>
    have hnew : e.1 ∉ d.keys := by
      intro hmem
      exact (List.nodup_append.mp h).2.2 e.1 hmem e.1 List.mem_cons_self rfl
    show ((d.set e.1 e.2).update l).entries = _
    rw [ih, entries_set_of_not_mem d e.2 hnew, List.append_assoc]
    · rfl
    · rwa [keys_set_of_not_mem d e.2 hnew, List.append_assoc]

/-- Overwriting an entry is not seen once the key is forgotten. -/
theorem filter_overwrite_self (k : κ) (v : ν) (l : List (κ × ν)) :
    (overwrite k v l).filter (fun e => decide (e.1 ≠ k)) =
      l.filter fun e => decide (e.1 ≠ k) := by
  induction l with
  | nil => rfl
  | cons e l ih =>
    show ((if e.1 = k then (k, v) else e) :: overwrite k v l).filter _ = _
    by_cases he : e.1 = k
    · rw [if_pos he, List.filter_cons_of_neg (by simp), List.filter_cons_of_neg (by simp [he]), ih]
    · rw [if_neg he, List.filter_cons_of_pos (by simp [he]), List.filter_cons_of_pos (by simp [he]),
        ih]

theorem filter_overwrite (k k' : κ) (v : ν) (l : List (κ × ν)) :
    (overwrite k' v l).filter (fun e => decide (e.1 ≠ k)) =
      overwrite k' v (l.filter fun e => decide (e.1 ≠ k)) := by
  unfold overwrite
  rw [List.filter_map]
  congr 1
  refine List.filter_congr fun e _ => ?_
  rw [Function.comp_apply]
  by_cases he : e.1 = k'
  · rw [if_pos he, he]
  · rw [if_neg he]

/-- An erasure undoes a write under its key. -/
theorem erase_set_self (d : Dict κ ν) (k : κ) (v : ν) : (d.set k v).erase k = d.erase k := by
  ext1
  unfold set erase retain
  split
  · exact filter_overwrite_self k v d.entries
  · dsimp only
    rw [List.filter_append, List.filter_cons_of_neg (by simp), List.filter_nil, List.append_nil]

/-- An erasure and a write under different keys commute. -/
theorem erase_set_of_ne (d : Dict κ ν) {k k' : κ} (v : ν) (h : k' ≠ k) :
    (d.set k' v).erase k = (d.erase k).set k' v := by
  have hkeys : k' ∈ (d.erase k).keys ↔ k' ∈ d.keys := by
    rw [keys_erase, List.mem_erase_of_ne h]
  ext1
  -- the write changes the entry in its place, or adds one at the end
  by_cases hmem : k' ∈ d.keys
  · unfold set
    rw [dif_pos hmem, dif_pos (hkeys.mpr hmem)]
    exact filter_overwrite k k' v d.entries
  · rw [entries_set_of_not_mem _ v (mt hkeys.mp hmem)]
    show ((d.set k' v).entries.filter fun e => decide (e.1 ≠ k)) = _
    rw [entries_set_of_not_mem d v hmem, List.filter_append, List.filter_cons_of_pos (by simp [h])]
    rfl

/-- A key that is not among the pairs may be forgotten before them. -/
theorem erase_update_of_not_mem (d : Dict κ ν) {k : κ} {l : List (κ × ν)}
    (h : k ∉ l.map Prod.fst) : (d.update l).erase k = (d.erase k).update l := by
  induction l generalizing d with
  | nil => rfl
  | cons e l ih =>
    rw [List.map_cons, List.mem_cons, not_or] at h
    show ((d.set e.1 e.2).update l).erase k = ((d.erase k).set e.1 e.2).update l
    rw [ih _ h.2, erase_set_of_ne d e.2 (Ne.symm h.1)]

end Dict

end Sentrix
