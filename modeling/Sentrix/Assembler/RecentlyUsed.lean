import Mathlib.Order.Lattice.Nat
import Sentrix.Lib.Recency
import Sentrix.Assembler.FlowTable

/-!
# The table keeps the recently used keys

`BoundedTable` of `assembler/flow_session_tables.py` is used through two calls:
`get_or_create`, which always answers an entry, and `get`, which answers one only if
the key is there. A call that answers an entry *touches* its key. The table knows
nothing of the calls it has answered but the order of its dictionary, and yet its keys
are a function of the touches alone: they are the last `max_size` distinct keys touched,
in the order of their last touches (`RecencyInv`). That a key was evicted in between
does not matter, since a key that comes back is touched by coming back.
-/

namespace Sentrix

/-- A call of a `BoundedTable`. -/
inductive TableCall (κ ν : Type*) where
  | getOrCreate (key : κ) (defaultFactory : ν) (currentTime : ℚ)
  | get (key : κ)

namespace BoundedTable

variable {κ ν : Type*} [DecidableEq κ]

/-- The key a call asks for. -/
def keyOf : TableCall κ ν → κ
  | .getOrCreate key _ _ => key
  | .get key => key

/-- One call, and the entry it answers. -/
def call (t : BoundedTable κ ν) : TableCall κ ν → BoundedTable κ ν × Option (TableEntry ν)
  | .getOrCreate key defaultFactory currentTime =>
    let r := t.getOrCreate key defaultFactory currentTime
    (r.1, some r.2)
  | .get key => t.get key

/-- The table as a machine that is fed calls. -/
def machine (maxSize : ℤ) : Machine (BoundedTable κ ν) (TableCall κ ν) (Option (TableEntry ν)) where
  init := new maxSize
  step := call

/-- The keys touched along a run: those of the calls that answered an entry. -/
def touches (maxSize : ℤ) (h : List (TableCall κ ν)) : List κ :=
  ((h.zip ((machine maxSize).emits h)).filter fun x => x.2.isSome).map fun x => keyOf x.1

/-! ### One call -/

/-- A key in the table moves to the end. -/
theorem getOrCreate_of_mem {t : BoundedTable κ ν} {key : κ} {entry : TableEntry ν}
    (h : t.table.get? key = some entry) (defaultFactory : ν) (currentTime : ℚ) :
    t.getOrCreate key defaultFactory currentTime =
      ({ t with table := (t.table.erase key).set key { entry with lastSeen := currentTime } },
        { entry with lastSeen := currentTime }) := by
  unfold getOrCreate
  rw [h]

/-- So does a key that is read. -/
theorem get_of_mem {t : BoundedTable κ ν} {key : κ} {entry : TableEntry ν}
    (h : t.table.get? key = some entry) :
    t.get key = ({ t with table := (t.table.erase key).set key entry }, some entry) := by
  unfold get
  rw [h]

theorem get_of_not_mem {t : BoundedTable κ ν} {key : κ} (h : key ∉ t.table.keys) :
    t.get key = (t, none) := by
  unfold get
  rw [(t.table.get?_eq_none key).mpr h]

/-- `move_to_end`. -/
theorem keys_move_to_end {t : BoundedTable κ ν} (key : κ) (entry : TableEntry ν) :
    ((t.table.erase key).set key entry).keys = t.table.keys.erase key ++ [key] := by
  have hnot : key ∉ (t.table.erase key).keys := by
    rw [Dict.keys_erase]
    exact t.table.nodup_keys.not_mem_erase
  rw [Dict.keys_set_of_not_mem _ _ hnot, Dict.keys_erase]

/-- The first key is the one evicted. -/
theorem keys_evictLru (t : BoundedTable κ ν) : t.evictLru.table.keys = t.table.keys.tail := by
  unfold evictLru
  split
  · next hnil => rw [hnil, List.tail_nil]
  · next k rest hcons =>
    show (t.table.erase k).keys = _
    rw [Dict.keys_erase, hcons, List.erase_cons_head, List.tail_cons]

theorem evictedCount_evictLru {t : BoundedTable κ ν} (h : 0 < t.table.size) :
    t.evictLru.evictedCount = t.evictedCount + 1 := by
  unfold evictLru
  split
  · next hnil =>
    rw [← Dict.length_keys, hnil, List.length_nil] at h
    exact absurd h (lt_irrefl 0)
  · rfl

/-- What a call has done to a table: it has touched a key, for which at most one entry
was created, or it found nothing and changed nothing. -/
inductive Called (t : BoundedTable κ ν) (c : TableCall κ ν) :
    BoundedTable κ ν × Option (TableEntry ν) → Prop
  | touched (t' : BoundedTable κ ν) (entry : TableEntry ν) (hmax : t'.maxSize = t.maxSize)
      (hkeys : t'.table.keys = use t.maxSize.toNat t.table.keys (keyOf c))
      (hcount : t'.evictedCount + t'.table.size + t.created =
        t.evictedCount + t.table.size + t'.created) : Called t c (t', some entry)
  | missed : Called t c (t, none)

omit [DecidableEq κ] in
theorem size_eq_of_keys {d : Dict κ (TableEntry ν)} {l : List κ} (h : d.keys = l) :
    d.size = l.length := by
  rw [← Dict.length_keys, h]

/-- A key that is found moves to the end. -/
theorem called_found {t : BoundedTable κ ν} {c : TableCall κ ν} {e : TableEntry ν}
    (h : t.table.get? (keyOf c) = some e) (entry : TableEntry ν) :
    Called t c
      ({ t with table := (t.table.erase (keyOf c)).set (keyOf c) entry }, some entry) := by
  have hmem : keyOf c ∈ t.table.keys := (t.table.mem_keys _).mpr ⟨e, h⟩
  have hkeys := keys_move_to_end (t := t) (keyOf c) entry
  -- a key that moves to the end leaves the size alone
  have hsize : ((t.table.erase (keyOf c)).set (keyOf c) entry).size = t.table.size :=
    calc ((t.table.erase (keyOf c)).set (keyOf c) entry).size
        = (t.table.keys.erase (keyOf c) ++ [keyOf c]).length := size_eq_of_keys hkeys
      _ = t.table.keys.length - 1 + 1 := by
          rw [List.length_append, List.length_erase_of_mem hmem, List.length_singleton]
      _ = t.table.size := by
          rw [Nat.sub_add_cancel (List.length_pos_of_mem hmem), Dict.length_keys]
  refine .touched _ _ rfl ?_ ?_
  · rw [use, if_pos hmem]
    exact hkeys
  · show t.evictedCount + Dict.size _ + t.created = _
    rw [hsize]

/-- A new key is the last one, and the first one makes room for it. -/
theorem called_created {t : BoundedTable κ ν} (hmax : 1 ≤ t.maxSize) {key : κ}
    (hnot : key ∉ t.table.keys) (defaultFactory : ν) (currentTime : ℚ) :
    Called t (.getOrCreate key defaultFactory currentTime)
      ((t.getOrCreate key defaultFactory currentTime).1,
        some (t.getOrCreate key defaultFactory currentTime).2) := by
  -- the source compares signed sizes, the list of keys has a length
  have hfull : ((t.table.size : ℤ) ≥ t.maxSize) ↔ t.maxSize.toNat ≤ t.table.keys.length := by
    rw [Dict.length_keys, Int.toNat_le]
  unfold getOrCreate
  rw [(t.table.get?_eq_none key).mpr hnot]
  dsimp only
  by_cases hroom : (t.table.size : ℤ) ≥ t.maxSize
  · -- full: one entry is evicted and one is created
    have hpos : 0 < t.table.size := by omega
    have hkeys : ((t.evictLru.table.set key
        ⟨t.created, currentTime, currentTime, defaultFactory⟩).keys) =
        t.table.keys.tail ++ [key] := by
      rw [Dict.keys_set_of_not_mem, keys_evictLru]
      rw [keys_evictLru]
      exact fun hmem => hnot (List.mem_of_mem_tail hmem)
    rw [if_pos hroom]
    refine .touched _ _ ?_ ?_ ?_
    · show t.evictLru.maxSize = t.maxSize
      unfold evictLru
      split <;> rfl
    · rw [use, keyOf, if_neg hnot, if_pos (hfull.mp hroom)]
      exact hkeys
    · show t.evictLru.evictedCount + Dict.size _ + t.created = _ + (t.created + 1)
      rw [evictedCount_evictLru hpos, size_eq_of_keys hkeys, List.length_append,
        List.length_tail, List.length_singleton, Dict.length_keys]
      omega
  · -- there is room, so that nothing is evicted
    have hkeys := Dict.keys_set_of_not_mem t.table
      (⟨t.created, currentTime, currentTime, defaultFactory⟩ : TableEntry ν) hnot
    rw [if_neg hroom]
    refine .touched _ _ rfl ?_ ?_
    · rw [use, keyOf, if_neg hnot, if_neg (mt hfull.mpr hroom)]
      exact hkeys
    · show t.evictedCount + Dict.size _ + t.created = _ + (t.created + 1)
      rw [size_eq_of_keys hkeys, List.length_append, List.length_singleton, Dict.length_keys]
      omega

/-- **What one call does.** -/
theorem call_called {t : BoundedTable κ ν} (hmax : 1 ≤ t.maxSize) (c : TableCall κ ν) :
    Called t c (t.call c) := by
  cases c with
  | getOrCreate key defaultFactory currentTime =>
    show Called t _ ((t.getOrCreate key defaultFactory currentTime).1, some _)
    cases hget : t.table.get? key with
    | none =>
      exact called_created hmax ((t.table.get?_eq_none key).mp hget) defaultFactory currentTime
    | some e =>
      rw [getOrCreate_of_mem hget]
      exact called_found (c := .getOrCreate key defaultFactory currentTime) hget _
  | get key =>
    -- a get that misses touches nothing
    show Called t _ (t.get key)
    cases hget : t.table.get? key with
    | none =>
      rw [get_of_not_mem ((t.table.get?_eq_none key).mp hget)]
      exact .missed
    | some e =>
      rw [get_of_mem hget]
      exact called_found (c := (.get key : TableCall κ ν)) hget e

/-! ### A whole run -/

theorem touches_concat (maxSize : ℤ) (h : List (TableCall κ ν)) (c : TableCall κ ν) :
    touches maxSize (h ++ [c]) = touches maxSize h ++
      if (((machine maxSize).after h).call c).2.isSome then [keyOf c] else [] := by
  unfold touches
  rw [Machine.emits_concat, List.zip_append (Machine.length_emits _ h).symm, List.filter_append,
    List.map_append]
  congr 1
  show List.map _ (List.filter _ [(c, (((machine maxSize).after h).call c).2)]) = _
  cases (((machine maxSize).after h).call c).2 with
  | none => rfl
  | some entry => rfl

/-- What holds of the table after the calls `h`: its keys are those touched last, and
the entries created are there or were evicted. -/
structure RecencyInv (maxSize : ℤ) (h : List (TableCall κ ν)) (t : BoundedTable κ ν) : Prop where
  maxSize_eq : t.maxSize = maxSize
  keys_eq : t.table.keys = recent maxSize.toNat (touches maxSize h)
  counted : t.evictedCount + t.table.size = t.created

/-- **One call** keeps the keys touched last. -/
theorem RecencyInv.step {maxSize : ℤ} (hmax : 1 ≤ maxSize) {h : List (TableCall κ ν)}
    (hi : RecencyInv maxSize h ((machine maxSize).after h)) (c : TableCall κ ν) :
    RecencyInv maxSize (h ++ [c]) (((machine maxSize).after h).call c).1 := by
  have hcalled := call_called (hi.maxSize_eq.symm ▸ hmax) c
  have htouches := touches_concat maxSize h c
  generalize ((machine maxSize).after h).call c = r at hcalled htouches
  cases hcalled with
  | touched t' entry hsize hkeys hcount =>
    -- the table has followed the rule, which keeps the recent keys
    rw [Option.isSome_some, if_pos rfl] at htouches
    refine ⟨hsize.trans hi.maxSize_eq, ?_, ?_⟩
    · rw [hkeys, hi.keys_eq, hi.maxSize_eq, htouches]
      exact use_recent (by omega) _ _
    · have hbefore := hi.counted
      show t'.evictedCount + t'.table.size = t'.created
      omega
  | missed =>
    -- neither the table nor the touches have changed
    rw [Option.isSome_none, if_neg Bool.false_ne_true, List.append_nil] at htouches
    refine ⟨hi.maxSize_eq, ?_, hi.counted⟩
    rw [htouches]
    exact hi.keys_eq

theorem recencyInv_after {maxSize : ℤ} (hmax : 1 ≤ maxSize) (h : List (TableCall κ ν)) :
    RecencyInv maxSize h ((machine maxSize).after h) := by
  refine (machine maxSize).invariant (RecencyInv maxSize) ⟨rfl, ?_, rfl⟩
    (fun _ c hi => hi.step hmax c) h
  show [] = recent maxSize.toNat []
  rw [recent, List.dedup_nil, List.rtake_nil]

/-- A call takes away no key but the first one. -/
theorem head?_of_evicted {t : BoundedTable κ ν} (hmax : 1 ≤ t.maxSize) {c : TableCall κ ν} {k : κ}
    (hmem : k ∈ t.table.keys) (hnot : k ∉ (t.call c).1.table.keys) :
    t.table.keys.head? = some k := by
  have hcalled := call_called hmax c
  generalize t.call c = r at hcalled hnot
  cases hcalled with
  | missed => exact absurd hmem hnot
  | touched t' entry _ hkeys _ =>
    change k ∉ t'.table.keys at hnot
    rw [hkeys] at hnot
    exact head?_of_not_mem_use hmem hnot

/-- **The table is an exact least-recently-used cache.** After every sequence of calls,
its keys are the last `max_size` distinct keys touched, in the order of their last
touches, so that a key evicted by the next call is the one whose last touch is the
oldest; a `get` of a key that is not there changes nothing; and every entry created is
in the table or has been evicted. -/
theorem bounded_table_lru (maxSize : ℤ) (hmax : 1 ≤ maxSize) (h : List (TableCall κ ν)) :
    let t : BoundedTable κ ν := (machine maxSize).after h
    t.table.keys = recent maxSize.toNat (touches maxSize h) ∧
      t.table.size = min maxSize.toNat (touches maxSize h).dedup.length ∧
      (∀ c k, k ∈ t.table.keys → k ∉ (t.call c).1.table.keys → t.table.keys.head? = some k) ∧
      (∀ k, k ∉ t.table.keys → t.get k = (t, none)) ∧
      t.evictedCount + t.table.size = t.created := by
  intro t
  have hi : RecencyInv maxSize h t := recencyInv_after hmax h
  refine ⟨hi.keys_eq, ?_, ?_, ?_, hi.counted⟩
  · calc t.table.size
        = (recent maxSize.toNat (touches maxSize h)).length := size_eq_of_keys hi.keys_eq
      _ = min maxSize.toNat (touches maxSize h).dedup.length := length_recent _ _
  · -- only the oldest key can be evicted
    intro c k hmem hnot
    exact head?_of_evicted (hi.maxSize_eq.symm ▸ hmax) hmem hnot
  · exact fun k hnot => get_of_not_mem hnot

/-- Two keys, of which the older one is used again, and then a third. -/
def threeKeys : List (TableCall ℕ Unit) :=
  [.getOrCreate 1 () 0, .getOrCreate 2 () 1, .get 1, .get 7, .getOrCreate 3 () 2]

/-- A table for two entries evicts the key that was not used again. -/
theorem bounded_table_lru_two :
    (1 : ℤ) ≤ 2 ∧ ((machine 2).after threeKeys).table.keys = recent 2 [1, 2, 1, 3] ∧
      ((machine 2).after threeKeys).table.keys = [1, 3] := by
  have hkeys := (bounded_table_lru 2 (by decide) threeKeys).1
  have htouches : touches 2 threeKeys = [1, 2, 1, 3] := by decide
  rw [htouches] at hkeys
  exact ⟨by decide, hkeys, hkeys.trans (by decide)⟩

end BoundedTable

end Sentrix
