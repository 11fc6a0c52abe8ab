import Mathlib.Data.List.Flatten
import Mathlib.Data.List.Perm.Basic
import Mathlib.Data.List.Nodup
import Mathlib.Tactic.Common

/-!
# Bounded queues, and what becomes of the items on a line

`BoundedQueue α n` is a first-in first-out queue that never holds more than `n` items:
`put` refuses an item when there is no room, `get` takes the oldest one out.

Items often pass through several such queues, and through the hands of the threads between
them. Seen from outside that is one line: items enter it at one end, in an order, and leave it
at the other end, unless they are given up on the way. `Balanced entered through inside lost`
says that the books of a line are in order: every item that entered is accounted for exactly
once, as come through, still inside, or lost; and what came through and what is still inside
are in the order in which they entered. An operation keeps the books in order if it lets an
item enter (`Balanced.enter`), hands on the oldest (`Balanced.leave`) or gives up a stretch of
what is inside (`Balanced.lose`).

Where several takers stand at the end of a line, what comes through is a list of items tagged
with their takers. The `share` of each is in order, and what they use of their shares is, all
in all, part of what came through (`parts_subperm`): no item is taken twice.
-/

namespace Sentrix

open scoped List

variable {α ι : Type*}

/-! ### Bounded queues -/

/-- A first-in first-out queue with room for `n` items, the oldest first. -/
structure BoundedQueue (α : Type*) (n : ℕ) where
  items : List α
  bounded : items.length ≤ n

namespace BoundedQueue

variable {n : ℕ}

def empty : BoundedQueue α n := ⟨[], Nat.zero_le n⟩

/-- The queue with one more item; `none` if it is full. -/
def put (q : BoundedQueue α n) (a : α) : Option (BoundedQueue α n) :=
  if h : q.items.length < n then
    some ⟨q.items ++ [a], by rw [List.length_append]; exact h⟩
  else none

/-- The oldest item and the rest; `none` if the queue is empty. -/
def get (q : BoundedQueue α n) : Option (α × BoundedQueue α n) :=
  match h : q.items with
  | [] => none
  | a :: rest => some (a, ⟨rest, Nat.le_of_succ_le (by simpa [h] using q.bounded)⟩)

/-- The number of items (`qsize`). -/
def size (q : BoundedQueue α n) : ℕ := q.items.length

variable {q q' : BoundedQueue α n} {a : α}

/-- A put adds at the end. -/
theorem items_put (h : q.put a = some q') : q'.items = q.items ++ [a] := by
  unfold put at h
  split at h
  · cases h
    rfl
  · cases h

theorem size_put (h : q.put a = some q') : q'.size = q.size + 1 := by
  rw [size, items_put h, List.length_append]
  rfl

/-- A put is refused exactly by a full queue. -/
theorem put_eq_none_iff : q.put a = none ↔ n ≤ q.size := by
  unfold put size
  split
  · next h => exact iff_of_false nofun (Nat.not_le.mpr h)
  · next h => exact iff_of_true rfl (Nat.not_lt.mp h)

/-- A get takes the first item. -/
theorem items_get (h : q.get = some (a, q')) : q.items = a :: q'.items := by
  unfold get at h
  split at h
  · cases h
  · next heq =>
    cases h
    exact heq

/-- A get is refused exactly by an empty queue. -/
theorem get_eq_none_iff : q.get = none ↔ q.items = [] := by
  unfold get
  split
  · next h => exact iff_of_true rfl h
  · next h => exact iff_of_false nofun (by rw [h]; exact List.cons_ne_nil _ _)

theorem size_eq_zero_iff : q.size = 0 ↔ q.items = [] := List.length_eq_zero_iff

/-- The queue after an attempt to put an item in, which is given up if there is no room. -/
def offer (q : BoundedQueue α n) (a : α) : BoundedQueue α n := (q.put a).getD q

theorem items_offer (q : BoundedQueue α n) (a : α) :
    (q.offer a).items = (q.items ++ [a]).take n := by
  unfold offer
  cases hput : q.put a with
  | none =>
    have hfull : n ≤ q.items.length := put_eq_none_iff.mp hput
    rw [Option.getD_none, List.take_append_of_le_length hfull, List.take_of_length_le q.bounded]
  | some q' =>
    rw [Option.getD_some, ← items_put hput, List.take_of_length_le q'.bounded]

/-- While nothing is taken out, the oldest items are kept. -/
theorem items_foldl_offer (q : BoundedQueue α n) (l : List α) :
    (l.foldl offer q).items = (q.items ++ l).take n := by
  induction l generalizing q with
  | nil => rw [List.foldl_nil, List.append_nil, List.take_of_length_le q.bounded]
  | cons a l ih =>
    have hroom : n - min n (q.items ++ [a]).length = n - (q.items ++ [a]).length := by omega
    rw [List.foldl_cons, ih, items_offer, List.take_append, List.take_take, Nat.min_self,
      List.length_take, hroom, ← List.take_append, ← List.append_cons]

end BoundedQueue

/-! ### The books of a line -/

/-- Of the items that entered a line, in order, some have come through, some are still inside
(the oldest first) and some have been lost. -/
structure Balanced (entered through inside lost : List α) : Prop where
  order : through ++ inside <+ entered
  count : (through ++ inside ++ lost).Perm entered

namespace Balanced

variable {entered through inside lost : List α}

theorem nil : Balanced ([] : List α) [] [] [] := ⟨List.Sublist.refl _, List.Perm.refl _⟩

/-- Items enter at the end. -/
theorem enter (h : Balanced entered through inside lost) (new : List α) :
    Balanced (entered ++ new) through (inside ++ new) lost where
  order := by
    rw [← List.append_assoc]
    exact h.order.append (List.Sublist.refl new)
  count := by
    -- what is lost stands behind what is inside, so the new items move past it
    have hswap : (inside ++ new ++ lost).Perm (inside ++ lost ++ new) := by
      rw [List.append_assoc, List.append_assoc]
      exact List.Perm.append_left inside List.perm_append_comm
    calc through ++ (inside ++ new) ++ lost
        = through ++ (inside ++ new ++ lost) := by rw [List.append_assoc]
      _ ~ through ++ (inside ++ lost ++ new) := hswap.append_left through
      _ = through ++ inside ++ lost ++ new := by simp only [List.append_assoc]
      _ ~ entered ++ new := h.count.append_right new

/-- The oldest items come through. -/
theorem leave {old : List α} (h : Balanced entered through (old ++ inside) lost) :
    Balanced entered (through ++ old) inside lost where
  order := by
    rw [List.append_assoc]
    exact h.order
  count := by
    rw [List.append_assoc through old inside]
    exact h.count

/-- A stretch of what is inside is given up. -/
theorem lose {before given after : List α}
    (h : Balanced entered through (before ++ given ++ after) lost) :
    Balanced entered through (before ++ after) (lost ++ given) where
  order := by
    refine List.Sublist.trans ?_ h.order
    refine List.Sublist.append (List.Sublist.refl through) ?_
    exact (List.sublist_append_left before given).append (List.Sublist.refl after)
  count := by
    -- the items given up move to the end
    have hmove : (before ++ after ++ (lost ++ given)).Perm (before ++ given ++ after ++ lost) := by
      rw [← List.append_assoc, List.append_assoc before given after]
      calc before ++ after ++ lost ++ given
          ~ given ++ (before ++ after ++ lost) := List.perm_append_comm
        _ = given ++ before ++ (after ++ lost) := by simp only [List.append_assoc]
        _ ~ before ++ given ++ (after ++ lost) := List.perm_append_comm.append_right _
        _ = before ++ (given ++ after) ++ lost := by simp only [List.append_assoc]
    calc through ++ (before ++ after) ++ (lost ++ given)
        = through ++ (before ++ after ++ (lost ++ given)) := by rw [List.append_assoc]
      _ ~ through ++ (before ++ given ++ after ++ lost) := hmove.append_left through
      _ = through ++ (before ++ given ++ after) ++ lost := by simp only [List.append_assoc]
      _ ~ entered := h.count

/-- If nothing is lost, what entered is what came through and then what is inside. -/
theorem eq_of_no_loss (h : Balanced entered through inside []) : entered = through ++ inside := by
  have hlength : (through ++ inside).length = entered.length := by
    simpa using h.count.length_eq
  exact (h.order.eq_of_length hlength).symm

/-- An item that entered is through, inside or lost. -/
theorem mem_iff (h : Balanced entered through inside lost) (a : α) :
    a ∈ entered ↔ a ∈ through ∨ a ∈ inside ∨ a ∈ lost := by
  rw [← h.count.mem_iff, List.mem_append, List.mem_append, or_assoc]

end Balanced

/-! ### Several takers -/

section Takers

variable [DecidableEq ι] {taken : List (ι × α)}

/-- What one of several takers has taken. -/
def share (taken : List (ι × α)) (i : ι) : List α :=
  (taken.filter fun x => decide (x.1 = i)).map Prod.snd

theorem share_concat_self (taken : List (ι × α)) (i : ι) (a : α) :
    share (taken ++ [(i, a)]) i = share taken i ++ [a] := by
  rw [share, List.filter_append, List.map_append, List.filter_singleton]
  simp only [decide_true]
  rfl

theorem share_concat_of_ne {i j : ι} (h : i ≠ j) (a : α) :
    share (taken ++ [(i, a)]) j = share taken j := by
  have hnone : [(i, a)].filter (fun x => decide (x.1 = j)) = [] := by
    rw [List.filter_singleton, decide_eq_false h]
    rfl
  rw [share, List.filter_append, List.map_append, hnone, List.map_nil, List.append_nil]
  rfl

/-- A taker's share is a part of what was taken, in its order. -/
theorem share_sublist (taken : List (ι × α)) (i : ι) : share taken i <+ taken.map Prod.snd :=
  List.filter_sublist.map Prod.snd

/-- The shares of some of the takers are, together, what these have taken. -/
theorem shares_perm (taken : List (ι × α)) {takers : List ι} (h : takers.Nodup) :
    takers.flatMap (share taken) ~
      (taken.filter fun x => decide (x.1 ∈ takers)).map Prod.snd := by
  induction takers with
  | nil =>
    have hnone : (taken.filter fun x => decide (x.1 ∈ ([] : List ι))) = [] := by
      rw [List.filter_eq_nil_iff]
      exact fun x _ hx => List.not_mem_nil (of_decide_eq_true hx)
    rw [List.flatMap_nil, hnone]
    exact List.Perm.refl _
  | cons i takers ih =>
    rw [List.nodup_cons] at h
    -- a taker's share and the shares of the others split what all of them have taken
    have hmine : (taken.filter fun x => decide (x.1 = i)) =
        (taken.filter fun x => decide (x.1 ∈ i :: takers)).filter fun x => decide (x.1 = i) := by
      rw [List.filter_filter]
      refine List.filter_congr fun x _ => ?_
      by_cases hx : x.1 = i
      · simp [hx]
      · simp [hx]
    have hothers : (taken.filter fun x => decide (x.1 ∈ takers)) =
        (taken.filter fun x => decide (x.1 ∈ i :: takers)).filter
          fun x => !decide (x.1 = i) := by
      rw [List.filter_filter]
      refine List.filter_congr fun x _ => ?_
      by_cases hx : x.1 = i
      · simp [hx, h.1]
      · simp [hx]
    calc (i :: takers).flatMap (share taken)
        = share taken i ++ takers.flatMap (share taken) := List.flatMap_cons
      _ ~ share taken i ++ (taken.filter fun x => decide (x.1 ∈ takers)).map Prod.snd :=
          (ih h.2).append_left _
      _ ~ (taken.filter fun x => decide (x.1 ∈ i :: takers)).map Prod.snd := by
          rw [share, hmine, hothers, ← List.map_append]
          exact (List.filter_append_perm _ _).map Prod.snd

/-- **No item is taken twice**: what distinct takers make use of, each of its share, is part of
what came through. -/
theorem parts_subperm {part : ι → List α} (hpart : ∀ i, part i <+ share taken i)
    {takers : List ι} (h : takers.Nodup) : takers.flatMap part <+~ taken.map Prod.snd := by
  have hparts : takers.flatMap part <+ takers.flatMap (share taken) :=
    List.Sublist.flatMap_right takers fun i _ => hpart i
  have htaken : (taken.filter fun x => decide (x.1 ∈ takers)).map Prod.snd <+
      taken.map Prod.snd := List.filter_sublist.map Prod.snd
  exact hparts.subperm.trans ((shares_perm taken h).subperm.trans htaken.subperm)

/-- Items that each taker takes once are taken once. -/
theorem nodup_of_shares (h : ∀ i, (share taken i).Nodup) : taken.Nodup := by
  induction taken with
  | nil => exact List.nodup_nil
  | cons x taken ih =>
    have hmine : share (x :: taken) x.1 = x.2 :: share taken x.1 := by
      unfold share
      simp
    -- the item is not among the later ones of its own taker
    have hnew : x.2 ∉ share taken x.1 := by
      have hself := h x.1
      rw [hmine] at hself
      exact (List.nodup_cons.mp hself).1
    refine List.nodup_cons.mpr ⟨fun hmem => hnew ?_, ih fun i => (h i).sublist ?_⟩
    · rw [share, List.mem_map]
      exact ⟨x, List.mem_filter.mpr ⟨hmem, decide_eq_true rfl⟩, rfl⟩
    · exact ((List.sublist_cons_self x taken).filter _).map Prod.snd

end Takers

end Sentrix
