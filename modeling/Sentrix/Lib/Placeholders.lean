import Mathlib.Data.List.Induction
import Mathlib.Data.List.Basic

/-!
# Placeholders

A loop answers some elements of a list at once. For the others it leaves a placeholder,
and remembers their positions; later a second loop goes through the positions, and through
what was computed for them together, and puts the answers in place. `foldlM_fill` says
that the answers are in the order of the elements, and are those of a loop that answers one
element after the other.

The induction is on the list from its end: a last element adds a last placeholder, and the
positions before it are filled as if it was not there (`foldlM_fill_concat`).
-/

namespace Sentrix

variable {α β ρ : Type*}

/-- Replace the element at a position; `none` past the end. -/
def setItem (l : List β) (i : ℕ) (b : β) : Option (List β) :=
  if i < l.length then some (l.set i b) else none

/-- Put the answer for the element at a position in its place. -/
def fill (as : List α) (answer : α → ρ → Option β) (results : List (Option β)) (x : ℕ × ρ) :
    Option (List (Option β)) :=
  as[x.1]?.bind fun a => (answer a x.2).bind fun b => setItem results x.1 (some b)

/-- The positions of the elements that are not answered at once. -/
def openAt (first : α → Option β) (as : List α) : List ℕ :=
  (as.zipIdx.filter fun x => (first x.1).isNone).map Prod.snd

/-- Writing to a place leaves the length. -/
theorem length_of_setItem {l l' : List β} {i : ℕ} {b : β} (h : setItem l i b = some l') :
    l'.length = l.length := by
  unfold setItem at h
  split at h
  · rw [← Option.some.inj h, List.length_set]
  · cases h

/-- Filling a place leaves the length. -/
theorem length_of_fill {as : List α} {answer : α → ρ → Option β}
    {results results' : List (Option β)} {x : ℕ × ρ}
    (h : fill as answer results x = some results') :
    results'.length = results.length := by
  obtain ⟨a, -, h⟩ := Option.bind_eq_some_iff.mp h
  obtain ⟨b, -, h⟩ := Option.bind_eq_some_iff.mp h
  exact length_of_setItem h

/-- A place inside a list is the same place with one more entry at the end. -/
theorem setItem_concat {l : List β} {i : ℕ} (hi : i < l.length) (b c : β) :
    setItem (l ++ [c]) i b = (setItem l i b).map (· ++ [c]) := by
  unfold setItem
  rw [if_pos hi, if_pos (by rw [List.length_append]; omega), List.set_append_left _ _ hi]
  rfl

/-- **Frame.** Filling a position does not touch what is behind it. -/
theorem fill_concat {as : List α} (answer : α → ρ → Option β) {results : List (Option β)}
    {x : ℕ × ρ} (hx : x.1 < as.length) (hlen : results.length = as.length) (a : α)
    (r : Option β) :
    fill (as ++ [a]) answer (results ++ [r]) x = (fill as answer results x).map (· ++ [r]) := by
  unfold fill
  rw [List.getElem?_append_left hx, List.getElem?_eq_getElem hx]
  simp only [Option.bind_some]
  cases answer as[x.1] x.2 with
  | none => rfl
  | some b => exact setItem_concat (by rwa [hlen]) _ _

/-- Filling the places of a list does not look at one more entry at the end. -/
theorem foldlM_fill_concat {as : List α} (answer : α → ρ → Option β) (a : α) (r : Option β)
    {xs : List (ℕ × ρ)} (hxs : ∀ x ∈ xs, x.1 < as.length) {results : List (Option β)}
    (hlen : results.length = as.length) :
    xs.foldlM (fill (as ++ [a]) answer) (results ++ [r]) =
      (xs.foldlM (fill as answer) results).map (· ++ [r]) := by
  induction xs generalizing results with
  | nil => rfl
  | cons x xs ih =>
    rw [List.foldlM_cons, List.foldlM_cons,
      fill_concat answer (hxs x List.mem_cons_self) hlen]
    cases hstep : fill as answer results x with
    | none => rfl
    | some results' =>
      -- filling keeps the length, so the places stay valid
      refine ih (fun y hy => hxs y (List.mem_cons_of_mem x hy)) ?_
      rw [length_of_fill hstep, hlen]

/-- One more entry is open at its own place, or nowhere. -/
theorem openAt_concat (first : α → Option β) (as : List α) (a : α) :
    openAt first (as ++ [a]) =
      if (first a).isNone then openAt first as ++ [as.length] else openAt first as := by
  unfold openAt
  rw [List.zipIdx_append, List.filter_append, List.map_append, Nat.zero_add]
  by_cases ha : (first a).isNone = true
  · simp [ha]
  · simp [ha]

theorem lt_of_mem_openAt {first : α → Option β} {as : List α} {i : ℕ} (hi : i ∈ openAt first as) :
    i < as.length := by
  obtain ⟨x, hx, rfl⟩ := List.mem_map.mp hi
  have hlt := (List.mem_zipIdx (List.mem_filter.mp hx).1).2.1
  rwa [Nat.zero_add] at hlt

/-- There are as many open places as entries without an answer. -/
theorem length_openAt (first : α → Option β) (as : List α) :
    (openAt first as).length = (as.filter fun a => (first a).isNone).length := by
  induction as using List.reverseRecOn with
  | nil => rfl
  | append_singleton as a ih =>
    rw [openAt_concat, List.filter_append]
    by_cases ha : (first a).isNone = true
    · simp [ha, ih]
    · simp [ha, ih]

theorem mapM_concat (g : α → Option β) (as : List α) (a : α) :
    (as ++ [a]).mapM g = (as.mapM g).bind fun bs => (g a).map fun b => bs ++ [b] := by
  rw [List.mapM_append]
  cases as.mapM g with
  | none => rfl
  | some bs => cases hb : g a <;> simp [hb]

theorem length_of_mapM_eq_some {g : α → Option β} {as : List α} {bs : List β}
    (h : as.mapM g = some bs) : bs.length = as.length := by
  induction as using List.reverseRecOn generalizing bs with
  | nil =>
    obtain rfl := Option.some.inj h
    rfl
  | append_singleton as a ih =>
    rw [mapM_concat] at h
    obtain ⟨bs', hbs', h⟩ := Option.bind_eq_some_iff.mp h
    obtain ⟨b, -, rfl⟩ := Option.map_eq_some_iff.mp h
    rw [List.length_append, List.length_append, ih hbs']
    rfl

/-- The answers in place are those given to one element after the other. -/
theorem foldlM_fill (first : α → Option β) (row : α → ρ) (answer : α → ρ → Option β)
    (as : List α) :
    ((openAt first as).zip ((as.filter fun a => (first a).isNone).map row)).foldlM
        (fill as answer) (as.map first) =
      (as.mapM fun a => (first a).or (answer a (row a))).map (List.map some) := by
  induction as using List.reverseRecOn with
  | nil => rfl
  | append_singleton as a ih =>
    have hbefore : ∀ x ∈ (openAt first as).zip ((as.filter fun a => (first a).isNone).map row),
        x.1 < as.length := fun x hx => lt_of_mem_openAt (List.of_mem_zip hx).1
    have hlen :
        (openAt first as).length = ((as.filter fun a => (first a).isNone).map row).length := by
      rw [List.length_map, length_openAt]
    have hframe := foldlM_fill_concat answer a (first a) hbefore (List.length_map first)
    rw [ih] at hframe
    rw [openAt_concat, List.filter_append, List.map_append, List.map_append, List.map_singleton,
      mapM_concat]
    cases ha : first a with
    | some b =>
      -- nothing is added to the second loop
      have hdrop : [a].filter (fun a => (first a).isNone) = [] := by simp [ha]
      rw [ha] at hframe
      rw [hdrop, Option.isNone_some, if_neg Bool.false_ne_true, List.map_nil, List.append_nil,
        hframe]
      cases as.mapM fun a => (first a).or (answer a (row a)) with
      | none => rfl
      | some bs => simp
    | none =>
      -- the last position is filled last
      have hkeep : [a].filter (fun a => (first a).isNone) = [a] := by simp [ha]
      rw [ha] at hframe
      rw [hkeep, Option.isNone_none, if_pos rfl, List.map_singleton, List.zip_append hlen,
        List.foldlM_append, hframe]
      cases hall : as.mapM fun a => (first a).or (answer a (row a)) with
      | none => rfl
      | some bs =>
        have hbs : bs.length = as.length := length_of_mapM_eq_some hall
        show [(as.length, row a)].foldlM (fill (as ++ [a]) answer) (bs.map some ++ [none]) = _
        rw [List.foldlM_cons]
        unfold fill setItem
        rw [List.getElem?_concat_length]
        simp only [Option.bind_some, Option.none_or]
        cases answer a (row a) with
        | none => rfl
        | some b =>
          have hlt : as.length < (bs.map some ++ [none]).length := by
            rw [List.length_append, List.length_map, hbs]
            exact Nat.lt_succ_self _
          have hset : (bs.map some ++ [none]).set as.length (some b) = (bs ++ [b]).map some := by
            rw [List.set_append_right _ _ (by rw [List.length_map]; exact Nat.le_of_eq hbs),
              List.length_map, hbs, Nat.sub_self, List.map_append]
            rfl
          rw [Option.bind_some, if_pos hlt, hset]
          rfl

end Sentrix
