import Mathlib.Data.List.Basic
import Mathlib.Data.List.Flatten
import Mathlib.Data.List.Forall2
import Mathlib.Data.List.Nodup
import Mathlib.Data.List.Perm.Basic
import Mathlib.Data.List.TakeDrop
import Mathlib.Data.List.TakeWhile

/-!
# Lists of the model

Partial maps (`List.mapM` in `Option`) succeed if and only if every element does;
histories are split at one of their elements; corresponding lists are filtered through
each other, and have their properties from each other; lists are sorted along a total
preorder; the first elements of a sorted list are its least, and those of a list without
repetitions are told from the rest; a list of the first elements is kept while a history
grows; tests are compared by what they count; an element is counted in a list that repeats
another, and such a list is the beginning of an endless cycle; a list of the values at its
places is changed place by place; a loop collects what it converts until an exception ends
it (`collect_ne_nil_iff`); the end of a list is followed while the list is popped from its
front; what a loop does before its first failure is compared with what it should do; a
slice with bounds that count from either end is taken (`slice`).
-/

namespace Sentrix

variable {α β γ : Type*}

theorem mapM_eq_some_of_forall {f : α → Option β} {g : α → β} {l : List α}
    (h : ∀ x ∈ l, f x = some (g x)) : l.mapM f = some (l.map g) := by
  induction l with
  | nil => rfl
  | cons x l ih =>
    have hx := h x List.mem_cons_self
    have hl := ih fun y hy => h y (List.mem_cons_of_mem _ hy)
    rw [List.mapM_cons, hx, hl]
    rfl

theorem mapM_eq_none_of_mem {f : α → Option β} {l : List α} {x : α} (hx : x ∈ l)
    (h : f x = none) : l.mapM f = none := by
  induction l with
  | nil => exact absurd hx List.not_mem_nil
  | cons y l ih =>
    rw [List.mapM_cons]
    obtain rfl | hx := List.mem_cons.mp hx
    · rw [h]
      rfl
    · rw [ih hx]
      cases f y <;> rfl

theorem mem_of_mapM_eq_some {f : α → Option β} {l : List α} {l' : List β}
    (h : l.mapM f = some l') {y : β} (hy : y ∈ l') : ∃ x ∈ l, f x = some y := by
  induction l generalizing l' with
  | nil =>
    obtain rfl : l' = [] := by simpa using h.symm
    exact absurd hy List.not_mem_nil
  | cons x l ih =>
    rw [List.mapM_cons] at h
    -- both the head and the tail were mapped
    obtain ⟨z, hz, h⟩ := Option.bind_eq_some_iff.mp h
    obtain ⟨zs, hzs, h⟩ := Option.bind_eq_some_iff.mp h
    obtain rfl : z :: zs = l' := Option.some.inj h
    obtain rfl | hy := List.mem_cons.mp hy
    · exact ⟨x, List.mem_cons_self, hz⟩
    · obtain ⟨a, ha, hfa⟩ := ih hzs hy
      exact ⟨a, List.mem_cons_of_mem _ ha, hfa⟩

/-- Splitting a history at an element: it is the last one, or it lies in the
history before the last one. -/
theorem split_concat {h pre post : List α} {a e : α} (hs : h ++ [a] = pre ++ e :: post) :
    (e = a ∧ post = []) ∨ ∃ post', post = post' ++ [a] ∧ h = pre ++ e :: post' := by
  obtain rfl | ⟨post', b, rfl⟩ := List.eq_nil_or_concat post
  · obtain ⟨-, heq⟩ := List.append_inj' hs rfl
    exact Or.inl ⟨(List.cons.inj heq).1.symm, rfl⟩
  · have hs' : h ++ [a] = (pre ++ e :: post') ++ [b] := by
      rw [hs, List.concat_eq_append, List.append_assoc, List.cons_append]
    obtain ⟨rfl, heq⟩ := List.append_inj' hs' rfl
    obtain rfl : a = b := (List.cons.inj heq).1
    exact Or.inr ⟨post', List.concat_eq_append, rfl⟩

/-- Keeping the second components whose partner is kept, for lists that
correspond and predicates that agree on corresponding elements. -/
theorem map_fst_filter_zip {R : α → β → Prop} {as : List α} {bs : List β}
    (hR : List.Forall₂ R as bs) {f : α → γ} {p : γ → Bool} {q : β → Bool}
    (hpq : ∀ a, ∀ b ∈ bs, R a b → p (f a) = q b) :
    ((bs.zip (as.map f)).filter fun x => p x.2).map Prod.fst = bs.filter q := by
  induction hR with
  | nil => rfl
  | @cons a b as bs hab _ ih =>
    have hrest := ih fun a' b' hb' => hpq a' b' (List.mem_cons_of_mem _ hb')
    -- the two predicates agree on the heads
    have hhead : p (f a) = q b := hpq a b List.mem_cons_self hab
    rw [List.map_cons, List.zip_cons_cons, List.filter_cons, List.filter_cons]
    simp only [hhead]
    split
    · rw [List.map_cons, hrest]
    · exact hrest

/-- What holds of the elements of a list holds of those that correspond to them. -/
theorem forall_mem_of_forall₂ {R : α → β → Prop} {p : α → Prop} {q : β → Prop} {as : List α}
    {bs : List β} (hR : List.Forall₂ R as bs) (hp : ∀ a ∈ as, p a)
    (hpq : ∀ a b, R a b → p a → q b) : ∀ b ∈ bs, q b := by
  induction hR with
  | nil => exact fun _ h => absurd h List.not_mem_nil
  | cons hab _ ih =>
    rw [List.forall_mem_cons] at hp ⊢
    exact ⟨hpq _ _ hab hp.1, ih hp.2⟩

theorem exists_forall₂_of_forall {R : α → β → Prop} {l : List α} (h : ∀ a ∈ l, ∃ b, R a b) :
    ∃ l' : List β, List.Forall₂ R l l' := by
  induction l with
  | nil => exact ⟨[], List.Forall₂.nil⟩
  | cons a l ih =>
    obtain ⟨b, hb⟩ := h a List.mem_cons_self
    obtain ⟨l', hl'⟩ := ih fun x hx => h x (List.mem_cons_of_mem _ hx)
    exact ⟨b :: l', List.Forall₂.cons hb hl'⟩

open scoped List in
theorem nodup_of_subperm {l l' : List α} (h : l <+~ l') (hl' : l'.Nodup) : l.Nodup := by
  obtain ⟨k, hperm, hsub⟩ := h
  exact hperm.nodup_iff.mp (hl'.sublist hsub)

open scoped List in
/-- A part of what a map makes of a list is what it makes of a part of the list. -/
theorem exists_map_of_subperm {f : α → β} {l : List β} {l' : List α} (h : l <+~ l'.map f) :
    ∃ k, k <+~ l' ∧ l = k.map f := by
  obtain ⟨l₁, hperm, hsub⟩ := h
  obtain ⟨k, hk, rfl⟩ := List.sublist_map_iff.mp hsub
  -- the map and the rearrangement change places
  have hcomp : Relation.Comp (· = List.map f ·) (· ~ ·) l k := by
    rw [List.eq_map_comp_perm]
    exact hperm.symm
  obtain ⟨k', rfl, hk'⟩ := hcomp
  exact ⟨k', hk'.subperm.trans hk.subperm, rfl⟩

/-- Sorting along a total preorder sorts. -/
theorem pairwise_mergeSort_of_total {r : α → α → Prop} [DecidableRel r]
    (htrans : ∀ a b c, r a b → r b c → r a c) (htotal : ∀ a b, r a b ∨ r b a) (l : List α) :
    (l.mergeSort fun a b => decide (r a b)).Pairwise r := by
  have hle : ∀ a b c, decide (r a b) = true → decide (r b c) = true → decide (r a c) = true := by
    intro a b c hab hbc
    rw [decide_eq_true_eq] at hab hbc ⊢
    exact htrans a b c hab hbc
  have htot : ∀ a b, (decide (r a b) || decide (r b a)) = true := by
    intro a b
    rw [Bool.or_eq_true, decide_eq_true_eq, decide_eq_true_eq]
    exact htotal a b
  exact (List.pairwise_mergeSort hle htot l).imp fun h => of_decide_eq_true h

/-- A history that keeps its first elements takes one more until it is full. -/
theorem map_take_concat (f : α → β) (n : ℕ) (l : List α) (a : α) :
    ((l ++ [a]).take n).map f =
      if min n l.length < n then (l.take n).map f ++ [f a] else (l.take n).map f := by
  by_cases hroom : l.length < n
  · rw [if_pos (by omega), List.take_of_length_le hroom.le, List.take_of_length_le]
    · rw [List.map_append]
      rfl
    · rw [List.length_append, List.length_singleton]
      exact hroom
  · rw [if_neg (by omega), List.take_append_of_le_length (Nat.not_lt.mp hroom)]

/-- Of a sorted list, what is among the first elements precedes what is not. -/
theorem rel_of_mem_take {R : α → α → Prop} {l : List α} (hl : l.Pairwise R) {n : ℕ} {a b : α}
    (ha : a ∈ l.take n) (hb : b ∈ l) (hnot : b ∉ l.take n) : R a b := by
  rw [← List.take_append_drop n l] at hl hb
  have hdrop : b ∈ l.drop n := (List.mem_append.mp hb).resolve_left hnot
  exact (List.pairwise_append.mp hl).2.2 a ha b hdrop

/-- Of a list without repetitions, what is not among the first elements is the
rest. -/
theorem filter_not_mem_take [DecidableEq β] {f : α → β} {l : List α} (hl : (l.map f).Nodup)
    (n : ℕ) : (l.filter fun a => decide (f a ∉ (l.map f).take n)) = l.drop n := by
  -- names that come later do not come first
  have hdisjoint : ∀ a ∈ l.drop n, f a ∉ (l.map f).take n := by
    rw [← List.take_append_drop n l, List.map_append] at hl
    intro a ha hmem
    rw [← List.map_take] at hmem
    exact (List.nodup_append.mp hl).2.2 _ hmem _ (List.mem_map_of_mem ha) rfl
  have hfirst : ((l.take n).filter fun a => decide (f a ∉ (l.map f).take n)) = [] := by
    rw [List.filter_eq_nil_iff]
    intro a ha
    rw [decide_eq_true_eq, not_not, ← List.map_take]
    exact List.mem_map_of_mem ha
  have hrest : ((l.drop n).filter fun a => decide (f a ∉ (l.map f).take n)) = l.drop n := by
    rw [List.filter_eq_self]
    intro a ha
    exact decide_eq_true (hdisjoint a ha)
  calc (l.filter fun a => decide (f a ∉ (l.map f).take n))
      = ((l.take n ++ l.drop n).filter fun a => decide (f a ∉ (l.map f).take n)) := by
        rw [List.take_append_drop]
    _ = [] ++ l.drop n := by rw [List.filter_append, hfirst, hrest]
    _ = l.drop n := List.nil_append _

/-- The head of a list without repetitions does not come again. -/
theorem head_not_mem_drop_take {a : α} {l : List α} (hl : (a :: l).Nodup) (k : ℕ) {d : ℕ}
    (hd : 0 < d) : a ∉ ((a :: l).take k).drop d := by
  obtain ⟨d, rfl⟩ : ∃ d', d = d' + 1 := ⟨d - 1, by omega⟩
  cases k with
  | zero =>
    rw [List.take_zero, List.drop_nil]
    exact List.not_mem_nil
  | succ k =>
    rw [List.take_succ_cons, List.drop_succ_cons]
    intro hmem
    exact (List.nodup_cons.mp hl).1 (List.mem_of_mem_take (List.mem_of_mem_drop hmem))

/-- A weaker test that accepts one more element counts one more. -/
theorem countP_succ_le {p q : α → Bool} {l : List α} (hpq : ∀ x ∈ l, p x = true → q x = true)
    {a : α} (ha : a ∈ l) (hp : ¬ p a = true) (hq : q a = true) :
    l.countP p + 1 ≤ l.countP q := by
  induction l with
  | nil => exact absurd ha List.not_mem_nil
  | cons b l ih =>
    have htail : ∀ x ∈ l, p x = true → q x = true := fun x hx => hpq x (List.mem_cons_of_mem _ hx)
    have hle := List.countP_mono_left htail
    by_cases hb : p b = true
    · -- the new element is behind
      have hmem : a ∈ l := by
        obtain rfl | hmem := List.mem_cons.mp ha
        · exact absurd hb hp
        · exact hmem
      rw [List.countP_cons_of_pos hb, List.countP_cons_of_pos (hpq b List.mem_cons_self hb)]
      exact Nat.add_le_add_right (ih htail hmem) 1
    · rw [List.countP_cons_of_neg hb]
      obtain rfl | hmem := List.mem_cons.mp ha
      · rw [List.countP_cons_of_pos hq]
        exact Nat.add_le_add_right hle 1
      · exact Nat.le_trans (ih htail hmem) (List.sublist_cons_self b l).countP_le

/-- An element that occurs twice has a second occurrence. -/
theorem exists_second_of_two_le_count [DecidableEq α] {l : List α} {a : α} (h : 2 ≤ l.count a) :
    ∃ as bs, l = as ++ a :: bs ∧ as.count a = 1 := by
  have hmem : a ∈ l := List.count_pos_iff.mp (by omega)
  obtain ⟨as, bs, rfl, has⟩ := List.eq_append_cons_of_mem hmem
  rw [List.count_append, List.count_cons_self, List.count_eq_zero.mpr has] at h
  have hrest : a ∈ bs := List.count_pos_iff.mp (by omega)
  obtain ⟨cs, ds, rfl, hcs⟩ := List.eq_append_cons_of_mem hrest
  refine ⟨as ++ a :: cs, ds, by rw [List.append_assoc, List.cons_append], ?_⟩
  rw [List.count_append, List.count_cons_self, List.count_eq_zero.mpr has,
    List.count_eq_zero.mpr hcs]

/-- A list without repetitions, repeated and cut off at `n`, holds an element twice if
and only if the cut is behind the element's place in the second copy. -/
theorem two_le_count_take_repeat [DecidableEq α] {l : List α} (hl : l.Nodup) {a : α} (ha : a ∈ l)
    {m n : ℕ} (hn : n ≤ (List.replicate m l).flatten.length) :
    2 ≤ ((List.replicate m l).flatten.take n).count a ↔ l.idxOf a + l.length < n := by
  have honce : ∀ k, (l.take k).count a ≤ 1 := fun k =>
    Nat.le_trans ((List.take_sublist k l).count_le a) (List.nodup_iff_count_le_one.mp hl a)
  match m with
  | 0 =>
    have hzero : n = 0 := by simpa using hn
    subst hzero
    exact iff_of_false (by simp) (by omega)
  | 1 =>
    have hlen : n ≤ l.length := by simpa using hn
    have hsingle : (List.replicate 1 l).flatten = l := by simp
    rw [hsingle]
    have hle := honce n
    exact iff_of_false (by omega) (by omega)
  | m + 2 =>
    have hcopies :
        (List.replicate (m + 2) l).flatten = l ++ (l ++ (List.replicate m l).flatten) := by
      rw [List.replicate_succ, List.replicate_succ, List.flatten_cons, List.flatten_cons]
    rw [hcopies, List.take_append, List.count_append]
    by_cases hcut : n ≤ l.length
    · have hle := honce n
      rw [Nat.sub_eq_zero_of_le hcut, List.take_zero, List.count_nil]
      exact iff_of_false (by omega) (by omega)
    · -- the first copy is there as a whole, and the second one up to the cut
      rw [List.take_of_length_le (by omega), List.count_eq_one_of_mem hl ha]
      have hmem : a ∈ l ++ (List.replicate m l).flatten := List.mem_append_left _ ha
      have hsecond : a ∈ (l ++ (List.replicate m l).flatten).take (n - l.length) ↔
          l.idxOf a < n - l.length := by
        rw [List.mem_take_iff_idxOf_lt hmem, List.idxOf_append_of_mem ha]
      rw [← List.count_pos_iff] at hsecond
      constructor
      · intro htwo
        have hlt := hsecond.mp (by omega)
        omega
      · intro hlt
        have hpos := hsecond.mpr (by omega)
        omega

/-- Of lists whose elements with a property are kept apart, one at most counts them. -/
theorem countP_flatMap_of_unique [DecidableEq β] {p : α → Bool} {f : β → List α} {l : List β}
    (hl : l.Nodup) {b : β} (h : ∀ c ∈ l, ∀ a ∈ f c, p a = true → c = b) :
    (l.flatMap f).countP p = if b ∈ l then (f b).countP p else 0 := by
  induction l with
  | nil => rfl
  | cons c l ih =>
    rw [List.nodup_cons] at hl
    have hrest := ih hl.2 fun d hd => h d (List.mem_cons_of_mem _ hd)
    rw [List.flatMap_cons, List.countP_append, hrest]
    by_cases hc : c = b
    · subst hc
      rw [if_neg hl.1, if_pos List.mem_cons_self, Nat.add_zero]
    · -- another element's list holds none of them
      have hzero : (f c).countP p = 0 :=
        List.countP_eq_zero.mpr fun a ha hp => hc (h c List.mem_cons_self a ha hp)
      rw [hzero, Nat.zero_add]
      simp only [List.mem_cons, Ne.symm hc, false_or]

/-- Of lists that share no element with each other, one at most counts an element. -/
theorem count_flatMap_of_unique [DecidableEq α] [DecidableEq β] {f : β → List α} {l : List β}
    (hl : l.Nodup) {a : α} {b : β} (h : ∀ c ∈ l, a ∈ f c → c = b) :
    (l.flatMap f).count a = if b ∈ l then (f b).count a else 0 := by
  refine countP_flatMap_of_unique hl fun c hc a' ha' heq => h c hc ?_
  rwa [← beq_iff_eq.mp heq]

/-- Leaving out the elements with a property is leaving out what they would give. -/
theorem flatMap_ite_nil (p : β → Prop) [DecidablePred p] (f : β → List α) (l : List β) :
    (l.flatMap fun b => if p b then [] else f b) =
      (l.filter fun b => decide (¬ p b)).flatMap f := by
  induction l with
  | nil => rfl
  | cons b l ih =>
    rw [List.flatMap_cons, ih]
    by_cases hb : p b
    · rw [if_pos hb, List.filter_cons_of_neg (by simpa using hb), List.nil_append]
    · rw [if_neg hb, List.filter_cons_of_pos (by simpa using hb), List.flatMap_cons]

/-! ### Loops that an exception ends -/

/-- What a loop collects that converts its elements one after another, counted from `k`:
`none` is an exception, which ends the loop, and `some none` skips the element. -/
def collect (convert : ℕ → α → Option (Option β)) : ℕ → List α → List β
  | _, [] => []
  | k, a :: l =>
    match convert k a with
    | none => []
    | some none => collect convert (k + 1) l
    | some (some b) => b :: collect convert (k + 1) l

section Collect

variable {convert : ℕ → α → Option (Option β)} {k : ℕ} {a : α} {l : List α}

theorem collect_of_raises (h : convert k a = none) : collect convert k (a :: l) = [] := by
  simp only [collect, h]

theorem collect_of_skip (h : convert k a = some none) :
    collect convert k (a :: l) = collect convert (k + 1) l := by
  simp only [collect, h]

theorem collect_of_some {b : β} (h : convert k a = some (some b)) :
    collect convert k (a :: l) = b :: collect convert (k + 1) l := by
  simp only [collect, h]

end Collect

/-- Something is collected if and only if the first element that is not skipped can be
converted. -/
theorem collect_ne_nil_iff (convert : ℕ → α → Option (Option β)) (k : ℕ) (l : List α) :
    collect convert k l ≠ [] ↔ ∃ skipped a rest b, l = skipped ++ a :: rest ∧
      (∀ i x, skipped[i]? = some x → convert (k + i) x = some none) ∧
      convert (k + skipped.length) a = some (some b) := by
  induction l generalizing k with
  | nil =>
    refine iff_of_false (not_not.mpr rfl) ?_
    rintro ⟨skipped, a, rest, b, hl, -⟩
    exact List.append_ne_nil_of_right_ne_nil _ (List.cons_ne_nil _ _) hl.symm
  | cons a l ih =>
    -- the positions of the rest of the list are counted from `k + 1`
    have hshift : ∀ i, k + (i + 1) = k + 1 + i := fun i => by omega
    constructor
    · intro hne
      cases ha : convert k a with
      | none => exact absurd (collect_of_raises ha) hne
      | some o =>
        cases o with
        | some b => exact ⟨[], a, l, b, rfl, fun i x hx => absurd hx (by simp), ha⟩
        | none =>
          rw [collect_of_skip ha, ih] at hne
          obtain ⟨skipped, a', rest, b, rfl, hskip, hb⟩ := hne
          refine ⟨a :: skipped, a', rest, b, rfl, fun i x hx => ?_, ?_⟩
          · cases i with
            | zero =>
              rw [List.getElem?_cons_zero, Option.some_inj] at hx
              exact hx ▸ ha
            | succ i =>
              rw [hshift]
              exact hskip i x hx
          · rw [List.length_cons, hshift]
            exact hb
    · rintro ⟨skipped, a', rest, b, hl, hskip, hb⟩
      cases skipped with
      | nil =>
        obtain ⟨rfl, -⟩ := List.cons_eq_cons.mp hl
        have ha : convert k a = some (some b) := hb
        rw [collect_of_some ha]
        exact List.cons_ne_nil _ _
      | cons x skipped =>
        obtain ⟨rfl, hrest⟩ := List.cons_eq_cons.mp hl
        have ha : convert k a = some none := hskip 0 a rfl
        rw [collect_of_skip ha, ih]
        refine ⟨skipped, a', rest, b, hrest, fun i y hy => ?_, ?_⟩
        · rw [← hshift]
          exact hskip (i + 1) y hy
        · rw [← hshift]
          exact hb

/-! ### Lists of the values at their places -/

/-- Such a list is changed place by place. -/
theorem mapIdx_map_range (f : ℕ → α) (g : ℕ → α → β) (n : ℕ) :
    ((List.range n).map f).mapIdx g = (List.range n).map fun i => g i (f i) := by
  apply List.ext_getElem
  · rw [List.length_mapIdx, List.length_map, List.length_map]
  · intro i h₁ h₂
    rw [List.getElem_mapIdx, List.getElem_map, List.getElem_map, List.getElem_range]

/-- It is changed at one place. -/
theorem modify_map_range (f : ℕ → α) (g : α → α) (n j : ℕ) :
    ((List.range n).map f).modify j g =
      (List.range n).map fun i => if j = i then g (f i) else f i := by
  apply List.ext_getElem
  · rw [List.length_modify, List.length_map, List.length_map]
  · intro i h₁ h₂
    rw [List.getElem_modify, List.getElem_map, List.getElem_map, List.getElem_range]

/-! ### Cycles -/

/-- The first `n` elements of the endless repetition of a list. -/
def cyclic (l : List α) (n : ℕ) : List α := (List.range n).filterMap fun i => l[i % l.length]?

theorem cyclic_succ (l : List α) (n : ℕ) :
    cyclic l (n + 1) = cyclic l n ++ l[n % l.length]?.toList := by
  unfold cyclic
  rw [List.range_succ, List.filterMap_append, List.filterMap_cons, List.filterMap_nil]
  cases l[n % l.length]? <;> rfl

theorem length_cyclic {l : List α} (hl : l ≠ []) (n : ℕ) : (cyclic l n).length = n := by
  induction n with
  | zero => rfl
  | succ n ih =>
    have hlt : n % l.length < l.length := Nat.mod_lt n (List.length_pos_of_ne_nil hl)
    rw [cyclic_succ, List.length_append, ih, List.getElem?_eq_getElem hlt]
    rfl

theorem getElem?_flatten_replicate (l : List α) {m i : ℕ}
    (hi : i < (List.replicate m l).flatten.length) :
    (List.replicate m l).flatten[i]? = l[i % l.length]? := by
  induction m generalizing i with
  | zero => exact absurd hi (Nat.not_lt_zero i)
  | succ m ih =>
    rw [List.replicate_succ, List.flatten_cons] at hi ⊢
    by_cases hlt : i < l.length
    · rw [List.getElem?_append_left hlt, Nat.mod_eq_of_lt hlt]
    · -- the rest of the copies, from the second one on
      rw [List.length_append] at hi
      rw [List.getElem?_append_right (not_lt.mp hlt), ih (by omega),
        ← Nat.mod_eq_sub_mod (not_lt.mp hlt)]

/-- Whole copies, cut off at `n`. -/
theorem take_flatten_replicate (l : List α) {m n : ℕ}
    (hn : n ≤ (List.replicate m l).flatten.length) :
    (List.replicate m l).flatten.take n = cyclic l n := by
  induction n with
  | zero => rfl
  | succ n ih =>
    rw [List.take_add_one, cyclic_succ, ih (Nat.le_of_succ_le hn),
      getElem?_flatten_replicate l (Nat.lt_of_succ_le hn)]

/-- The end of two lists is an end of the second, or it reaches into the first. -/
theorem suffix_append_cases {q l m : List α} (h : q <:+ l ++ m) :
    q <:+ m ∨ ∃ l', l' <:+ l ∧ q = l' ++ m := by
  obtain ⟨front, hfront⟩ := h
  obtain ⟨l', rfl, hq⟩ | ⟨m', rfl, hm⟩ := List.append_eq_append_iff.mp hfront
  · exact Or.inr ⟨l', List.suffix_append _ _, hq⟩
  · exact Or.inl ⟨m', hm.symm⟩

/-- Popping from the front reaches the second of two lists, if it can pop all of the
first. -/
theorem dropWhile_suffix_of_append {p : α → Bool} {q l m : List α} (h : q <:+ l ++ m)
    (hl : ∀ a ∈ l, p a = true) : q.dropWhile p <:+ m := by
  obtain h | ⟨l', hl', rfl⟩ := suffix_append_cases h
  · exact (List.dropWhile_suffix p).trans h
  · rw [List.dropWhile_append_of_pos fun a ha => hl a (hl'.subset ha)]
    exact List.dropWhile_suffix p

/-- The elements before the first one that fails are among those that do not fail. -/
theorem takeWhile_sublist_filter (p : α → Bool) (l : List α) :
    (l.takeWhile p).Sublist (l.filter p) := by
  have hall : (l.takeWhile p).filter p = l.takeWhile p :=
    List.filter_eq_self.mpr fun a ha => List.mem_takeWhile_imp ha
  rw [← hall]
  exact (List.takeWhile_sublist p).filter p

/-- Nothing is lost by stopping at the first element that fails exactly if no element that
does not fail comes after one that does. -/
theorem takeWhile_eq_filter_iff (p : α → Bool) (l : List α) :
    l.takeWhile p = l.filter p ↔ l.Pairwise fun a b => p b = true → p a = true := by
  induction l with
  | nil => exact iff_of_true rfl List.Pairwise.nil
  | cons a l ih =>
    rw [List.pairwise_cons]
    by_cases ha : p a = true
    · rw [List.takeWhile_cons_of_pos ha, List.filter_cons_of_pos ha, List.cons.injEq, ih]
      exact ⟨fun h => ⟨fun _ _ _ => ha, h.2⟩, fun h => ⟨rfl, h.2⟩⟩
    · rw [List.takeWhile_cons_of_neg ha, List.filter_cons_of_neg ha, eq_comm,
        List.filter_eq_nil_iff]
      -- after the first that fails, none may hold
      constructor
      · intro hnone
        refine ⟨fun b hb hpb => absurd hpb (hnone b hb), ?_⟩
        exact List.pairwise_of_forall_mem_list fun b _ c hc hpc => absurd hpc (hnone c hc)
      · intro h b hb hpb
        exact ha (h.1 b hb hpb)

/-- Parts that are together as long as the wholes are the wholes. -/
theorem eq_of_length_flatMap_le {f g : α → List β} {l : List α}
    (hsub : ∀ a ∈ l, (g a).Sublist (f a)) (hle : (l.flatMap f).length ≤ (l.flatMap g).length) :
    ∀ a ∈ l, g a = f a := by
  induction l with
  | nil => exact fun a ha => absurd ha List.not_mem_nil
  | cons b l ih =>
    have hhead := hsub b List.mem_cons_self
    have htail : ∀ a ∈ l, (g a).Sublist (f a) := fun a ha => hsub a (List.mem_cons_of_mem b ha)
    have hb := hhead.length_le
    have hl := (List.Sublist.flatMap_right l htail).length_le
    rw [List.flatMap_cons, List.flatMap_cons, List.length_append, List.length_append] at hle
    intro a ha
    obtain rfl | ha := List.mem_cons.mp ha
    · -- no part may be shorter, or the whole would be
      exact hhead.eq_of_length (by omega)
    · exact ih htail (by omega) a ha

/-! ### Slices -/

/-- The place a bound of a slice stands for; a negative one counts from the end. -/
def sliceBound (length : ℕ) (i : ℤ) : ℕ := if 0 ≤ i then i.toNat else (length + i).toNat

/-- `l[start:stop]`. -/
def slice (l : List α) (start stop : ℤ) : List α :=
  (l.take (sliceBound l.length stop)).drop (sliceBound l.length start)

/-- `l[start:]`. -/
def sliceFrom (l : List α) (start : ℤ) : List α := l.drop (sliceBound l.length start)

@[simp] theorem sliceBound_natCast (length n : ℕ) : sliceBound length n = n :=
  if_pos (Int.natCast_nonneg n)

theorem slice_zero_natCast (l : List α) (n : ℕ) : slice l 0 n = l.take n := by
  rw [slice, sliceBound_natCast]
  rfl

theorem slice_natCast (l : List α) (m n : ℕ) : slice l m n = (l.take n).drop m := by
  rw [slice, sliceBound_natCast, sliceBound_natCast]

end Sentrix
