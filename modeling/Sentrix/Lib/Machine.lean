import Mathlib.Data.List.Induction

/-!
# Deterministic machines and their runs

A stateful component is a machine: a state, and a step that consumes one input,
answers one output and moves to the next state. A run is fed a finite list of
inputs, oldest first. There are two views of it:

* `Machine.after h` — the state once the whole history `h` has been consumed;
* `Machine.emits h` — the outputs answered along the way, in order.

Facts about every reachable state are facts about `after h` for every `h`, and
they are proved by `Machine.invariant`: an invariant may read the history it
was reached by, and it has to survive one more input. Facts about every answer
are facts about `M.out (M.after h) i`, the answer given to `i` after the
history `h` (`Machine.emits_concat`). Where a fact needs a condition on the steps
of the run, the condition is about an input and the state that consumes it
(`Machine.Along`); such a condition also marks the inputs of a run, and
`Machine.since` is what has happened since the last mark, `Machine.pending` what has
happened after it.
-/

namespace Sentrix

/-- A deterministic machine with inputs `ι`, outputs `ο` and states `σ`. -/
structure Machine (σ ι ο : Type*) where
  /-- The state before any input. -/
  init : σ
  /-- One input: the next state and the answer. -/
  step : σ → ι → σ × ο

namespace Machine

variable {σ ι ο : Type*} (M : Machine σ ι ο)

/-- The state one input leads to. -/
def next (s : σ) (i : ι) : σ := (M.step s i).1

/-- The answer given to one input. -/
def out (s : σ) (i : ι) : ο := (M.step s i).2

/-- The state reached from `s` by the inputs `h`, oldest first. -/
def afterFrom (s : σ) (h : List ι) : σ := h.foldl M.next s

/-- The state after the history `h`. -/
def after (h : List ι) : σ := M.afterFrom M.init h

/-- The answers given along the inputs `h` from the state `s`. -/
def emitsFrom (s : σ) : List ι → List ο
  | [] => []
  | i :: h => M.out s i :: emitsFrom (M.next s i) h

/-- The answers given along the history `h`. -/
def emits (h : List ι) : List ο := M.emitsFrom M.init h

@[simp] theorem afterFrom_nil (s : σ) : M.afterFrom s [] = s := rfl

@[simp] theorem afterFrom_cons (s : σ) (i : ι) (h : List ι) :
    M.afterFrom s (i :: h) = M.afterFrom (M.next s i) h := rfl

theorem afterFrom_append (s : σ) (h k : List ι) :
    M.afterFrom s (h ++ k) = M.afterFrom (M.afterFrom s h) k :=
  List.foldl_append

theorem after_append (h k : List ι) : M.after (h ++ k) = M.afterFrom (M.after h) k :=
  M.afterFrom_append _ h k

/-- One more input is one more step. -/
theorem after_concat (h : List ι) (i : ι) : M.after (h ++ [i]) = M.next (M.after h) i := by
  rw [after_append, afterFrom_cons, afterFrom_nil]

/-- The answers of a run in two parts. -/
theorem emitsFrom_append (s : σ) (h k : List ι) :
    M.emitsFrom s (h ++ k) = M.emitsFrom s h ++ M.emitsFrom (M.afterFrom s h) k := by
  induction h generalizing s with
  | nil => rfl
  | cons i h ih =>
    rw [List.cons_append, emitsFrom, emitsFrom, ih, List.cons_append, afterFrom_cons]

/-- The answer to the last input of a history is the one given in the state the
rest of the history leads to. -/
theorem emits_concat (h : List ι) (i : ι) :
    M.emits (h ++ [i]) = M.emits h ++ [M.out (M.after h) i] :=
  M.emitsFrom_append M.init h [i]

/-- A machine answers each input once. -/
theorem length_emits (h : List ι) : (M.emits h).length = h.length := by
  induction h using List.reverseRecOn with
  | nil => rfl
  | append_singleton h i ih =>
    rw [emits_concat, List.length_append, List.length_append, ih]
    rfl

/-- An answer of a run is the answer to one of its inputs. -/
theorem exists_of_mem_emits {h : List ι} {o : ο} (ho : o ∈ M.emits h) :
    ∃ h₁ i h₂, h = h₁ ++ i :: h₂ ∧ o = M.out (M.after h₁) i := by
  induction h using List.reverseRecOn with
  | nil => exact absurd ho List.not_mem_nil
  | append_singleton h i ih =>
    rw [emits_concat, List.mem_append, List.mem_singleton] at ho
    obtain ho | ho := ho
    · obtain ⟨h₁, i', h₂, rfl, heq⟩ := ih ho
      exact ⟨h₁, i', h₂ ++ [i], by rw [List.append_assoc, List.cons_append], heq⟩
    · exact ⟨h, i, [], rfl, ho⟩

/-- **Invariant rule.** A property of a history and the state it leads to holds
of every history if it holds initially and survives one more input. -/
theorem invariant (Inv : List ι → σ → Prop) (hinit : Inv [] M.init)
    (hstep : ∀ h i, Inv h (M.after h) → Inv (h ++ [i]) (M.next (M.after h) i)) :
    ∀ h, Inv h (M.after h) := by
  intro h
  induction h using List.reverseRecOn with
  | nil => exact hinit
  | append_singleton h i ih =>
    rw [after_concat]
    exact hstep h i ih

/-- **Invariant rule under an assumption on the inputs.** The assumption `Ok` is
about the whole history and is closed under dropping the last input, as
"nondecreasing" is. -/
theorem invariant_of (Ok : List ι → Prop) (Inv : List ι → σ → Prop)
    (hpre : ∀ h i, Ok (h ++ [i]) → Ok h) (hinit : Inv [] M.init)
    (hstep : ∀ h i, Ok (h ++ [i]) → Inv h (M.after h) →
      Inv (h ++ [i]) (M.next (M.after h) i)) :
    ∀ h, Ok h → Inv h (M.after h) :=
  M.invariant (fun h s => Ok h → Inv h s) (fun _ => hinit)
    (fun h i ih hok => hstep h i hok (ih (hpre h i hok)))

/-! ### Conditions along a run -/

/-- Each input of `h` satisfies `P` in the state that consumes it, from `s` on. -/
def AlongFrom (P : σ → ι → Prop) (s : σ) : List ι → Prop
  | [] => True
  | i :: h => P s i ∧ AlongFrom P (M.next s i) h

/-- Each input of the history satisfies `P` in the state that consumes it. -/
def Along (P : σ → ι → Prop) (h : List ι) : Prop := M.AlongFrom P M.init h

instance decidableAlongFrom (P : σ → ι → Prop) [∀ s i, Decidable (P s i)] :
    ∀ s h, Decidable (M.AlongFrom P s h)
  | _, [] => isTrue trivial
  | s, i :: h =>
    have := decidableAlongFrom P (M.next s i) h
    inferInstanceAs (Decidable (P s i ∧ M.AlongFrom P (M.next s i) h))

instance (P : σ → ι → Prop) [∀ s i, Decidable (P s i)] (h : List ι) : Decidable (M.Along P h) :=
  M.decidableAlongFrom P M.init h

variable {P : σ → ι → Prop}

theorem alongFrom_append (s : σ) (h k : List ι) :
    M.AlongFrom P s (h ++ k) ↔ M.AlongFrom P s h ∧ M.AlongFrom P (M.afterFrom s h) k := by
  induction h generalizing s with
  | nil => exact (iff_of_eq (true_and _)).symm
  | cons i h ih =>
    rw [List.cons_append, AlongFrom, AlongFrom, ih, afterFrom_cons, and_assoc]

theorem along_append (h k : List ι) :
    M.Along P (h ++ k) ↔ M.Along P h ∧ M.AlongFrom P (M.after h) k :=
  M.alongFrom_append M.init h k

/-- A condition along a run, one step at a time. -/
theorem along_concat (h : List ι) (i : ι) :
    M.Along P (h ++ [i]) ↔ M.Along P h ∧ P (M.after h) i := by
  rw [along_append]
  exact and_congr_right fun _ => iff_of_eq (and_true _)

/-- A condition holds along a history if each input satisfies it after those before. -/
theorem along_iff (h : List ι) :
    M.Along P h ↔ ∀ h₁ i h₂, h = h₁ ++ i :: h₂ → P (M.after h₁) i := by
  constructor
  · rintro hal h₁ i h₂ rfl
    exact ((M.along_append h₁ (i :: h₂)).mp hal).2.1
  · intro hall
    induction h using List.reverseRecOn with
    | nil => trivial
    | append_singleton h i ih =>
      rw [along_concat]
      refine ⟨ih fun h₁ j h₂ heq => ?_, hall h i [] rfl⟩
      exact hall h₁ j (h₂ ++ [i]) (by rw [heq, List.append_assoc, List.cons_append])

/-- Two conditions along a run are one. -/
theorem alongFrom_and {Q : σ → ι → Prop} {s : σ} {h : List ι} (hp : M.AlongFrom P s h)
    (hq : M.AlongFrom Q s h) : M.AlongFrom (fun s i => P s i ∧ Q s i) s h := by
  induction h generalizing s with
  | nil => trivial
  | cons i h ih => exact ⟨⟨hp.1, hq.1⟩, ih hp.2 hq.2⟩

/-- **Invariant rule under a condition on the steps.** -/
theorem invariant_along (Inv : List ι → σ → Prop) (hinit : Inv [] M.init)
    (hstep : ∀ h i, P (M.after h) i → Inv h (M.after h) → Inv (h ++ [i]) (M.next (M.after h) i)) :
    ∀ h, M.Along P h → Inv h (M.after h) :=
  M.invariant_of (M.Along P) Inv (fun h i hp => ((M.along_concat h i).mp hp).1) hinit
    fun h i hp => hstep h i ((M.along_concat h i).mp hp).2

/-! ### Since the last mark

A step condition marks some inputs of a history. What has happened since the last
mark is a suffix of the history that begins with the marked input. -/

section Since

variable (Mark : σ → ι → Prop) [∀ s i, Decidable (Mark s i)]

/-- The inputs of `h` since the last marked one, where `acc` are those before `h`. -/
def sinceFrom (s : σ) (acc : List ι) : List ι → List ι
  | [] => acc
  | i :: h => sinceFrom (M.next s i) (if Mark s i then [i] else acc ++ [i]) h

/-- The inputs of the history since the last marked one, this one included; all of
them if none is marked. -/
def since (h : List ι) : List ι := M.sinceFrom Mark M.init [] h

/-- The inputs since a mark, over a run in two parts. -/
theorem sinceFrom_append (s : σ) (acc h k : List ι) :
    M.sinceFrom Mark s acc (h ++ k) =
      M.sinceFrom Mark (M.afterFrom s h) (M.sinceFrom Mark s acc h) k := by
  induction h generalizing s acc with
  | nil => rfl
  | cons i h ih => exact ih _ _

/-- One more input starts anew at a mark, and is added otherwise. -/
theorem since_concat (h : List ι) (i : ι) :
    M.since Mark (h ++ [i]) = if Mark (M.after h) i then [i] else M.since Mark h ++ [i] :=
  M.sinceFrom_append Mark M.init [] h [i]

variable {Mark}

/-- Marking more inputs leaves less since the last mark. -/
theorem since_suffix_of_imp {Mark' : σ → ι → Prop} [∀ s i, Decidable (Mark' s i)]
    (himp : ∀ s i, Mark s i → Mark' s i) (h : List ι) :
    M.since Mark' h <:+ M.since Mark h := by
  induction h using List.reverseRecOn with
  | nil => exact List.suffix_refl _
  | append_singleton h i ih =>
    rw [since_concat, since_concat]
    by_cases hmark : Mark (M.after h) i
    · -- a mark of the one is a mark of the other
      rw [if_pos hmark]
      split
      · exact List.suffix_refl _
      · next hnot => exact absurd (himp _ _ hmark) hnot
    · rw [if_neg hmark]
      split
      · exact List.suffix_append _ _
      · obtain ⟨t, ht⟩ := ih
        exact ⟨t, by rw [← List.append_assoc, ht]⟩

/-- The inputs of `h` after the last marked one, where `acc` are those before `h`. -/
def pendingFrom (Mark : σ → ι → Prop) [∀ s i, Decidable (Mark s i)] (s : σ) (acc : List ι) :
    List ι → List ι
  | [] => acc
  | i :: h => pendingFrom Mark (M.next s i) (if Mark s i then [] else acc ++ [i]) h

/-- The inputs of the history after the last marked one; all of them if none is marked. -/
def pending (Mark : σ → ι → Prop) [∀ s i, Decidable (Mark s i)] (h : List ι) : List ι :=
  M.pendingFrom Mark M.init [] h

theorem pendingFrom_append (s : σ) (acc h k : List ι) :
    M.pendingFrom Mark s acc (h ++ k) =
      M.pendingFrom Mark (M.afterFrom s h) (M.pendingFrom Mark s acc h) k := by
  induction h generalizing s acc with
  | nil => rfl
  | cons i h ih => exact ih _ _

/-- One more input clears the pending ones at a mark, and joins them otherwise. -/
theorem pending_concat (h : List ι) (i : ι) :
    M.pending Mark (h ++ [i]) =
      if Mark (M.after h) i then [] else M.pending Mark h ++ [i] :=
  M.pendingFrom_append M.init [] h [i]

end Since

/-- **Output rule.** What an invariant of the states makes true of every answer
is true of all answers of every run. -/
theorem forall_mem_emits (Inv : σ → Prop) (P : ο → Prop) (hinit : Inv M.init)
    (hstep : ∀ s i, Inv s → Inv (M.next s i) ∧ P (M.out s i)) :
    ∀ h, ∀ o ∈ M.emits h, P o := by
  -- the invariant holds wherever an output is made
  have hinv : ∀ h, Inv (M.after h) :=
    M.invariant (fun _ s => Inv s) hinit fun h i ih => (hstep _ i ih).1
  intro h
  induction h using List.reverseRecOn with
  | nil => exact fun o ho => absurd ho List.not_mem_nil
  | append_singleton h i ih =>
    intro o ho
    rw [emits_concat, List.mem_append, List.mem_singleton] at ho
    obtain ho | rfl := ho
    · exact ih o ho
    · exact (hstep _ i (hinv h)).2

end Machine

end Sentrix
