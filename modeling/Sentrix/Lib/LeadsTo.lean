import Sentrix.Lib.Machine

/-!
# Machines on an endless schedule

A machine that is fed one input after the other without end passes through a trace of states.
What it does eventually is said with `Machine.LeadsTo P Q`: whenever the trace is at a state
of `P`, it is at one of `Q` then or later. Such facts are put together from single steps
(`LeadsTo.of_next`) by transitivity.
-/

namespace Sentrix

namespace Machine

variable {σ ι ο : Type*} (M : Machine σ ι ο) (schedule : ℕ → ι)

/-- The state after the first `n` inputs of a schedule. -/
def trace : ℕ → σ
  | 0 => M.init
  | n + 1 => M.next (trace n) (schedule n)

/-- Whenever `P` holds, `Q` holds then or later. -/
def LeadsTo (P Q : σ → Prop) : Prop :=
  ∀ n, P (M.trace schedule n) → ∃ m, n ≤ m ∧ Q (M.trace schedule m)

/-- What holds initially and survives every input holds along the trace. -/
theorem trace_invariant {Inv : σ → Prop} (hinit : Inv M.init)
    (hnext : ∀ s i, Inv s → Inv (M.next s i)) (n : ℕ) : Inv (M.trace schedule n) := by
  induction n with
  | zero => exact hinit
  | succ n ih => exact hnext _ _ ih

variable {M schedule} {P Q R : σ → Prop}

theorem LeadsTo.of_imp (h : ∀ s, P s → Q s) : M.LeadsTo schedule P Q :=
  fun n hP => ⟨n, Nat.le_refl n, h _ hP⟩

/-- One step. -/
theorem LeadsTo.of_next (h : ∀ s i, P s → Q (M.next s i)) : M.LeadsTo schedule P Q :=
  fun n hP => ⟨n + 1, Nat.le_succ n, h _ _ hP⟩

theorem LeadsTo.trans (hPQ : M.LeadsTo schedule P Q) (hQR : M.LeadsTo schedule Q R) :
    M.LeadsTo schedule P R := by
  intro n hP
  obtain ⟨m, hnm, hQ⟩ := hPQ n hP
  obtain ⟨k, hmk, hR⟩ := hQR m hQ
  exact ⟨k, Nat.le_trans hnm hmk, hR⟩

end Machine

end Sentrix
