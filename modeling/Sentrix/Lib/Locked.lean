import Mathlib.Tactic.Common

/-!
# Programs that use a lock

A thread runs a program that takes a lock, calls out to the environment and raises
exceptions. The lock is not reentrant: a thread that acquires it while it holds it
waits for itself forever (`Result.blocked`). The environment answers each call with
success or with an exception; a run is fed the answers to the calls it makes, in order.

The rules are about two properties of a program. It is *lock-free* if it neither
blocks nor changes whether the lock is held (`LockFree`), and it is *tidy* if,
started without the lock, it does not block and ends without the lock (`Tidy`). A
lock-free program is tidy, and so is a lock-free program under the lock; both
properties compose.
-/

namespace Sentrix

/-- What the environment answers to a call. -/
inductive CallOutcome (ε : Type)
  | ok
  | raises (e : ε)

/-- How a program ends. -/
inductive Result (ε α : Type)
  | ok (a : α)
  | raised (e : ε)
  /-- The thread waits for the lock it holds. -/
  | blocked

/-- What a program reads and changes besides its environment. -/
structure World (σ : Type) where
  /-- The thread holds the lock. -/
  held : Bool
  /-- The number of calls made so far. -/
  calls : ℕ
  state : σ

/-- A program over the state `σ` with exceptions `ε`, given the answers to its calls. -/
def Locked (σ ε α : Type) : Type := (ℕ → CallOutcome ε) → World σ → Result ε α × World σ

namespace Locked

variable {σ ε α β : Type}

/-- Return a value. -/
protected def pure (a : α) : Locked σ ε α := fun _ w => (.ok a, w)

/-- Run a program and continue with its value, unless it raised or blocked. -/
protected def bind (p : Locked σ ε α) (f : α → Locked σ ε β) : Locked σ ε β := fun o w =>
  match p o w with
  | (.ok a, w') => f a o w'
  | (.raised e, w') => (.raised e, w')
  | (.blocked, w') => (.blocked, w')

instance : Monad (Locked σ ε) where
  pure := Locked.pure
  bind := Locked.bind

/-- The monad's bind is the one defined above. -/
theorem bind_apply (p : Locked σ ε α) (f : α → Locked σ ε β) (o : ℕ → CallOutcome ε)
    (w : World σ) : (p >>= f) o w = Locked.bind p f o w := rfl

/-- The state. -/
def get : Locked σ ε σ := fun _ w => (.ok w.state, w)

/-- Change the state. -/
def modify (f : σ → σ) : Locked σ ε Unit := fun _ w => (.ok (), { w with state := f w.state })

/-- Raise an exception. -/
def raise (e : ε) : Locked σ ε α := fun _ w => (.raised e, w)

/-- One call to the environment. -/
def call : Locked σ ε Unit := fun o w =>
  match o w.calls with
  | .ok => (.ok (), { w with calls := w.calls + 1 })
  | .raises e => (.raised e, { w with calls := w.calls + 1 })

/-- `with lock:` around a program. The lock is released when the program returns and
when it raises. -/
def withLock (p : Locked σ ε α) : Locked σ ε α := fun o w =>
  if w.held then (.blocked, w)
  else
    match p o { w with held := true } with
    | (.blocked, w') => (.blocked, w')
    | (r, w') => (r, { w' with held := false })

/-- `try` with one `except` clause. -/
def tryExcept (p : Locked σ ε α) (catches : ε → Bool) (handler : ε → Locked σ ε α) :
    Locked σ ε α := fun o w =>
  match p o w with
  | (.raised e, w') => if catches e then handler e o w' else (.raised e, w')
  | r => r

/-- `try` with a `finally` clause that changes the state and raises nothing. -/
def tryFinally (p : Locked σ ε α) (f : σ → σ) : Locked σ ε α := fun o w =>
  match p o w with
  | (.blocked, w') => (.blocked, w')
  | (r, w') => (r, { w' with state := f w'.state })

/-- `try` with an `except Exception: pass`. -/
def ignoring (p : Locked σ ε Unit) : Locked σ ε Unit :=
  tryExcept p (fun _ => true) fun _ => pure ()

/-- Sequencing is associative, whatever the outcome of the parts. -/
theorem bind_assoc {γ : Type} (p : Locked σ ε α) (f : α → Locked σ ε β) (g : β → Locked σ ε γ) :
    p >>= f >>= g = p >>= fun a => f a >>= g := by
  funext o w
  show Locked.bind (Locked.bind p f) g o w = Locked.bind p (fun a => Locked.bind (f a) g) o w
  unfold Locked.bind
  cases hp : p o w with
  | mk r w' =>
    cases r with
    | ok a => simp
    | raised e => simp
    | blocked => simp

/-! ### Lock-free programs -/

/-- The program does not block and leaves the lock as it finds it. -/
def LockFree (p : Locked σ ε α) : Prop :=
  ∀ o w, (p o w).1 ≠ .blocked ∧ (p o w).2.held = w.held

/-- A plain value never reaches the lock. -/
theorem LockFree.pure (a : α) : LockFree (pure a : Locked σ ε α) := fun _ _ => ⟨nofun, rfl⟩

/-- Reading the state never reaches the lock. -/
theorem LockFree.get : LockFree (get : Locked σ ε σ) := fun _ _ => ⟨nofun, rfl⟩

/-- Changing the state never reaches the lock. -/
theorem LockFree.modify (f : σ → σ) : LockFree (modify f : Locked σ ε Unit) :=
  fun _ _ => ⟨nofun, rfl⟩

/-- Raising never reaches the lock. -/
theorem LockFree.raise (e : ε) : LockFree (raise e : Locked σ ε α) := fun _ _ => ⟨nofun, rfl⟩

/-- A call never reaches the lock, whatever its outcome. -/
theorem LockFree.call : LockFree (call : Locked σ ε Unit) := by
  intro o w
  unfold Locked.call
  split <;> exact ⟨nofun, rfl⟩

/-- Two lock-free parts in sequence are lock-free. -/
theorem LockFree.bind {p : Locked σ ε α} {f : α → Locked σ ε β} (hp : LockFree p)
    (hf : ∀ a, LockFree (f a)) : LockFree (p >>= f) := by
  intro o w
  obtain ⟨hnot, hheld⟩ := hp o w
  rw [bind_apply]
  unfold Locked.bind
  split
  · next a w' heq =>
    rw [heq] at hheld
    exact ⟨(hf a o w').1, (hf a o w').2.trans hheld⟩
  · next e w' heq =>
    rw [heq] at hheld
    exact ⟨nofun, hheld⟩
  · -- a lock-free program does not block
    next w' heq =>
    rw [heq] at hnot
    exact absurd rfl hnot

/-- An exception handler that is lock-free keeps its body so. -/
theorem LockFree.tryExcept {p : Locked σ ε α} {catches : ε → Bool} {handler : ε → Locked σ ε α}
    (hp : LockFree p) (hh : ∀ e, LockFree (handler e)) :
    LockFree (tryExcept p catches handler) := by
  intro o w
  obtain ⟨hnot, hheld⟩ := hp o w
  unfold Locked.tryExcept
  split
  · next e w' heq =>
    rw [heq] at hheld
    split
    · exact ⟨(hh e o w').1, (hh e o w').2.trans hheld⟩
    · exact ⟨nofun, hheld⟩
  · exact ⟨hnot, hheld⟩

/-- A change of the state on the way out keeps its body lock-free. -/
theorem LockFree.tryFinally {p : Locked σ ε α} (hp : LockFree p) (f : σ → σ) :
    LockFree (tryFinally p f) := by
  intro o w
  obtain ⟨hnot, hheld⟩ := hp o w
  unfold Locked.tryFinally
  split
  · next w' heq =>
    rw [heq] at hnot
    exact absurd rfl hnot
  · next r w' hne heq =>
    rw [heq] at hnot hheld
    exact ⟨hnot, hheld⟩

/-- Passing over the exceptions keeps a part lock-free. -/
theorem LockFree.ignoring {p : Locked σ ε Unit} (hp : LockFree p) : LockFree (ignoring p) :=
  hp.tryExcept fun _ => LockFree.pure ()

/-- The program returns, whatever the environment answers, and leaves the lock as it
finds it. -/
def Returns (p : Locked σ ε α) : Prop :=
  ∀ o w, ∃ a w', p o w = (.ok a, w') ∧ w'.held = w.held

/-- A program that always returns, holding what it held, is lock-free. -/
theorem Returns.lockFree {p : Locked σ ε α} (hp : Returns p) : LockFree p := by
  intro o w
  obtain ⟨a, w', hrun, hheld⟩ := hp o w
  rw [hrun]
  exact ⟨nofun, hheld⟩

/-- Changing the state raises nothing. -/
theorem Returns.modify (f : σ → σ) : Returns (modify f : Locked σ ε Unit) :=
  fun _ w => ⟨(), { w with state := f w.state }, rfl, rfl⟩

/-- Two parts that return do so in sequence. -/
theorem Returns.bind {p : Locked σ ε α} {f : α → Locked σ ε β} (hp : Returns p)
    (hf : ∀ a, Returns (f a)) : Returns (p >>= f) := by
  intro o w
  obtain ⟨a, w₁, hrun, hheld⟩ := hp o w
  obtain ⟨b, w₂, hrun', hheld'⟩ := hf a o w₁
  refine ⟨b, w₂, ?_, hheld'.trans hheld⟩
  rw [bind_apply]
  unfold Locked.bind
  rw [hrun]
  exact hrun'

/-- A program that reads the state first returns if it does so from every state. -/
theorem Returns.get_bind {f : σ → Locked σ ε α} (hf : ∀ s, Returns (f s)) :
    Returns (get >>= f) :=
  Returns.bind (fun _ w => ⟨w.state, w, rfl, rfl⟩) hf

/-- Nothing a lock-free program raises leaves the `try` around it. -/
theorem LockFree.returns_ignoring {p : Locked σ ε Unit} (hp : LockFree p) :
    Returns (Locked.ignoring p) := by
  intro o w
  obtain ⟨hnot, hheld⟩ := hp o w
  unfold Locked.ignoring Locked.tryExcept
  cases hrun : p o w with
  | mk r w' =>
    rw [hrun] at hnot hheld
    cases r with
    | ok a => exact ⟨a, w', rfl, hheld⟩
    | raised e => exact ⟨(), w', rfl, hheld⟩
    | blocked => exact absurd rfl hnot

/-! ### Tidy programs -/

/-- Started without the lock, the program does not block and ends without the lock. -/
def Tidy (p : Locked σ ε α) : Prop :=
  ∀ o w, w.held = false → (p o w).1 ≠ .blocked ∧ (p o w).2.held = false

/-- A lock-free program that starts without the lock ends without it. -/
theorem LockFree.tidy {p : Locked σ ε α} (hp : LockFree p) : Tidy p := by
  intro o w hw
  exact ⟨(hp o w).1, (hp o w).2.trans hw⟩

/-- Two tidy parts in sequence are tidy: the first one's exception leaves nothing held. -/
theorem Tidy.bind {p : Locked σ ε α} {f : α → Locked σ ε β} (hp : Tidy p)
    (hf : ∀ a, Tidy (f a)) : Tidy (p >>= f) := by
  intro o w hw
  obtain ⟨hnot, hheld⟩ := hp o w hw
  rw [bind_apply]
  unfold Locked.bind
  split
  · next a w' heq =>
    rw [heq] at hheld
    exact hf a o w' hheld
  · -- the exception skips the second part
    next e w' heq =>
    rw [heq] at hheld
    exact ⟨nofun, hheld⟩
  · next w' heq =>
    rw [heq] at hnot
    exact absurd rfl hnot

/-- Without the lock, a program under it is tidy exactly if its body does not block. -/
theorem withLock_tidy_iff (p : Locked σ ε α) (o : ℕ → CallOutcome ε) {w : World σ}
    (hw : w.held = false) :
    ((withLock p o w).1 ≠ .blocked ∧ (withLock p o w).2.held = false) ↔
      (p o { w with held := true }).1 ≠ .blocked := by
  have hfree : ¬ w.held = true := by
    rw [hw]
    exact Bool.false_ne_true
  unfold withLock
  rw [if_neg hfree]
  split
  · next w' heq =>
    rw [heq]
    exact and_iff_left_of_imp fun hnot => absurd rfl hnot
  · -- a body that ends, by value or by exception, gives the lock back
    next r w' hne heq =>
    rw [heq]
    exact and_iff_left rfl

/-- A lock-free program may run under the lock. -/
theorem LockFree.withLock {p : Locked σ ε α} (hp : LockFree p) : Tidy (withLock p) :=
  fun o _ hw => (withLock_tidy_iff p o hw).mpr (hp o _).1

/-- A thread that holds the lock blocks on it. -/
theorem withLock_of_held (p : Locked σ ε α) (o : ℕ → CallOutcome ε) {w : World σ}
    (hw : w.held = true) : withLock p o w = (.blocked, w) :=
  if_pos hw

/-! ### Which exception a program raises -/

/-- Of the `n` calls from the `k`-th on, the first that fails raises `e`. -/
def FirstRaises (o : ℕ → CallOutcome ε) (e : ε) (k : ℕ) : ℕ → Prop
  | 0 => False
  | n + 1 => o k = .raises e ∨ (o k = .ok ∧ FirstRaises o e (k + 1) n)

/-- The program raises `e`. -/
def Raises (e : ε) (p : Locked σ ε α) (o : ℕ → CallOutcome ε) (w : World σ) : Prop :=
  (p o w).1 = .raised e

/-- A call raises by itself, or lets the rest raise one call later. -/
theorem raises_call_bind_iff (e : ε) (f : Unit → Locked σ ε α) (o : ℕ → CallOutcome ε)
    (w : World σ) :
    Raises e (call >>= f) o w ↔ o w.calls = .raises e ∨
      (o w.calls = .ok ∧ Raises e (f ()) o { w with calls := w.calls + 1 }) := by
  unfold Raises
  rw [bind_apply]
  unfold Locked.bind call
  cases ho : o w.calls with
  | ok => simp
  | raises e' => simp

/-- Reading the state raises nothing by itself. -/
theorem raises_get_bind_iff (e : ε) (f : σ → Locked σ ε α) (o : ℕ → CallOutcome ε)
    (w : World σ) : Raises e (get >>= f) o w ↔ Raises e (f w.state) o w := Iff.rfl

/-- Changing the state raises nothing by itself. -/
theorem raises_modify_bind_iff (e : ε) (g : σ → σ) (f : Unit → Locked σ ε α)
    (o : ℕ → CallOutcome ε) (w : World σ) :
    Raises e (modify g >>= f) o w ↔ Raises e (f ()) o { w with state := g w.state } := Iff.rfl

/-- A plain value raises nothing by itself. -/
theorem raises_pure_bind_iff (e : ε) (a : α) (f : α → Locked σ ε β) (o : ℕ → CallOutcome ε)
    (w : World σ) : Raises e (pure a >>= f) o w ↔ Raises e (f a) o w := Iff.rfl

/-- A program that always returns raises nothing. -/
theorem Returns.not_raises {p : Locked σ ε α} (hp : Returns p) (e : ε) (o : ℕ → CallOutcome ε)
    (w : World σ) : ¬ Raises e p o w := by
  obtain ⟨a, w', hrun, -⟩ := hp o w
  unfold Raises
  rw [hrun]
  exact nofun

/-- An exception the clause does not catch, or none: the `try` does nothing. -/
theorem tryExcept_of_not_raises {p : Locked σ ε α} {catches : ε → Bool}
    {handler : ε → Locked σ ε α} {o : ℕ → CallOutcome ε} {w : World σ}
    (h : ∀ e, catches e = true → ¬ Raises e p o w) : tryExcept p catches handler o w = p o w := by
  unfold tryExcept
  split
  · next e w' heq =>
    have hcatch : ¬ catches e = true := by
      intro hc
      refine h e hc ?_
      unfold Raises
      rw [heq]
    rw [if_neg hcatch, heq]
  · rfl

/-- An exception the clause catches: its handler runs. -/
theorem tryExcept_of_raises {p : Locked σ ε α} {catches : ε → Bool} {handler : ε → Locked σ ε α}
    {o : ℕ → CallOutcome ε} {w : World σ} {e : ε} (he : catches e = true) (h : Raises e p o w) :
    tryExcept p catches handler o w = handler e o (p o w).2 := by
  have hrun : p o w = (.raised e, (p o w).2) := Prod.ext h rfl
  unfold tryExcept
  rw [hrun]
  exact if_pos he

end Locked

end Sentrix
