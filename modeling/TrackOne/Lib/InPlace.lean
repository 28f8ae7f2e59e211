import Mathlib.Logic.Basic

/-!
# Computations that mutate in place and may fail

A method on `&mut σ` that returns a `Result` can fail halfway: what it has written by then stays
written. `InPlace` is the monad of such methods, and `exec` runs one on a value of `σ`.

* `exec_*` are the equations of the operations under `exec`.
* `outcome` is what a caller sees that runs the method on a clone and drops the clone on a failure.
  `outcome_bind` composes it as plain `Except` computations compose.
* `onClone` is that caller.
-/

variable {ε σ τ α β : Type}

/-- A method on `&mut σ`. -/
abbrev InPlace (ε σ α : Type) := ExceptT ε (StateM σ) α

namespace InPlace

/-- The answer, and the value after it: also when the answer is an error. -/
def exec (m : InPlace ε σ α) (s : σ) : Except ε α × σ := m.run.run s

/-- A computation that reads and writes nothing. -/
def check (result : Except ε α) : InPlace ε σ α := ExceptT.mk (pure result)

/-- A method of a part of the value that reports a failure as an answer. -/
def call (f : σ → Except ε α × σ) : InPlace ε σ α := ExceptT.mk fun s => f s

@[simp] theorem exec_pure (a : α) (s : σ) : (pure a : InPlace ε σ α).exec s = (.ok a, s) := rfl

/-- The second computation starts from what the first has written. -/
theorem exec_bind (m : InPlace ε σ α) (f : α → InPlace ε σ β) (s : σ) :
    (m >>= f).exec s = match m.exec s with
      | (.ok a, s') => (f a).exec s'
      | (.error e, s') => (.error e, s') := by
  unfold exec ExceptT.run StateT.run
  simp only [bind, ExceptT.bind, ExceptT.mk, StateT.bind]
  cases m s with
  | mk result s' => cases result <;> rfl

@[simp] theorem exec_get_bind (f : σ → InPlace ε σ β) (s : σ) :
    (get >>= f).exec s = (f s).exec s := by
  rw [exec_bind]
  rfl

@[simp] theorem exec_modify_bind (g : σ → σ) (f : Unit → InPlace ε σ β) (s : σ) :
    (modify g >>= f).exec s = (f ()).exec (g s) := by
  rw [exec_bind]
  rfl

@[simp] theorem exec_call_bind (f : σ → Except ε α × σ) (g : α → InPlace ε σ β) (s : σ) :
    (call f >>= g).exec s = match f s with
      | (.ok a, s') => (g a).exec s'
      | (.error e, s') => (.error e, s') :=
  exec_bind _ _ _

/-- A check fails before it writes anything. -/
@[simp] theorem exec_check_bind (result : Except ε α) (f : α → InPlace ε σ β) (s : σ) :
    (check result >>= f).exec s = match result with
      | .ok a => (f a).exec s
      | .error e => (.error e, s) := by
  rw [exec_bind]
  cases result <;> rfl

/-! ## The view of a caller that works on a clone -/

/-- The answer with the value after it; the value is lost with a failure. -/
def outcome (m : InPlace ε σ α) (s : σ) : Except ε (α × σ) :=
  match m.exec s with
  | (.ok a, s') => .ok (a, s')
  | (.error e, _) => .error e

@[simp] theorem outcome_pure (a : α) (s : σ) :
    (pure a : InPlace ε σ α).outcome s = pure (a, s) := rfl

theorem outcome_bind (m : InPlace ε σ α) (f : α → InPlace ε σ β) (s : σ) :
    (m >>= f).outcome s = m.outcome s >>= fun r => (f r.1).outcome r.2 := by
  unfold outcome
  rw [exec_bind]
  cases m.exec s with
  | mk result s' => cases result <;> rfl

@[simp] theorem outcome_get_bind (f : σ → InPlace ε σ β) (s : σ) :
    (get >>= f).outcome s = (f s).outcome s := by
  rw [outcome_bind]
  rfl

@[simp] theorem outcome_modify_bind (g : σ → σ) (f : Unit → InPlace ε σ β) (s : σ) :
    (modify g >>= f).outcome s = (f ()).outcome (g s) := by
  rw [outcome_bind]
  rfl

@[simp] theorem outcome_check_bind (result : Except ε α) (f : α → InPlace ε σ β) (s : σ) :
    (check result >>= f).outcome s = result >>= fun a => (f a).outcome s := by
  cases result <;> rfl

/-- A method that works on a clone of a part of the value: the clone is returned with the answer,
and the value itself is not touched. -/
def onClone (view : τ → σ) (m : InPlace ε σ α) : InPlace ε τ (α × σ) := do
  let t ← get
  check (m.outcome (view t))

@[simp] theorem exec_onClone_bind (view : τ → σ) (m : InPlace ε σ α)
    (f : α × σ → InPlace ε τ β) (t : τ) :
    (m.onClone view >>= f).exec t = (check (m.outcome (view t)) >>= f).exec t := rfl

end InPlace
