import Mathlib.Data.List.Induction

/-!
# Finite runs of a deterministic system

A system answers an input and moves to a next state. `runTrace` feeds it a list of inputs and
records every answer; `runTrace_induction` is the one induction over runs: what holds at the start
and survives a step holds after every run.
-/

variable {σ ι ο : Type}

/-- The state after the inputs, and the inputs with their answers, in order. -/
def runTrace (step : σ → ι → ο × σ) (s : σ) (inputs : List ι) : σ × List (ι × ο) :=
  inputs.foldl (fun r i => ((step r.1 i).2, r.2 ++ [(i, (step r.1 i).1)])) (s, [])

@[simp] theorem runTrace_nil (step : σ → ι → ο × σ) (s : σ) : runTrace step s [] = (s, []) := rfl

@[simp] theorem runTrace_concat (step : σ → ι → ο × σ) (s : σ) (inputs : List ι) (i : ι) :
    runTrace step s (inputs ++ [i])
      = ((step (runTrace step s inputs).1 i).2,
          (runTrace step s inputs).2 ++ [(i, (step (runTrace step s inputs).1 i).1)]) := by
  simp [runTrace]

/-- The first input is answered first. -/
theorem runTrace_cons (step : σ → ι → ο × σ) (s : σ) (i : ι) (inputs : List ι) :
    runTrace step s (i :: inputs)
      = ((runTrace step (step s i).2 inputs).1,
          (i, (step s i).1) :: (runTrace step (step s i).2 inputs).2) := by
  induction inputs using List.reverseRecOn with
  | nil => rfl
  | append_singleton inputs j ih =>
    rw [← List.cons_append, runTrace_concat, ih, runTrace_concat]
    rfl

/-- The trace has one entry for each input. -/
@[simp] theorem map_fst_runTrace (step : σ → ι → ο × σ) (s : σ) (inputs : List ι) :
    (runTrace step s inputs).2.map Prod.fst = inputs := by
  induction inputs generalizing s with
  | nil => rfl
  | cons i inputs ih => rw [runTrace_cons, List.map_cons, ih]

/-- An invariant of the state and the trace so far. -/
theorem runTrace_induction {step : σ → ι → ο × σ} {s : σ} {P : σ → List (ι × ο) → Prop}
    (init : P s [])
    (next : ∀ s' trace i, P s' trace → P (step s' i).2 (trace ++ [(i, (step s' i).1)]))
    (inputs : List ι) : P (runTrace step s inputs).1 (runTrace step s inputs).2 := by
  induction inputs using List.reverseRecOn with
  | nil => exact init
  | append_singleton inputs i ih =>
    rw [runTrace_concat]
    exact next _ _ i ih
