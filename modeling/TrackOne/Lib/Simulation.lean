import TrackOne.Lib.Run

/-!
# Runs that retell another run

A forward simulation between two systems of `Lib.Run` with answers: every step of the first one is
matched by one step of the second one, or by none at all. `runTrace_simulation` is the one
induction; the relation sees both states and both traces, so that it can say which answers are the
same. -/

variable {σ τ ι κ ο ξ : Type}

/-- What relates the two starts, and survives a step of the first system and at most one of the
second, relates every run of the first system to some run of the second. -/
theorem runTrace_simulation {step : σ → ι → ο × σ} {step' : τ → κ → ξ × τ} {s : σ} {t : τ}
    {R : σ → List (ι × ο) → τ → List (κ × ξ) → Prop} (init : R s [] t [])
    (next : ∀ s' trace t' trace' i, R s' trace t' trace' →
      R (step s' i).2 (trace ++ [(i, (step s' i).1)]) t' trace'
        ∨ ∃ k, R (step s' i).2 (trace ++ [(i, (step s' i).1)]) (step' t' k).2
          (trace' ++ [(k, (step' t' k).1)]))
    (inputs : List ι) :
    ∃ inputs', R (runTrace step s inputs).1 (runTrace step s inputs).2
      (runTrace step' t inputs').1 (runTrace step' t inputs').2 := by
  apply runTrace_induction (P := fun s' trace =>
    ∃ inputs', R s' trace (runTrace step' t inputs').1 (runTrace step' t inputs').2)
  · exact ⟨[], init⟩
  · intro s' trace i h
    obtain ⟨inputs', h⟩ := h
    rcases next _ _ _ _ i h with hstays | ⟨k, hmoves⟩
    · exact ⟨inputs', hstays⟩
    · refine ⟨inputs' ++ [k], ?_⟩
      rw [runTrace_concat]
      exact hmoves
