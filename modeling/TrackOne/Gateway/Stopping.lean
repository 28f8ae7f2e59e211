import TrackOne.Gateway.Stamping

/-!
# Stopping the threads

`stop_claiming` sets the flag of a pool, and whoever drops the pool waits for its threads. A thread
may have passed its checks of the flag already, and it finishes what it has claimed.

* `WorkerPoint.turn_stopping`: with the flag set, a turn brings a thread nearer to its end, and a
  thread that is not about to claim never claims again.
* `WorkerPools.run_stopped`: the threads of a stopped pool come to their end, whatever else happens.
-/

namespace TrackOne

/-- The claims that a turn writes, whether its thread is told of them or not. -/
def WorkerEvent.claims : WorkerEvent → Nat
  | .claimed (some _) _ => 1
  | _ => 0

namespace WorkerPoint

/-- The turns that a thread takes at most, once its pool is stopped. -/
def remaining : WorkerPoint → Nat
  | .looping _ _ => 1
  | .connected none => 1
  | .connected (some _) => 2
  | .claiming => 4
  | .submitting _ => 3
  | .finishing _ => 2
  | .ended => 0
  | .panicked => 0

/-- The claims that it makes at most. -/
def claimsLeft : WorkerPoint → Nat
  | .claiming => 1
  | _ => 0

theorem remaining_le (point : WorkerPoint) : point.remaining ≤ 4 := by
  cases point with
  | connected pending => cases pending <;> simp [remaining]
  | looping store pending => simp [remaining]
  | claiming => simp [remaining]
  | submitting claim => simp [remaining]
  | finishing completion => simp [remaining]
  | ended => simp [remaining]
  | panicked => simp [remaining]

theorem claimsLeft_le (point : WorkerPoint) : point.claimsLeft ≤ 1 := by
  cases point <;> simp [claimsLeft]

theorem isOver_of_remaining {point : WorkerPoint} (h : point.remaining = 0) :
    point.isOver = true := by
  cases point with
  | connected pending => cases pending <;> cases h
  | looping store pending => cases h
  | claiming => cases h
  | submitting claim => cases h
  | finishing completion => cases h
  | ended => rfl
  | panicked => rfl

theorem finish_stopping (config : TimestampWorkerConfig) (p : Pipeline) (turn : Turn)
    (completion : Completion) :
    (finish config p turn completion).2.1.remaining = 1
      ∧ (finish config p turn completion).1.claims
        + (finish config p turn completion).2.1.claimsLeft = 0 := by
  unfold finish
  cases p.finishTimestamp turn.now completion.claim completion.result config with
  | mk answer after => cases turn.delivery <;> cases answer <;> exact ⟨rfl, rfl⟩

/-- A turn of a thread whose pool is stopped. -/
theorem turn_stopping [Sha256] (config : TimestampWorkerConfig) (p : Pipeline) (turn : Turn)
    (point : WorkerPoint) :
    (point.turn config true p turn).2.1.remaining ≤ point.remaining - 1
      ∧ (point.turn config true p turn).1.claims + (point.turn config true p turn).2.1.claimsLeft
        ≤ point.claimsLeft := by
  cases point with
  | looping store pending => exact ⟨Nat.le_refl 0, Nat.le_refl 0⟩
  | connected pending =>
    cases pending with
    | none => exact ⟨Nat.le_refl 0, Nat.le_refl 0⟩
    | some completion =>
      obtain ⟨hremaining, hclaims⟩ := finish_stopping config p turn completion
      exact ⟨hremaining.le, hclaims.le⟩
  | claiming =>
    unfold WorkerPoint.turn
    cases p.claimTimestamp turn.now turn.locked config.maxAttempts with
    | mk claim after =>
      cases turn.delivery <;> cases claim <;>
        simp [remaining, claimsLeft, WorkerEvent.claims]
  | submitting claim => exact ⟨Nat.le_refl 2, Nat.le_refl 0⟩
  | finishing completion =>
    obtain ⟨hremaining, hclaims⟩ := finish_stopping config p turn completion
    exact ⟨hremaining.le, hclaims.le⟩
  | ended => exact ⟨Nat.le_refl 0, Nat.le_refl 0⟩
  | panicked => exact ⟨Nat.le_refl 0, Nat.le_refl 0⟩

end WorkerPoint

namespace WorkerPools

/-! ## Turns and claims of a thread -/

def isTurn (i : Nat) : PoolInput × PoolAnswer → Bool
  | (.turn j _, _) => j == i
  | _ => false

/-- The turns of a thread. -/
def turnsOf (i : Nat) (trace : List (PoolInput × PoolAnswer)) : Nat := trace.countP (isTurn i)

def claimsIn (i : Nat) : PoolInput × PoolAnswer → Nat
  | (.turn j _, .turned event) => if j = i then event.claims else 0
  | _ => 0

/-- The claims that a thread has written. -/
def claimsBy (i : Nat) (trace : List (PoolInput × PoolAnswer)) : Nat := (trace.map (claimsIn i)).sum

theorem turnsOf_concat (i : Nat) (trace : List (PoolInput × PoolAnswer))
    (entry : PoolInput × PoolAnswer) :
    turnsOf i (trace ++ [entry]) = turnsOf i trace + if isTurn i entry = true then 1 else 0 := by
  rw [turnsOf, List.countP_append, List.countP_singleton]
  rfl

theorem claimsBy_concat (i : Nat) (trace : List (PoolInput × PoolAnswer))
    (entry : PoolInput × PoolAnswer) :
    claimsBy i (trace ++ [entry]) = claimsBy i trace + claimsIn i entry := by
  simp [claimsBy]

/-- A thread of a stopped pool, after a trace in which it was stopped from the start. -/
structure Stopping (s : WorkerPools) (trace : List (PoolInput × PoolAnswer)) (i pool : Nat) :
    Prop where
  stopped : s.stopped[pool]? = some true
  worker : ∃ point, s.workers[i]? = some (pool, point)
    ∧ point.remaining ≤ 4 - turnsOf i trace ∧ claimsBy i trace + point.claimsLeft ≤ 1

variable [Sha256] {config : TimestampWorkerConfig} {s s' : WorkerPools}
  {trace : List (PoolInput × PoolAnswer)} {i pool : Nat}

omit [Sha256] in
/-- Another one takes its turn, or none does. -/
theorem Stopping.other (h : Stopping s trace i pool) {entry : PoolInput × PoolAnswer}
    (hturn : isTurn i entry = false) (hclaims : claimsIn i entry = 0)
    (hstopped : s'.stopped[pool]? = some true)
    (hworker : ∀ point, s.workers[i]? = some (pool, point) →
      s'.workers[i]? = some (pool, point) ∨ s'.workers[i]? = some (pool, .panicked)) :
    Stopping s' (trace ++ [entry]) i pool := by
  refine ⟨hstopped, ?_⟩
  rw [turnsOf_concat, claimsBy_concat, hturn, hclaims]
  obtain ⟨point, hpoint, hremaining, hleft⟩ := h.worker
  rcases hworker point hpoint with hsame | hpanicked
  · exact ⟨point, hsame, hremaining, hleft⟩
  · exact ⟨.panicked, hpanicked, Nat.zero_le _, (Nat.le_add_right _ _).trans hleft⟩

theorem Stopping.step (h : Stopping s trace i pool) (input : PoolInput) :
    Stopping (s.step config input).2 (trace ++ [(input, (s.step config input).1)]) i pool := by
  have hsame : ∀ point, s.workers[i]? = some (pool, point) →
      s.workers[i]? = some (pool, point) ∨ s.workers[i]? = some (pool, .panicked) :=
    fun _ hpoint => .inl hpoint
  cases input with
  -- what the producer does is no turn
  | produce now input => exact h.other rfl rfl h.stopped hsame
  | start =>
    simp only [WorkerPools.step, start]
    -- new threads stand behind this one
    cases config.validate with
    | error error => exact h.other rfl rfl h.stopped hsame
    | ok _ =>
      obtain ⟨hlt, -⟩ := List.getElem?_eq_some_iff.mp h.stopped
      refine h.other rfl rfl ((List.getElem?_append_left hlt).trans h.stopped) ?_
      intro point hpoint
      obtain ⟨hlt', -⟩ := List.getElem?_eq_some_iff.mp hpoint
      exact .inl ((List.getElem?_append_left hlt').trans hpoint)
  -- the flag is set already, and stays
  | stopClaiming other =>
    refine h.other rfl rfl ?_ hsame
    show (s.stopped.set other true)[pool]? = some true
    obtain ⟨hlt, -⟩ := List.getElem?_eq_some_iff.mp h.stopped
    by_cases heq : other = pool
    · rw [heq, List.getElem?_set_self hlt]
    · rw [List.getElem?_set_ne heq]
      exact h.stopped
  -- a thread that panics does nothing any more
  | panicked j =>
    refine h.other rfl rfl h.stopped ?_
    intro point hpoint
    have hmodify : (s.step config (.panicked j)).2.workers[i]?
        = (s.workers.modify j fun worker => (worker.1, .panicked))[i]? := rfl
    rw [hmodify, List.getElem?_modify, hpoint]
    by_cases heq : j = i
    · exact .inr (by simp [heq])
    · exact .inl (by simp [heq])
  | turn j turn =>
    simp only [WorkerPools.step]
    obtain ⟨point, hpoint, hremaining, hleft⟩ := h.worker
    by_cases heq : j = i
    · -- the thread sees the flag
      subst heq
      have hflag : s.isStopped pool = true := by
        rw [isStopped, List.getD_eq_getElem?_getD, h.stopped]
        rfl
      obtain ⟨hless, hclaims⟩ := point.turn_stopping config s.gateway.pipeline turn
      simp only [hpoint, hflag]
      refine ⟨h.stopped, (point.turn config true s.gateway.pipeline turn).2.1, ?_, ?_, ?_⟩
      · obtain ⟨hlt, -⟩ := List.getElem?_eq_some_iff.mp hpoint
        exact List.getElem?_set_self hlt
      · have hturn : isTurn j (PoolInput.turn j turn,
            PoolAnswer.turned (point.turn config true s.gateway.pipeline turn).1) = true :=
          beq_self_eq_true j
        rw [turnsOf_concat, if_pos hturn]
        omega
      · have hone : claimsIn j (PoolInput.turn j turn,
            PoolAnswer.turned (point.turn config true s.gateway.pipeline turn).1)
            = (point.turn config true s.gateway.pipeline turn).1.claims := if_pos rfl
        rw [claimsBy_concat, hone]
        omega
    -- the turn is another thread's
    · have hturn : ∀ answer, isTurn i (PoolInput.turn j turn, answer) = false :=
        fun answer => beq_eq_false_iff_ne.mpr heq
      cases hworker : s.workers[j]? with
      | none => exact h.other (hturn _) rfl h.stopped hsame
      | some worker =>
        refine h.other (hturn _) (if_neg heq) h.stopped ?_
        intro point' hpoint'
        exact .inl ((List.getElem?_set_ne heq).trans hpoint')

/-- The threads belong to pools that were started. -/
theorem pool_lt (config : TimestampWorkerConfig) (ledgerId : String) (limits : CapacityLimits)
    (inputs : List PoolInput) :
    ∀ worker ∈ (run config ledgerId limits inputs).1.workers,
      worker.1 < (run config ledgerId limits inputs).1.stopped.length := by
  refine runTrace_induction (P := fun (s : WorkerPools) _ =>
    ∀ worker ∈ s.workers, worker.1 < s.stopped.length) ?_ ?_ inputs
  · intro worker hworker
    cases hworker
  · intro s trace input h
    cases input with
    | produce now input => exact h
    | start =>
      simp only [WorkerPools.step, start]
      cases config.validate with
      | error error => exact h
      -- the new threads belong to the new pool
      | ok _ =>
        intro worker hworker
        show worker.1 < (s.stopped ++ [false]).length
        rw [List.length_append, List.length_singleton]
        rcases List.mem_append.mp hworker with hold | hnew
        · exact (h worker hold).trans (Nat.lt_succ_self _)
        · rw [List.eq_of_mem_replicate hnew]
          exact Nat.lt_succ_self _
    | stopClaiming pool =>
      intro worker hworker
      show worker.1 < (s.stopped.set pool true).length
      rw [List.length_set]
      exact h worker hworker
    -- a thread that panics stays in its pool
    | panicked i =>
      intro worker hworker
      obtain ⟨j, hj⟩ := List.mem_iff_getElem?.mp hworker
      replace hj : (s.workers.modify i fun worker => (worker.1, .panicked))[j]? = some worker := hj
      rw [List.getElem?_modify] at hj
      obtain ⟨before, hbefore, hafter⟩ := Option.map_eq_some_iff.mp hj
      have hpool : worker.1 = before.1 := by
        rw [← hafter]
        split_ifs <;> rfl
      rw [hpool]
      exact h before (List.mem_of_getElem? hbefore)
    -- a turn changes a thread, not its pool
    | turn i turn =>
      simp only [WorkerPools.step]
      cases hworker : s.workers[i]? with
      | none => exact h
      | some worker =>
        intro other hother
        rcases List.mem_or_eq_of_mem_set hother with hold | rfl
        · exact h other hold
        · exact h worker (List.mem_of_getElem? hworker)

/-- What a pool does after it was stopped. -/
structure Stops (config : TimestampWorkerConfig) (s : WorkerPools) (pool : Nat) : Prop where
  /-- A thread writes at most one more claim. -/
  claims : ∀ i point later, s.workers[i]? = some (pool, point) →
    claimsBy i (runTrace (WorkerPools.step config) s later).2 ≤ 1
  /-- Four turns take it to its end. -/
  ends : ∀ i point later, s.workers[i]? = some (pool, point) →
    4 ≤ turnsOf i (runTrace (WorkerPools.step config) s later).2 →
    (runTrace (WorkerPools.step config) s later).1.overAt i = true

/-- The threads of a stopped pool come to their end. In every run, and whatever happens after its
flag was set (other pools, new ones, the producer, failing transactions), each thread of the pool
writes at most one more claim, and four turns take it to its end. -/
theorem run_stopped (config : TimestampWorkerConfig) (ledgerId : String) (limits : CapacityLimits)
    (inputs : List PoolInput) (pool : Nat) :
    Stops config (run config ledgerId limits (inputs ++ [.stopClaiming pool])).1 pool := by
  have hstopping : ∀ i point later,
      (run config ledgerId limits (inputs ++ [.stopClaiming pool])).1.workers[i]?
        = some (pool, point) →
      Stopping (runTrace (WorkerPools.step config)
          (run config ledgerId limits (inputs ++ [.stopClaiming pool])).1 later).1
        (runTrace (WorkerPools.step config)
          (run config ledgerId limits (inputs ++ [.stopClaiming pool])).1 later).2 i pool := by
    intro i point later hworker
    refine runTrace_induction (P := fun s trace => Stopping s trace i pool) ?_
      (fun s trace input h => h.step input) later
    refine ⟨?_, point, hworker, point.remaining_le, ?_⟩
    · rw [run, runTrace_concat] at hworker ⊢
      have hlt := pool_lt config ledgerId limits inputs (pool, point) (List.mem_of_getElem? hworker)
      exact List.getElem?_set_self hlt
    · rw [claimsBy, List.map_nil, List.sum_nil, Nat.zero_add]
      exact point.claimsLeft_le
  constructor
  · intro i point later hworker
    obtain ⟨-, point', -, -, hleft⟩ := hstopping i point later hworker
    exact (Nat.le_add_right _ _).trans hleft
  · intro i point later hworker hturns
    obtain ⟨-, point', hpoint', hremaining, -⟩ := hstopping i point later hworker
    rw [overAt_eq hpoint']
    exact WorkerPoint.isOver_of_remaining (by omega)

end WorkerPools

end TrackOne
