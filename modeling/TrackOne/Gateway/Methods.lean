import TrackOne.Lib.InPlace
import TrackOne.Gateway.Runs

/-!
# The producer's methods in place

The plans of `TrackOne.Gateway.Producer` say what a method computes. Here the methods of
`producer.rs` are written as the source runs them: on `&mut self`, where a failure leaves whatever
was written before it. `construct_segment` takes the open records and swaps the policy before any of
its checks, so it does leave a damaged state behind; only the discipline of its callers, who hand it
a clone, keeps the producer whole.

* `ProducerState.constructSegment`, `closeExpired` and `admitRecords` mutate the state they are
  given. `outcome_*` relates each of them to its plan: they agree when the clone is dropped on a
  failure.
* `LedgerProducer.commit` writes the store and then the state; `Operation.call` is a public method.
* `Operation.exec_call` proves that a method in place and its executed plan are the same, and
  `World.step_call` that a run is made of these methods.
* `LedgerProducer.call_failed`: a method that fails has changed nothing.
-/

namespace TrackOne

open InPlace

/-- What a method on `&mut self` works on; the clock is read by the call. -/
structure LedgerProducer (S : Type) where
  store : S
  state : ProducerState

variable [Sha256]

/-! ## Methods on a state -/

namespace ProducerState

/-- The part of `construct_segment` after the interval was taken. -/
def sealRecords (records : List Bytes) (policy : ClosurePolicy) (reason : CloseReason) :
    InPlace ProducerError ProducerState (Option SealedSegment) := do
  let state ← get
  check (Except.require .serialExhausted
    (¬ (state.nextSegmentNumber = UInt64.ofNat (2 ^ 64 - 1) ∧ state.predecessorCbor.isSome)))
  let merkle := merkleRootFromRecords records
  let batchRoots ← check (Except.ofOption
    (.invalidConfiguration "batch_record_limit must be a power of two no greater than 2^63")
    (batchRootsFromLeafHashes merkle.leafHashes policy.batchRecordLimit))
  let recordCount ← check (Except.ofOption (.counterOverflow "segment record")
    (UInt64.ofNat? merkle.leafHashes.length))
  let segment ← check
    ((nextSegmentRecord state policy reason recordCount batchRoots merkle.root).mapError
      fun error => ProducerError.construction error.toString)
  check (Except.require .concurrentWriter (segment.segmentNumber = state.nextSegmentNumber))
  let artifactCbor ← check (segment.canonicalCborBytes.mapError .construction)
  let sealed : SealedSegment := {
    segmentNumber := segment.segmentNumber
    closeReason := reason
    artifactCbor
    artifactSha256 := sha256Hex artifactCbor
    records }
  modify fun state => { state with predecessorCbor := some artifactCbor }
  -- a failure here would leave the new predecessor under the old number
  let nextSegmentNumber ← check (Except.ofOption .serialExhausted
    (state.nextSegmentNumber.checkedAdd 1))
  modify fun state => { state with nextSegmentNumber }
  pure (some sealed)

/-- `construct_segment`: the records are taken, the counter and the policy swapped, and only then
is anything checked. -/
def constructSegment (nextOpenedAtMs : UInt64) (reason : CloseReason) :
    InPlace ProducerError ProducerState (Option SealedSegment) := do
  let records := (← get).openInterval.records
  modify fun state => { state with openInterval := { state.openInterval with records := [] } }
  modify fun state => { state with openInterval := { state.openInterval with byteCount := 0 } }
  let policy := (← get).openInterval.policy
  modify fun state => { state with
    openInterval := { state.openInterval with policy := state.nextPolicy } }
  modify fun state => { state with
    openInterval := { state.openInterval with openedAtMs := nextOpenedAtMs } }
  if suppressed records policy reason then pure none
  else sealRecords records policy reason

/-- The loop of `close_expired`. -/
def closeExpiredLoop (now : UInt64) : Nat → InPlace ProducerError ProducerState (List SealedSegment)
  | 0 => check (.error .clockDiscontinuity)
  | fuel + 1 => do
    let state ← get
    let elapsed ← check (Except.ofOption .clockDiscontinuity
      (now.checkedSub state.openInterval.openedAtMs))
    if elapsed < state.openInterval.policy.intervalMs then pure []
    else do
      let boundary ← check (Except.ofOption .clockDiscontinuity
        (state.openInterval.openedAtMs.checkedAdd state.openInterval.policy.intervalMs))
      let segment ← constructSegment boundary .interval
      let sealed ← closeExpiredLoop now fuel
      pure (segment.toList ++ sealed)

def closeExpired (now : UInt64) : InPlace ProducerError ProducerState (List SealedSegment) := do
  let state ← get
  closeExpiredLoop now (now.toNat - state.openInterval.openedAtMs.toNat + 1)

/-- The byte counter grows first, then the record is pushed. -/
def pushRecord (record : Bytes) : InPlace ProducerError ProducerState Unit := do
  let state ← get
  let length ← check (Except.ofOption (.counterOverflow "interval byte")
    (UInt64.ofNat? record.length))
  let byteCount ← check (Except.ofOption (.counterOverflow "interval byte")
    (state.openInterval.byteCount.checkedAdd length))
  modify fun state => { state with openInterval := { state.openInterval with byteCount } }
  modify fun state => { state with
    openInterval := { state.openInterval with records := state.openInterval.records ++ [record] } }

def closeAtLimit (now : UInt64) : InPlace ProducerError ProducerState (Option SealedSegment) := do
  match limitReached (← get) with
  | none => pure none
  | some reason => constructSegment now reason

/-- The loop of `admit_batch_inner`. -/
def admitRecords (now : UInt64) :
    List Bytes → InPlace ProducerError ProducerState (List SealedSegment × List UInt64)
  | [] => pure ([], [])
  | record :: records => do
    let number := (← get).nextSegmentNumber
    pushRecord record
    let segment ← closeAtLimit now
    let (sealed, numbers) ← admitRecords now records
    pure (segment.toList ++ sealed, number :: numbers)

end ProducerState

/-! ## On a clone the methods are the plans -/

/-- The error path of `sealRecords` keeps the clone it has changed; dropping it gives the plan. -/
theorem outcome_constructSegment (state : ProducerState) (nextOpenedAtMs : UInt64)
    (reason : CloseReason) :
    (ProducerState.constructSegment nextOpenedAtMs reason).outcome state
      = constructSegment state nextOpenedAtMs reason := by
  simp only [ProducerState.constructSegment, outcome_get_bind, outcome_modify_bind,
    constructSegment, ProducerState.reopened]
  split_ifs with hsuppressed
  · rfl
  · simp only [ProducerState.sealRecords, outcome_get_bind, outcome_modify_bind,
      outcome_check_bind, outcome_pure]
    congr

theorem outcome_closeExpiredLoop (now : UInt64) (fuel : Nat) (state : ProducerState) :
    (ProducerState.closeExpiredLoop now fuel).outcome state = closeExpiredLoop now fuel state := by
  induction fuel generalizing state with
  | zero => rfl
  | succ fuel ih =>
    simp only [ProducerState.closeExpiredLoop, closeExpiredLoop, outcome_get_bind,
      outcome_check_bind]
    refine bind_congr fun elapsed => ?_
    split_ifs with hwithin
    · rfl
    · rw [outcome_check_bind]
      simp only [outcome_bind, outcome_constructSegment, ih, outcome_pure]

theorem outcome_closeExpired (now : UInt64) (state : ProducerState) :
    (ProducerState.closeExpired now).outcome state = closeExpired state now := by
  simp only [ProducerState.closeExpired, outcome_get_bind, outcome_closeExpiredLoop, closeExpired]

omit [Sha256] in
theorem outcome_pushRecord (record : Bytes) (state : ProducerState) :
    (ProducerState.pushRecord record).outcome state
      = (pushRecord state record).map ((), ·) := by
  simp only [ProducerState.pushRecord, pushRecord, outcome_get_bind, outcome_check_bind,
    outcome_modify_bind]
  cases UInt64.ofNat? record.length with
  | none => rfl
  | some length =>
    simp only [Except.ofOption, bind, Except.bind]
    cases state.openInterval.byteCount.checkedAdd length <;> rfl

theorem outcome_closeAtLimit (now : UInt64) (state : ProducerState) :
    (ProducerState.closeAtLimit now).outcome state = closeAtLimit state now := by
  simp only [ProducerState.closeAtLimit, closeAtLimit, outcome_get_bind]
  cases limitReached state with
  | none => rfl
  | some reason => exact outcome_constructSegment state now reason

theorem outcome_admitRecords (now : UInt64) (records : List Bytes) (state : ProducerState) :
    (ProducerState.admitRecords now records).outcome state
      = (admitRecords now records state).map fun result =>
        ((result.1, result.2.1), result.2.2) := by
  induction records generalizing state with
  | nil => rfl
  | cons record records ih =>
    rw [ProducerState.admitRecords, outcome_get_bind]
    simp only [outcome_bind, outcome_pushRecord, outcome_closeAtLimit, ih, outcome_pure,
      admitRecords]
    cases pushRecord state record with
    | error error => rfl
    | ok pushed =>
      simp only [Except.map, bind, Except.bind]
      cases closeAtLimit pushed now with
      | error error => rfl
      | ok result =>
        dsimp only
        cases admitRecords now records result.2 <;> rfl

/-! ## Methods of the producer -/

section Methods

variable {S : Type} [LedgerStore S]

namespace LedgerProducer

/-- `commit`: the store is written first, and the state in memory only when it has accepted. -/
def commit (next : ProducerState) (sealed : List SealedSegment)
    (admission : Option IdempotencyRecord) (admittedRecords : List AdmittedRecordDelta) :
    InPlace ProducerError (LedgerProducer S) Unit := do
  let self ← get
  let revision ← check (Except.ofOption (.counterOverflow "state revision")
    (self.state.revision.checkedAdd 1))
  let previousOpenCount ← check (Except.ofOption (.counterOverflow "open record")
    (UInt64.ofNat? self.state.openInterval.records.length))
  let transition : LedgerTransition := {
    previousOpenCount, admittedRecords, nextState := { next with revision }, sealed
    idempotency := admission }
  call fun self =>
    let (answer, store) :=
      LedgerStore.compareAndSwap self.store (some self.state.revision) transition
    (answer, { self with store })
  modify fun self => { self with state := { next with revision } }

/-- `safe_now`, of `&self`. -/
def safeNow (clock : ClockReadings) : InPlace ProducerError (LedgerProducer S) UInt64 := do
  check (TrackOne.safeNow (← get).state clock)

def transition (clock : ClockReadings) (now : UInt64) (reason : CloseReason)
    (replacementPolicy : Option ClosurePolicy) :
    InPlace ProducerError (LedgerProducer S) Reply := do
  check (Except.require .inactive (← get).state.active)
  let (segment, next) ← (ProducerState.constructSegment now reason).onClone LedgerProducer.state
  let next := { next with active := next.active && decide (reason ≠ CloseReason.shutdown) }
  let next := match replacementPolicy with
    | none => next
    | some policy =>
      { next with nextPolicy := policy, openInterval := { next.openInterval with policy } }
  let next := { next with
    openInterval := { next.openInterval with
      openedAtMs := now, clockContinuityId := clock.reopenContinuityId } }
  commit next segment.toList none []
  pure (.sealed segment.toList)

def recover (clock : ClockReadings) : InPlace ProducerError (LedgerProducer S) Reply := do
  check (Except.require .inactive (← get).state.active)
  let now ← check clock.nowMs
  transition clock now .recovery none

def reactivate (clock : ClockReadings) : InPlace ProducerError (LedgerProducer S) Reply := do
  let self ← get
  if self.state.active then pure .unit
  else do
    let now ← check clock.nowMs
    let next := { self.state with
      active := true
      openInterval := { self.state.openInterval with
        openedAtMs := now, clockContinuityId := clock.reopenContinuityId } }
    commit next [] none []
    pure .unit

def updatePolicy (clock : ClockReadings) (policy : ClosurePolicy) (immediate : Bool) :
    InPlace ProducerError (LedgerProducer S) Reply := do
  check (validatePolicy policy)
  let now ← safeNow clock
  if immediate then transition clock now .reconfigure (some policy)
  else do
    let self ← get
    commit { self.state with nextPolicy := policy } [] none []
    pure (.sealed [])

def close (clock : ClockReadings) (reason : CloseReason) :
    InPlace ProducerError (LedgerProducer S) Reply := do
  let now ← safeNow clock
  transition clock now reason none

def sealExpiredIntervals (clock : ClockReadings) :
    InPlace ProducerError (LedgerProducer S) Reply := do
  let now ← safeNow clock
  let self ← get
  if now - self.state.openInterval.openedAtMs < self.state.openInterval.policy.intervalMs then
    pure (.sealed [])
  else do
    let (sealed, next) ← (ProducerState.closeExpired now).onClone LedgerProducer.state
    if next.openInterval.openedAtMs ≠ self.state.openInterval.openedAtMs then do
      commit next sealed none []
      pure (.sealed sealed)
    else pure (.sealed sealed)

/-- The expired intervals are closed and the records admitted on one clone. -/
def closeAndAdmit (now : UInt64) (records : List Bytes) :
    InPlace ProducerError ProducerState (List SealedSegment × List UInt64) := do
  let expired ← ProducerState.closeExpired now
  let (limited, numbers) ← ProducerState.admitRecords now records
  pure (expired ++ limited, numbers)

def admitBatchInner (clock : ClockReadings) (records : List Bytes)
    (idempotency : Option (String × String)) : InPlace ProducerError (LedgerProducer S) Reply := do
  check (Except.require .inactive (← get).state.active)
  check (Except.require (.invalidRecord "record batch must not be empty") (records ≠ []))
  check (validateRecords 0 records)
  let now ← safeNow clock
  let ((sealed, numbers), next) ← (closeAndAdmit now records).onClone LedgerProducer.state
  let runs ← check (admissionRuns numbers)
  let admittedRecordCount ← check (Except.ofOption (.counterOverflow "admitted record")
    (UInt64.ofNat? numbers.length))
  let deltas ← check (recordDeltas (← get).state next sealed records numbers)
  let admission ← check (admissionRecord next sealed numbers idempotency)
  commit next sealed admission deltas
  let self ← get
  pure (.admitted {
    stateRevision := self.state.revision
    admittedSegmentNumber := numbers.headD 0
    admittedRecordCount
    admissionRuns := runs
    sealed
    sealedSegmentNumbers := sealed.map SealedSegment.segmentNumber
    replayed := false })

def admitBatchIdempotentDigest (clock : ClockReadings) (key : String) (records : List Bytes)
    (digest : String) : InPlace ProducerError (LedgerProducer S) Reply := do
  check (validateKey key)
  match ← check (LedgerStore.lookupIdempotency (← get).store key) with
  | some existing =>
    if existing.requestSha256 ≠ digest then check (.error .idempotencyConflict)
    else do
      let outcome ← check (replayedOutcome existing)
      pure (.admitted outcome)
  | none => admitBatchInner clock records (some (key, digest))

end LedgerProducer

/-- A public method. -/
def Operation.call (clock : ClockReadings) :
    Operation → InPlace ProducerError (LedgerProducer S) Reply
  | .admitRecord record => LedgerProducer.admitBatchInner clock [record] none
  | .admitIdempotent key record => do
    check (validateKey key)
    LedgerProducer.admitBatchIdempotentDigest clock key [record] (sha256Hex record)
  | .admitBatchIdempotent key records canonicalEnvelope =>
    LedgerProducer.admitBatchIdempotentDigest clock key records (sha256Hex canonicalEnvelope)
  | .close reason => LedgerProducer.close clock reason
  | .updatePolicy policy immediate => LedgerProducer.updatePolicy clock policy immediate
  | .recover => LedgerProducer.recover clock
  | .reactivate => LedgerProducer.reactivate clock
  | .sealExpiredIntervals => LedgerProducer.sealExpiredIntervals clock

/-! ## A method is its executed plan -/

namespace LedgerProducer

/-- The plan of a method, executed on the producer's own store. -/
def execute (self : LedgerProducer S) (plan : Except ProducerError Plan) :
    Except ProducerError Reply × LedgerProducer S :=
  match executePlan self.store plan with
  | (.ok (state, reply), store) => (.ok reply, ⟨store, state⟩)
  | (.error error, store) => (.error error, ⟨store, self.state⟩)

variable {self : LedgerProducer S} {α : Type}

omit [Sha256] in
/-- The simulation rule: a method that checks something first is the plan that does so. -/
theorem exec_check_bind {result : Except ProducerError α}
    {f : α → InPlace ProducerError (LedgerProducer S) Reply} {g : α → Except ProducerError Plan}
    (h : ∀ a, result = .ok a → (f a).exec self = self.execute (g a)) :
    (check result >>= f).exec self = self.execute (result >>= g) := by
  rw [InPlace.exec_check_bind]
  cases hresult : result with
  | error error => rfl
  | ok a => exact h a hresult

omit [Sha256] in
/-- The commit of a method is the commit of its plan. The answer may read the new revision. -/
theorem exec_commit_bind {next : ProducerState} {sealed : List SealedSegment}
    {admission : Option IdempotencyRecord} {deltas : List AdmittedRecordDelta}
    {f : Unit → InPlace ProducerError (LedgerProducer S) Reply} {reply : UInt64 → Reply}
    (hf : ∀ self', (f ()).exec self' = (.ok (reply self'.state.revision), self')) :
    (commit next sealed admission deltas >>= f).exec self
      = self.execute (prepareCommit self.state next sealed admission deltas reply) := by
  rw [commit, bind_assoc, exec_get_bind, prepareCommit]
  rw [bind_assoc]
  refine exec_check_bind fun revision hrevision => ?_
  rw [bind_assoc]
  refine exec_check_bind fun previousOpenCount hcount => ?_
  rw [bind_assoc, exec_call_bind]
  show _ = LedgerProducer.execute self (.ok (Plan.commit _ _ _))
  rw [execute, executePlan, Plan.execute]
  cases LedgerStore.compareAndSwap self.store (some self.state.revision) _ with
  | mk answer store =>
    cases answer with
    | error error => rfl
    | ok u =>
      show (modify _ >>= f).exec _ = _
      rw [exec_modify_bind, hf]

variable (self)

theorem exec_transition (clock : ClockReadings) (now : UInt64) (reason : CloseReason)
    (replacementPolicy : Option ClosurePolicy) :
    (transition clock now reason replacementPolicy).exec self
      = self.execute (TrackOne.transition self.state clock now reason replacementPolicy) := by
  rw [transition, exec_get_bind, TrackOne.transition]
  refine exec_check_bind fun _ _ => ?_
  rw [exec_onClone_bind, outcome_constructSegment]
  refine exec_check_bind fun result _ => ?_
  exact exec_commit_bind fun _ => rfl

theorem exec_recover (clock : ClockReadings) :
    (recover clock).exec self = self.execute (TrackOne.recover self.state clock) := by
  rw [recover, exec_get_bind, TrackOne.recover]
  refine exec_check_bind fun _ _ => ?_
  refine exec_check_bind fun now _ => ?_
  exact self.exec_transition clock now .recovery none

omit [Sha256] in
theorem exec_reactivate (clock : ClockReadings) :
    (reactivate clock).exec self = self.execute (TrackOne.reactivate self.state clock) := by
  rw [reactivate, exec_get_bind, TrackOne.reactivate]
  split_ifs with hactive
  · rfl
  · refine exec_check_bind fun now _ => ?_
    exact exec_commit_bind fun _ => rfl

theorem exec_updatePolicy (clock : ClockReadings) (policy : ClosurePolicy) (immediate : Bool) :
    (updatePolicy clock policy immediate).exec self
      = self.execute (TrackOne.updatePolicy self.state clock policy immediate) := by
  rw [updatePolicy, TrackOne.updatePolicy]
  refine exec_check_bind fun _ _ => ?_
  rw [safeNow, bind_assoc, exec_get_bind]
  refine exec_check_bind fun now _ => ?_
  split_ifs with himmediate
  · exact self.exec_transition clock now .reconfigure (some policy)
  · rw [exec_get_bind]
    exact exec_commit_bind fun _ => rfl

theorem exec_close (clock : ClockReadings) (reason : CloseReason) :
    (close clock reason).exec self = self.execute (TrackOne.close self.state clock reason) := by
  rw [close, safeNow, bind_assoc, exec_get_bind, TrackOne.close]
  refine exec_check_bind fun now _ => ?_
  exact self.exec_transition clock now reason none

theorem exec_sealExpiredIntervals (clock : ClockReadings) :
    (sealExpiredIntervals clock).exec self
      = self.execute (TrackOne.sealExpiredIntervals self.state clock) := by
  rw [sealExpiredIntervals, safeNow, bind_assoc, exec_get_bind, TrackOne.sealExpiredIntervals]
  refine exec_check_bind fun now _ => ?_
  rw [exec_get_bind]
  split_ifs with hwithin
  · rfl
  · rw [exec_onClone_bind, outcome_closeExpired]
    refine exec_check_bind fun result _ => ?_
    dsimp only
    split_ifs with hsame
    · exact exec_commit_bind fun _ => rfl
    · rfl

theorem outcome_closeAndAdmit (now : UInt64) (records : List Bytes) (state : ProducerState) :
    (closeAndAdmit now records).outcome state
      = closeExpired state now >>= fun expired =>
          (admitRecords now records expired.2).map fun result =>
            ((expired.1 ++ result.1, result.2.1), result.2.2) := by
  simp only [closeAndAdmit, outcome_bind, outcome_closeExpired, outcome_admitRecords, outcome_pure]
  refine bind_congr fun expired => ?_
  cases admitRecords now records expired.2 <;> rfl

theorem exec_admitBatchInner (clock : ClockReadings) (records : List Bytes)
    (idempotency : Option (String × String)) :
    (admitBatchInner clock records idempotency).exec self
      = self.execute (TrackOne.admitBatchInner self.state clock records idempotency) := by
  rw [admitBatchInner, exec_get_bind, TrackOne.admitBatchInner]
  refine exec_check_bind fun _ _ => ?_
  refine exec_check_bind fun _ _ => ?_
  refine exec_check_bind fun _ _ => ?_
  rw [safeNow, bind_assoc, exec_get_bind]
  refine exec_check_bind fun now _ => ?_
  rw [exec_onClone_bind, outcome_closeAndAdmit]
  -- the clone went through both loops before anything else is looked at
  cases closeExpired self.state now with
  | error error => rfl
  | ok expired =>
    show (check ((admitRecords now records expired.2).map _) >>= _).exec self
      = self.execute (admitRecords now records expired.2 >>= _)
    cases admitRecords now records expired.2 with
    | error error => rfl
    | ok result =>
      show (check (.ok _) >>= _).exec self = _
      rw [InPlace.exec_check_bind]
      refine exec_check_bind fun runs _ => ?_
      refine exec_check_bind fun count _ => ?_
      rw [exec_get_bind]
      refine exec_check_bind fun deltas _ => ?_
      refine exec_check_bind fun admission _ => ?_
      exact exec_commit_bind fun _ => rfl

theorem exec_admitBatchIdempotentDigest (clock : ClockReadings) (key : String)
    (records : List Bytes) (digest : String) :
    (admitBatchIdempotentDigest clock key records digest).exec self
      = self.execute (TrackOne.admitBatchIdempotentDigest (LedgerStore.lookupIdempotency self.store)
          self.state clock key records digest) := by
  rw [admitBatchIdempotentDigest, TrackOne.admitBatchIdempotentDigest]
  refine exec_check_bind fun _ _ => ?_
  rw [exec_get_bind]
  refine exec_check_bind fun existing _ => ?_
  cases existing with
  | none => exact self.exec_admitBatchInner clock records (some (key, digest))
  | some existing =>
    dsimp only
    split_ifs with hdigest
    · rfl
    · refine exec_check_bind fun outcome _ => ?_
      rfl

end LedgerProducer

/-- A method in place is its plan, executed. -/
theorem Operation.exec_call (self : LedgerProducer S) (clock : ClockReadings) (op : Operation) :
    (op.call clock).exec self
      = self.execute (op.plan (LedgerStore.lookupIdempotency self.store) self.state clock) := by
  cases op with
  | admitRecord record => exact self.exec_admitBatchInner clock [record] none
  | admitIdempotent key record =>
    refine LedgerProducer.exec_check_bind fun _ _ => ?_
    exact self.exec_admitBatchIdempotentDigest clock key [record] (sha256Hex record)
  | admitBatchIdempotent key records canonicalEnvelope =>
    exact self.exec_admitBatchIdempotentDigest clock key records (sha256Hex canonicalEnvelope)
  | close reason => exact self.exec_close clock reason
  | updatePolicy policy immediate => exact self.exec_updatePolicy clock policy immediate
  | recover => exact self.exec_recover clock
  | reactivate => exact self.exec_reactivate clock
  | sealExpiredIntervals => exact self.exec_sealExpiredIntervals clock

/-- A call of a run is a method in place on the store and the state of the producer. -/
theorem World.step_call {w : World S} {state : ProducerState} (h : w.producer = some state)
    (clock : ClockReadings) (op : Operation) :
    w.step (.call clock op)
      = (some ((op.call clock).exec ⟨w.store, state⟩).1,
          ⟨((op.call clock).exec ⟨w.store, state⟩).2.store,
            some ((op.call clock).exec ⟨w.store, state⟩).2.state⟩) := by
  rw [Operation.exec_call]
  simp only [World.step, h, LedgerProducer.execute]
  cases executePlan w.store _ with
  | mk result store => cases result <;> rfl

end Methods

/-! ## Failures -/

namespace LedgerProducer

/-- A failed operation leaves the producer and the whole store as they were, wherever it failed:
before the clone was made, with the clone half changed, or at the store. This holds for any state
and any store, so for every reachable one and for a producer whose revision is stale. -/
theorem call_failed (self after : LedgerProducer MemoryLedgerStore) (clock : ClockReadings)
    (op : Operation) (error : ProducerError)
    (h : (op.call clock).exec self = (.error error, after)) : after = self := by
  rw [Operation.exec_call, execute] at h
  cases hplan : op.plan (LedgerStore.lookupIdempotency self.store) self.state clock with
  | error e =>
    -- the plan failed: nothing but a clone was written
    rw [hplan, executePlan] at h
    cases h
    rfl
  | ok plan =>
    rw [hplan, executePlan] at h
    cases hexecute : plan.execute self.store with
    | mk result store =>
      rw [hexecute] at h
      cases result with
      | ok r => cases h
      | error e =>
        -- the store refused: its checks come before its writes
        have hstore : store = self.store := execute_error hexecute
        cases h
        rw [hstore]

omit [Sha256] in
/-- A new ledger in memory. -/
def sample : LedgerProducer MemoryLedgerStore where
  store := MemoryLedgerStore.empty
  state := createdState {
    ledgerId := "b7a1d5e40c6f438e9a75db27c96f31aa"
    siteId := "an-001"
    policy := {
      intervalMs := 100, batchRecordLimit := 2, recordLimit := none, sizeLimitBytes := none
      emptyMode := .emit } } 1000 7

omit [Sha256] in
/-- A batch whose second record is not canonical. -/
theorem call_failed_second_record :
    letI := Sha256.fips
    let result := (Operation.call ⟨.ok 1000, 7, 7⟩
      (.admitBatchIdempotent "key" [World.sampleRecord, [0xff]] [])).exec sample
    (∃ message, result.1 = .error (.invalidRecord ("record 1: " ++ message)))
      ∧ result.2 = sample := by
  let := Sha256.fips
  have herror : ∃ message after, (Operation.call ⟨.ok 1000, 7, 7⟩
      (.admitBatchIdempotent "key" [World.sampleRecord, [0xff]] [])).exec sample
        = (.error (.invalidRecord ("record 1: " ++ message)), after) := by
    refine ⟨_, _, rfl⟩
  obtain ⟨message, after, h⟩ := herror
  have hsame := call_failed sample after _ _ _ h
  rw [h]
  exact ⟨⟨message, rfl⟩, hsame⟩

end LedgerProducer

end TrackOne
