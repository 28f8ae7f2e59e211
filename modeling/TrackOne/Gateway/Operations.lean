import TrackOne.Gateway.Chain

/-!
# The plans of the operations

One inversion for all public methods: `Planned` lists what a method can have computed when it
reaches the store, and `Operation.plan_planned` proves that there is nothing else. A plan either
leaves the state alone, replays a stored admission, or commits moves from the producer's own state
under the next revision.
-/

namespace TrackOne

/-! ## Admission runs -/

/-- The segment numbers that runs stand for, one for each record. -/
def expandRuns (runs : List AdmissionRun) : List UInt64 :=
  runs.flatMap fun run => List.replicate run.recordCount.toNat run.segmentNumber

/-- A run takes the next number in. -/
theorem expandRuns_step {runs runs' : List AdmissionRun} {number : UInt64}
    (h : admissionRunsStep runs number = .ok runs') :
    expandRuns runs' = expandRuns runs ++ [number] := by
  unfold admissionRunsStep at h
  split at h
  · next run hlast =>
    obtain ⟨before, rfl⟩ := List.getLast?_eq_some_iff.mp hlast
    split at h
    · next heq =>
      simp only [Except.bind_eq_ok, Except.ofOption_eq_ok, UInt64.checkedAdd_eq_some] at h
      obtain ⟨count, hcount, h⟩ := h
      cases h
      have hcount' : count.toNat = run.recordCount.toNat + 1 := hcount
      simp [expandRuns, hcount', List.replicate_succ', heq]
    · cases h
      simp [expandRuns]
  · cases h
    simp [expandRuns]

theorem expandRuns_foldlM {numbers : List UInt64} {runs runs' : List AdmissionRun}
    (h : numbers.foldlM admissionRunsStep runs = .ok runs') :
    expandRuns runs' = expandRuns runs ++ numbers := by
  induction numbers generalizing runs with
  | nil =>
    cases h
    simp
  | cons number numbers ih =>
    rw [List.foldlM_cons, Except.bind_eq_ok] at h
    obtain ⟨mid, hmid, h⟩ := h
    rw [ih h, expandRuns_step hmid, List.append_assoc]
    rfl

/-- The runs of an admission name the segment of every record. -/
theorem expandRuns_admissionRuns {numbers : List UInt64} {runs : List AdmissionRun}
    (h : admissionRuns numbers = .ok runs) : expandRuns runs = numbers := by
  simpa [expandRuns] using expandRuns_foldlM h

/-! ## Plans -/

section Plans

variable [Sha256]

/-- The records and the idempotency key and digest of an admission. -/
def Operation.admission : Operation → Option (List Bytes × Option (String × String))
  | .admitRecord record => some ([record], none)
  | .admitIdempotent key record => some ([record], some (key, sha256Hex record))
  | .admitBatchIdempotent key records canonicalEnvelope =>
    some (records, some (key, sha256Hex canonicalEnvelope))
  | _ => none

/-- The transition commits moves from the state under the next revision. -/
structure Commits (state : ProducerState) (admitted : List (Bytes × UInt64))
    (t : LedgerTransition) : Prop where
  revision : t.nextState.revision.toNat = state.revision.toNat + 1
  previousOpenCount : t.previousOpenCount.toNat = state.openInterval.records.length
  moves : Moves state t.sealed admitted { t.nextState with revision := state.revision }

/-- The next state continues the chain with the segments of the transition. -/
theorem Commits.chained {state : ProducerState} {segments : List SealedSegment}
    {admitted : List (Bytes × UInt64)} {t : LedgerTransition} (h : Commits state admitted t)
    (hchained : Chained state segments) : Chained t.nextState (segments ++ t.sealed) := by
  obtain ⟨hchain, hnumber, hpredecessor⟩ := h.moves.chained hchained
  exact ⟨hchain, hnumber, hpredecessor⟩

/-- The answer to an admission that was committed. -/
structure Admitted (numbers : List UInt64) (t : LedgerTransition) (outcome : AdmissionOutcome) :
    Prop where
  stateRevision : outcome.stateRevision = t.nextState.revision
  admittedSegmentNumber : outcome.admittedSegmentNumber = numbers.headD 0
  admittedRecordCount : UInt64.ofNat? numbers.length = some outcome.admittedRecordCount
  admissionRuns : TrackOne.admissionRuns numbers = .ok outcome.admissionRuns
  sealed : outcome.sealed = t.sealed
  sealedSegmentNumbers : outcome.sealedSegmentNumbers = t.sealed.map SealedSegment.segmentNumber
  replayed : outcome.replayed = false

/-- The record kept for a request: what is needed to answer it again. -/
def keptRecord (numbers : List UInt64) (t : LedgerTransition) (request : String × String) :
    IdempotencyRecord where
  key := request.1
  requestSha256 := request.2
  admittedSegmentNumbers := numbers
  stateRevision := t.nextState.revision
  sealedSegmentNumbers := t.sealed.map SealedSegment.segmentNumber

/-- What a method can have computed when it reaches the store. -/
inductive Planned (lookup : String → Except ProducerError (Option IdempotencyRecord))
    (state : ProducerState) (op : Operation) : Plan → Prop where
  | idle {reply : Reply} (hreply : ∀ outcome, reply ≠ .admitted outcome) :
      Planned lookup state op (.done state reply)
  | replayed {records : List Bytes} {key digest : String} {existing : IdempotencyRecord}
      {outcome : AdmissionOutcome}
      (hop : op.admission = some (records, some (key, digest)))
      (hlookup : lookup key = .ok (some existing)) (hdigest : existing.requestSha256 = digest)
      (houtcome : replayedOutcome existing = .ok outcome) :
      Planned lookup state op (.done state (.admitted outcome))
  | maintained {t : LedgerTransition} {reply : Reply} (hop : op.admission = none)
      (hcommits : Commits state [] t) (hdeltas : t.admittedRecords = [])
      (hidempotency : t.idempotency = none) (hreply : ∀ outcome, reply ≠ .admitted outcome) :
      Planned lookup state op (.commit (some state.revision) t reply)
  | admitted {records : List Bytes} {request : Option (String × String)} {numbers : List UInt64}
      {t : LedgerTransition} {outcome : AdmissionOutcome}
      (hop : op.admission = some (records, request))
      (hlookup : ∀ key digest, request = some (key, digest) →
        validateKey key = .ok () ∧ lookup key = .ok none)
      (hlength : numbers.length = records.length)
      (hcommits : Commits state (records.zip numbers) t)
      (hdeltas : recordDeltas state t.nextState t.sealed records numbers = .ok t.admittedRecords)
      (hidempotency : t.idempotency = request.map (keptRecord numbers t))
      (houtcome : Admitted numbers t outcome) :
      Planned lookup state op (.commit (some state.revision) t (.admitted outcome))

omit [Sha256] in
/-- `commit` puts the next revision on the state and expects the one it started from. -/
theorem prepareCommit_eq_ok {state next : ProducerState} {sealed : List SealedSegment}
    {admission : Option IdempotencyRecord} {deltas : List AdmittedRecordDelta}
    {reply : UInt64 → Reply} {plan : Plan}
    (h : prepareCommit state next sealed admission deltas reply = .ok plan) :
    ∃ revision previousOpenCount : UInt64, revision.toNat = state.revision.toNat + 1
      ∧ state.revision.checkedAdd 1 = some revision
      ∧ previousOpenCount.toNat = state.openInterval.records.length
      ∧ plan = .commit (some state.revision)
          { previousOpenCount, admittedRecords := deltas, nextState := { next with revision },
            sealed, idempotency := admission } (reply revision) := by
  simp only [prepareCommit, Except.bind_eq_ok, Except.ofOption_eq_ok] at h
  obtain ⟨revision, hrevision, count, hcount, h⟩ := h
  cases h
  exact ⟨revision, count, UInt64.checkedAdd_eq_some.mp hrevision, hrevision,
    UInt64.ofNat?_eq_some.mp hcount, rfl⟩

/-- The moves of an operation, as the transition carries them. -/
theorem Commits.of_moves {state next : ProducerState} {sealed : List SealedSegment}
    {admitted : List (Bytes × UInt64)} {revision previousOpenCount : UInt64}
    {deltas : List AdmittedRecordDelta} {admission : Option IdempotencyRecord}
    (hmoves : Moves state sealed admitted next)
    (hrevision : revision.toNat = state.revision.toNat + 1)
    (hcount : previousOpenCount.toNat = state.openInterval.records.length) :
    Commits state admitted
      { previousOpenCount, admittedRecords := deltas, nextState := { next with revision }, sealed,
        idempotency := admission } := by
  refine ⟨hrevision, hcount, ?_⟩
  have hback : { { next with revision } with revision := state.revision } = next := by
    rw [← hmoves.identity.1]
  simpa only [hback] using hmoves

/-! ## Maintenance -/

omit [Sha256] in
theorem validatePolicy_eq_ok {policy : ClosurePolicy} {u : Unit} :
    validatePolicy policy = .ok u ↔ policy.validate = .ok () := by
  simp [validatePolicy]

variable {lookup : String → Except ProducerError (Option IdempotencyRecord)}
  {state : ProducerState} {clock : ClockReadings} {op : Operation} {plan : Plan}

/-- A commit without records. -/
theorem planned_of_prepareCommit {next : ProducerState} {sealed : List SealedSegment}
    {reply : Reply} (hop : op.admission = none) (hreply : ∀ outcome, reply ≠ .admitted outcome)
    (hmoves : Moves state sealed [] next)
    (h : prepareCommit state next sealed none [] (fun _ => reply) = .ok plan) :
    Planned lookup state op plan := by
  obtain ⟨revision, count, hrevision, -, hcount, rfl⟩ := prepareCommit_eq_ok h
  exact .maintained hop (.of_moves hmoves hrevision hcount) rfl rfl hreply

omit [Sha256] in
/-- What `transition` does to the state after the open interval was closed. -/
def ProducerState.transitioned (state : ProducerState) (clock : ClockReadings) (now : UInt64)
    (reason : CloseReason) (replacementPolicy : Option ClosurePolicy) : ProducerState where
  revision := state.revision
  active := state.active && decide (reason ≠ CloseReason.shutdown)
  ledgerId := state.ledgerId
  siteId := state.siteId
  nextSegmentNumber := state.nextSegmentNumber
  predecessorCbor := state.predecessorCbor
  openInterval := { state.openInterval with
    policy := replacementPolicy.getD state.openInterval.policy
    openedAtMs := now
    clockContinuityId := clock.reopenContinuityId }
  nextPolicy := replacementPolicy.getD state.nextPolicy

theorem transition_eq (state : ProducerState) (clock : ClockReadings) (now : UInt64)
    (reason : CloseReason) (replacementPolicy : Option ClosurePolicy) :
    transition state clock now reason replacementPolicy = (do
      Except.require .inactive state.active
      let (segment, next) ← constructSegment state now reason
      prepareCommit state (next.transitioned clock now reason replacementPolicy) segment.toList none
        [] fun _ => .sealed segment.toList) := by
  cases replacementPolicy <;> rfl

omit [Sha256] in
theorem adjusts_transitioned {now : UInt64} {reason : CloseReason}
    {replacementPolicy : Option ClosurePolicy}
    (hpolicy : ∀ policy, replacementPolicy = some policy → policy.validate = .ok ()) :
    Adjusts state (state.transitioned clock now reason replacementPolicy) := by
  refine ⟨rfl, rfl, rfl, rfl, rfl, rfl, rfl, fun hvalid => ?_⟩
  cases replacementPolicy with
  | none => exact ⟨hvalid.1, hvalid.2⟩
  | some policy => exact ⟨hpolicy policy rfl, hpolicy policy rfl⟩

/-- A transition that succeeds is a planned operation. -/
theorem transition_planned {now : UInt64} {reason : CloseReason}
    {replacementPolicy : Option ClosurePolicy} (hop : op.admission = none)
    (hpolicy : ∀ policy, replacementPolicy = some policy → policy.validate = .ok ())
    (h : transition state clock now reason replacementPolicy = .ok plan) :
    Planned lookup state op plan := by
  simp only [transition_eq, Except.bind_eq_ok] at h
  obtain ⟨-, -, ⟨segment, mid⟩, hclose, h⟩ := h
  have hmoves : Moves state segment.toList [] mid := by
    simpa using Moves.refl.close (constructSegment_closes hclose)
  exact planned_of_prepareCommit hop (by simp) (hmoves.adjust (adjusts_transitioned hpolicy)) h

theorem recover_planned (hop : op.admission = none) (h : recover state clock = .ok plan) :
    Planned lookup state op plan := by
  simp only [recover, Except.bind_eq_ok] at h
  obtain ⟨-, -, now, -, h⟩ := h
  exact transition_planned hop (by simp) h

theorem reactivate_planned (hop : op.admission = none) (h : reactivate state clock = .ok plan) :
    Planned lookup state op plan := by
  unfold reactivate at h
  split at h
  · cases h
    exact .idle (by simp)
  · simp only [Except.bind_eq_ok] at h
    obtain ⟨now, -, h⟩ := h
    refine planned_of_prepareCommit hop (by simp) (Moves.refl.adjust ?_) h
    exact ⟨rfl, rfl, rfl, rfl, rfl, rfl, rfl, fun hvalid => ⟨hvalid.1, hvalid.2⟩⟩

theorem updatePolicy_planned {policy : ClosurePolicy} {immediate : Bool}
    (hop : op.admission = none) (h : updatePolicy state clock policy immediate = .ok plan) :
    Planned lookup state op plan := by
  simp only [updatePolicy, Except.bind_eq_ok, validatePolicy_eq_ok] at h
  obtain ⟨-, hvalid, now, -, h⟩ := h
  split at h
  · exact transition_planned hop (by simpa using hvalid) h
  · refine planned_of_prepareCommit hop (by simp) (Moves.refl.adjust ?_) h
    exact ⟨rfl, rfl, rfl, rfl, rfl, rfl, rfl, fun hold => ⟨hold.1, hvalid⟩⟩

theorem close_planned {reason : CloseReason} (hop : op.admission = none)
    (h : close state clock reason = .ok plan) : Planned lookup state op plan := by
  simp only [close, Except.bind_eq_ok] at h
  obtain ⟨now, -, h⟩ := h
  exact transition_planned hop (by simp) h

theorem sealExpiredIntervals_planned (hop : op.admission = none)
    (h : sealExpiredIntervals state clock = .ok plan) : Planned lookup state op plan := by
  simp only [sealExpiredIntervals, Except.bind_eq_ok] at h
  obtain ⟨now, -, h⟩ := h
  split at h
  · cases h
    exact .idle (by simp)
  · simp only [Except.bind_eq_ok] at h
    obtain ⟨⟨sealed, next⟩, hclose, h⟩ := h
    split at h
    · exact planned_of_prepareCommit hop (by simp) (closeExpired_moves hclose) h
    · cases h
      exact .idle (by simp)

/-! ## Admission -/

/-- A batch that is admitted is a planned operation. -/
theorem admitBatchInner_planned {records : List Bytes} {request : Option (String × String)}
    (hop : op.admission = some (records, request))
    (hlookup : ∀ key digest, request = some (key, digest) →
      validateKey key = .ok () ∧ lookup key = .ok none)
    (h : admitBatchInner state clock records request = .ok plan) :
    Planned lookup state op plan := by
  simp only [admitBatchInner, Except.bind_eq_ok, Except.ofOption_eq_ok] at h
  obtain ⟨-, -, -, -, _, hvalid, now, -, ⟨expired, mid⟩, hexpired, ⟨limited, numbers, next⟩,
    hadmits, runs, hruns, count, hcount, deltas, hdeltas, admission, hadmission, h⟩ := h
  obtain ⟨hlength, hmoves⟩ := admitRecords_moves (validateRecords_eq_ok hvalid) hadmits
  have hall : Moves state (expired ++ limited) (records.zip numbers) next := by
    simpa using (closeExpired_moves hexpired).trans hmoves
  obtain ⟨revision, openCount, hrevision, hadd, hopen, rfl⟩ := prepareCommit_eq_ok h
  refine .admitted hop hlookup hlength (.of_moves hall hrevision hopen) hdeltas ?_ ?_
  · cases request with
    | none =>
      cases hadmission
      rfl
    | some request =>
      -- the revision the record predicts is the one `commit` assigns
      simp only [admissionRecord, Except.bind_eq_ok, Except.ofOption_eq_ok, hall.identity.1,
        hadd, Option.some.injEq] at hadmission
      obtain ⟨_, rfl, hadmission⟩ := hadmission
      cases hadmission
      rfl
  · exact ⟨rfl, rfl, hcount, hruns, rfl, rfl, rfl⟩

/-- A batch under a key is a planned operation, or a replay of one. -/
theorem admitBatchIdempotentDigest_planned {key digest : String} {records : List Bytes}
    (hop : op.admission = some (records, some (key, digest)))
    (h : admitBatchIdempotentDigest lookup state clock key records digest = .ok plan) :
    Planned lookup state op plan := by
  simp only [admitBatchIdempotentDigest, Except.bind_eq_ok] at h
  obtain ⟨_, hkey, existing, hexisting, h⟩ := h
  cases existing with
  | none =>
    refine admitBatchInner_planned hop ?_ h
    rintro _ _ ⟨rfl, rfl⟩
    exact ⟨hkey, hexisting⟩
  | some existing =>
    simp only at h
    split at h
    · cases h
    · next hdigest =>
      simp only [Except.bind_eq_ok] at h
      obtain ⟨outcome, houtcome, h⟩ := h
      cases h
      exact .replayed hop hexisting (not_not.mp hdigest) houtcome

/-- Every plan of every operation is one of the four. -/
theorem Operation.plan_planned (h : op.plan lookup state clock = .ok plan) :
    Planned lookup state op plan := by
  cases op with
  | admitRecord record => exact admitBatchInner_planned rfl (by simp) h
  | admitIdempotent key record =>
    simp only [Operation.plan, TrackOne.admitIdempotent, Except.bind_eq_ok] at h
    obtain ⟨-, -, h⟩ := h
    exact admitBatchIdempotentDigest_planned rfl h
  | admitBatchIdempotent key records canonicalEnvelope =>
    exact admitBatchIdempotentDigest_planned rfl h
  | close reason => exact close_planned rfl h
  | updatePolicy policy immediate => exact updatePolicy_planned rfl h
  | recover => exact recover_planned rfl h
  | reactivate => exact reactivate_planned rfl h
  | sealExpiredIntervals => exact sealExpiredIntervals_planned rfl h

end Plans

end TrackOne
