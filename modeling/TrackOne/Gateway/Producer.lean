import TrackOne.Vtl.Record
import TrackOne.Vtl.SegmentDecode

/-!
# The ledger producer

The state machine of `trackone-gateway-svc/src/producer.rs`. Records are admitted into an open
interval; an interval is closed when it expires, reaches a limit or is closed on request, and
closing it seals a segment that extends the chain of the segments before it.

Every operation of the producer reads its own state and the clock, computes the state that follows,
and hands one transition to the store. A `Plan` is what it has computed when it reaches the store:
an answer without a commit, or a transition with the revision it expects.

## Architecture
* data: the open interval, the producer state, sealed segments, transitions, outcomes and errors;
* closing: `constructSegment` (the source's `seal_open` without its event counter) and the loop
  `closeExpired` over expired intervals;
* admission: `admitRecords`, `recordDeltas` and `admissionRuns`;
* operations: one definition for each public method, as a plan.

The event counters of the source are not modelled: no operation reads them.
-/

namespace TrackOne

/-! ## Data -/

inductive CloseReason where
  | recovery
  | shutdown
  | reconfigure
  | sizeLimit
  | recordLimit
  | interval
  | manual
deriving DecidableEq, Repr

namespace CloseReason

def asStr : CloseReason → String
  | recovery => "recovery"
  | shutdown => "shutdown"
  | reconfigure => "reconfigure"
  | sizeLimit => "size_limit"
  | recordLimit => "record_limit"
  | interval => "interval"
  | manual => "manual"

def precedence : CloseReason → Nat
  | recovery => 7
  | shutdown => 6
  | reconfigure => 5
  | manual => 4
  | sizeLimit => 3
  | recordLimit => 2
  | interval => 1

/-- `CloseReason::highest`: `max_by_key` keeps the last of equal keys. -/
def highest (reasons : List CloseReason) : Option CloseReason :=
  reasons.foldl (fun best reason =>
    match best with
    | none => some reason
    | some b => if b.precedence ≤ reason.precedence then some reason else some b) none

/-- Every reason is one the segment validator knows. -/
theorem validCloseReason_asStr (reason : CloseReason) : validCloseReason reason.asStr := by
  cases reason <;> decide

end CloseReason

inductive ProducerError where
  | invalidConfiguration (message : String)
  | invalidRecord (message : String)
  | clock (message : String)
  | clockDiscontinuity
  | serialExhausted
  | counterOverflow (name : String)
  | store (message : String)
  | queueCapacityExhausted
  | storageCapacityExhausted
  | storageUnavailable (message : String)
  | databaseReadOnly
  | timestampConfiguration (message : String)
  | timestampSubmission (message : String)
  | timestampVerification (message : String)
  | timestampPersistence (message : String)
  | concurrentWriter
  | idempotencyConflict
  | inactive
  | construction (message : String)
deriving DecidableEq, Repr

/-- `impl Display for ProducerError`. -/
def ProducerError.toString : ProducerError → String
  | invalidConfiguration message => message
  | invalidRecord message => "invalid canonical record: " ++ message
  | clock message => "elapsed clock failed: " ++ message
  | clockDiscontinuity => "elapsed clock continuity is uncertain"
  | serialExhausted => "segment serial is exhausted"
  | counterOverflow name => name ++ " counter overflow"
  | store message => "ledger store failed: " ++ message
  | queueCapacityExhausted => "pending timestamp capacity is exhausted"
  | storageCapacityExhausted => "retained evidence capacity is exhausted"
  | storageUnavailable message => "storage unavailable: " ++ message
  | databaseReadOnly => "admission database is read-only"
  | timestampConfiguration message => "timestamp configuration failed: " ++ message
  | timestampSubmission message => "timestamp submission failed: " ++ message
  | timestampVerification message => "timestamp verification failed: " ++ message
  | timestampPersistence message => "timestamp persistence failed: " ++ message
  | concurrentWriter => "concurrent ledger writer detected"
  | idempotencyConflict => "idempotency key was already used for different bytes"
  | inactive => "ledger is shut down and must be reactivated"
  | construction message => "segment construction failed: " ++ message

structure OpenInterval where
  openedAtMs : UInt64
  clockContinuityId : BitVec 128
  policy : ClosurePolicy
  records : List Bytes
  byteCount : UInt64
deriving DecidableEq

/-- `ProducerState`; its field `open` is `openInterval` here. -/
structure ProducerState where
  revision : UInt64
  active : Bool
  ledgerId : String
  siteId : String
  nextSegmentNumber : UInt64
  predecessorCbor : Option Bytes
  openInterval : OpenInterval
  nextPolicy : ClosurePolicy
deriving DecidableEq

structure SealedSegment where
  segmentNumber : UInt64
  closeReason : CloseReason
  artifactCbor : Bytes
  artifactSha256 : String
  records : List Bytes
deriving DecidableEq

inductive RecordDestination where
  | open (ordinal : UInt64)
  | sealed (segmentNumber ordinal : UInt64)
deriving DecidableEq, Repr

structure AdmittedRecordDelta where
  recordCbor : Bytes
  destination : RecordDestination
deriving DecidableEq

structure AdmissionRun where
  segmentNumber : UInt64
  recordCount : UInt64
deriving DecidableEq, Repr

structure IdempotencyRecord where
  key : String
  requestSha256 : String
  admittedSegmentNumbers : List UInt64
  stateRevision : UInt64
  sealedSegmentNumbers : List UInt64
deriving DecidableEq

structure AdmissionOutcome where
  stateRevision : UInt64
  admittedSegmentNumber : UInt64
  admittedRecordCount : UInt64
  admissionRuns : List AdmissionRun
  sealed : List SealedSegment
  sealedSegmentNumbers : List UInt64
  replayed : Bool
deriving DecidableEq

structure LedgerTransition where
  previousOpenCount : UInt64
  admittedRecords : List AdmittedRecordDelta
  nextState : ProducerState
  sealed : List SealedSegment
  idempotency : Option IdempotencyRecord
deriving DecidableEq

/-- The readings of an `ElapsedClock` during one operation: `now_ms` is read once, `continuity_id`
when the reading is judged, and again when an interval is reopened. -/
structure ClockReadings where
  nowMs : Except ProducerError UInt64
  continuityId : BitVec 128
  reopenContinuityId : BitVec 128

/-- What a method returns. -/
inductive Reply where
  | admitted (outcome : AdmissionOutcome)
  | sealed (segments : List SealedSegment)
  | unit
deriving DecidableEq

/-- What an operation has computed when it reaches the store. -/
inductive Plan where
  | done (state : ProducerState) (reply : Reply)
  | commit (expectedRevision : Option UInt64) (transition : LedgerTransition) (reply : Reply)
deriving DecidableEq

def validatePolicy (policy : ClosurePolicy) : Except ProducerError Unit :=
  policy.validate.mapError fun error => .invalidConfiguration error.asStr

/-! ## Closing intervals -/

section Closing

variable [Sha256]

/-- The state `construct_segment` leaves when it has taken the open records: an empty interval
under the next policy. -/
def ProducerState.reopened (state : ProducerState) (nextOpenedAtMs : UInt64) : ProducerState :=
  { state with
    openInterval := { state.openInterval with
      records := [], byteCount := 0, policy := state.nextPolicy, openedAtMs := nextOpenedAtMs } }

/-- An empty interval that consumes no segment: suppressed, and not closed by shutdown or
recovery. -/
def suppressed (records : List Bytes) (policy : ClosurePolicy) (reason : CloseReason) : Bool :=
  records = [] ∧ policy.emptyMode = .suppress ∧ ¬ (reason = .shutdown ∨ reason = .recovery)

/-- The segment record `construct_segment` builds: the epoch, or the successor of the predecessor's
artifact. -/
def nextSegmentRecord (state : ProducerState) (policy : ClosurePolicy) (reason : CloseReason)
    (recordCount : UInt64) (batchRoots : List Digest) (root : Digest) :
    Except SegmentConstructionError SegmentRecord :=
  match state.predecessorCbor with
  | some predecessor =>
    SegmentRecord.newSuccessor predecessor policy reason.asStr recordCount batchRoots root
  | none =>
    SegmentRecord.newEpoch state.ledgerId policy reason.asStr recordCount batchRoots root

/-- `construct_segment`. A failure discards the state, as every caller works on a clone. -/
def constructSegment (state : ProducerState) (nextOpenedAtMs : UInt64) (reason : CloseReason) :
    Except ProducerError (Option SealedSegment × ProducerState) :=
  let records := state.openInterval.records
  let policy := state.openInterval.policy
  let state := state.reopened nextOpenedAtMs
  if suppressed records policy reason then .ok (none, state)
  else do
    Except.require .serialExhausted
      (¬ (state.nextSegmentNumber = UInt64.ofNat (2 ^ 64 - 1) ∧ state.predecessorCbor.isSome))
    let merkle := merkleRootFromRecords records
    let batchRoots ← Except.ofOption
      (.invalidConfiguration "batch_record_limit must be a power of two no greater than 2^63")
      (batchRootsFromLeafHashes merkle.leafHashes policy.batchRecordLimit)
    let recordCount ← Except.ofOption (.counterOverflow "segment record")
      (UInt64.ofNat? merkle.leafHashes.length)
    let segment ← (nextSegmentRecord state policy reason recordCount batchRoots
      merkle.root).mapError
      fun error => ProducerError.construction error.toString
    Except.require .concurrentWriter (segment.segmentNumber = state.nextSegmentNumber)
    let artifactCbor ← segment.canonicalCborBytes.mapError .construction
    let sealed : SealedSegment := {
      segmentNumber := segment.segmentNumber
      closeReason := reason
      artifactCbor
      artifactSha256 := sha256Hex artifactCbor
      records }
    let nextSegmentNumber ← Except.ofOption .serialExhausted
      (state.nextSegmentNumber.checkedAdd 1)
    pure (some sealed, { state with predecessorCbor := some artifactCbor, nextSegmentNumber })

/-- The loop of `close_expired`, with a bound on its iterations. -/
def closeExpiredLoop (now : UInt64) :
    Nat → ProducerState → Except ProducerError (List SealedSegment × ProducerState)
  | 0, _ => .error .clockDiscontinuity
  | fuel + 1, state => do
    let elapsed ← Except.ofOption .clockDiscontinuity
      (now.checkedSub state.openInterval.openedAtMs)
    if elapsed < state.openInterval.policy.intervalMs then
      pure ([], state)
    else do
      let boundary ← Except.ofOption .clockDiscontinuity
        (state.openInterval.openedAtMs.checkedAdd state.openInterval.policy.intervalMs)
      let (segment, state) ← constructSegment state boundary .interval
      let (sealed, state) ← closeExpiredLoop now fuel state
      pure (segment.toList ++ sealed, state)

/-- `close_expired`. An iteration with a positive interval takes at least a millisecond of the
elapsed time, so the bound is never reached (`closeExpired_eq`). -/
def closeExpired (state : ProducerState) (now : UInt64) :
    Except ProducerError (List SealedSegment × ProducerState) :=
  closeExpiredLoop now (now.toNat - state.openInterval.openedAtMs.toNat + 1) state

end Closing

/-! ## Admission -/

/-- The record goes into the open interval and its length to the byte counter. -/
def pushRecord (state : ProducerState) (record : Bytes) : Except ProducerError ProducerState := do
  let length ← Except.ofOption (.counterOverflow "interval byte") (UInt64.ofNat? record.length)
  let byteCount ← Except.ofOption (.counterOverflow "interval byte")
    (state.openInterval.byteCount.checkedAdd length)
  pure { state with
    openInterval := { state.openInterval with
      byteCount, records := state.openInterval.records ++ [record] } }

/-- The limit that closes the interval after a record, if any. -/
def limitReached (state : ProducerState) : Option CloseReason :=
  let interval := state.openInterval
  let recordLimit := interval.policy.recordLimit.any fun limit =>
    decide (limit.toNat ≤ interval.records.length)
  let sizeLimit :=
    interval.policy.sizeLimitBytes.any fun limit => decide (limit ≤ interval.byteCount)
  CloseReason.highest
    ((if sizeLimit then [.sizeLimit] else []) ++ if recordLimit then [.recordLimit] else [])

section Admission

variable [Sha256]

/-- The interval is closed when a limit is reached. -/
def closeAtLimit (state : ProducerState) (now : UInt64) :
    Except ProducerError (Option SealedSegment × ProducerState) :=
  match limitReached state with
  | none => .ok (none, state)
  | some reason => constructSegment state now reason

/-- The loop of `admit_batch_inner`: the sealed segments and the number of the segment each record
was admitted to, in order. -/
def admitRecords (now : UInt64) :
    List Bytes → ProducerState →
      Except ProducerError (List SealedSegment × List UInt64 × ProducerState)
  | [], state => .ok ([], [], state)
  | record :: records, state => do
    let number := state.nextSegmentNumber
    let state ← pushRecord state record
    let (segment, state) ← closeAtLimit state now
    let (sealed, numbers, state) ← admitRecords now records state
    pure (segment.toList ++ sealed, number :: numbers, state)

end Admission

/-- One record of `record_deltas`: its destination, and the ordinals after it. -/
def recordDelta (sealedNumbers : List UInt64) (record : Bytes) (segmentNumber : UInt64)
    (sealedOrdinals : Std.ExtTreeMap UInt64 UInt64 compare) (openOrdinal : UInt64) :
    Except ProducerError
      (AdmittedRecordDelta × Std.ExtTreeMap UInt64 UInt64 compare × UInt64) :=
  if segmentNumber ∈ sealedNumbers then do
    let ordinal := sealedOrdinals[segmentNumber]?.getD 0
    let next ← Except.ofOption (.counterOverflow "sealed record") (ordinal.checkedAdd 1)
    pure (⟨record, .sealed segmentNumber ordinal⟩, sealedOrdinals.insert segmentNumber next,
      openOrdinal)
  else do
    let next ← Except.ofOption (.counterOverflow "open record") (openOrdinal.checkedAdd 1)
    pure (⟨record, .open openOrdinal⟩, sealedOrdinals, next)

/-- The pass of `record_deltas` over the admitted records. -/
def recordDeltasLoop (sealedNumbers : List UInt64) :
    List (Bytes × UInt64) → Std.ExtTreeMap UInt64 UInt64 compare → UInt64 →
      Except ProducerError (List AdmittedRecordDelta)
  | [], _, _ => .ok []
  | (record, number) :: rest, sealedOrdinals, openOrdinal => do
    let (delta, sealedOrdinals, openOrdinal) ←
      recordDelta sealedNumbers record number sealedOrdinals openOrdinal
    let deltas ← recordDeltasLoop sealedNumbers rest sealedOrdinals openOrdinal
    pure (delta :: deltas)

/-- The ordinals `record_deltas` starts the sealed segments with: the records that were open before
come first in the segment that takes them. -/
def startOrdinals (previous : ProducerState) (sealed : List SealedSegment) :
    Except ProducerError (Std.ExtTreeMap UInt64 UInt64 compare) :=
  let previousRecords := previous.openInterval.records
  let previousWasSealed := previousRecords ≠ []
    ∧ sealed.any fun segment => previousRecords.isPrefixOf segment.records
  if previousRecords ≠ [] ∧ previousWasSealed then do
    let count ← Except.ofOption (.counterOverflow "sealed record")
      (UInt64.ofNat? previousRecords.length)
    pure (Std.ExtTreeMap.empty.insert previous.nextSegmentNumber count)
  else pure ∅

def recordDeltas (previous next : ProducerState) (sealed : List SealedSegment)
    (records : List Bytes) (segmentNumbers : List UInt64) :
    Except ProducerError (List AdmittedRecordDelta) := do
  let sealedOrdinals ← startOrdinals previous sealed
  let admittedOpenCount := segmentNumbers.count next.nextSegmentNumber
  Except.require .concurrentWriter (admittedOpenCount ≤ next.openInterval.records.length)
  let openOrdinal ← Except.ofOption (.counterOverflow "open record")
    (UInt64.ofNat? (next.openInterval.records.length - admittedOpenCount))
  recordDeltasLoop (sealed.map SealedSegment.segmentNumber) (records.zip segmentNumbers)
    sealedOrdinals openOrdinal

/-- One number of `admission_runs`: the last run grows, or a new one starts. -/
def admissionRunsStep (runs : List AdmissionRun) (segmentNumber : UInt64) :
    Except ProducerError (List AdmissionRun) :=
  match runs.getLast? with
  | some run =>
    if run.segmentNumber = segmentNumber then do
      let recordCount ← Except.ofOption (.counterOverflow "admission run")
        (run.recordCount.checkedAdd 1)
      pure (runs.dropLast ++ [{ run with recordCount }])
    else pure (runs ++ [{ segmentNumber, recordCount := 1 }])
  | none => pure (runs ++ [{ segmentNumber, recordCount := 1 }])

def admissionRuns (segmentNumbers : List UInt64) : Except ProducerError (List AdmissionRun) :=
  segmentNumbers.foldlM admissionRunsStep []

/-! ## Operations -/

def safeNow (state : ProducerState) (clock : ClockReadings) : Except ProducerError UInt64 := do
  Except.require .inactive state.active
  let now ← clock.nowMs
  Except.require .clockDiscontinuity
    (state.openInterval.clockContinuityId = clock.continuityId
      ∧ ¬ now < state.openInterval.openedAtMs)
  pure now

/-- `commit`, up to the call of the store: the transition for the revision after this one. -/
def prepareCommit (state next : ProducerState) (sealed : List SealedSegment)
    (admission : Option IdempotencyRecord) (admittedRecords : List AdmittedRecordDelta)
    (reply : UInt64 → Reply) : Except ProducerError Plan := do
  let revision ← Except.ofOption (.counterOverflow "state revision") (state.revision.checkedAdd 1)
  let previousOpenCount ← Except.ofOption (.counterOverflow "open record")
    (UInt64.ofNat? state.openInterval.records.length)
  pure (.commit (some state.revision)
    { previousOpenCount, admittedRecords, nextState := { next with revision }, sealed,
      idempotency := admission }
    (reply revision))

/-- The check of an idempotency key, made by both idempotent methods. -/
def validateKey (key : String) : Except ProducerError Unit :=
  Except.require
    (.invalidConfiguration "idempotency key must contain 1..255 non-control characters")
    (¬ (key = "" ∨ 255 < (utf8Bytes key).length ∨ key.toList.any isControl))

/-- The records of a batch are canonical; the first that is not is named by its index. -/
def validateRecords : Nat → List Bytes → Except ProducerError Unit
  | _, [] => .ok ()
  | index, record :: records => do
    let _ ← (validateCanonicalRecord record).mapError fun error =>
      ProducerError.invalidRecord ("record " ++ toString index ++ ": " ++ error.toString)
    validateRecords (index + 1) records

section Operations

variable [Sha256]

/-- The record an idempotent admission leaves in the store; the revision is the one `commit` is
about to assign. -/
def admissionRecord (next : ProducerState) (sealed : List SealedSegment) (numbers : List UInt64) :
    Option (String × String) → Except ProducerError (Option IdempotencyRecord)
  | none => .ok none
  | some (key, requestSha256) => do
    let stateRevision ← Except.ofOption (.counterOverflow "state revision")
      (next.revision.checkedAdd 1)
    pure (some {
      key, requestSha256, admittedSegmentNumbers := numbers, stateRevision
      sealedSegmentNumbers := sealed.map SealedSegment.segmentNumber })

def admitBatchInner (state : ProducerState) (clock : ClockReadings) (records : List Bytes)
    (idempotency : Option (String × String)) : Except ProducerError Plan := do
  Except.require .inactive state.active
  Except.require (.invalidRecord "record batch must not be empty") (records ≠ [])
  validateRecords 0 records
  let now ← safeNow state clock
  let (expired, next) ← closeExpired state now
  let (limited, numbers, next) ← admitRecords now records next
  let sealed := expired ++ limited
  let runs ← admissionRuns numbers
  let admittedRecordCount ← Except.ofOption (.counterOverflow "admitted record")
    (UInt64.ofNat? numbers.length)
  let deltas ← recordDeltas state next sealed records numbers
  let admission ← admissionRecord next sealed numbers idempotency
  prepareCommit state next sealed admission deltas fun revision =>
    .admitted {
      stateRevision := revision
      admittedSegmentNumber := numbers.headD 0
      admittedRecordCount
      admissionRuns := runs
      sealed
      sealedSegmentNumbers := sealed.map SealedSegment.segmentNumber
      replayed := false }

/-- The answer to a request whose key is known with the same digest. -/
def replayedOutcome (existing : IdempotencyRecord) : Except ProducerError AdmissionOutcome := do
  let runs ← admissionRuns existing.admittedSegmentNumbers
  let admittedRecordCount ← Except.ofOption (.counterOverflow "admitted record")
    (UInt64.ofNat? existing.admittedSegmentNumbers.length)
  pure {
    stateRevision := existing.stateRevision
    admittedSegmentNumber := existing.admittedSegmentNumbers.headD 0
    admittedRecordCount
    admissionRuns := runs
    sealed := []
    sealedSegmentNumbers := existing.sealedSegmentNumbers
    replayed := true }

/-- `admit_batch_idempotent_digest`; `lookup` is the store's `lookup_idempotency`. -/
def admitBatchIdempotentDigest (lookup : String → Except ProducerError (Option IdempotencyRecord))
    (state : ProducerState) (clock : ClockReadings) (key : String) (records : List Bytes)
    (digest : String) : Except ProducerError Plan := do
  validateKey key
  match ← lookup key with
  | some existing =>
    if existing.requestSha256 ≠ digest then throw .idempotencyConflict
    else do
      let outcome ← replayedOutcome existing
      pure (.done state (.admitted outcome))
  | none => admitBatchInner state clock records (some (key, digest))

/-- `admit`. -/
def admitRecord (state : ProducerState) (clock : ClockReadings) (record : Bytes) :
    Except ProducerError Plan :=
  admitBatchInner state clock [record] none

def admitIdempotent (lookup : String → Except ProducerError (Option IdempotencyRecord))
    (state : ProducerState) (clock : ClockReadings) (key : String) (record : Bytes) :
    Except ProducerError Plan := do
  validateKey key
  admitBatchIdempotentDigest lookup state clock key [record] (sha256Hex record)

def admitBatchIdempotent (lookup : String → Except ProducerError (Option IdempotencyRecord))
    (state : ProducerState) (clock : ClockReadings) (key : String) (records : List Bytes)
    (canonicalEnvelope : Bytes) : Except ProducerError Plan :=
  admitBatchIdempotentDigest lookup state clock key records (sha256Hex canonicalEnvelope)

/-- `transition`, for the reason every caller requests. -/
def transition (state : ProducerState) (clock : ClockReadings) (now : UInt64)
    (reason : CloseReason) (replacementPolicy : Option ClosurePolicy) :
    Except ProducerError Plan := do
  Except.require .inactive state.active
  let (segment, next) ← constructSegment state now reason
  let sealed := segment.toList
  let next := { next with active := next.active && decide (reason ≠ CloseReason.shutdown) }
  let next := match replacementPolicy with
    | none => next
    | some policy =>
      { next with nextPolicy := policy, openInterval := { next.openInterval with policy } }
  let next := { next with
    openInterval := { next.openInterval with
      openedAtMs := now, clockContinuityId := clock.reopenContinuityId } }
  prepareCommit state next sealed none [] fun _ => .sealed sealed

def recover (state : ProducerState) (clock : ClockReadings) : Except ProducerError Plan := do
  Except.require .inactive state.active
  let now ← clock.nowMs
  transition state clock now .recovery none

def reactivate (state : ProducerState) (clock : ClockReadings) : Except ProducerError Plan :=
  if state.active then .ok (.done state .unit)
  else do
    let now ← clock.nowMs
    let next := { state with
      active := true
      openInterval := { state.openInterval with
        openedAtMs := now, clockContinuityId := clock.reopenContinuityId } }
    prepareCommit state next [] none [] fun _ => .unit

def updatePolicy (state : ProducerState) (clock : ClockReadings) (policy : ClosurePolicy)
    (immediate : Bool) : Except ProducerError Plan := do
  validatePolicy policy
  let now ← safeNow state clock
  if immediate then transition state clock now .reconfigure (some policy)
  else prepareCommit state { state with nextPolicy := policy } [] none [] fun _ => .sealed []

def close (state : ProducerState) (clock : ClockReadings) (reason : CloseReason) :
    Except ProducerError Plan := do
  let now ← safeNow state clock
  transition state clock now reason none

/-- `seal_expired_intervals`: an idle tick commits nothing. -/
def sealExpiredIntervals (state : ProducerState) (clock : ClockReadings) :
    Except ProducerError Plan := do
  let now ← safeNow state clock
  if now - state.openInterval.openedAtMs < state.openInterval.policy.intervalMs then
    pure (.done state (.sealed []))
  else do
    let (sealed, next) ← closeExpired state now
    if next.openInterval.openedAtMs ≠ state.openInterval.openedAtMs then
      prepareCommit state next sealed none [] fun _ => .sealed sealed
    else pure (.done state (.sealed sealed))

end Operations

end TrackOne
