import TrackOne.Lib.Run
import TrackOne.Gateway.Producer

/-!
# Stores and producer runs

The `LedgerStore` contract of `trackone-gateway-svc/src/producer.rs`, its in-memory implementation,
and the producer over a store: an operation plans against the producer's own state and then makes
at most one call of `compare_and_swap`.
-/

namespace TrackOne

/-! ## Stores -/

/-- `LedgerStore`. A store call returns its answer and the store after it. -/
class LedgerStore (S : Type) where
  load : S → Except ProducerError (Option ProducerState)
  lookupIdempotency : S → String → Except ProducerError (Option IdempotencyRecord)
  compareAndSwap : S → Option UInt64 → LedgerTransition → Except ProducerError Unit × S

structure MemoryLedgerStore where
  state : Option ProducerState
  sealed : Std.ExtTreeMap UInt64 SealedSegment compare
  idempotency : Std.ExtTreeMap String IdempotencyRecord compare
  transitions : List LedgerTransition

namespace MemoryLedgerStore

/-- `MemoryLedgerStore::default`. -/
def empty : MemoryLedgerStore := ⟨none, ∅, ∅, []⟩

/-- The three conditions under which `compare_and_swap` refuses a transition. -/
def conflicts (store : MemoryLedgerStore) (expectedRevision : Option UInt64)
    (transition : LedgerTransition) : Bool :=
  decide (store.state.map ProducerState.revision ≠ expectedRevision)
    || transition.sealed.any (fun segment => store.sealed.contains segment.segmentNumber)
    || transition.idempotency.any fun admission => store.idempotency.contains admission.key

/-- The store after a transition that is not refused. -/
def apply (store : MemoryLedgerStore) (transition : LedgerTransition) : MemoryLedgerStore where
  state := some transition.nextState
  sealed := transition.sealed.foldl
    (fun sealed segment => sealed.insert segment.segmentNumber segment)
    store.sealed
  idempotency := match transition.idempotency with
    | none => store.idempotency
    | some admission => store.idempotency.insert admission.key admission
  transitions := store.transitions ++ [transition]

def compareAndSwap (store : MemoryLedgerStore) (expectedRevision : Option UInt64)
    (transition : LedgerTransition) : Except ProducerError Unit × MemoryLedgerStore :=
  if store.conflicts expectedRevision transition then (.error .concurrentWriter, store)
  else (.ok (), store.apply transition)

end MemoryLedgerStore

instance : LedgerStore MemoryLedgerStore where
  load store := .ok store.state
  lookupIdempotency store key := .ok store.idempotency[key]?
  compareAndSwap := MemoryLedgerStore.compareAndSwap

/-! ## The producer over a store -/

/-- The public methods of `LedgerProducer`. -/
inductive Operation where
  | admitRecord (record : Bytes)
  | admitIdempotent (key : String) (record : Bytes)
  | admitBatchIdempotent (key : String) (records : List Bytes) (canonicalEnvelope : Bytes)
  | close (reason : CloseReason)
  | updatePolicy (policy : ClosurePolicy) (immediate : Bool)
  | recover
  | reactivate
  | sealExpiredIntervals

/-- The configuration a producer is opened with. -/
structure LedgerConfig where
  ledgerId : String
  siteId : String
  policy : ClosurePolicy

section Operations

variable [Sha256]

/-- The method of an operation. -/
def Operation.plan (lookup : String → Except ProducerError (Option IdempotencyRecord))
    (state : ProducerState) (clock : ClockReadings) : Operation → Except ProducerError Plan
  | .admitRecord record => TrackOne.admitRecord state clock record
  | .admitIdempotent key record => TrackOne.admitIdempotent lookup state clock key record
  | .admitBatchIdempotent key records canonicalEnvelope =>
    TrackOne.admitBatchIdempotent lookup state clock key records canonicalEnvelope
  | .close reason => TrackOne.close state clock reason
  | .updatePolicy policy immediate => TrackOne.updatePolicy state clock policy immediate
  | .recover => TrackOne.recover state clock
  | .reactivate => TrackOne.reactivate state clock
  | .sealExpiredIntervals => TrackOne.sealExpiredIntervals state clock

/-- The state of a new ledger. -/
def createdState (config : LedgerConfig) (now : UInt64) (continuityId : BitVec 128) :
    ProducerState where
  revision := 0
  active := true
  ledgerId := config.ledgerId
  siteId := config.siteId
  nextSegmentNumber := 0
  predecessorCbor := none
  openInterval := {
    openedAtMs := now
    clockContinuityId := continuityId
    policy := config.policy
    records := []
    byteCount := 0 }
  nextPolicy := config.policy

/-- `open_or_create`, up to the call of the store; `loaded` is the answer of `load`. -/
def openOrCreate (loaded : Except ProducerError (Option ProducerState)) (clock : ClockReadings)
    (config : LedgerConfig) : Except ProducerError Plan := do
  validatePolicy config.policy
  Except.require
    (.invalidConfiguration
      "ledger_id must be 16-byte lowercase hex and site_id must be non-empty")
    ((utf8Bytes config.ledgerId).length = 32 ∧ config.siteId ≠ "")
  match ← loaded with
  | some state => do
    validatePolicy state.openInterval.policy
    validatePolicy state.nextPolicy
    Except.require
      (.invalidConfiguration
        "configured ledger_id and site_id do not match existing ledger state")
      (state.ledgerId = config.ledgerId ∧ state.siteId = config.siteId)
    if state.active then pure (.done state .unit) else TrackOne.reactivate state clock
  | none => do
    let now ← clock.nowMs
    let state := createdState config now clock.reopenContinuityId
    pure (.commit none
      { previousOpenCount := 0, admittedRecords := [], nextState := state, sealed := [],
        idempotency := none } .unit)

end Operations

/-- The call of the store that a plan ends with: the producer state and the answer, or the error,
and the store after it. -/
def Plan.execute {S : Type} [LedgerStore S] (store : S) :
    Plan → Except ProducerError (ProducerState × Reply) × S
  | .done state reply => (.ok (state, reply), store)
  | .commit expectedRevision transition reply =>
    match LedgerStore.compareAndSwap store expectedRevision transition with
    | (.ok (), store) => (.ok (transition.nextState, reply), store)
    | (.error error, store) => (.error error, store)

/-- A plan or the error before it, executed. -/
def executePlan {S : Type} [LedgerStore S] (store : S) :
    Except ProducerError Plan → Except ProducerError (ProducerState × Reply) × S
  | .ok plan => plan.execute store
  | .error error => (.error error, store)

/-! ## Single-producer runs -/

/-- What the environment does next: call a method, or restart the producer on the same store. -/
inductive Input where
  | call (clock : ClockReadings) (operation : Operation)
  | restart (clock : ClockReadings) (config : LedgerConfig)

/-- A store and the producer on it; a restart that failed leaves no producer. -/
structure World (S : Type) where
  store : S
  producer : Option ProducerState

/-- The answer to an input; nothing when there is no producer to call. -/
abbrev Answer := Option (Except ProducerError Reply)

namespace World

variable {S : Type}

/-- The producer after an executed plan: a failed operation keeps its state. -/
def settle (before : Option ProducerState)
    (result : Except ProducerError (ProducerState × Reply) × S) : Answer × World S :=
  match result with
  | (.ok (state, reply), store) => (some (.ok reply), ⟨store, some state⟩)
  | (.error error, store) => (some (.error error), ⟨store, before⟩)

variable [LedgerStore S] [Sha256]

/-- One input. -/
def step (w : World S) : Input → Answer × World S
  | .call clock operation =>
    match w.producer with
    | none => (none, w)
    | some state =>
      settle (some state) (executePlan w.store
        (operation.plan (LedgerStore.lookupIdempotency w.store) state clock))
  | .restart clock config =>
    settle none (executePlan w.store (openOrCreate (LedgerStore.load w.store) clock config))

/-- A run on a store that has no producer yet. -/
def run (store : S) (inputs : List Input) : World S × List (Input × Answer) :=
  runTrace step ⟨store, none⟩ inputs

end World

end TrackOne
