import TrackOne.Gateway.Store
import Mathlib.Algebra.Group.Int.Defs
import Mathlib.Algebra.GroupWithZero.Nat

/-!
# The PostgreSQL store

`PostgresLedgerStore` of `trackone-gateway-svc/src/postgres.rs`, over the tables of its migrations.
A table is a map from its primary key to the other columns of a row, for the rows of one ledger; an
insert of a key that is there fails, as does one that breaks a foreign key. `compare_and_swap` runs
in one serializable transaction under a session lock: it returns the tables after the commit, or an
error and no change.

The row triggers of migration 0004 keep `pipeline_usage` up to date, which the capacity check reads.
Numbers are written and read as decimal text, which is exact for every column here; the range checks
of the columns hold for every state with valid policies and are not modelled, except the one on the
ledger id, which the producer does not make itself.
-/

namespace TrackOne

/-! ## Tables -/

/-- The columns of a closure policy in a row of the ledger state. -/
structure PolicyColumns where
  intervalMs : UInt64
  batchRecordLimit : UInt64
  recordLimit : Option UInt64
  sizeLimitBytes : Option UInt64
  emptyMode : String
deriving DecidableEq

/-- A row of `trackone_vtl_ledger_state`. -/
structure LedgerStateRow where
  revision : UInt64
  active : Bool
  siteId : String
  nextSegmentNumber : UInt64
  predecessorCbor : Option Bytes
  openedAtMs : UInt64
  clockContinuityId : BitVec 128
  openPolicy : PolicyColumns
  byteCount : UInt64
  nextPolicy : PolicyColumns
deriving DecidableEq

/-- The status of a segment's timestamp. -/
inductive TsaStatus where
  | queued
  | verified
  | failed
deriving DecidableEq, Repr

/-- A row of `trackone_vtl_sealed_segment`: its artifact, and the columns of its timestamp that the
accounting reads. -/
structure SegmentRow where
  closeReason : String
  artifactCbor : Bytes
  artifactSha256 : String
  tsaStatus : TsaStatus
  tsaResponse : Option Bytes
deriving DecidableEq

/-- A row of `trackone_vtl_pipeline_usage`. -/
structure PipelineUsage where
  pendingTimestamps : Int
  retainedEvidenceBytes : Int
deriving DecidableEq

/-- Keys of `trackone_vtl_sealed_record`: the segment number and the ordinal, in this order. -/
def compareRecordKey : UInt64 × UInt64 → UInt64 × UInt64 → Ordering := lexOrd.compare

instance : Std.TransCmp compareRecordKey :=
  inferInstanceAs (@Std.TransCmp (UInt64 × UInt64) lexOrd.compare)

instance : Std.LawfulEqCmp compareRecordKey :=
  inferInstanceAs (@Std.LawfulEqCmp (UInt64 × UInt64) lexOrd.compare)

/-- The rows of one ledger. -/
structure Tables where
  ledgerState : Option LedgerStateRow
  openRecord : Std.ExtTreeMap UInt64 Bytes compare
  sealedSegment : Std.ExtTreeMap UInt64 SegmentRow compare
  sealedRecord : Std.ExtTreeMap (UInt64 × UInt64) Bytes compareRecordKey
  idempotency : Std.ExtTreeMap String IdempotencyRecord compare
  pipelineUsage : Option PipelineUsage

structure CapacityLimits where
  maxPendingTimestamps : Option UInt64
  maxRetainedEvidenceBytes : Option UInt64

structure PostgresLedgerStore where
  tables : Tables
  ledgerId : String
  limits : CapacityLimits

/-! ## Database errors -/

/-- `store_error` on an error of the server. -/
def databaseError (code message : String) : ProducerError := .store (code ++ ": " ++ message)

def duplicateKey (key : String) : ProducerError :=
  databaseError "23505" ("duplicate key value violates unique constraint \"" ++ key ++ "\"")

def foreignKeyViolation (table key : String) : ProducerError :=
  databaseError "23503" ("insert or update on table \"" ++ table
    ++ "\" violates foreign key constraint \"" ++ key ++ "\"")

def checkViolation (table check : String) : ProducerError :=
  databaseError "23514" ("new row for relation \"" ++ table ++ "\" violates check constraint \""
    ++ check ++ "\"")

def requireRowCount (operation : String) (actual expected : Nat) : Except ProducerError Unit :=
  Except.require
    (.store (operation ++ " affected " ++ toString actual ++ " rows; expected "
      ++ toString expected))
    (actual = expected)

/-! ## Policies as columns -/

def ClosurePolicy.columns (policy : ClosurePolicy) : PolicyColumns where
  intervalMs := policy.intervalMs
  batchRecordLimit := policy.batchRecordLimit
  recordLimit := policy.recordLimit
  sizeLimitBytes := policy.sizeLimitBytes
  emptyMode := policy.emptyMode.asStr

def parseEmptyMode (value : String) : Except ProducerError EmptyMode :=
  if value = "emit" then .ok .emit
  else if value = "suppress" then .ok .suppress
  else .error (.store "database empty_mode is unsupported")

def PolicyColumns.parse (columns : PolicyColumns) : Except ProducerError ClosurePolicy := do
  let emptyMode ← parseEmptyMode columns.emptyMode
  pure {
    intervalMs := columns.intervalMs
    batchRecordLimit := columns.batchRecordLimit
    recordLimit := columns.recordLimit
    sizeLimitBytes := columns.sizeLimitBytes
    emptyMode }

/-! ## Accounting triggers -/

/-- `trackone_vtl_account_record`, for a row that was inserted, updated or deleted. -/
def accountRecord (old new : Option Bytes) (usage : PipelineUsage) : PipelineUsage :=
  { usage with
    retainedEvidenceBytes := usage.retainedEvidenceBytes
      + ((new.map List.length).getD 0 - (old.map List.length).getD 0 : Int) }

/-- The evidence bytes of a segment row. -/
def SegmentRow.evidenceBytes (row : SegmentRow) : Nat :=
  row.artifactCbor.length + (row.tsaResponse.map List.length).getD 0

/-- A queued segment is pending. -/
def SegmentRow.pending (row : SegmentRow) : Nat := if row.tsaStatus = .queued then 1 else 0

/-- `trackone_vtl_account_segment`, for a row that was inserted, updated or deleted. -/
def accountSegment (old new : Option SegmentRow) (usage : PipelineUsage) : PipelineUsage where
  pendingTimestamps := usage.pendingTimestamps
    + ((new.map SegmentRow.pending).getD 0 - (old.map SegmentRow.pending).getD 0 : Int)
  retainedEvidenceBytes := usage.retainedEvidenceBytes
    + ((new.map SegmentRow.evidenceBytes).getD 0 - (old.map SegmentRow.evidenceBytes).getD 0 : Int)

/-! ## Row operations -/

namespace Tables

/-- No row. -/
def empty : Tables := ⟨none, ∅, ∅, ∅, ∅, none⟩

/-- The ledger ids that the check of `trackone_vtl_ledger_state` admits: 32 lowercase hex digits. -/
def ledgerIdCheck (ledgerId : String) : Bool :=
  ledgerId.toList.length = 32 ∧ ledgerId.toList.all fun c =>
    (decide ('0' ≤ c) && decide (c ≤ '9')) || (decide ('a' ≤ c) && decide (c ≤ 'f'))

/-- `INSERT INTO trackone_vtl_ledger_state ... ON CONFLICT DO NOTHING`: the number of rows and the
tables. A new row starts its usage at zero. -/
def insertLedgerState (tables : Tables) (ledgerId : String) (row : LedgerStateRow) :
    Except ProducerError (Nat × Tables) := do
  Except.require
    (checkViolation "trackone_vtl_ledger_state" "trackone_vtl_ledger_state_ledger_id_check")
    (ledgerIdCheck ledgerId)
  match tables.ledgerState with
  | some _ => pure (0, tables)
  | none => pure (1, { tables with
      ledgerState := some row, pipelineUsage := tables.pipelineUsage.or (some ⟨0, 0⟩) })

/-- `UPDATE trackone_vtl_ledger_state ... WHERE ledger_id=$1 AND revision=$expected`; the
predecessor is written only when something was sealed. -/
def updateLedgerState (tables : Tables) (expected : UInt64) (row : LedgerStateRow)
    (writePredecessor : Bool) : Nat × Tables :=
  match tables.ledgerState with
  | none => (0, tables)
  | some current =>
    if current.revision = expected then
      (1, { tables with
        ledgerState := some { row with
          predecessorCbor :=
            if writePredecessor then row.predecessorCbor else current.predecessorCbor } })
    else (0, tables)

/-- The row of a new segment, which waits for its timestamp. -/
def segmentRow (segment : SealedSegment) : SegmentRow where
  closeReason := segment.closeReason.asStr
  artifactCbor := segment.artifactCbor
  artifactSha256 := segment.artifactSha256
  tsaStatus := .queued
  tsaResponse := none

/-- `INSERT INTO trackone_vtl_sealed_segment`. -/
def insertSealedSegment (tables : Tables) (segment : SealedSegment) :
    Except ProducerError Tables := do
  Except.require (duplicateKey "trackone_vtl_sealed_segment_pkey")
    (segment.segmentNumber ∉ tables.sealedSegment)
  Except.require
    (foreignKeyViolation "trackone_vtl_sealed_segment" "trackone_vtl_sealed_segment_ledger_id_fkey")
    tables.ledgerState.isSome
  pure { tables with
    sealedSegment := tables.sealedSegment.insert segment.segmentNumber (segmentRow segment)
    pipelineUsage := tables.pipelineUsage.map (accountSegment none (some (segmentRow segment))) }

/-- `INSERT INTO trackone_vtl_sealed_record`. -/
def insertSealedRecord (tables : Tables) (segmentNumber ordinal : UInt64) (record : Bytes) :
    Except ProducerError Tables := do
  Except.require (duplicateKey "trackone_vtl_sealed_record_pkey")
    ((segmentNumber, ordinal) ∉ tables.sealedRecord)
  Except.require
    (foreignKeyViolation "trackone_vtl_sealed_record"
      "trackone_vtl_sealed_record_ledger_id_segment_number_fkey")
    (segmentNumber ∈ tables.sealedSegment)
  pure { tables with
    sealedRecord := tables.sealedRecord.insert (segmentNumber, ordinal) record
    pipelineUsage := tables.pipelineUsage.map (accountRecord none (some record)) }

/-- `INSERT INTO trackone_vtl_open_record`. -/
def insertOpenRecord (tables : Tables) (ordinal : UInt64) (record : Bytes) :
    Except ProducerError Tables := do
  Except.require (duplicateKey "trackone_vtl_open_record_pkey") (ordinal ∉ tables.openRecord)
  Except.require
    (foreignKeyViolation "trackone_vtl_open_record" "trackone_vtl_open_record_ledger_id_fkey")
    tables.ledgerState.isSome
  pure { tables with
    openRecord := tables.openRecord.insert ordinal record
    pipelineUsage := tables.pipelineUsage.map (accountRecord none (some record)) }

/-- `INSERT INTO trackone_vtl_sealed_record ... SELECT ... FROM trackone_vtl_open_record`: the open
rows are copied with their ordinals. -/
def copyOpenRecords (tables : Tables) (segmentNumber : UInt64) :
    Except ProducerError (Nat × Tables) := do
  let copied ← tables.openRecord.toList.foldlM
    (fun tables row => tables.insertSealedRecord segmentNumber row.1 row.2) tables
  pure (tables.openRecord.size, copied)

/-- `DELETE FROM trackone_vtl_open_record`. -/
def deleteOpenRecords (tables : Tables) : Nat × Tables :=
  (tables.openRecord.size,
    { tables with
      openRecord := ∅
      pipelineUsage := tables.openRecord.toList.foldl
        (fun usage row => usage.map (accountRecord (some row.2) none)) tables.pipelineUsage })

/-- The insert of an admitted record at its destination. -/
def insertAdmitted (tables : Tables) (admitted : AdmittedRecordDelta) :
    Except ProducerError Tables :=
  match admitted.destination with
  | .open ordinal => tables.insertOpenRecord ordinal admitted.recordCbor
  | .sealed segmentNumber ordinal =>
    tables.insertSealedRecord segmentNumber ordinal admitted.recordCbor

/-- `INSERT INTO trackone_vtl_idempotency ... ON CONFLICT DO NOTHING`: the number of rows. -/
def insertIdempotency (tables : Tables) (admission : IdempotencyRecord) : Nat × Tables :=
  if admission.key ∈ tables.idempotency then (0, tables)
  else (1, { tables with idempotency := tables.idempotency.insert admission.key admission })

/-- The open records in the order of their ordinals. -/
def openRecords (tables : Tables) : List Bytes := tables.openRecord.toList.map Prod.snd

/-- The records of a sealed segment in the order of their ordinals. -/
def sealedRecords (tables : Tables) (segmentNumber : UInt64) : List Bytes :=
  (tables.sealedRecord.toList.filter fun row => row.1.1 = segmentNumber).map Prod.snd

end Tables

/-! ## The store -/

/-- The row that `compare_and_swap` writes for a state. -/
def LedgerStateRow.ofState (state : ProducerState) : LedgerStateRow where
  revision := state.revision
  active := state.active
  siteId := state.siteId
  nextSegmentNumber := state.nextSegmentNumber
  predecessorCbor := state.predecessorCbor
  openedAtMs := state.openInterval.openedAtMs
  clockContinuityId := state.openInterval.clockContinuityId
  openPolicy := state.openInterval.policy.columns
  byteCount := state.openInterval.byteCount
  nextPolicy := state.nextPolicy.columns

namespace PostgresLedgerStore

/-- A store for a ledger that has no row yet. -/
def new (ledgerId : String) (limits : CapacityLimits) : PostgresLedgerStore :=
  ⟨Tables.empty, ledgerId, limits⟩

def load (store : PostgresLedgerStore) : Except ProducerError (Option ProducerState) :=
  match store.tables.ledgerState with
  | none => .ok none
  | some row => do
    let openPolicy ← row.openPolicy.parse
    let nextPolicy ← row.nextPolicy.parse
    pure (some {
      revision := row.revision
      active := row.active
      ledgerId := store.ledgerId
      siteId := row.siteId
      nextSegmentNumber := row.nextSegmentNumber
      predecessorCbor := row.predecessorCbor
      openInterval := {
        openedAtMs := row.openedAtMs
        clockContinuityId := row.clockContinuityId
        policy := openPolicy
        records := store.tables.openRecords
        byteCount := row.byteCount }
      nextPolicy })

/-- `parse_u64` of a column of the usage row. -/
def parseUsage (field : String) (value : Int) : Except ProducerError Nat :=
  if 0 ≤ value ∧ value < 2 ^ 64 then .ok value.toNat
  else .error (.store ("database " ++ field ++ " is outside uint64"))

/-- The capacity check: a transition that admits records needs room for its segments and bytes. -/
def checkCapacity (store : PostgresLedgerStore) (transition : LedgerTransition) :
    Except ProducerError Unit :=
  if transition.admittedRecords ≠ [] ∧ (store.limits.maxPendingTimestamps.isSome
      ∨ store.limits.maxRetainedEvidenceBytes.isSome) then do
    let usage ← Except.ofOption (.store "query returned an unexpected number of rows")
      store.tables.pipelineUsage
    let pending ← parseUsage "pending timestamps" usage.pendingTimestamps
    let bytes ← parseUsage "evidence bytes" usage.retainedEvidenceBytes
    let extraBytes :=
      (transition.admittedRecords.map fun admitted => admitted.recordCbor.length).sum
      + (transition.sealed.map fun segment => segment.artifactCbor.length).sum
    Except.require .queueCapacityExhausted (¬ store.limits.maxPendingTimestamps.any fun limit =>
      limit.toNat ≤ pending ∨ limit.toNat < pending + transition.sealed.length)
    Except.require .storageCapacityExhausted
      (¬ store.limits.maxRetainedEvidenceBytes.any fun limit =>
        limit.toNat ≤ bytes ∨ limit.toNat < bytes + extraBytes)
  else .ok ()

/-- The write of the state row: the number of rows it changed. -/
def writeState (tables : Tables) (expectedRevision : Option UInt64)
    (transition : LedgerTransition) : Except ProducerError (Nat × Tables) :=
  let row := LedgerStateRow.ofState transition.nextState
  match expectedRevision with
  | some expected => .ok (tables.updateLedgerState expected row (transition.sealed ≠ []))
  | none => tables.insertLedgerState transition.nextState.ledgerId row

/-- The open rows go to the first sealed segment with records, if there were any. -/
def transferOpenRecords (tables : Tables) (transition : LedgerTransition) :
    Except ProducerError Tables :=
  if 0 < transition.previousOpenCount then do
    let destination ← Except.ofOption
      (.store "non-empty open interval was not present in a sealed segment")
      (transition.sealed.find? fun segment => segment.records ≠ [])
    let (copied, tables) ← tables.copyOpenRecords destination.segmentNumber
    requireRowCount "sealed-record transfer" copied transition.previousOpenCount.toNat
    pure tables
  else .ok tables

/-- The open rows of an interval that was closed are transferred and deleted. -/
def closeOpenRecords (tables : Tables) (transition : LedgerTransition) :
    Except ProducerError Tables :=
  if transition.sealed ≠ [] then do
    let tables ← transferOpenRecords tables transition
    let (deleted, tables) := tables.deleteOpenRecords
    requireRowCount "open-record deletion" deleted transition.previousOpenCount.toNat
    pure tables
  else .ok tables

/-- The idempotency row, if the transition has one. -/
def writeIdempotency (tables : Tables) : Option IdempotencyRecord → Except ProducerError Tables
  | none => .ok tables
  | some admission => do
    let (inserted, tables) := tables.insertIdempotency admission
    Except.require .concurrentWriter (inserted = 1)
    pure tables

/-- The transaction of `compare_and_swap`. -/
def transact (store : PostgresLedgerStore) (expectedRevision : Option UInt64)
    (transition : LedgerTransition) : Except ProducerError Tables := do
  Except.require (.store "store ledger_id does not match producer state")
    (transition.nextState.ledgerId = store.ledgerId)
  store.checkCapacity transition
  let (changed, tables) ← writeState store.tables expectedRevision transition
  Except.require .concurrentWriter (changed = 1)
  let tables ← transition.sealed.foldlM Tables.insertSealedSegment tables
  let tables ← closeOpenRecords tables transition
  let tables ← transition.admittedRecords.foldlM Tables.insertAdmitted tables
  writeIdempotency tables transition.idempotency

/-- `PostgresLedgerStore::compare_and_swap`: an error rolls the transaction back. -/
def compareAndSwap (store : PostgresLedgerStore) (expectedRevision : Option UInt64)
    (transition : LedgerTransition) : Except ProducerError Unit × PostgresLedgerStore :=
  match store.transact expectedRevision transition with
  | .ok tables => (.ok (), { store with tables })
  | .error error => (.error error, store)

end PostgresLedgerStore

instance : LedgerStore PostgresLedgerStore where
  load := PostgresLedgerStore.load
  lookupIdempotency store key := .ok store.tables.idempotency[key]?
  compareAndSwap := PostgresLedgerStore.compareAndSwap

end TrackOne
