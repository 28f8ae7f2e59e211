import TrackOne.Gateway.Postgres
import TrackOne.Lib.Run
import TrackOne.Lib.TreeMap

/-!
# The timestamp queue

`timestamp_worker.rs` of `trackone-gateway-svc`, over the columns that migration 0002 adds to
`trackone_vtl_sealed_segment`. Every sealed segment is a job: workers claim it for a lease, submit
its artifact to the timestamp authority and finish with a response or an error. All of it is SQL on
nullable columns of one row, in transactions under the lock of the ledger.

A transaction reads `CURRENT_TIMESTAMP` when it starts, before it waits for the lock, so that the
readings of transactions that follow each other need not be in order: every step has a reading of
its own. `SKIP LOCKED` passes over the rows that another transaction holds; which ones these are is
an input of the step as well.

* `claimTimestamp`, `finishTimestampTarget`, `attachTimestamp`: the three operations.
* `Pipeline.step` runs them and `compare_and_swap` on one ledger.
* `row?_update`, `row?_sweep` and `row?_compareAndSwap` say what they do to a row, and `Writes` what
  a committed transition does to the tables. -/

namespace TrackOne

/-! ## Rows -/

/-- A `timestamptz`, in microseconds. -/
abbrev Timestamp := Int

/-- The columns of a segment's job, from migration 0002. -/
structure QueueColumns where
  attemptCount : Int
  nextAttempt : Option Timestamp
  lastError : Option String
  leaseUntil : Option Timestamp
deriving DecidableEq

/-- A row of `trackone_vtl_sealed_segment` with the columns of its job. -/
structure QueueRow where
  segment : SegmentRow
  job : QueueColumns
deriving DecidableEq

/-- The defaults of the columns for a row that is inserted. -/
def QueueColumns.inserted (now : Timestamp) : QueueColumns where
  attemptCount := 0
  nextAttempt := some now
  lastError := none
  leaseUntil := none

structure TimestampWorkerConfig where
  concurrency : Nat
  maxAttempts : UInt32
  retryInitialMs : UInt64
  retryMaxMs : UInt64

namespace TimestampWorkerConfig

def default : TimestampWorkerConfig where
  concurrency := 2
  maxAttempts := 20
  retryInitialMs := 5000
  retryMaxMs := 300000

def validate (config : TimestampWorkerConfig) : Except ProducerError Unit :=
  Except.require
    (.timestampConfiguration
      ("TSA worker concurrency must be 1-16, attempts 1-1000, and retry delays positive, "
        ++ "ordered, and at most one day"))
    (¬ (¬ (1 ≤ config.concurrency ∧ config.concurrency ≤ 16)
      ∨ ¬ (1 ≤ config.maxAttempts ∧ config.maxAttempts ≤ 1000)
      ∨ config.retryInitialMs = 0 ∨ config.retryMaxMs < config.retryInitialMs
      ∨ 86400000 < config.retryMaxMs))

/-- `retry_delay_ms`: the initial delay doubles with every attempt, up to the maximum. Shifts and
products that do not fit saturate. -/
def retryDelayMs (config : TimestampWorkerConfig) (attempt : Int) : Nat :=
  let shift := if 0 ≤ attempt - 1 ∧ attempt - 1 < 2 ^ 32 then (attempt - 1).toNat else 2 ^ 32 - 1
  let factor := if shift < 64 then 2 ^ shift else 2 ^ 64 - 1
  min (min (config.retryInitialMs.toNat * factor) (2 ^ 64 - 1)) config.retryMaxMs.toNat

end TimestampWorkerConfig

structure TimestampClaim where
  segmentNumber : UInt64
  artifactCbor : Bytes
  artifactSha256 : String
  attempt : Int

/-- `INTERVAL '5 minutes'`. -/
def leaseTime : Int := 5 * 60 * 1000000

namespace QueueRow

/-- `tsa_lease_until IS NULL OR tsa_lease_until <= CURRENT_TIMESTAMP`. -/
def unleased (row : QueueRow) (now : Timestamp) : Bool :=
  row.job.leaseUntil.all fun lease => decide (lease ≤ now)

/-- The rows that the sweep of `claim_timestamp` fails. -/
def exhausted (row : QueueRow) (maxAttempts : UInt32) (now : Timestamp) : Bool :=
  decide (row.segment.tsaStatus = .queued)
    && decide ((maxAttempts.toNat : Int) ≤ row.job.attemptCount)
    && row.unleased now

/-- The rows that can be claimed; a comparison with no next attempt is not true. -/
def due (row : QueueRow) (maxAttempts : UInt32) (now : Timestamp) : Bool :=
  decide (row.segment.tsaStatus = .queued)
    && decide (row.job.attemptCount < (maxAttempts.toNat : Int))
    && row.job.nextAttempt.any (fun next => decide (next ≤ now)) && row.unleased now

/-- The update of the sweep. -/
def fail (row : QueueRow) : QueueRow where
  segment := { row.segment with tsaStatus := .failed }
  job := { row.job with
    nextAttempt := none, leaseUntil := none
    lastError := row.job.lastError.or (some "final attempt lease expired before completion") }

/-- The update of a claim. -/
def claim (row : QueueRow) (now : Timestamp) : QueueRow where
  segment := row.segment
  job := { row.job with
    attemptCount := row.job.attemptCount + 1
    leaseUntil := some (now + leaseTime)
    nextAttempt := some (now + leaseTime) }

/-- The update of `finish_timestamp_target` with a response. -/
def attach (row : QueueRow) (response : Bytes) : QueueRow where
  segment := { row.segment with tsaStatus := .verified, tsaResponse := some response }
  job := { row.job with nextAttempt := none, leaseUntil := none, lastError := none }

/-- The update of `finish_timestamp_target` with an error: the last attempt fails the row, any other
one is retried after a delay. -/
def finishFailed (row : QueueRow) (config : TimestampWorkerConfig) (error : String)
    (now : Timestamp) : QueueRow :=
  let status : TsaStatus :=
    if (config.maxAttempts.toNat : Int) ≤ row.job.attemptCount then .failed else .queued
  { segment := { row.segment with tsaStatus := status }
    job := { row.job with
      leaseUntil := none
      lastError := some (String.ofList ((error.toList.filter fun c => !isControl c).take 512))
      nextAttempt :=
        if status = .failed then none
        else some (now + config.retryDelayMs row.job.attemptCount * 1000) } }

end QueueRow

/-- `ORDER BY tsa_next_attempt, segment_number`: rows without a next attempt come last. -/
def claimOrder (a b : UInt64 × QueueRow) : Bool :=
  match a.2.job.nextAttempt, b.2.job.nextAttempt with
  | some next, some next' => decide (next < next' ∨ next = next' ∧ a.1 ≤ b.1)
  | some _, none => true
  | none, some _ => false
  | none, none => decide (a.1 ≤ b.1)

/-- `UPDATE trackone_vtl_sealed_segment` of one row, with its trigger. -/
def Tables.updateSegment (tables : Tables) (number : UInt64) (row : SegmentRow) : Tables :=
  match tables.sealedSegment[number]? with
  | none => tables
  | some old => { tables with
      sealedSegment := tables.sealedSegment.insert number row
      pipelineUsage := tables.pipelineUsage.map (accountSegment (some old) (some row)) }

/-! ## The pipeline -/

/-- The store with the job columns of its segment rows. -/
structure Pipeline where
  store : PostgresLedgerStore
  jobs : Std.ExtTreeMap UInt64 QueueColumns compare

namespace Pipeline

/-- A ledger without rows. -/
def new (ledgerId : String) (limits : CapacityLimits) : Pipeline :=
  ⟨.new ledgerId limits, ∅⟩

/-- The row of a segment. -/
def row? (p : Pipeline) (number : UInt64) : Option QueueRow :=
  match p.store.tables.sealedSegment[number]?, p.jobs[number]? with
  | some segment, some job => some ⟨segment, job⟩
  | _, _ => none

/-- All rows, by segment number. -/
def rows (p : Pipeline) : List (UInt64 × QueueRow) :=
  p.store.tables.sealedSegment.toList.filterMap fun entry =>
    (p.row? entry.1).map fun row => (entry.1, row)

/-- The update of one row. -/
def update (p : Pipeline) (number : UInt64) (row : QueueRow) : Pipeline where
  store := { p.store with tables := p.store.tables.updateSegment number row.segment }
  jobs := p.jobs.insert number row.job

/-- The rows that satisfy a condition and are not held by another transaction, in the order of the
queue. -/
def select (p : Pipeline) (locked : UInt64 → Bool) (condition : QueueRow → Bool) :
    List (UInt64 × QueueRow) :=
  (p.rows.filter fun entry => !locked entry.1 && condition entry.2).mergeSort claimOrder

/-- `PostgresLedgerStore::claim_timestamp`: rows out of attempts are failed, at most a hundred of
them, and the first row that is due is claimed. -/
def claimTimestamp (p : Pipeline) (now : Timestamp) (locked : UInt64 → Bool)
    (maxAttempts : UInt32) : Option TimestampClaim × Pipeline :=
  let exhausted := (p.select locked fun row => row.exhausted maxAttempts now).take 100
  let p := exhausted.foldl (fun p entry => p.update entry.1 entry.2.fail) p
  match (p.select locked fun row => row.due maxAttempts now).head? with
  | none => (none, p)
  | some (number, row) =>
    let claimed := row.claim now
    (some {
      segmentNumber := number
      artifactCbor := claimed.segment.artifactCbor
      artifactSha256 := claimed.segment.artifactSha256
      attempt := claimed.job.attemptCount }, p.update number claimed)

def finishTimestampTarget (p : Pipeline) (now : Timestamp) (number : UInt64) (digest : String)
    (generation : Option Int) (result : Except String Bytes) (config : TimestampWorkerConfig) :
    Except ProducerError Bool × Pipeline :=
  match p.row? number with
  | none => (.error (.store "timestamp target is missing"), p)
  | some row =>
    if row.segment.artifactSha256 ≠ digest then
      (.error (.store "timestamp target artifact digest changed"), p)
    else if row.segment.tsaStatus = .verified then (.ok true, p)
    else if row.segment.tsaStatus ≠ .queued
        ∨ generation.any (fun value => decide (value ≠ row.job.attemptCount))
        ∨ (generation.isNone ∧ row.job.leaseUntil.isSome) then
      (.ok false, p)
    else
      match result with
      | .ok response =>
        if response = [] then (.error (.store "cannot attach an empty timestamp response"), p)
        else (.ok true, p.update number (row.attach response))
      | .error error => (.ok true, p.update number (row.finishFailed config error now))

/-- `finish_timestamp`: a worker finishes its claim. -/
def finishTimestamp (p : Pipeline) (now : Timestamp) (claim : TimestampClaim)
    (result : Except String Bytes) (config : TimestampWorkerConfig) :
    Except ProducerError Bool × Pipeline :=
  p.finishTimestampTarget now claim.segmentNumber claim.artifactSha256 (some claim.attempt) result
    config

/-- `attach_timestamp`: a response from outside the queue, or under a generation. -/
def attachTimestamp (p : Pipeline) (now : Timestamp) (number : UInt64) (digest : String)
    (response : Bytes) (generation : Option Int) : Except ProducerError Unit × Pipeline :=
  match p.finishTimestampTarget now number digest generation (.ok response) .default with
  | (.ok true, p) => (.ok (), p)
  | (.ok false, p) =>
    (.error (.store "timestamp target has an active or superseding claim"), p)
  | (.error error, p) => (.error error, p)

/-- `compare_and_swap`: the rows of the new segments start with the defaults of their job
columns. -/
def compareAndSwap (p : Pipeline) (now : Timestamp) (expectedRevision : Option UInt64)
    (transition : LedgerTransition) : Except ProducerError Unit × Pipeline :=
  match p.store.compareAndSwap expectedRevision transition with
  | (.error error, store) => (.error error, { p with store })
  | (.ok (), store) => (.ok (), {
      store
      jobs := transition.sealed.foldl
        (fun jobs segment => jobs.insert segment.segmentNumber (.inserted now)) p.jobs })

end Pipeline

/-! ## Runs -/

/-- What the producer and the workers do next, each with the reading of its transaction. -/
inductive PipelineInput where
  | compareAndSwap (now : Timestamp) (expectedRevision : Option UInt64)
      (transition : LedgerTransition)
  | claimTimestamp (now : Timestamp) (locked : UInt64 → Bool)
  | finishTimestamp (now : Timestamp) (claim : TimestampClaim) (result : Except String Bytes)
  | attachTimestamp (now : Timestamp) (number : UInt64) (digest : String) (response : Bytes)
      (generation : Option Int)

inductive PipelineAnswer where
  | committed (result : Except ProducerError Unit)
  | claimed (claim : Option TimestampClaim)
  | finished (result : Except ProducerError Bool)
  | attached (result : Except ProducerError Unit)

namespace Pipeline

/-- One transaction. -/
def step (config : TimestampWorkerConfig) (p : Pipeline) :
    PipelineInput → PipelineAnswer × Pipeline
  | .compareAndSwap now expectedRevision transition =>
    let (result, p) := p.compareAndSwap now expectedRevision transition
    (.committed result, p)
  | .claimTimestamp now locked =>
    let (claim, p) := p.claimTimestamp now locked config.maxAttempts
    (.claimed claim, p)
  | .finishTimestamp now claim result =>
    let (result, p) := p.finishTimestamp now claim result config
    (.finished result, p)
  | .attachTimestamp now number digest response generation =>
    let (result, p) := p.attachTimestamp now number digest response generation
    (.attached result, p)

/-- Any number of transactions on a ledger without rows. -/
def run (config : TimestampWorkerConfig) (ledgerId : String) (limits : CapacityLimits)
    (inputs : List PipelineInput) : Pipeline × List (PipelineInput × PipelineAnswer) :=
  runTrace (step config) (new ledgerId limits) inputs

/-! ## Rows under updates -/

variable {p : Pipeline} {number n : UInt64} {row : QueueRow}

/-- A row of the queue joins a sealed segment with its job. -/
theorem row?_eq_some :
    p.row? n = some row
      ↔ p.store.tables.sealedSegment[n]? = some row.segment ∧ p.jobs[n]? = some row.job := by
  unfold row?
  split
  · next segment job hsegment hjob =>
    rw [hsegment, hjob]
    constructor
    · rintro ⟨rfl⟩
      exact ⟨rfl, rfl⟩
    · rintro ⟨⟨rfl⟩, ⟨rfl⟩⟩
      rfl
  · next hnone =>
    simp only [reduceCtorEq, false_iff]
    exact fun h => hnone _ _ h.1 h.2

/-- An update of a row that exists changes this row only. -/
theorem row?_update {old : QueueRow} (h : p.row? number = some old) (row : QueueRow) (n : UInt64) :
    (p.update number row).row? n = if number = n then some row else p.row? n := by
  obtain ⟨hsegment, -⟩ := row?_eq_some.mp h
  simp only [row?, update, Tables.updateSegment, hsegment, Std.ExtTreeMap.getElem?_insert,
    Std.LawfulEqCmp.compare_eq_iff_eq]
  split_ifs <;> rfl

theorem mem_rows {entry : UInt64 × QueueRow} : entry ∈ p.rows ↔ p.row? entry.1 = some entry.2 := by
  obtain ⟨n, row⟩ := entry
  simp only [rows, List.mem_filterMap, Option.map_eq_some_iff, Prod.mk.injEq]
  constructor
  · rintro ⟨⟨n', segment⟩, -, row', hrow, rfl, rfl⟩
    exact hrow
  · intro hrow
    have hsegment := (row?_eq_some.mp hrow).1
    exact ⟨(n, row.segment), Std.ExtTreeMap.mem_toList_iff_getElem?_eq_some.mpr hsegment, row, hrow,
      rfl, rfl⟩

/-- A selection skips the rows that are locked. -/
theorem mem_select {locked : UInt64 → Bool} {condition : QueueRow → Bool}
    {entry : UInt64 × QueueRow} :
    entry ∈ p.select locked condition
      ↔ p.row? entry.1 = some entry.2 ∧ locked entry.1 = false ∧ condition entry.2 = true := by
  simp [select, mem_rows]

/-- A row is selected once. -/
theorem nodup_select (locked : UInt64 → Bool) (condition : QueueRow → Bool) :
    ((p.select locked condition).map Prod.fst).Nodup := by
  have hrows : (p.rows.map Prod.fst).Nodup := by
    have hkeys : (p.rows.map Prod.fst).Sublist
        (p.store.tables.sealedSegment.toList.map Prod.fst) := by
      unfold rows
      induction p.store.tables.sealedSegment.toList with
      | nil => simp
      | cons entry entries ih =>
        rw [List.filterMap_cons]
        cases p.row? entry.1 with
        | none => exact ih.cons _
        | some row => exact ih.cons_cons _
    have hdistinct : (p.store.tables.sealedSegment.toList.map Prod.fst).Nodup := by
      rw [List.Nodup, List.pairwise_map]
      exact Std.ExtTreeMap.distinct_keys_toList.imp (by simp)
    exact hdistinct.sublist hkeys
  have hperm := (List.mergeSort_perm
    (p.rows.filter fun entry => !locked entry.1 && condition entry.2) claimOrder).map Prod.fst
  exact hperm.nodup_iff.mpr (hrows.sublist (List.filter_sublist.map _))

/-- The sweep changes the rows it has selected. -/
theorem row?_sweep {entries : List (UInt64 × QueueRow)} (hnodup : (entries.map Prod.fst).Nodup)
    (hrows : ∀ entry ∈ entries, p.row? entry.1 = some entry.2) (n : UInt64) :
    (entries.foldl (fun p entry => p.update entry.1 entry.2.fail) p).row? n
      = (p.row? n).map fun row => if n ∈ entries.map Prod.fst then row.fail else row := by
  induction entries generalizing p with
  | nil => simp
  | cons entry entries ih =>
    obtain ⟨hfirst, hlater⟩ := List.forall_mem_cons.mp hrows
    rw [List.map_cons, List.nodup_cons] at hnodup
    have hkept : ∀ other ∈ entries, (p.update entry.1 entry.2.fail).row? other.1
      = some other.2 := by
      intro other hother
      have hne : entry.1 ≠ other.1 := by
        intro heq
        exact hnodup.1 (heq ▸ List.mem_map_of_mem hother)
      rw [row?_update hfirst, if_neg hne]
      exact hlater other hother
    rw [List.foldl_cons, ih hnodup.2 hkept, row?_update hfirst]
    by_cases heq : entry.1 = n
    · subst heq
      rw [if_pos rfl, hfirst]
      simp [hnodup.1]
    · rw [if_neg heq, List.map_cons]
      simp only [List.mem_cons, Ne.symm heq, false_or]

end Pipeline

/-! ## What a transition writes -/

section Transition

open PostgresLedgerStore

variable {tables tables' : Tables} {t : LedgerTransition}

/-- A segment is inserted under a new number. -/
theorem insertSealedSegment_eq_ok {segment : SealedSegment}
    (h : tables.insertSealedSegment segment = .ok tables') :
    segment.segmentNumber ∉ tables.sealedSegment ∧ tables.ledgerState.isSome
      ∧ tables' = { tables with
          sealedSegment :=
            tables.sealedSegment.insert segment.segmentNumber (Tables.segmentRow segment)
          pipelineUsage :=
            tables.pipelineUsage.map
              (accountSegment none (some (Tables.segmentRow segment))) } := by
  simp only [Tables.insertSealedSegment, Except.bind_eq_ok, Except.require_eq_ok,
    decide_eq_true_eq] at h
  obtain ⟨-, hnew, -, hstate, h⟩ := h
  cases h
  exact ⟨hnew, hstate, rfl⟩

/-- A sealed record is inserted at a new place. -/
theorem insertSealedRecord_eq_ok {segmentNumber ordinal : UInt64} {record : Bytes}
    (h : tables.insertSealedRecord segmentNumber ordinal record = .ok tables') :
    (segmentNumber, ordinal) ∉ tables.sealedRecord
      ∧ tables' = { tables with
          sealedRecord := tables.sealedRecord.insert (segmentNumber, ordinal) record
          pipelineUsage := tables.pipelineUsage.map (accountRecord none (some record)) } := by
  simp only [Tables.insertSealedRecord, Except.bind_eq_ok, Except.require_eq_ok,
    decide_eq_true_eq] at h
  obtain ⟨-, hnew, -, -, h⟩ := h
  cases h
  exact ⟨hnew, rfl⟩

/-- An open record is inserted at a new place. -/
theorem insertOpenRecord_eq_ok {ordinal : UInt64} {record : Bytes}
    (h : tables.insertOpenRecord ordinal record = .ok tables') :
    ordinal ∉ tables.openRecord
      ∧ tables' = { tables with
          openRecord := tables.openRecord.insert ordinal record
          pipelineUsage := tables.pipelineUsage.map (accountRecord none (some record)) } := by
  simp only [Tables.insertOpenRecord, Except.bind_eq_ok, Except.require_eq_ok,
    decide_eq_true_eq] at h
  obtain ⟨-, hnew, -, -, h⟩ := h
  cases h
  exact ⟨hnew, rfl⟩

/-- The open rows are copied one after the other. -/
theorem copyOpenRecords_eq_ok {segmentNumber : UInt64} {copied : Nat}
    (h : tables.copyOpenRecords segmentNumber = .ok (copied, tables')) :
    copied = tables.openRecord.size
      ∧ tables.openRecord.toList.foldlM
          (fun tables row => tables.insertSealedRecord segmentNumber row.1 row.2) tables
        = .ok tables' := by
  simp only [Tables.copyOpenRecords, Except.bind_eq_ok] at h
  obtain ⟨copied', hcopied, h⟩ := h
  cases h
  exact ⟨rfl, hcopied⟩

/-- The writes of a committed transaction, in order. -/
structure Writes (store : PostgresLedgerStore) (expectedRevision : Option UInt64)
    (t : LedgerTransition) (stated sealed closed admitted tables' : Tables) : Prop where
  capacity : store.checkCapacity t = .ok ()
  stateRow : writeState store.tables expectedRevision t = .ok (1, stated)
  segmentRows : t.sealed.foldlM Tables.insertSealedSegment stated = .ok sealed
  openRows : closeOpenRecords sealed t = .ok closed
  recordRows : t.admittedRecords.foldlM Tables.insertAdmitted closed = .ok admitted
  idempotencyRow : writeIdempotency admitted t.idempotency = .ok tables'

/-- The statements of a transaction that commits. -/
theorem transact_eq_ok {store : PostgresLedgerStore} {expectedRevision : Option UInt64}
    (h : store.transact expectedRevision t = .ok tables') :
    ∃ stated sealed closed admitted,
      Writes store expectedRevision t stated sealed closed admitted tables' := by
  simp only [transact, Except.bind_eq_ok, Except.require_eq_ok, decide_eq_true_eq] at h
  obtain ⟨-, -, _, hcapacity, ⟨changed, stated⟩, hstated, -, hchanged, sealed, hsealed, closed,
    hclosed, admitted, hadmitted, hidempotency⟩ := h
  obtain rfl : changed = 1 := hchanged
  exact ⟨stated, sealed, closed, admitted, hcapacity, hstated, hsealed, hclosed, hadmitted,
    hidempotency⟩

/-! ### What each statement writes -/

/-- Between two states of the tables only record rows were written, and the usage with them. -/
def WritesRecords (tables tables' : Tables) : Prop :=
  ∃ openRecord sealedRecord pipelineUsage,
    tables' = { tables with openRecord, sealedRecord, pipelineUsage }

namespace WritesRecords

theorem refl (tables : Tables) : WritesRecords tables tables := ⟨_, _, _, rfl⟩

theorem trans {tables'' : Tables} (h : WritesRecords tables tables')
    (h' : WritesRecords tables' tables'') : WritesRecords tables tables'' := by
  obtain ⟨_, _, _, rfl⟩ := h
  obtain ⟨_, _, _, rfl⟩ := h'
  exact ⟨_, _, _, rfl⟩

/-- Statements that each write record rows, one after the other. -/
theorem foldlM {α : Type} {write : Tables → α → Except ProducerError Tables}
    (hwrite : ∀ tables item tables', write tables item = .ok tables' →
      WritesRecords tables tables') {items : List α}
    (h : items.foldlM write tables = .ok tables') : WritesRecords tables tables' := by
  refine Except.foldlM_induction (P := fun _ (after : Tables) =>
    WritesRecords tables after) h (.refl tables) ?_
  intro _ before item after hbefore hafter
  exact hbefore.trans (hwrite before item after hafter)

/-- The segment rows stay. -/
theorem sealedSegment (h : WritesRecords tables tables') :
    tables'.sealedSegment = tables.sealedSegment := by
  obtain ⟨_, _, _, rfl⟩ := h
  rfl

/-- The idempotency rows stay. -/
theorem idempotency (h : WritesRecords tables tables') :
    tables'.idempotency = tables.idempotency := by
  obtain ⟨_, _, _, rfl⟩ := h
  rfl

end WritesRecords

/-- The state row is written, and a new ledger gets its usage row. -/
theorem writeState_writes {store : PostgresLedgerStore} {expectedRevision : Option UInt64}
    {changed : Nat} (h : writeState store.tables expectedRevision t = .ok (changed, tables')) :
    ∃ ledgerState pipelineUsage, tables' = { store.tables with ledgerState, pipelineUsage } := by
  unfold writeState at h
  cases expectedRevision with
  | none =>
    simp only [Tables.insertLedgerState, Except.bind_eq_ok, Except.require_eq_ok] at h
    obtain ⟨-, -, h⟩ := h
    split at h <;> cases h <;> exact ⟨_, _, rfl⟩
  | some expected =>
    dsimp only [Tables.updateLedgerState] at h
    split at h
    · cases h
      exact ⟨_, _, rfl⟩
    · split_ifs at h <;> cases h <;> exact ⟨_, _, rfl⟩

theorem insertSealedRecord_writes {segmentNumber ordinal : UInt64} {record : Bytes}
    (h : tables.insertSealedRecord segmentNumber ordinal record = .ok tables') :
    WritesRecords tables tables' := by
  obtain ⟨-, rfl⟩ := insertSealedRecord_eq_ok h
  exact ⟨_, _, _, rfl⟩

/-- An admitted record is a row of one of the two tables of records. -/
theorem insertAdmitted_writes {admitted : AdmittedRecordDelta}
    (h : tables.insertAdmitted admitted = .ok tables') : WritesRecords tables tables' := by
  unfold Tables.insertAdmitted at h
  split at h
  · obtain ⟨-, rfl⟩ := insertOpenRecord_eq_ok h
    exact ⟨_, _, _, rfl⟩
  · exact insertSealedRecord_writes h

theorem transferOpenRecords_writes (h : transferOpenRecords tables t = .ok tables') :
    WritesRecords tables tables' := by
  unfold transferOpenRecords at h
  split_ifs at h
  · simp only [Except.bind_eq_ok] at h
    obtain ⟨destination, -, ⟨copied, after⟩, hcopy, -, -, h⟩ := h
    cases h
    exact .foldlM (fun _ _ _ hinsert => insertSealedRecord_writes hinsert)
      (copyOpenRecords_eq_ok hcopy).2
  · cases h
    exact .refl tables

/-- The open rows are transferred to a segment, and deleted. -/
theorem closeOpenRecords_writes (h : closeOpenRecords tables t = .ok tables') :
    WritesRecords tables tables' := by
  unfold closeOpenRecords at h
  split_ifs at h
  · simp only [Except.bind_eq_ok] at h
    obtain ⟨transferred, htransfer, -, -, h⟩ := h
    cases h
    exact (transferOpenRecords_writes htransfer).trans ⟨_, _, _, rfl⟩
  · cases h
    exact .refl tables

/-- The idempotency row is written, if the transition has one. -/
theorem writeIdempotency_writes {admission : Option IdempotencyRecord}
    (h : writeIdempotency tables admission = .ok tables') :
    ∃ idempotency, tables' = { tables with idempotency } := by
  cases admission with
  | none =>
    cases h
    exact ⟨_, rfl⟩
  | some admission =>
    simp only [writeIdempotency, Except.bind_eq_ok, Tables.insertIdempotency] at h
    obtain ⟨-, -, h⟩ := h
    split_ifs at h <;> cases h <;> exact ⟨_, rfl⟩

/-- Between the segment rows and the idempotency row a transaction writes record rows. -/
theorem Writes.records {store : PostgresLedgerStore} {expectedRevision : Option UInt64}
    {stated sealed closed admitted : Tables}
    (h : Writes store expectedRevision t stated sealed closed admitted tables') :
    WritesRecords sealed admitted :=
  (closeOpenRecords_writes h.openRows).trans
    (.foldlM (fun _ _ _ hinsert => insertAdmitted_writes hinsert) h.recordRows)

/-! ### The segment rows -/

/-- The row that a list of new segments has for a number. -/
def newRow (segments : List SealedSegment) (n : UInt64) : Option SegmentRow :=
  (segments.find? fun segment => segment.segmentNumber = n).map Tables.segmentRow

/-- The row of a segment is that of the last inserted under its number. -/
theorem newRow_concat (segments : List SealedSegment) (segment : SealedSegment) (n : UInt64) :
    newRow (segments ++ [segment]) n
      = (newRow segments n).or
          (if segment.segmentNumber = n then some (Tables.segmentRow segment) else none) := by
  unfold newRow
  rw [List.find?_append, List.find?_singleton]
  cases segments.find? fun segment => segment.segmentNumber = n with
  | none => by_cases heq : segment.segmentNumber = n <;> simp [heq]
  | some found => rfl

/-- A committed transition adds the rows of its segments, which are new. -/
theorem Writes.sealedSegment {store : PostgresLedgerStore} {expectedRevision : Option UInt64}
    {stated sealed closed admitted : Tables}
    (h : Writes store expectedRevision t stated sealed closed admitted tables') :
    (∀ n : UInt64, tables'.sealedSegment[n]?
      = store.tables.sealedSegment[n]?.or (newRow t.sealed n))
      ∧ ∀ segment ∈ t.sealed, store.tables.sealedSegment[segment.segmentNumber]? = none := by
  have hlast : tables'.sealedSegment = sealed.sealedSegment := by
    obtain ⟨_, rfl⟩ := writeIdempotency_writes h.idempotencyRow
    exact h.records.sealedSegment
  rw [hlast]
  refine Except.foldlM_induction (P := fun taken (after : Tables) =>
    (∀ n : UInt64, after.sealedSegment[n]? = store.tables.sealedSegment[n]?.or (newRow taken n))
      ∧ ∀ segment ∈ taken, store.tables.sealedSegment[segment.segmentNumber]? = none)
    h.segmentRows ?_ ?_
  · obtain ⟨_, _, rfl⟩ := writeState_writes h.stateRow
    exact ⟨fun n => by rw [newRow, List.find?_nil, Option.map_none, Option.or_none], by simp⟩
  · rintro taken before segment after ⟨hrows, hnew⟩ hinsert
    obtain ⟨hfree, -, rfl⟩ := insertSealedSegment_eq_ok hinsert
    have hnone : before.sealedSegment[segment.segmentNumber]? = none := by
      rwa [Std.ExtTreeMap.mem_iff_isSome_getElem?, Bool.not_eq_true, Option.isSome_eq_false_iff,
        Option.isNone_iff_eq_none] at hfree
    rw [hrows, Option.or_eq_none_iff] at hnone
    constructor
    · intro n
      rw [Std.ExtTreeMap.getElem?_insert, hrows, newRow_concat]
      simp only [Std.LawfulEqCmp.compare_eq_iff_eq]
      split_ifs with heq
      · rw [← heq, hnone.1, hnone.2]
        rfl
      · rw [Option.or_none]
    · intro other hother
      rcases List.mem_append.mp hother with hold | hlast
      · exact hnew other hold
      · obtain rfl := List.mem_singleton.mp hlast
        exact hnone.1

end Transition

namespace Pipeline

theorem getElem?_insertedJobs (now : Timestamp) (segments : List SealedSegment)
    (jobs : Std.ExtTreeMap UInt64 QueueColumns compare) (n : UInt64) :
    (segments.foldl (fun jobs segment => jobs.insert segment.segmentNumber (.inserted now))
      jobs)[n]?
      = if (newRow segments n).isSome then some (.inserted now) else jobs[n]? := by
  induction segments using List.reverseRecOn with
  | nil => rfl
  | append_singleton segments segment ih =>
    rw [List.foldl_concat, Std.ExtTreeMap.getElem?_insert, ih, newRow_concat]
    simp only [Std.LawfulEqCmp.compare_eq_iff_eq]
    split_ifs with heq hnew hlater hlater <;> simp_all

/-- A transition adds the rows of its segments and leaves the others as they are; one that fails
changes nothing. -/
theorem row?_compareAndSwap (p : Pipeline) (now : Timestamp) (expectedRevision : Option UInt64)
    (t : LedgerTransition) (n : UInt64) :
    (p.compareAndSwap now expectedRevision t).2.row? n = p.row? n
      ∨ p.row? n = none ∧ ∃ segment ∈ t.sealed, segment.segmentNumber = n
        ∧ (p.compareAndSwap now expectedRevision t).2.row? n
          = some ⟨Tables.segmentRow segment, .inserted now⟩ := by
  unfold compareAndSwap PostgresLedgerStore.compareAndSwap
  cases htransact : p.store.transact expectedRevision t with
  | error error => exact .inl rfl
  | ok tables =>
    obtain ⟨stated, sealed, closed, admitted, hwrites⟩ := transact_eq_ok htransact
    obtain ⟨hrows, hnew⟩ := hwrites.sealedSegment
    dsimp only
    unfold row?
    dsimp only
    rw [hrows, getElem?_insertedJobs]
    cases hrow : newRow t.sealed n with
    | none =>
      left
      simp
    | some row =>
      right
      obtain ⟨segment, hfind, rfl⟩ := Option.map_eq_some_iff.mp hrow
      have hnumber : segment.segmentNumber = n := by
        simpa using List.find?_some hfind
      have hmem := List.mem_of_find?_eq_some hfind
      have hnone := hnew segment hmem
      rw [hnumber] at hnone
      rw [hnone]
      exact ⟨rfl, segment, hmem, hnumber, rfl⟩

end Pipeline

end TrackOne
