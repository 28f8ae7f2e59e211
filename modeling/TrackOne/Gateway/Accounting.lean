import TrackOne.Gateway.TimestampQueue

/-!
# Capacity accounting

The triggers of migration 0004 keep `pipeline_usage` by the change of each row, and the capacity
check of `compare_and_swap` predicts the usage after a transition from the transition alone.
`Tables.measured` counts the rows instead.

* `Accounts` relates tables before and after a write: usage and measure change by the same amount.
  There is one such lemma for each write, and they compose.
* `Writes.accounts`: moving the open rows to a sealed segment changes nothing, so that a transition
  adds its segments, their artifacts and the records it admits.
* `Pipeline.run_accounting`: the usage is exact after every run, and no admission passes a limit.
-/

namespace TrackOne

/-! ## Measuring the rows -/

/-- The usage that the rows of the tables amount to: the queued segments, and the bytes of all
records, artifacts and responses. -/
def Tables.measured (tables : Tables) : PipelineUsage where
  pendingTimestamps :=
    tables.sealedSegment.toList.countP fun entry => decide (entry.2.tsaStatus = .queued)
  retainedEvidenceBytes :=
    (tables.openRecord.toList.map fun entry => entry.2.length).sum
      + (tables.sealedRecord.toList.map fun entry => entry.2.length).sum
      + (tables.sealedSegment.toList.map fun entry =>
          entry.2.artifactCbor.length + (entry.2.tsaResponse.map List.length).getD 0).sum

/-- The usage of a ledger; one without a row has none. -/
def Tables.usage (tables : Tables) : PipelineUsage := tables.pipelineUsage.getD ⟨0, 0⟩

/-- Usage that has grown. -/
def PipelineUsage.add (usage : PipelineUsage) (pending bytes : Int) : PipelineUsage where
  pendingTimestamps := usage.pendingTimestamps + pending
  retainedEvidenceBytes := usage.retainedEvidenceBytes + bytes

/-- Adding nothing changes no usage. -/
@[simp] theorem PipelineUsage.add_zero (usage : PipelineUsage) : usage.add 0 0 = usage := by
  simp [PipelineUsage.add]

/-- Two changes of the usage are their sum. -/
theorem PipelineUsage.add_add (usage : PipelineUsage) (pending bytes pending' bytes' : Int) :
    (usage.add pending bytes).add pending' bytes' = usage.add (pending + pending')
    (bytes + bytes') := by
  simp [PipelineUsage.add, Int.add_assoc]

/-- A count is a sum of ones. -/
theorem countP_eq_sum {α : Type} (test : α → Bool) (items : List α) :
    items.countP test = (items.map fun item => if test item then 1 else 0).sum := by
  induction items with
  | nil => rfl
  | cons item items ih =>
    rw [List.countP_cons, List.map_cons, List.sum_cons, ih, Nat.add_comm]

/-- The measure as totals over the tables. -/
theorem measured_eq (tables : Tables) :
    tables.measured
      = ⟨(TreeMap.total SegmentRow.pending tables.sealedSegment : Nat),
        (TreeMap.total List.length tables.openRecord
          + TreeMap.total List.length tables.sealedRecord
          + TreeMap.total SegmentRow.evidenceBytes tables.sealedSegment : Nat)⟩ := by
  simp only [Tables.measured, TreeMap.total, SegmentRow.pending, countP_eq_sum, decide_eq_true_eq]
  rfl

/-! ## Writes -/

/-- The tables are written such that usage and measure change by the same amount. -/
structure Accounts (tables tables' : Tables) (pending bytes : Int) : Prop where
  usage : tables'.pipelineUsage = tables.pipelineUsage.map fun usage => usage.add pending bytes
  measured : tables'.measured = tables.measured.add pending bytes
  ledgerState : tables'.ledgerState.isSome = tables.ledgerState.isSome

namespace Accounts

variable {tables mid tables' : Tables} {pending bytes pending' bytes' : Int}

/-- Nothing is accounted where nothing is written. -/
theorem refl (tables : Tables) : Accounts tables tables 0 0 :=
  ⟨by simp, by simp, rfl⟩

/-- Two statements account for their sum. -/
theorem trans (h : Accounts tables mid pending bytes) (h' : Accounts mid tables' pending' bytes') :
    Accounts tables tables' (pending + pending') (bytes + bytes') := by
  refine ⟨?_, ?_, h'.ledgerState.trans h.ledgerState⟩
  · rw [h'.usage, h.usage, Option.map_map]
    congr 1
    funext usage
    exact usage.add_add pending bytes pending' bytes'
  · rw [h'.measured, h.measured, PipelineUsage.add_add]

end Accounts

section Writes

open PostgresLedgerStore

variable {tables tables' : Tables} {t : LedgerTransition}

/-- The trigger of an update: the row's new share instead of its old one. -/
theorem accounts_updateSegment (number : UInt64) {old : SegmentRow} (row : SegmentRow)
    (h : tables.sealedSegment[number]? = some old) :
    Accounts tables (tables.updateSegment number row) (row.pending - old.pending)
      (row.evidenceBytes - old.evidenceBytes) := by
  unfold Tables.updateSegment
  rw [h]
  have hpending := TreeMap.total_insert_of_getElem? SegmentRow.pending h row
  have hbytes := TreeMap.total_insert_of_getElem? SegmentRow.evidenceBytes h row
  refine ⟨rfl, ?_, rfl⟩
  simp only [measured_eq, PipelineUsage.add, PipelineUsage.mk.injEq]
  constructor <;> omega

/-- The trigger of a segment that is inserted: it waits for its timestamp and has no response. -/
theorem accountSegment_inserted (segment : SealedSegment) :
    accountSegment none (some (Tables.segmentRow segment))
      = fun usage => usage.add 1 segment.artifactCbor.length := by
  funext usage
  simp [accountSegment, PipelineUsage.add, SegmentRow.pending, SegmentRow.evidenceBytes,
    Tables.segmentRow]

/-- A sealed segment is one more pending, and its artifact's bytes. -/
theorem accounts_insertSealedSegment {segment : SealedSegment}
    (h : tables.insertSealedSegment segment = .ok tables') :
    Accounts tables tables' 1 segment.artifactCbor.length := by
  obtain ⟨hnew, -, rfl⟩ := insertSealedSegment_eq_ok h
  have hpending :=
    TreeMap.total_insert_of_notMem SegmentRow.pending hnew (Tables.segmentRow segment)
  have hbytes := TreeMap.total_insert_of_notMem SegmentRow.evidenceBytes hnew
    (Tables.segmentRow segment)
  have hone : (Tables.segmentRow segment).pending = 1 := rfl
  have hlength : (Tables.segmentRow segment).evidenceBytes = segment.artifactCbor.length := rfl
  refine ⟨by rw [accountSegment_inserted], ?_, rfl⟩
  simp only [measured_eq, PipelineUsage.add, PipelineUsage.mk.injEq]
  constructor <;> omega

/-- The trigger of a record that is inserted. -/
theorem accountRecord_inserted (record : Bytes) :
    accountRecord none (some record) = fun usage => usage.add 0 record.length := by
  funext usage
  simp [accountRecord, PipelineUsage.add]

/-- A sealed record is its bytes. -/
theorem accounts_insertSealedRecord {segmentNumber ordinal : UInt64} {record : Bytes}
    (h : tables.insertSealedRecord segmentNumber ordinal record = .ok tables') :
    Accounts tables tables' 0 record.length := by
  obtain ⟨hnew, rfl⟩ := insertSealedRecord_eq_ok h
  have hbytes := TreeMap.total_insert_of_notMem List.length hnew record
  refine ⟨by rw [accountRecord_inserted], ?_, rfl⟩
  simp only [measured_eq, PipelineUsage.add, PipelineUsage.mk.injEq]
  constructor <;> omega

/-- An open record is its bytes. -/
theorem accounts_insertOpenRecord {ordinal : UInt64} {record : Bytes}
    (h : tables.insertOpenRecord ordinal record = .ok tables') :
    Accounts tables tables' 0 record.length := by
  obtain ⟨hnew, rfl⟩ := insertOpenRecord_eq_ok h
  have hbytes := TreeMap.total_insert_of_notMem List.length hnew record
  refine ⟨by rw [accountRecord_inserted], ?_, rfl⟩
  simp only [measured_eq, PipelineUsage.add, PipelineUsage.mk.injEq]
  constructor <;> omega

/-- An admitted record is its bytes, wherever it goes. -/
theorem accounts_insertAdmitted {admitted : AdmittedRecordDelta}
    (h : tables.insertAdmitted admitted = .ok tables') :
    Accounts tables tables' 0 admitted.recordCbor.length := by
  unfold Tables.insertAdmitted at h
  split at h
  · exact accounts_insertOpenRecord h
  · exact accounts_insertSealedRecord h

/-- Writes of items one after the other. -/
theorem accounts_foldlM {α : Type} {write : Tables → α → Except ProducerError Tables}
    (pending bytes : α → Nat)
    (hwrite : ∀ tables item tables', write tables item = .ok tables' →
      Accounts tables tables' (pending item) (bytes item)) {items : List α}
    (h : items.foldlM write tables = .ok tables') :
    Accounts tables tables' ((items.map pending).sum : Nat) ((items.map bytes).sum : Nat) := by
  refine Except.foldlM_induction (P := fun taken (after : Tables) =>
    Accounts tables after ((taken.map pending).sum : Nat) ((taken.map bytes).sum : Nat)) h ?_ ?_
  · exact .refl tables
  · intro taken before item after hbefore hafter
    simpa using hbefore.trans (hwrite before item after hafter)

/-- The copies of the open rows are counted in addition to the rows. -/
theorem accounts_copyOpenRecords {segmentNumber : UInt64} {copied : Nat}
    (h : tables.copyOpenRecords segmentNumber = .ok (copied, tables')) :
    Accounts tables tables' 0 (TreeMap.total List.length tables.openRecord)
      ∧ tables'.openRecord = tables.openRecord := by
  obtain ⟨-, hcopy⟩ := copyOpenRecords_eq_ok h
  constructor
  · have haccounts := accounts_foldlM (fun _ => 0) (fun row : UInt64 × Bytes => row.2.length)
      (fun before row after hinsert => accounts_insertSealedRecord hinsert) hcopy
    simpa [TreeMap.total] using haccounts
  · refine Except.foldlM_induction (P := fun _ (after : Tables) =>
      after.openRecord = tables.openRecord) hcopy rfl ?_
    intro _ before row after hbefore hinsert
    obtain ⟨-, rfl⟩ := insertSealedRecord_eq_ok hinsert
    exact hbefore

/-- Deleting the open records gives their bytes back. -/
theorem accounts_deleteOpenRecords (tables : Tables) :
    Accounts tables tables.deleteOpenRecords.2 0
      (-(TreeMap.total List.length tables.openRecord : Nat)) := by
  refine ⟨?_, ?_, rfl⟩
  · -- one trigger for each of the rows
    have hfold : ∀ (rows : List (UInt64 × Bytes)) (usage : Option PipelineUsage),
        rows.foldl (fun usage row => usage.map (accountRecord (some row.2) none)) usage
          = usage.map fun usage =>
            usage.add 0 (-((rows.map fun row => row.2.length).sum : Nat)) := by
      intro rows
      induction rows with
      | nil => simp
      | cons row rows ih =>
        intro usage
        rw [List.foldl_cons, ih, Option.map_map, List.map_cons, List.sum_cons]
        congr 1
        funext usage
        simp only [Function.comp, accountRecord, PipelineUsage.add, PipelineUsage.mk.injEq,
          Option.map_some, Option.map_none, Option.getD_some, Option.getD_none]
        refine ⟨trivial, ?_⟩
        omega
    exact hfold _ _
  · have hempty : TreeMap.total List.length (∅ : Std.ExtTreeMap UInt64 Bytes compare) = 0 := rfl
    simp only [measured_eq, Tables.deleteOpenRecords, PipelineUsage.add, PipelineUsage.mk.injEq,
      hempty]
    constructor <;> omega

/-- Moving the open rows into a sealed segment changes nothing. -/
theorem accounts_closeOpenRecords (h : closeOpenRecords tables t = .ok tables') :
    Accounts tables tables' 0 0 := by
  unfold closeOpenRecords at h
  split_ifs at h
  · simp only [Except.bind_eq_ok, requireRowCount, Except.require_eq_ok, decide_eq_true_eq] at h
    obtain ⟨transferred, htransfer, -, hdeleted, h⟩ := h
    cases h
    have hdelete := accounts_deleteOpenRecords transferred
    unfold transferOpenRecords at htransfer
    split_ifs at htransfer with hopen
    · simp only [Except.bind_eq_ok] at htransfer
      obtain ⟨destination, -, ⟨copied, after⟩, hcopy, -, -, htransfer⟩ := htransfer
      cases htransfer
      obtain ⟨haccounts, hsame⟩ := accounts_copyOpenRecords hcopy
      rw [hsame] at hdelete
      simpa [Int.add_right_neg] using haccounts.trans hdelete
    · -- nothing was open, and nothing was deleted
      cases htransfer
      have hsize : tables.openRecord.size = 0 := by
        have hzero : t.previousOpenCount.toNat = 0 := by
          by_contra hne
          exact hopen (UInt64.lt_iff_toNat_lt.mpr (Nat.pos_of_ne_zero hne))
        exact hdeleted.trans hzero
      have hnone : TreeMap.total List.length tables.openRecord = 0 := by
        have hnil : tables.openRecord.toList = [] := by
          rw [← List.length_eq_zero_iff, Std.ExtTreeMap.length_toList, hsize]
        simp [TreeMap.total, hnil]
      rw [hnone] at hdelete
      simpa using hdelete
  · cases h
    exact .refl tables

/-- An idempotency key is not accounted for. -/
theorem accounts_writeIdempotency {idempotency : Option IdempotencyRecord}
    (h : writeIdempotency tables idempotency = .ok tables') : Accounts tables tables' 0 0 := by
  cases idempotency with
  | none =>
    cases h
    exact .refl tables
  | some admission =>
    simp only [writeIdempotency, Except.bind_eq_ok, Tables.insertIdempotency] at h
    obtain ⟨-, -, h⟩ := h
    split_ifs at h <;> cases h <;>
      exact ⟨(Accounts.refl tables).usage, (Accounts.refl tables).measured, rfl⟩

/-- The usage of the tables is what their rows amount to. A ledger has its usage row, and there are
segments only in a ledger. -/
structure Exact (tables : Tables) : Prop where
  usage : tables.usage = tables.measured
  present : tables.pipelineUsage.isSome = tables.ledgerState.isSome
  segments : ∀ (number : UInt64) (row : SegmentRow), tables.sealedSegment[number]? = some row →
    tables.ledgerState.isSome

/-- An exact usage stays exact over statements that account for their change. -/
theorem Exact.accounts {pending bytes : Int} (h : Exact tables)
    (hsome : tables.ledgerState.isSome) (haccounts : Accounts tables tables' pending bytes) :
    Exact tables' ∧ tables'.usage = tables.usage.add pending bytes := by
  have hpresent := h.present
  rw [hsome, Option.isSome_iff_exists] at hpresent
  obtain ⟨usage, husage⟩ := hpresent
  have hafter : tables'.pipelineUsage = some (usage.add pending bytes) := by
    rw [haccounts.usage, husage, Option.map_some]
  have hadd : tables'.usage = tables.usage.add pending bytes := by
    rw [Tables.usage, hafter, Tables.usage, husage]
    rfl
  refine ⟨⟨?_, ?_, fun _ _ _ => haccounts.ledgerState.trans hsome⟩, hadd⟩
  · rw [hadd, h.usage, haccounts.measured]
  · rw [hafter, haccounts.ledgerState, hsome]
    rfl

/-- The state row is not counted; the row of a new ledger starts its usage at zero. -/
theorem Exact.writeState {expectedRevision : Option UInt64} {store : PostgresLedgerStore}
    (h : Exact store.tables)
    (hwrite : PostgresLedgerStore.writeState store.tables expectedRevision t = .ok (1, tables')) :
    Exact tables' ∧ tables'.usage = store.tables.usage ∧ tables'.ledgerState.isSome := by
  unfold PostgresLedgerStore.writeState at hwrite
  cases expectedRevision with
  | none =>
    simp only [Tables.insertLedgerState, Except.bind_eq_ok, Except.require_eq_ok] at hwrite
    obtain ⟨-, -, hwrite⟩ := hwrite
    split at hwrite
    · cases hwrite
    · next hnone =>
      cases hwrite
      have habsent : store.tables.pipelineUsage = none := by
        have hpresent := h.present
        rw [hnone] at hpresent
        simpa using hpresent
      have husage := h.usage
      rw [Tables.usage, habsent] at husage
      refine ⟨⟨?_, ?_, fun _ _ _ => rfl⟩, ?_, rfl⟩
      · rw [Tables.usage, habsent]
        exact husage
      · rw [habsent]
        rfl
      · rw [Tables.usage, Tables.usage, habsent]
        rfl
  | some expected =>
    dsimp only [Tables.updateLedgerState] at hwrite
    split at hwrite
    · cases hwrite
    · next current hcurrent =>
      by_cases hrevision : current.revision = expected
      · rw [if_pos hrevision] at hwrite
        cases hwrite
        refine ⟨⟨h.usage, ?_, fun _ _ _ => rfl⟩, rfl, rfl⟩
        rw [h.present, hcurrent]
        rfl
      · rw [if_neg hrevision] at hwrite
        cases hwrite

/-- The bytes that a transition adds: its records and the artifacts of its segments. -/
def extraBytes (t : LedgerTransition) : Nat :=
  (t.admittedRecords.map fun admitted => admitted.recordCbor.length).sum
    + (t.sealed.map fun segment => segment.artifactCbor.length).sum

/-- The usage that the capacity check predicts. -/
def projection (usage : PipelineUsage) (t : LedgerTransition) : PipelineUsage :=
  usage.add t.sealed.length (extraBytes t)

/-- A committed transition leads to the usage that is predicted. -/
theorem Exact.transact {expectedRevision : Option UInt64} {store : PostgresLedgerStore}
    (h : Exact store.tables) (htransact : store.transact expectedRevision t = .ok tables') :
    Exact tables' ∧ tables'.usage = projection store.tables.usage t := by
  obtain ⟨stated, sealed, closed, admitted, hwrites⟩ := transact_eq_ok htransact
  obtain ⟨hstated, husage, hsome⟩ := h.writeState hwrites.stateRow
  have hsegments := accounts_foldlM (fun _ => 1)
    (fun segment : SealedSegment => segment.artifactCbor.length)
    (fun before segment after hinsert => accounts_insertSealedSegment hinsert) hwrites.segmentRows
  have hrecords := accounts_foldlM (fun _ => 0)
    (fun delta : AdmittedRecordDelta => delta.recordCbor.length)
    (fun before delta after hinsert => accounts_insertAdmitted hinsert) hwrites.recordRows
  have hall := ((hsegments.trans (accounts_closeOpenRecords hwrites.openRows)).trans hrecords).trans
    (accounts_writeIdempotency hwrites.idempotencyRow)
  obtain ⟨hexact, hadd⟩ := hstated.accounts hsome hall
  refine ⟨hexact, ?_⟩
  rw [hadd, husage]
  simp [projection, extraBytes, Int.add_comm]

end Writes

/-! ## The capacity check -/

section Capacity

variable {store : PostgresLedgerStore} {t : LedgerTransition}

/-- A limit that has been reached, or that the transition would pass. -/
def Exceeds (usage predicted : Int) (limit : Option UInt64) : Prop :=
  ∃ value ∈ limit, (value.toNat : Int) ≤ usage ∨ (value.toNat : Int) < predicted

/-- A transition with records that passes the check exceeds neither limit. -/
theorem checkCapacity_eq_ok (hrecords : t.admittedRecords ≠ [])
    (h : store.checkCapacity t = .ok ()) :
    ¬ Exceeds store.tables.usage.pendingTimestamps
        (projection store.tables.usage t).pendingTimestamps store.limits.maxPendingTimestamps
      ∧ ¬ Exceeds store.tables.usage.retainedEvidenceBytes
        (projection store.tables.usage t).retainedEvidenceBytes
        store.limits.maxRetainedEvidenceBytes := by
  unfold PostgresLedgerStore.checkCapacity at h
  split_ifs at h with hlimits
  -- the columns are read as they are
  · have hparse : ∀ {field : String} {value : Int} {n : Nat},
        PostgresLedgerStore.parseUsage field value = .ok n → (n : Int) = value := by
      intro field value n hparse
      unfold PostgresLedgerStore.parseUsage at hparse
      split_ifs at hparse with hrange
      · cases hparse
        omega
    simp only [Except.bind_eq_ok, Except.ofOption_eq_ok, Except.require_eq_ok,
      decide_eq_true_eq] at h
    obtain ⟨usage, husage, pending, hpending, bytes, hbytes, -, hqueue, hstorage⟩ := h
    have hpending' := hparse hpending
    have hbytes' := hparse hbytes
    have heq : store.tables.usage = usage := by rw [Tables.usage, husage]; rfl
    rw [heq]
    -- neither limit is exceeded, or the check would have refused
    constructor
    · rintro ⟨limit, hlimit, hexceeds⟩
      apply hqueue
      rw [Option.mem_def.mp hlimit]
      simp only [Option.any_some, decide_eq_true_eq]
      simp only [projection, PipelineUsage.add] at hexceeds
      omega
    · rintro ⟨limit, hlimit, hexceeds⟩
      apply hstorage
      rw [Option.mem_def.mp hlimit]
      simp only [Option.any_some, decide_eq_true_eq]
      simp only [projection, PipelineUsage.add, extraBytes] at hexceeds
      omega
  · -- no limit is configured
    simp only [not_and, not_or, Bool.not_eq_true, Option.isSome_eq_false_iff,
      Option.isNone_iff_eq_none] at hlimits
    obtain ⟨hpending, hbytes⟩ := hlimits hrecords
    rw [hpending, hbytes]
    constructor
    · rintro ⟨_, hlimit, -⟩
      cases hlimit
    · rintro ⟨_, hlimit, -⟩
      cases hlimit

end Capacity

/-! ## Runs -/

namespace Pipeline

variable {p : Pipeline}

/-- The usage is exact, and the limits are the configured ones. -/
structure UsageKept (limits : CapacityLimits) (p : Pipeline) : Prop where
  exact : Exact p.store.tables
  limits : p.store.limits = limits

variable {limits : CapacityLimits}

/-- An updated row keeps the usage exact. -/
theorem UsageKept.update (h : UsageKept limits p) {number : UInt64} {old : QueueRow}
    (hold : p.row? number = some old) (row : QueueRow) :
    UsageKept limits (p.update number row) := by
  have hsegment := (row?_eq_some.mp hold).1
  have hsome := h.exact.segments number old.segment hsegment
  exact ⟨(h.exact.accounts hsome (accounts_updateSegment number row.segment hsegment)).1, h.limits⟩

/-- Failing the rows out of attempts keeps the usage exact. -/
theorem UsageKept.sweep (h : UsageKept limits p) {entries : List (UInt64 × QueueRow)}
    (hrows : ∀ entry ∈ entries, (p.row? entry.1).isSome) :
    UsageKept limits (entries.foldl (fun p entry => p.update entry.1 entry.2.fail) p) := by
  induction entries generalizing p with
  | nil => exact h
  | cons entry entries ih =>
    obtain ⟨hfirst, hlater⟩ := List.forall_mem_cons.mp hrows
    obtain ⟨old, hold⟩ := Option.isSome_iff_exists.mp hfirst
    refine ih (h.update hold entry.2.fail) ?_
    intro other hother
    rw [row?_update hold]
    split_ifs
    · rfl
    · exact hlater other hother

/-- A claim keeps the usage exact. -/
theorem UsageKept.claimTimestamp (h : UsageKept limits p) (now : Timestamp)
    (locked : UInt64 → Bool) (maxAttempts : UInt32) :
    UsageKept limits (p.claimTimestamp now locked maxAttempts).2 := by
  unfold Pipeline.claimTimestamp
  dsimp only
  have hrows : ∀ entry ∈ (p.select locked fun row => row.exhausted maxAttempts now).take 100,
      (p.row? entry.1).isSome := by
    intro entry hentry
    rw [(mem_select.mp (List.mem_of_mem_take hentry)).1]
    rfl
  have hswept := h.sweep hrows
  split
  · exact hswept
  · next number row hhead =>
    exact hswept.update (mem_select.mp (List.mem_of_head? hhead)).1 _

/-- A finished claim keeps the usage exact. -/
theorem UsageKept.finishTimestampTarget (h : UsageKept limits p) (now : Timestamp) (number : UInt64)
    (digest : String) (generation : Option Int) (result : Except String Bytes)
    (config : TimestampWorkerConfig) :
    UsageKept limits (p.finishTimestampTarget now number digest generation result config).2 := by
  unfold Pipeline.finishTimestampTarget
  cases htarget : p.row? number with
  | none => exact h
  | some target =>
    dsimp only
    split_ifs
    · exact h
    · exact h
    · exact h
    · cases result with
      | ok response =>
        dsimp only
        split_ifs
        · exact h
        · exact h.update htarget _
      | error error => exact h.update htarget _

/-- A commit, or one refused, keeps the usage exact. -/
theorem UsageKept.compareAndSwap (h : UsageKept limits p) (now : Timestamp)
    (expectedRevision : Option UInt64) (t : LedgerTransition) :
    UsageKept limits (p.compareAndSwap now expectedRevision t).2 := by
  unfold Pipeline.compareAndSwap PostgresLedgerStore.compareAndSwap
  cases htransact : p.store.transact expectedRevision t with
  | error error => exact ⟨h.exact, h.limits⟩
  | ok tables => exact ⟨(h.exact.transact htransact).1, h.limits⟩

/-- Every step of the pipeline keeps the usage exact. -/
theorem UsageKept.step (h : UsageKept limits p) (config : TimestampWorkerConfig)
    (input : PipelineInput) : UsageKept limits (p.step config input).2 := by
  cases input with
  | compareAndSwap now expectedRevision t => exact h.compareAndSwap now expectedRevision t
  | claimTimestamp now locked => exact h.claimTimestamp now locked config.maxAttempts
  | finishTimestamp now claim result => exact h.finishTimestampTarget now _ _ _ result config
  | attachTimestamp now number digest response generation =>
    have hfinished := h.finishTimestampTarget now number digest generation (.ok response) .default
    show UsageKept limits (p.attachTimestamp now number digest response generation).2
    unfold Pipeline.attachTimestamp
    generalize p.finishTimestampTarget now number digest generation (.ok response) .default
      = finished at hfinished ⊢
    obtain ⟨result, after⟩ := finished
    rcases result with error | (_ | _) <;> exact hfinished

/-- Capacity accounting is exact and admissions never overshoot. After every run of transitions,
claims and completions the usage is what the rows amount to. And for the next transition with
records, whatever it is: if it commits, the usage after it is the one the check predicted, and at
most each limit; if a limit has been reached or would be passed, it is refused and no row
changes. -/
theorem run_accounting (config : TimestampWorkerConfig) (ledgerId : String)
    (limits : CapacityLimits)
    (inputs : List PipelineInput) :
    let p := (run config ledgerId limits inputs).1
    let usage := p.store.tables.usage
    usage = p.store.tables.measured
      ∧ ∀ now expectedRevision t, t.admittedRecords ≠ [] →
        let result := p.compareAndSwap now expectedRevision t
        let predicted := projection usage t
        (result.1 = .ok () →
          result.2.store.tables.usage = predicted
            ∧ (∀ limit ∈ limits.maxPendingTimestamps,
                predicted.pendingTimestamps ≤ limit.toNat)
            ∧ ∀ limit ∈ limits.maxRetainedEvidenceBytes,
                predicted.retainedEvidenceBytes ≤ limit.toNat)
          ∧ (Exceeds usage.pendingTimestamps predicted.pendingTimestamps
                limits.maxPendingTimestamps
              ∨ Exceeds usage.retainedEvidenceBytes predicted.retainedEvidenceBytes
                limits.maxRetainedEvidenceBytes →
            (∃ error, result.1 = .error error) ∧ result.2 = p) := by
  intro p usage
  -- the usage is kept exact from the first state on
  have hkept : UsageKept limits p := by
    refine runTrace_induction (P := fun p _ => UsageKept limits p) ?_ ?_ inputs
    · exact ⟨⟨rfl, rfl, by simp [new, PostgresLedgerStore.new, Tables.empty]⟩, rfl⟩
    · intro p _ input hkept
      exact hkept.step config input
  refine ⟨hkept.exact.usage, ?_⟩
  intro now expectedRevision t hrecords result predicted
  -- a commit has passed the check of both limits
  have hcommitted : ∀ tables, p.store.transact expectedRevision t = .ok tables →
      ¬ Exceeds usage.pendingTimestamps predicted.pendingTimestamps limits.maxPendingTimestamps
        ∧ ¬ Exceeds usage.retainedEvidenceBytes predicted.retainedEvidenceBytes
          limits.maxRetainedEvidenceBytes := by
    intro tables htransact
    obtain ⟨stated, sealed, closed, admitted, hwrites⟩ := transact_eq_ok htransact
    rw [← hkept.limits]
    exact checkCapacity_eq_ok hrecords hwrites.capacity
  have hresult : result = p.compareAndSwap now expectedRevision t := rfl
  unfold Pipeline.compareAndSwap PostgresLedgerStore.compareAndSwap at hresult
  -- a refused transition changes nothing, one that commits is within the limits
  cases htransact : p.store.transact expectedRevision t with
  | error error =>
    rw [htransact] at hresult
    rw [hresult]
    constructor
    · intro hok
      cases hok
    · intro _
      exact ⟨⟨error, rfl⟩, rfl⟩
  | ok tables =>
    rw [htransact] at hresult
    rw [hresult]
    obtain ⟨hpending, hbytes⟩ := hcommitted tables htransact
    refine ⟨fun _ => ⟨(hkept.exact.transact htransact).2, ?_, ?_⟩, ?_⟩
    · intro limit hlimit
      by_contra hover
      exact hpending ⟨limit, hlimit, .inr (by omega)⟩
    · intro limit hlimit
      by_contra hover
      exact hbytes ⟨limit, hlimit, .inr (by omega)⟩
    · rintro (hexceeds | hexceeds)
      · exact absurd hexceeds hpending
      · exact absurd hexceeds hbytes

end Pipeline

end TrackOne
