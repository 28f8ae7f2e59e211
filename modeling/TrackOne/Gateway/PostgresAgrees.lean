import TrackOne.Lib.TreeMap
import TrackOne.Gateway.Deltas
import TrackOne.Gateway.Postgres

/-!
# The tables refine the producer state

`compare_and_swap` of the PostgreSQL store writes only what changed: it moves the open rows to the
segment that the store finds for them and inserts every new record where `record_deltas` sends it.
`Agrees` says that the tables have the state, the open records and the records of every sealed
segment; `Agrees.transact` that a transition of the producer leads from tables that agree with
its state to tables that agree with the next one, without a duplicate key or a wrong row count.

The steps follow the transaction: the state row, the segment rows, the transfer of the open rows,
the admitted records. `Tabulates` is the invariant of the last two: the record tables have the
contents that `Routed` counts.
-/

namespace TrackOne

/-! ## Agreement -/

/-- The artifact columns of a segment. -/
def SegmentRow.artifact (row : SegmentRow) : String × Bytes × String :=
  (row.closeReason, row.artifactCbor, row.artifactSha256)

def SealedSegment.artifact (segment : SealedSegment) : String × Bytes × String :=
  (segment.closeReason.asStr, segment.artifactCbor, segment.artifactSha256)

/-- The segment table has the artifact of every segment under its number. -/
def SegmentRows (tables : Tables) (segments : List SealedSegment) : Prop :=
  ∀ number : UInt64, tables.sealedSegment[number]?.map SegmentRow.artifact
    = segments[number.toNat]?.map SealedSegment.artifact

/-- The tables of the store have the state and the sealed segments. -/
structure Agrees (store : PostgresLedgerStore) (state : ProducerState)
    (segments : List SealedSegment) : Prop where
  ledgerId : state.ledgerId = store.ledgerId
  ledgerState : store.tables.ledgerState = some (LedgerStateRow.ofState state)
  openRecord : TreeMap.Indexes store.tables.openRecord state.openInterval.records
  openLength : state.openInterval.records.length < 2 ^ 64
  sealedSegment : SegmentRows store.tables segments
  sealedRecord : ∀ number ordinal : UInt64, store.tables.sealedRecord[(number, ordinal)]?
    = segments[number.toNat]?.bind fun segment => segment.records[ordinal.toNat]?

/-- The rows of one segment are ordered by their ordinals. -/
theorem compareRecordKey_same (number ordinal ordinal' : UInt64) :
    compareRecordKey (number, ordinal) (number, ordinal') = compare ordinal ordinal' := by
  have hself : compare number number = .eq := Std.ReflCmp.compare_self
  change (compare number number).then (compare ordinal ordinal') = compare ordinal ordinal'
  rw [hself]
  rfl

namespace Agrees

variable {store : PostgresLedgerStore} {state : ProducerState} {segments : List SealedSegment}

theorem openRecords_eq (h : Agrees store state segments) :
    store.tables.openRecords = state.openInterval.records :=
  h.openRecord.map_snd_toList h.openLength.le

/-- The rows of one segment, read by ordinal, are its records. -/
theorem sealedRecords_eq (h : Agrees store state segments) {number : UInt64}
    {segment : SealedSegment} (hsegment : segments[number.toNat]? = some segment)
    (hlength : segment.records.length ≤ 2 ^ 64) :
    store.tables.sealedRecords number = segment.records := by
  have hread : store.tables.sealedRecords number
      = ((store.tables.sealedRecord.toList.filter fun row => row.1.1 = number).map
          fun row => (row.1.2, row.2)).map Prod.snd := by
    simp [Tables.sealedRecords, Function.comp_def]
  rw [hread]
  apply TreeMap.map_snd_eq hlength
  · rw [List.pairwise_map, List.pairwise_filter]
    apply Std.ExtTreeMap.ordered_keys_toList.imp
    rintro ⟨⟨n, o⟩, r⟩ ⟨⟨n', o'⟩, r'⟩ hlt hn hn'
    simp only [decide_eq_true_eq] at hn hn'
    subst hn hn'
    rwa [compareRecordKey_same] at hlt
  · intro ordinal record
    have hrow : (ordinal, record) ∈ (store.tables.sealedRecord.toList.filter
        fun row => row.1.1 = number).map (fun row => (row.1.2, row.2))
        ↔ ((number, ordinal), record) ∈ store.tables.sealedRecord.toList := by
      simp only [List.mem_map, List.mem_filter, decide_eq_true_eq]
      constructor
      · rintro ⟨⟨⟨n, o⟩, r⟩, ⟨hmem, rfl⟩, heq⟩
        cases heq
        exact hmem
      · intro hmem
        exact ⟨((number, ordinal), record), ⟨hmem, rfl⟩, rfl⟩
    rw [hrow, Std.ExtTreeMap.mem_toList_iff_getElem?_eq_some, h.sealedRecord, hsegment]
    rfl

end Agrees

theorem parse_columns (policy : ClosurePolicy) : policy.columns.parse = .ok policy := by
  obtain ⟨intervalMs, batchRecordLimit, recordLimit, sizeLimitBytes, emptyMode⟩ := policy
  cases emptyMode <;> rfl

/-- `load` returns the state that the tables agree with. -/
theorem Agrees.load_eq {store : PostgresLedgerStore} {state : ProducerState}
    {segments : List SealedSegment} (h : Agrees store state segments) :
    store.load = .ok (some state) := by
  simp only [PostgresLedgerStore.load, h.ledgerState, LedgerStateRow.ofState, parse_columns,
    h.openRecords_eq, ← h.ledgerId, bind, Except.bind, pure, Except.pure]

/-! ## The segment rows -/

theorem insertSealedSegment_ok {tables : Tables} {segment : SealedSegment}
    (hnew : segment.segmentNumber ∉ tables.sealedSegment) (hstate : tables.ledgerState.isSome) :
    ∃ pipelineUsage, tables.insertSealedSegment segment = .ok { tables with
      sealedSegment :=
        tables.sealedSegment.insert segment.segmentNumber (Tables.segmentRow segment)
      pipelineUsage } := by
  refine ⟨tables.pipelineUsage.map (accountSegment none (some (Tables.segmentRow segment))), ?_⟩
  simp only [Tables.insertSealedSegment, Except.bind_eq_ok, Except.require_eq_ok]
  exact ⟨(), by simpa using hnew, (), hstate, rfl⟩

/-- The segments of a transition are inserted after those that are there. -/
theorem foldlM_insertSealedSegment {tables : Tables} {segments new : List SealedSegment}
    (hrows : SegmentRows tables segments) (hstate : tables.ledgerState.isSome)
    (hnumbers : ∀ (i : Nat) (segment : SealedSegment), (segments ++ new)[i]? = some segment →
      segment.segmentNumber.toNat = i) :
    ∃ sealedSegment pipelineUsage,
      new.foldlM Tables.insertSealedSegment tables
        = .ok { tables with sealedSegment, pipelineUsage }
      ∧ SegmentRows { tables with sealedSegment, pipelineUsage } (segments ++ new) := by
  induction new generalizing tables segments with
  | nil => exact ⟨tables.sealedSegment, tables.pipelineUsage, rfl, by simpa using hrows⟩
  | cons segment new ih =>
    have hnumber : segment.segmentNumber.toNat = segments.length :=
      hnumbers segments.length segment (by simp)
    have hnew : segment.segmentNumber ∉ tables.sealedSegment := by
      have hnone := hrows segment.segmentNumber
      rw [hnumber, List.getElem?_eq_none (le_refl _), Option.map_none, Option.map_eq_none_iff]
        at hnone
      rw [Std.ExtTreeMap.mem_iff_isSome_getElem?, hnone]
      simp
    obtain ⟨usage, hinsert⟩ := insertSealedSegment_ok hnew hstate
    have hinserted : SegmentRows { tables with
        sealedSegment :=
          tables.sealedSegment.insert segment.segmentNumber (Tables.segmentRow segment)
        pipelineUsage := usage } (segments ++ [segment]) := by
      intro number
      simp only
      rw [TreeMap.getElem?_concat_key hnumber, Std.ExtTreeMap.getElem?_insert]
      simp only [Std.LawfulEqCmp.compare_eq_iff_eq]
      split_ifs with heq
      · rfl
      · exact hrows number
    obtain ⟨sealedSegment, usage', hfold, hafter⟩ := ih hinserted hstate (by simpa using hnumbers)
    refine ⟨sealedSegment, usage', ?_, by simpa using hafter⟩
    rw [List.foldlM_cons, hinsert]
    exact hfold

theorem SegmentRows.mem {tables : Tables} {segments : List SealedSegment}
    {segment : SealedSegment} (h : SegmentRows tables segments)
    (hsegment : segments[segment.segmentNumber.toNat]? = some segment) :
    segment.segmentNumber ∈ tables.sealedSegment := by
  have hrow := h segment.segmentNumber
  rw [hsegment, Option.map_some, Option.map_eq_some_iff] at hrow
  obtain ⟨row, hrow, -⟩ := hrow
  rw [Std.ExtTreeMap.mem_iff_isSome_getElem?, hrow]
  rfl

/-! ## The record tables -/

/-- The record tables have the given contents: in the segments that are being sealed and in the open
interval. The rows of the segments before them stay as they are. -/
structure Tabulates (tables : Tables) (segments : List SealedSegment)
    (sealedNumbers : List UInt64) (openNumber : UInt64) (c : Contents) : Prop where
  sealedRecord : ∀ number ∈ sealedNumbers, ∀ ordinal : UInt64,
    tables.sealedRecord[(number, ordinal)]? = (c number)[ordinal.toNat]?
  openRecord : TreeMap.Indexes tables.openRecord (c openNumber)
  earlier : ∀ number ∉ sealedNumbers, ∀ ordinal : UInt64,
    tables.sealedRecord[(number, ordinal)]?
      = segments[number.toNat]?.bind fun segment => segment.records[ordinal.toNat]?

theorem insertSealedRecord_ok {tables : Tables} {number ordinal : UInt64} (record : Bytes)
    (hnew : tables.sealedRecord[(number, ordinal)]? = none)
    (hsegment : number ∈ tables.sealedSegment) :
    ∃ pipelineUsage, tables.insertSealedRecord number ordinal record = .ok { tables with
      sealedRecord := tables.sealedRecord.insert (number, ordinal) record, pipelineUsage } := by
  have hmem : (number, ordinal) ∉ tables.sealedRecord := by
    rw [Std.ExtTreeMap.mem_iff_isSome_getElem?, hnew]
    simp
  refine ⟨tables.pipelineUsage.map (accountRecord none (some record)), ?_⟩
  simp only [Tables.insertSealedRecord, Except.bind_eq_ok, Except.require_eq_ok]
  exact ⟨(), by simpa using hmem, (), by simpa using hsegment, rfl⟩

theorem insertOpenRecord_ok {tables : Tables} {ordinal : UInt64} (record : Bytes)
    (hnew : tables.openRecord[ordinal]? = none) (hstate : tables.ledgerState.isSome) :
    ∃ pipelineUsage, tables.insertOpenRecord ordinal record = .ok { tables with
      openRecord := tables.openRecord.insert ordinal record, pipelineUsage } := by
  have hmem : ordinal ∉ tables.openRecord := by
    rw [Std.ExtTreeMap.mem_iff_isSome_getElem?, hnew]
    simp
  refine ⟨tables.pipelineUsage.map (accountRecord none (some record)), ?_⟩
  simp only [Tables.insertOpenRecord, Except.bind_eq_ok, Except.require_eq_ok]
  exact ⟨(), by simpa using hmem, (), hstate, rfl⟩

theorem getElem?_insert_sealedRecord
    (sealedRecord : Std.ExtTreeMap (UInt64 × UInt64) Bytes compareRecordKey)
    (number ordinal number' ordinal' : UInt64) (record : Bytes) :
    (sealedRecord.insert (number, ordinal) record)[(number', ordinal')]?
      = if number = number' ∧ ordinal = ordinal' then some record
        else sealedRecord[(number', ordinal')]? := by
  rw [Std.ExtTreeMap.getElem?_insert]
  simp only [Std.LawfulEqCmp.compare_eq_iff_eq, Prod.mk.injEq]

/-! ## The transfer of the open rows -/

/-- Rows with distinct ordinals are copied into a segment that has none of them. -/
theorem foldlM_insertSealedRecord {tables : Tables} {number : UInt64}
    {rows : List (UInt64 × Bytes)} (hsegment : number ∈ tables.sealedSegment)
    (hdistinct : rows.Pairwise fun row row' => row.1 ≠ row'.1)
    (hnew : ∀ row ∈ rows, tables.sealedRecord[(number, row.1)]? = none) :
    ∃ sealedRecord pipelineUsage,
      rows.foldlM (fun tables row => tables.insertSealedRecord number row.1 row.2) tables
        = .ok { tables with sealedRecord, pipelineUsage }
      ∧ ∀ number' ordinal record, sealedRecord[(number', ordinal)]? = some record
          ↔ number' = number ∧ (ordinal, record) ∈ rows
            ∨ tables.sealedRecord[(number', ordinal)]? = some record := by
  induction rows generalizing tables with
  | nil => exact ⟨tables.sealedRecord, tables.pipelineUsage, rfl, by simp⟩
  | cons row rows ih =>
    obtain ⟨hfirst, hrest⟩ := List.pairwise_cons.mp hdistinct
    obtain ⟨hnone, hlater⟩ := List.forall_mem_cons.mp hnew
    obtain ⟨usage, hinsert⟩ := insertSealedRecord_ok row.2 hnone hsegment
    -- the rest of the rows is still new after the first
    have hstill : ∀ row' ∈ rows,
        (tables.sealedRecord.insert (number, row.1) row.2)[(number, row'.1)]? = none := by
      intro row' hmem
      rw [getElem?_insert_sealedRecord, if_neg (fun hboth => hfirst row' hmem hboth.2)]
      exact hlater row' hmem
    let inserted : Tables := { tables with
      sealedRecord := tables.sealedRecord.insert (number, row.1) row.2
      pipelineUsage := usage }
    have hsegment' : number ∈ inserted.sealedSegment := hsegment
    obtain ⟨sealedRecord, usage', hfold, hlookup⟩ := ih hsegment' hrest hstill
    refine ⟨sealedRecord, usage', ?_, ?_⟩
    · rw [List.foldlM_cons, hinsert]
      exact hfold
    -- a row is the first, one of the rest, or an old one
    · intro number' ordinal record
      rw [hlookup, getElem?_insert_sealedRecord, List.mem_cons]
      by_cases heq : number = number' ∧ row.1 = ordinal
      · obtain ⟨rfl, rfl⟩ := heq
        have hnotin : ∀ record', (row.1, record') ∉ rows :=
          fun record' hmem => hfirst _ hmem rfl
        rw [if_pos ⟨rfl, rfl⟩, hnone]
        simp [hnotin, Prod.ext_iff, eq_comm]
      · rw [if_neg heq]
        have hne : number' = number → (ordinal, record) ≠ row := by
          rintro rfl rfl
          exact heq ⟨rfl, rfl⟩
        constructor
        · rintro (⟨hnumber, hmem⟩ | hold)
          · exact .inl ⟨hnumber, .inr hmem⟩
          · exact .inr hold
        · rintro (⟨hnumber, hmem⟩ | hold)
          · exact .inl ⟨hnumber, hmem.resolve_left (hne hnumber)⟩
          · exact .inr hold

/-- The open rows go to a segment that has no rows yet. -/
theorem copyOpenRecords_ok {tables : Tables} {number : UInt64} {records : List Bytes}
    (hopen : TreeMap.Indexes tables.openRecord records) (hlength : records.length ≤ 2 ^ 64)
    (hsegment : number ∈ tables.sealedSegment)
    (hempty : ∀ ordinal : UInt64, tables.sealedRecord[(number, ordinal)]? = none) :
    ∃ sealedRecord pipelineUsage,
      tables.copyOpenRecords number
        = .ok (records.length, { tables with sealedRecord, pipelineUsage })
      ∧ ∀ number' ordinal : UInt64, sealedRecord[(number', ordinal)]?
          = if number' = number then records[ordinal.toNat]?
            else tables.sealedRecord[(number', ordinal)]? := by
  have hdistinct : tables.openRecord.toList.Pairwise fun row row' => row.1 ≠ row'.1 := by
    apply Std.ExtTreeMap.distinct_keys_toList.imp
    intro row row' hne heq
    exact hne (Std.LawfulEqCmp.compare_eq_iff_eq.mpr heq)
  obtain ⟨sealedRecord, usage, hfold, hlookup⟩ :=
    foldlM_insertSealedRecord hsegment hdistinct fun row _ => hempty row.1
  refine ⟨sealedRecord, usage, ?_, ?_⟩
  · rw [Tables.copyOpenRecords, hfold, ← hopen.size_eq hlength]
    rfl
  · intro number' ordinal
    apply Option.ext
    intro record
    rw [hlookup, Std.ExtTreeMap.mem_toList_iff_getElem?_eq_some, hopen ordinal]
    by_cases heq : number' = number
    · simp [heq, hempty]
    · simp [heq]

/-! ## The admitted records -/

/-- An admitted record joins the end of a segment that is being sealed. -/
theorem Tabulates.insertSealedRecord {tables : Tables} {segments : List SealedSegment}
    {sealedNumbers : List UInt64} {openNumber number ordinal : UInt64} {c : Contents}
    {record : Bytes} {pipelineUsage : Option PipelineUsage}
    (h : Tabulates tables segments sealedNumbers openNumber c) (hopen : openNumber ∉ sealedNumbers)
    (hnumber : number ∈ sealedNumbers) (hordinal : ordinal.toNat = (c number).length) :
    Tabulates { tables with
        sealedRecord := tables.sealedRecord.insert (number, ordinal) record, pipelineUsage }
      segments sealedNumbers openNumber (c.push number record) := by
  refine ⟨?_, ?_, ?_⟩
  · intro number' hnumber' ordinal'
    simp only
    rw [getElem?_insert_sealedRecord]
    by_cases heq : number = number'
    · subst heq
      rw [Contents.push_same, TreeMap.getElem?_concat_key hordinal,
        h.sealedRecord number hnumber ordinal']
      simp only [true_and]
    · rw [if_neg (fun hboth => heq hboth.1), Contents.push_ne c record (Ne.symm heq)]
      exact h.sealedRecord number' hnumber' ordinal'
  · have hne : openNumber ≠ number := fun heq => hopen (heq ▸ hnumber)
    rw [Contents.push_ne c record hne]
    exact h.openRecord
  · intro number' hnumber' ordinal'
    simp only
    have hne : number ≠ number' := fun heq => hnumber' (heq ▸ hnumber)
    rw [getElem?_insert_sealedRecord, if_neg (fun hboth => hne hboth.1)]
    exact h.earlier number' hnumber' ordinal'

/-- An admitted record joins the end of the open interval. -/
theorem Tabulates.insertOpenRecord {tables : Tables} {segments : List SealedSegment}
    {sealedNumbers : List UInt64} {openNumber ordinal : UInt64} {c : Contents}
    {record : Bytes} {pipelineUsage : Option PipelineUsage}
    (h : Tabulates tables segments sealedNumbers openNumber c) (hopen : openNumber ∉ sealedNumbers)
    (hordinal : ordinal.toNat = (c openNumber).length) :
    Tabulates { tables with
        openRecord := tables.openRecord.insert ordinal record, pipelineUsage }
      segments sealedNumbers openNumber (c.push openNumber record) := by
  refine ⟨?_, ?_, h.earlier⟩
  · intro number hnumber ordinal'
    have hne : number ≠ openNumber := fun heq => hopen (heq ▸ hnumber)
    rw [Contents.push_ne c record hne]
    exact h.sealedRecord number hnumber ordinal'
  · rw [Contents.push_same]
    exact h.openRecord.insert hordinal record

/-- The admitted records go in without a duplicate key. -/
theorem foldlM_insertAdmitted {tables : Tables} {segments : List SealedSegment}
    {sealedNumbers : List UInt64} {openNumber : UInt64} {c : Contents}
    {entries : List (Bytes × UInt64)} {deltas : List AdmittedRecordDelta}
    (hrouted : Routed sealedNumbers openNumber c entries deltas)
    (hopen : openNumber ∉ sealedNumbers)
    (h : Tabulates tables segments sealedNumbers openNumber c)
    (hstate : tables.ledgerState.isSome)
    (hsegments : ∀ number ∈ sealedNumbers, number ∈ tables.sealedSegment) :
    ∃ openRecord sealedRecord pipelineUsage,
      deltas.foldlM Tables.insertAdmitted tables
        = .ok { tables with openRecord, sealedRecord, pipelineUsage }
      ∧ Tabulates { tables with openRecord, sealedRecord, pipelineUsage } segments sealedNumbers
          openNumber (c.pushAll entries) := by
  induction hrouted generalizing tables with
  | nil c => exact ⟨tables.openRecord, tables.sealedRecord, tables.pipelineUsage, rfl, h⟩
  | @sealed c record number ordinal rest deltas hnumber hordinal _ ih =>
    have hnew : tables.sealedRecord[(number, ordinal)]? = none := by
      rw [h.sealedRecord number hnumber, hordinal, List.getElem?_eq_none (le_refl _)]
    obtain ⟨usage, hinsert⟩ := insertSealedRecord_ok record hnew (hsegments number hnumber)
    obtain ⟨openRecord, sealedRecord, usage', hfold, hafter⟩ :=
      ih (h.insertSealedRecord hopen hnumber hordinal) hstate hsegments
    have hadmits : tables.insertAdmitted ⟨record, .sealed number ordinal⟩ = .ok _ := hinsert
    refine ⟨openRecord, sealedRecord, usage', ?_, hafter⟩
    rw [List.foldlM_cons, hadmits]
    exact hfold
  | @«open» c record ordinal rest deltas hordinal _ _ ih =>
    have hnew : tables.openRecord[ordinal]? = none := by
      rw [h.openRecord, hordinal, List.getElem?_eq_none (le_refl _)]
    obtain ⟨usage, hinsert⟩ := insertOpenRecord_ok record hnew hstate
    obtain ⟨openRecord, sealedRecord, usage', hfold, hafter⟩ :=
      ih (h.insertOpenRecord hopen hordinal) hstate hsegments
    have hadmits : tables.insertAdmitted ⟨record, .open ordinal⟩ = .ok _ := hinsert
    refine ⟨openRecord, sealedRecord, usage', ?_, hafter⟩
    rw [List.foldlM_cons, hadmits]
    exact hfold

/-! ## The transaction -/

section Transaction

variable [Sha256] {store : PostgresLedgerStore} {state : ProducerState}
  {segments : List SealedSegment} {admitted : List (Bytes × UInt64)} {t : LedgerTransition}

/-- When something is sealed, the first segment takes the records that were open. -/
theorem sealed_head (hchained : Chained state segments) (hcommits : Commits state admitted t)
    {first : SealedSegment} {rest : List SealedSegment} (hsealed : t.sealed = first :: rest) :
    first.segmentNumber = state.nextSegmentNumber
      ∧ ∃ more, first.records = state.openInterval.records ++ more := by
  have hmem : first ∈ t.sealed := by simp [hsealed]
  have hnumber : first.segmentNumber = state.nextSegmentNumber := by
    apply UInt64.toNat_inj.mp
    rw [hchained.nextSegmentNumber]
    apply (hcommits.chained hchained).chain.segmentNumber
    simp [hsealed]
  have hrecords := pushAll_sealed hchained hcommits.moves hmem
  rw [Contents.pushAll_apply, hnumber, startContents, if_pos rfl] at hrecords
  exact ⟨hnumber, _, hrecords.symm⟩

/-- The transfer puts the open records under the number they are sealed at. -/
theorem transferOpenRecords_ok {tables : Tables} (hchained : Chained state segments)
    (hcommits : Commits state admitted t) (hsealed : t.sealed ≠ [])
    (hopen : TreeMap.Indexes tables.openRecord state.openInterval.records)
    (hlength : state.openInterval.records.length ≤ 2 ^ 64)
    (hsegments : ∀ segment ∈ t.sealed, segment.segmentNumber ∈ tables.sealedSegment)
    (hempty : ∀ ordinal : UInt64,
      tables.sealedRecord[(state.nextSegmentNumber, ordinal)]? = none) :
    ∃ sealedRecord pipelineUsage,
      PostgresLedgerStore.transferOpenRecords tables t
        = .ok { tables with sealedRecord, pipelineUsage }
      ∧ ∀ number ordinal : UInt64, sealedRecord[(number, ordinal)]?
          = if number = state.nextSegmentNumber
            then state.openInterval.records[ordinal.toNat]?
            else tables.sealedRecord[(number, ordinal)]? := by
  have hcount := hcommits.previousOpenCount
  obtain ⟨first, rest, hcons⟩ := List.exists_cons_of_ne_nil hsealed
  obtain ⟨hnumber, more, hrecords⟩ := sealed_head hchained hcommits hcons
  unfold PostgresLedgerStore.transferOpenRecords
  split_ifs with hpos
  · rw [UInt64.lt_iff_toNat_lt, hcount] at hpos
    have hfound : t.sealed.find? (fun segment => segment.records ≠ []) = some first := by
      have hne : state.openInterval.records ≠ [] := List.length_pos_iff.mp hpos
      rw [hcons, List.find?_cons_of_pos]
      simp [hrecords, hne]
    have hsegment : first.segmentNumber ∈ tables.sealedSegment :=
      hsegments first (by simp [hcons])
    obtain ⟨sealedRecord, usage, hcopy, hlookup⟩ :=
      copyOpenRecords_ok hopen hlength (hnumber ▸ hsegment) hempty
    refine ⟨sealedRecord, usage, ?_, hlookup⟩
    simp only [Except.bind_eq_ok, Except.ofOption_eq_ok]
    refine ⟨first, hfound, _, hnumber ▸ hcopy, (), ?_, rfl⟩
    simp [requireRowCount, hcount]
  · -- there was nothing open, and nothing is there
    have hnil : state.openInterval.records = [] := by
      rw [UInt64.lt_iff_toNat_lt, hcount] at hpos
      exact List.length_eq_zero_iff.mp (by simpa using hpos)
    refine ⟨tables.sealedRecord, tables.pipelineUsage, rfl, ?_⟩
    intro number ordinal
    split_ifs with heq
    · rw [heq, hempty, hnil]
      rfl
    · rfl

/-- After the transfer the record tables have what the operation started from. -/
theorem closeOpenRecords_ok {tables : Tables} (hchained : Chained state segments)
    (hcommits : Commits state admitted t)
    (hopen : TreeMap.Indexes tables.openRecord state.openInterval.records)
    (hlength : state.openInterval.records.length ≤ 2 ^ 64)
    (hsegments : ∀ segment ∈ t.sealed, segment.segmentNumber ∈ tables.sealedSegment)
    (hrecords : ∀ number ordinal : UInt64, tables.sealedRecord[(number, ordinal)]?
      = segments[number.toNat]?.bind fun segment => segment.records[ordinal.toNat]?) :
    ∃ openRecord sealedRecord pipelineUsage,
      PostgresLedgerStore.closeOpenRecords tables t
        = .ok { tables with openRecord, sealedRecord, pipelineUsage }
      ∧ Tabulates { tables with openRecord, sealedRecord, pipelineUsage } segments
          (t.sealed.map SealedSegment.segmentNumber) t.nextState.nextSegmentNumber
          (startContents state) := by
  have hstart := hchained.nextSegmentNumber
  have hnext := (hcommits.chained hchained).nextSegmentNumber
  rw [List.length_append] at hnext
  have hnumbers : ∀ number : UInt64, number ∈ t.sealed.map SealedSegment.segmentNumber
      ↔ state.nextSegmentNumber.toNat ≤ number.toNat
        ∧ number.toNat < t.nextState.nextSegmentNumber.toNat := by
    have hmem := mem_sealedNumbers hchained hcommits.moves
    exact hmem
  -- the numbers from the open one on have no rows yet
  have hfresh : ∀ number : UInt64, state.nextSegmentNumber.toNat ≤ number.toNat →
      ∀ ordinal : UInt64, tables.sealedRecord[(number, ordinal)]? = none := by
    intro number hle ordinal
    rw [hrecords, List.getElem?_eq_none (by omega)]
    rfl
  unfold PostgresLedgerStore.closeOpenRecords
  -- segments were sealed: their records move from the open table, which is emptied
  split_ifs with hsealed
  · obtain ⟨sealedRecord, usage, htransfer, hlookup⟩ := transferOpenRecords_ok hchained hcommits
      hsealed hopen hlength hsegments (hfresh _ le_rfl)
    have hmore : 0 < t.sealed.length := List.length_pos_iff.mpr hsealed
    let transferred : Tables := { tables with sealedRecord, pipelineUsage := usage }
    refine ⟨∅, sealedRecord, transferred.deleteOpenRecords.2.pipelineUsage, ?_, ?_, ?_, ?_⟩
    · simp only [Except.bind_eq_ok]
      refine ⟨transferred, htransfer, (), ?_, rfl⟩
      simp [transferred, requireRowCount, Tables.deleteOpenRecords, hopen.size_eq hlength,
        hcommits.previousOpenCount]
    -- the new rows are those of the first sealed number
    · intro number hnumber ordinal
      simp only
      rw [hlookup]
      unfold startContents
      split_ifs with heq
      · rfl
      · exact hfresh number ((hnumbers number).mp hnumber).1 ordinal
    -- the next interval has no records yet
    · have hne : t.nextState.nextSegmentNumber ≠ state.nextSegmentNumber := by
        intro heq
        have hnat := congrArg UInt64.toNat heq
        omega
      rw [startContents, if_neg hne]
      exact TreeMap.indexes_empty
    -- older rows stay
    · intro number hnumber ordinal
      have hne : number ≠ state.nextSegmentNumber := by
        rintro rfl
        exact hnumber ((hnumbers _).mpr ⟨le_rfl, by omega⟩)
      simp only
      rw [hlookup, if_neg hne]
      exact hrecords number ordinal
  -- nothing was sealed: no statement runs
  · have hnil : t.sealed = [] := not_not.mp hsealed
    have hsame : t.nextState.nextSegmentNumber = state.nextSegmentNumber := by
      apply UInt64.toNat_inj.mp
      rw [hnil] at hnext
      simpa [hstart] using hnext
    refine ⟨tables.openRecord, tables.sealedRecord, tables.pipelineUsage, rfl, ?_, ?_, ?_⟩
    · simp [hnil]
    · rw [hsame, startContents, if_pos rfl]
      exact hopen
    · intro number _ ordinal
      exact hrecords number ordinal

/-- The row that is written is the one of the next state: without a sealed segment the predecessor
does not change. -/
theorem writeState_ok (h : Agrees store state segments) (hchained : Chained state segments)
    (hcommits : Commits state admitted t) :
    PostgresLedgerStore.writeState store.tables (some state.revision) t
      = .ok (1, { store.tables with
          ledgerState := some (LedgerStateRow.ofState t.nextState) }) := by
  have hpredecessor : t.sealed = [] → t.nextState.predecessorCbor = state.predecessorCbor := by
    intro hnil
    have hnext := (hcommits.chained hchained).predecessorCbor
    rw [hnil, List.append_nil, ← hchained.predecessorCbor] at hnext
    exact hnext
  simp only [PostgresLedgerStore.writeState, Tables.updateLedgerState, h.ledgerState,
    LedgerStateRow.ofState, if_true]
  by_cases hnil : t.sealed = []
  · simp [hnil, hpredecessor hnil]
  · simp [hnil]

omit [Sha256] in
/-- A key that is new to the table is inserted. -/
theorem writeIdempotency_ok {tables : Tables} {idempotency : Option IdempotencyRecord}
    (hkey : ∀ admission, idempotency = some admission → admission.key ∉ tables.idempotency) :
    ∃ rows, PostgresLedgerStore.writeIdempotency tables idempotency
      = .ok { tables with idempotency := rows } := by
  cases idempotency with
  | none => exact ⟨tables.idempotency, rfl⟩
  | some admission =>
    refine ⟨tables.idempotency.insert admission.key admission, ?_⟩
    simp only [PostgresLedgerStore.writeIdempotency, Tables.insertIdempotency,
      hkey admission rfl, if_false, Except.bind_eq_ok, Except.require_eq_ok]
    exact ⟨(), by simp, rfl⟩

/-- The contents after the operation are the records of its segments and of the segments before. -/
theorem Tabulates.sealedRecord_eq {tables : Tables} (hchained : Chained state segments)
    (hcommits : Commits state admitted t)
    (h : Tabulates tables segments (t.sealed.map SealedSegment.segmentNumber)
      t.nextState.nextSegmentNumber ((startContents state).pushAll admitted))
    (number ordinal : UInt64) :
    tables.sealedRecord[(number, ordinal)]?
      = (segments ++ t.sealed)[number.toNat]?.bind
          fun segment => segment.records[ordinal.toNat]? := by
  have hnext := hcommits.chained hchained
  by_cases hnumber : number ∈ t.sealed.map SealedSegment.segmentNumber
  · obtain ⟨segment, hmem, rfl⟩ := List.mem_map.mp hnumber
    obtain ⟨i, hi⟩ := List.mem_iff_getElem?.mp (List.mem_append_right segments hmem)
    rw [h.sealedRecord _ hnumber, hnext.chain.segmentNumber hi, hi,
      pushAll_sealed hchained hcommits.moves hmem]
    rfl
  · rw [h.earlier number hnumber]
    by_cases hlt : number.toNat < segments.length
    · rw [List.getElem?_append_left hlt]
    · have hnone : (segments ++ t.sealed)[number.toNat]? = none := by
        cases hsome : (segments ++ t.sealed)[number.toNat]? with
        | none => rfl
        | some segment =>
          have heq := UInt64.toNat_inj.mp (hnext.chain.segmentNumber hsome)
          rw [List.getElem?_append_right (by omega)] at hsome
          exact absurd (List.mem_map.mpr ⟨segment, List.mem_of_getElem? hsome, heq⟩) hnumber
      rw [hnone, List.getElem?_eq_none (by omega)]

theorem openNumber_notMem (hchained : Chained state segments)
    (hcommits : Commits state admitted t) :
    t.nextState.nextSegmentNumber ∉ t.sealed.map SealedSegment.segmentNumber := by
  have hmem := mem_sealedNumbers hchained hcommits.moves t.nextState.nextSegmentNumber
  exact fun hin => Nat.lt_irrefl _ (hmem.mp hin).2

/-- Tables with the state row, the segment rows and the contents after the operation agree with the
next state. -/
theorem Tabulates.agrees {tables : Tables} (h : Agrees store state segments)
    (hchained : Chained state segments) (hcommits : Commits state admitted t)
    (hrouted : Routed (t.sealed.map SealedSegment.segmentNumber) t.nextState.nextSegmentNumber
      (startContents state) admitted t.admittedRecords)
    (hstate : tables.ledgerState = some (LedgerStateRow.ofState t.nextState))
    (hrows : SegmentRows tables (segments ++ t.sealed))
    (hcontents : Tabulates tables segments (t.sealed.map SealedSegment.segmentNumber)
      t.nextState.nextSegmentNumber ((startContents state).pushAll admitted)) :
    Agrees { store with tables } t.nextState (segments ++ t.sealed) := by
  have hopen : (startContents state).pushAll admitted t.nextState.nextSegmentNumber
      = t.nextState.openInterval.records := by
    have hrecords := pushAll_open hchained hcommits.moves
    exact hrecords
  have hlength : (startContents state t.nextState.nextSegmentNumber).length < 2 ^ 64 := by
    unfold startContents
    split_ifs
    · exact h.openLength
    · simp
  refine ⟨hcommits.moves.identity.2.1.trans h.ledgerId, hstate, ?_, ?_, hrows,
    hcontents.sealedRecord_eq hchained hcommits⟩
  · rw [← hopen]
    exact hcontents.openRecord
  · rw [← hopen]
    exact hrouted.length_open (openNumber_notMem hchained hcommits) hlength

/-- A transition of the producer goes through, unless the capacity check refuses it, and leaves
tables that agree with the next state. -/
theorem Agrees.transact (h : Agrees store state segments) (hchained : Chained state segments)
    (hcommits : Commits state admitted t)
    (hrouted : Routed (t.sealed.map SealedSegment.segmentNumber) t.nextState.nextSegmentNumber
      (startContents state) admitted t.admittedRecords)
    (hkey : ∀ admission, t.idempotency = some admission →
      admission.key ∉ store.tables.idempotency)
    (hcapacity : store.checkCapacity t = .ok ()) :
    ∃ tables, store.transact (some state.revision) t = .ok tables
      ∧ Agrees { store with tables } t.nextState (segments ++ t.sealed) := by
  have hnext := hcommits.chained hchained
  have hledger : t.nextState.ledgerId = store.ledgerId :=
    hcommits.moves.identity.2.1.trans h.ledgerId
  -- the state row
  have hwrite := writeState_ok h hchained hcommits
  let written : Tables := { store.tables with
    ledgerState := some (LedgerStateRow.ofState t.nextState) }
  have hwritten : SegmentRows written segments := h.sealedSegment
  -- the segment rows
  obtain ⟨sealedSegment, usage₁, hsegments, hrows⟩ := foldlM_insertSealedSegment hwritten rfl
    fun i segment hi => hnext.chain.segmentNumber hi
  let sealed : Tables := { written with sealedSegment, pipelineUsage := usage₁ }
  have hpresent : ∀ segment ∈ t.sealed, segment.segmentNumber ∈ sealed.sealedSegment := by
    intro segment hmem
    obtain ⟨i, hi⟩ := List.mem_iff_getElem?.mp (List.mem_append_right segments hmem)
    apply SegmentRows.mem hrows
    rw [hnext.chain.segmentNumber hi, hi]
  -- the open rows
  have hopen : TreeMap.Indexes sealed.openRecord state.openInterval.records := h.openRecord
  obtain ⟨openRecord₂, sealedRecord₂, usage₂, hclose, htransferred⟩ :=
    closeOpenRecords_ok hchained hcommits hopen h.openLength.le hpresent h.sealedRecord
  -- the admitted records
  obtain ⟨openRecord₃, sealedRecord₃, usage₃, hinsert, hcontents⟩ :=
    foldlM_insertAdmitted hrouted (openNumber_notMem hchained hcommits) htransferred rfl (by
      intro number hnumber
      obtain ⟨segment, hmem, rfl⟩ := List.mem_map.mp hnumber
      exact hpresent segment hmem)
  let recorded : Tables := { sealed with
    openRecord := openRecord₃, sealedRecord := sealedRecord₃, pipelineUsage := usage₃ }
  have hnew : ∀ admission, t.idempotency = some admission →
      admission.key ∉ recorded.idempotency := hkey
  obtain ⟨rows, hidempotency⟩ := writeIdempotency_ok hnew
  refine ⟨{ recorded with idempotency := rows }, ?_, ?_⟩
  · simp only [PostgresLedgerStore.transact, Except.bind_eq_ok, Except.require_eq_ok]
    exact ⟨(), by simpa using hledger, (), hcapacity, _, hwrite, (), rfl, _, hsegments, _, hclose,
      _, hinsert, hidempotency⟩
  · exact Tabulates.agrees h hchained hcommits hrouted rfl hrows
      ⟨hcontents.sealedRecord, hcontents.openRecord, hcontents.earlier⟩

end Transaction

end TrackOne
