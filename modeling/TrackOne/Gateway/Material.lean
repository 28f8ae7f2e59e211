import TrackOne.Gateway.Export
import TrackOne.Gateway.Workers

/-!
# The material of a sealed segment

The exporter reads the tables in one snapshot, at any moment between the transactions of the
producer and of the timestamp workers.

* `readMaterial_verified`: what it reads of a segment whose timestamp is there is what the producer
  has sealed, whatever has happened since.
* `reproduces_materialAt`: and the segment is reproduced from it.
* `exists_material` and `readMaterial_later`: so it is in a running gateway, at this and at any
  later moment. -/

namespace TrackOne.Snapshot

open Evidence

variable [Sha256]

/-- The material of a segment of a ledger. -/
def materialAt (segments : List SealedSegment) (number : UInt64) (sealed : SealedSegment)
    (response : Bytes) : SnapshotMaterial where
  artifact := sealed.artifactCbor
  artifactSha256 := sealed.artifactSha256
  predecessor := lastArtifact (segments.take number.toNat)
  records := sealed.records
  tsaResponse := response

section

variable {store : PostgresLedgerStore} {state : ProducerState} {segments : List SealedSegment}
variable {number : UInt64} {sealed : SealedSegment} {row : SegmentRow} {response : Bytes}

omit [Sha256] in
/-- The artifact before a segment. -/
theorem lastArtifact_take (hsealed : segments[number.toNat]? = some sealed) (hpos : number ≠ 0) :
    ∃ previous, segments[(number - 1).toNat]? = some previous
      ∧ (number - 1).toNat + 1 = number.toNat
      ∧ lastArtifact (segments.take number.toNat) = some previous.artifactCbor := by
  have hne : number.toNat ≠ 0 := fun h0 => hpos (UInt64.toNat_inj.mp h0)
  obtain ⟨hlt, -⟩ := List.getElem?_eq_some_iff.mp hsealed
  have hprevious : (number - 1).toNat = number.toNat - 1 := by
    rw [UInt64.toNat_sub_of_le _ _ (UInt64.le_iff_toNat_le.mpr (by simp; omega)), UInt64.toNat_one]
  have hget : segments[number.toNat - 1]? = some segments[number.toNat - 1] :=
    List.getElem?_eq_getElem (by omega)
  refine ⟨segments[number.toNat - 1], by rw [hprevious, hget], by omega, ?_⟩
  rw [lastArtifact, List.getLast?_take, if_neg hne, hget]
  rfl

omit [Sha256] in
/-- A row of the segment table is that of a sealed segment. -/
theorem exists_sealed (h : SegmentRows store.tables segments)
    (hrow : store.tables.sealedSegment[number]? = some row) :
    ∃ sealed, segments[number.toNat]? = some sealed ∧ row.artifactCbor = sealed.artifactCbor
      ∧ row.artifactSha256 = sealed.artifactSha256 := by
  have hartifact := h number
  rw [hrow, Option.map_some] at hartifact
  obtain ⟨sealed, hsealed, heq⟩ := Option.map_eq_some_iff.mp hartifact.symm
  simp only [SegmentRow.artifact, SealedSegment.artifact, Prod.mk.injEq] at heq
  exact ⟨sealed, hsealed, heq.2.1.symm, heq.2.2.symm⟩

omit [Sha256] in
theorem exists_row (h : SegmentRows store.tables segments)
    (hsealed : segments[number.toNat]? = some sealed) :
    ∃ row, store.tables.sealedSegment[number]? = some row
      ∧ row.artifactCbor = sealed.artifactCbor := by
  have hartifact := h number
  rw [hsealed, Option.map_some] at hartifact
  obtain ⟨row, hrow, heq⟩ := Option.map_eq_some_iff.mp hartifact
  simp only [SegmentRow.artifact, SealedSegment.artifact, Prod.mk.injEq] at heq
  exact ⟨row, hrow, heq.2.1⟩

/-- What is read of a segment whose timestamp is there. -/
theorem readMaterial_verified (h : Agrees store state segments) (hchained : Chained state segments)
    (hsealed : segments[number.toNat]? = some sealed)
    (hrow : store.tables.sealedSegment[number]? = some row) (hverified : row.tsaStatus = .verified)
    (hresponse : row.tsaResponse = some response) (hne : response ≠ []) :
    readMaterial store store.ledgerId number
      = .ok (materialAt segments number sealed response) := by
  obtain ⟨sealed', hsealed', hcbor, hsha⟩ := exists_sealed h.sealedSegment hrow
  obtain rfl : sealed' = sealed := Option.some.inj (hsealed'.symm.trans hsealed)
  have hrecords : store.tables.sealedRecords number = sealed'.records :=
    h.sealedRecords_eq hsealed (hchained.length_records hsealed).le
  unfold readMaterial
  simp only [if_true, hrow, hverified, hresponse, hrecords, hcbor, hsha, Except.ofOption,
    Except.ok_bind, decide_true, Option.any_some, hne, ne_eq, not_false_eq_true, Bool.and_self,
    Except.require_true]
  by_cases hzero : number = 0
  · subst hzero
    rfl
  · obtain ⟨previous, hprevious, -, hlast⟩ := lastArtifact_take hsealed hzero
    obtain ⟨row', hrow', hcbor'⟩ := exists_row h.sealedSegment hprevious
    rw [if_neg hzero, hrow']
    simp only [Except.ok_bind, pure, Except.pure, hcbor', materialAt, hlast]

/-- The stored material reproduces the segment that was sealed from it. -/
theorem reproduces_materialAt (hchained : Chained state segments)
    (hkept : RecordsKept state segments)
    (hsealed : segments[number.toNat]? = some sealed) {r : SegmentRecord}
    (hat : SegmentAt state.ledgerId (lastArtifact (segments.take number.toNat)) number.toNat
      sealed r) :
    Reproduces state.ledgerId number (materialAt segments number sealed response) r where
  digest := hat.artifactSha256.symm
  decoded := hat.decoded
  ledgerId_eq := hat.ledgerId
  segmentNumber_eq := UInt64.toNat_inj.mp hat.number
  count := UInt64.ofNat?_eq_some.mpr hat.recordCount
  canonical := hkept.sealedRecords sealed (List.mem_of_getElem? hsealed)
  root := hat.segmentRoot.symm
  batchRoots := hat.batchRoots
  predecessor := by
    show validatePredecessor _ _ _ (lastArtifact (segments.take number.toNat)) = .ok ()
    by_cases hzero : number = 0
    · rw [hzero]
      rfl
    · obtain ⟨previous, hprevious, hnext, hlast⟩ := lastArtifact_take hsealed hzero
      obtain ⟨p, hp⟩ := hchained.chain _ _ hprevious
      have hprev := hat.prevSegmentSha256
      rw [hlast] at hprev ⊢
      simp only [validatePredecessor, Except.bind_eq_ok, Except.mapError_eq_ok,
        Except.require_eq_ok, Bool.and_eq_true, decide_eq_true_eq]
      refine ⟨p, hp.decoded, ⟨hp.ledgerId, UInt64.checkedAdd_eq_some.mpr ?_⟩, hprev.symm⟩
      rw [hp.number, UInt64.toNat_one, hnext]

omit [Sha256] in
theorem predecessor_materialAt (hsealed : segments[number.toNat]? = some sealed) :
    (materialAt segments number sealed response).predecessor = none ↔ number = 0 := by
  show lastArtifact (segments.take number.toNat) = none ↔ number = 0
  constructor
  · intro hnone
    by_contra hne
    obtain ⟨previous, -, -, hlast⟩ := lastArtifact_take hsealed hne
    rw [hlast] at hnone
    cases hnone
  · rintro rfl
    rfl

omit [Sha256] in
/-- Segments that are sealed later do not change the material. -/
theorem materialAt_stable {segments' : List SealedSegment} (h : segments <+: segments')
    (hsealed : segments[number.toNat]? = some sealed) :
    materialAt segments' number sealed response = materialAt segments number sealed response := by
  obtain ⟨more, rfl⟩ := h
  obtain ⟨hlt, -⟩ := List.getElem?_eq_some_iff.mp hsealed
  unfold materialAt
  rw [List.take_append_of_le_length hlt.le]

omit [Sha256] in
/-- Only a segment whose timestamp is there has material. -/
theorem verified_of_readMaterial {ledgerId : String} {material : SnapshotMaterial}
    (h : readMaterial store ledgerId number = .ok material) :
    ledgerId = store.ledgerId ∧ ∃ row, store.tables.sealedSegment[number]? = some row
      ∧ row.tsaStatus = .verified := by
  simp only [readMaterial, Except.bind_eq_ok, Except.ofOption_eq_ok, Except.require_eq_ok,
    Bool.and_eq_true, decide_eq_true_eq] at h
  obtain ⟨row, hrow, _, ⟨hverified, -⟩, -⟩ := h
  split_ifs at hrow with hledger
  exact ⟨hledger, row, hrow, hverified⟩

end

/-! ## Material of a gateway -/

section

variable {config : TimestampWorkerConfig} {g : Gateway} {number : UInt64} {row : SegmentRow}

omit [Sha256] in
/-- Before its timestamp is there a segment has no material. -/
theorem readMaterial_unverified {store : PostgresLedgerStore}
    (hrow : store.tables.sealedSegment[number]? = some row) (hstatus : row.tsaStatus ≠ .verified) :
    readMaterial store store.ledgerId number
      = .error (if row.tsaStatus = .queued then .pending else .unavailable) := by
  unfold readMaterial
  rw [if_pos rfl, hrow, Except.ofOption, Except.ok_bind, decide_eq_false hstatus, Bool.false_and]
  rfl

/-- A segment whose timestamp is there has the material that the producer has sealed, and keeps
it. -/
theorem exists_material (h : GatewayInvariant config RecordsKept g)
    (hrow : g.pipeline.store.tables.sealedSegment[number]? = some row)
    (hverified : row.tsaStatus = .verified) :
    ∃ material segment, row.artifactCbor = material.artifact
      ∧ row.tsaResponse = some material.tsaResponse
      ∧ Reproduces g.pipeline.store.ledgerId number material segment
      ∧ (material.predecessor = none ↔ number = 0)
      ∧ ∀ later, readMaterial (runTrace (Gateway.step config) g later).1.pipeline.store
          g.pipeline.store.ledgerId number = .ok material := by
  obtain ⟨queueRow, hqueueRow, hjob⟩ := h.queued number row hrow
  obtain ⟨hsegmentRow, -⟩ := Pipeline.row?_eq_some.mp hqueueRow
  obtain rfl : queueRow.segment = row := Option.some.inj (hsegmentRow.symm.trans hrow)
  obtain ⟨response, hresponse, hne⟩ := hjob.verified hverified
  cases h.ledger with
  | blank htables _ =>
    have hempty : g.pipeline.store.tables = Tables.empty := htables
    rw [hempty] at hrow
    simp [Tables.empty] at hrow
  | @ledger state segments hagrees hchained hkept hsame =>
    obtain ⟨sealed, hsealed, hcbor, -⟩ := exists_sealed hagrees.sealedSegment hrow
    obtain ⟨segment, hat⟩ := hchained.chain _ _ hsealed
    have hledgerId : state.ledgerId = g.pipeline.store.ledgerId := hagrees.ledgerId
    refine ⟨materialAt segments number sealed response, segment, hcbor, hresponse,
      hledgerId ▸ reproduces_materialAt hchained hkept hsealed hat,
      predecessor_materialAt hsealed, ?_⟩
    intro later
    obtain ⟨state', segments', hagrees', hchained', ⟨more, rfl⟩, -⟩ :=
      @Gateway.standing_later _ config g _ _ hagrees hchained hsame later
    obtain ⟨row', hrow', hcontinues⟩ := @Gateway.row?_later _ config g _ _ hqueueRow later
    -- the timestamp is settled
    obtain rfl := hcontinues.settled (by rw [hverified]; simp)
    have hsealed' : (segments ++ more)[number.toNat]? = some sealed := by
      rw [List.getElem?_append_left (List.getElem?_eq_some_iff.mp hsealed).1, hsealed]
    have hread :=
      readMaterial_verified hagrees' hchained' hsealed' (Pipeline.row?_eq_some.mp hrow').1
      hverified hresponse hne
    rw [materialAt_stable (List.prefix_append segments more) hsealed] at hread
    rw [← hread]
    exact congrArg (fun id => readMaterial _ id number) (Gateway.ledgerId_later g later).symm

/-- What is read at any later moment is read now. -/
theorem readMaterial_now {ledgerId : String} {material : SnapshotMaterial}
    (hlater : ∀ later,
      readMaterial (runTrace (Gateway.step config) g later).1.pipeline.store ledgerId
      number = .ok material) : readMaterial g.pipeline.store ledgerId number = .ok material :=
  hlater []

/-- The artifact of a segment stays. -/
theorem artifactCbor_later {P : ProducerState → List SealedSegment → Prop}
    (h : GatewayInvariant config P g)
    (hrow : g.pipeline.store.tables.sealedSegment[number]? = some row) (later : List GatewayInput) :
    ∃ row', (runTrace (Gateway.step config) g later).1.pipeline.store.tables.sealedSegment[number]?
        = some row' ∧ row'.artifactCbor = row.artifactCbor := by
  cases h.ledger with
  | blank htables _ =>
    have hempty : g.pipeline.store.tables = Tables.empty := htables
    rw [hempty] at hrow
    simp [Tables.empty] at hrow
  | @ledger state segments hagrees hchained _ hsame =>
    obtain ⟨sealed, hsealed, hcbor, -⟩ := exists_sealed hagrees.sealedSegment hrow
    obtain ⟨state', segments', hagrees', -, ⟨more, rfl⟩, -⟩ :=
      @Gateway.standing_later _ config g _ _ hagrees hchained hsame later
    have hsealed' : (segments ++ more)[number.toNat]? = some sealed := by
      rw [List.getElem?_append_left (List.getElem?_eq_some_iff.mp hsealed).1, hsealed]
    obtain ⟨row', hrow', hcbor'⟩ := exists_row hagrees'.sealedSegment hsealed'
    exact ⟨row', hrow', hcbor'.trans hcbor.symm⟩

/-- Material that is read once is read again at any later moment. -/
theorem readMaterial_later {material : SnapshotMaterial} (h : GatewayInvariant config RecordsKept g)
    (hread : readMaterial g.pipeline.store g.pipeline.store.ledgerId number = .ok material)
    (later : List GatewayInput) :
    readMaterial (runTrace (Gateway.step config) g later).1.pipeline.store g.pipeline.store.ledgerId
      number = .ok material := by
  obtain ⟨-, row, hrow, hverified⟩ := verified_of_readMaterial hread
  obtain ⟨material', -, -, -, -, -, hlater⟩ := exists_material h hrow hverified
  obtain rfl := Except.ok.inj ((hlater []).symm.trans hread)
  exact hlater later

end

end TrackOne.Snapshot
