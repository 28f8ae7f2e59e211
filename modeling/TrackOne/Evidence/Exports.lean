import TrackOne.Evidence.Exported
import TrackOne.Gateway.Material
import TrackOne.Gateway.DisclosureGrants

/-!
# Exports of a running gateway

The exporter reads the tables in one snapshot, at any moment between the transactions of the
producer and of the timestamp workers.

* `Discloses.selectable`: only a selection that the segment has can be disclosed.
* `exports_accepted`: every export of a segment whose timestamp is there is accepted by the
  verifier, up to the timestamp itself, and a segment without a timestamp is not exported. -/

namespace TrackOne.Snapshot

open Evidence SplitTree

variable [Sha256]

/-! ## Exports -/

omit [Sha256] in
/-- Only a selection that the segment has can be disclosed. -/
theorem Discloses.selectable {disclosureClass : DisclosureClass} {selectedBatches : Finset UInt64}
    {batchCount : Nat} {numbers : List UInt64}
    (h : Discloses disclosureClass selectedBatches batchCount numbers)
    (hselected : disclosureClass = .b ∨ selectedBatches = ∅) :
    Selectable disclosureClass selectedBatches batchCount := by
  unfold Selectable
  split_ifs with hclass
  · obtain ⟨rfl, hne, hlt⟩ := h.selected hclass
    refine ⟨List.toFinset_nonempty_iff numbers |>.mpr hne, ?_⟩
    have hsubset : numbers.toFinset.image UInt64.toNat ⊆ Finset.range batchCount := by
      intro n hn
      obtain ⟨number, hnumber, rfl⟩ := Finset.mem_image.mp hn
      exact Finset.mem_range.mpr (h.lt number (List.mem_toFinset.mp hnumber))
    refine hsubset.ssubset_of_ne fun heq => ?_
    have hcard := (Finset.card_image_le (s := numbers.toFinset) (f := UInt64.toNat)).trans
      (List.toFinset_card_le numbers)
    rw [heq, Finset.card_range] at hcard
    omega
  · exact hselected.resolve_left hclass

/-- JSON brings a manifest back. -/
def RoundTrips (writeManifest : SnapshotManifest → Except String Bytes) (env : Environment)
    (manifest : SnapshotManifest) (bytes : Bytes) : Prop :=
  writeManifest manifest = .ok bytes ∧ env.readManifest bytes = .ok manifest.document

/-- Every export of the material is a bundle that the verifier accepts, up to the timestamp. -/
def ExportsAccepted (writeManifest : SnapshotManifest → Except String Bytes) (env : Environment)
    (ledgerId : String) (number : UInt64) (material : SnapshotMaterial) : Prop :=
  ∀ disclosureClass selectedBatches assembled manifestBytes,
    assembleExport ledgerId number disclosureClass selectedBatches material = .ok assembled →
    RoundTrips writeManifest env assembled.manifest manifestBytes →
    ∃ files,
      prepareExport writeManifest ledgerId number disclosureClass selectedBatches material
        = .ok files
        ∧ Bundled files assembled.manifest.document
        ∧ parseManifest env manifestBytes = .ok assembled.manifest.document
        ∧ (WithinMemberLimit files → ∀ policy, Applicable env policy →
          policy.scopeFor assembled.manifest.document = .forDisclosureClass disclosureClass.asStr →
          (policy.selectedBatches = ∅ ∨ policy.selectedBatches = selectedBatches) →
          BundleAccepted env (directoryOf files) policy disclosureClass material.artifact
            material.tsaResponse)

theorem exportsAccepted_of_predecessor {ledgerId : String} {number : UInt64}
    {material : SnapshotMaterial}
    (hpredecessor : material.predecessor = none ↔ number = 0)
    (writeManifest : SnapshotManifest → Except String Bytes) (env : Environment) :
    ExportsAccepted writeManifest env ledgerId number material := by
  rintro disclosureClass selectedBatches assembled manifestBytes hassembled ⟨hwrite, hread⟩
  obtain ⟨segment', disclosed, hexportable, rfl⟩ := assembleExport_eq_ok.mp hassembled
  refine ⟨bundleFiles material segment' disclosed manifestBytes,
    prepareExport_eq_ok.mpr ⟨segment', disclosed, manifestBytes, hexportable, hwrite, rfl⟩,
    ⟨nodup_bundleFiles hexportable.nodup, fun file hfile =>
      validatePortablePath_exported hfile, ?_⟩,
      parseManifest_eq_ok.mpr ⟨hread, validate_bundleManifest hexportable⟩, ?_⟩
  · intro reference hreference
    obtain ⟨file, hfile, rfl⟩ := reference_exported hexportable.reproduces.digest hreference
    exact ⟨file.2, List.mem_append_left _ hfile, rfl⟩
  · intro hreadable policy happlicable hscope hbatches
    exact verifyBundleWithPolicy_exported hexportable hpredecessor hreadable hread
      happlicable hscope
      hbatches

/-- **What a gateway exports, the verifier accepts.** In every interleaving of a producer, with
restarts, and its timestamp workers, for every segment in the tables:

* before its timestamp is there, and after the attempts are used up, it is not exported;
* afterwards the material is what the producer has sealed, and no later step changes it;
* it is exported for every class and every selection that the segment has, and for no other one;
* every such export is a bundle, its manifest is accepted, and at the scope of its class nothing but
  the timestamp is left to decide over the verdict. -/
theorem exports_accepted (config : TimestampWorkerConfig) (ledgerId : String)
    (limits : CapacityLimits)
    (inputs : List GatewayInput) (writeManifest : SnapshotManifest → Except String Bytes)
    (env : Environment) (number : UInt64) (row : SegmentRow)
    (hrow : (Gateway.run config ledgerId limits
      inputs).1.pipeline.store.tables.sealedSegment[number]? = some row) :
    let g := (Gateway.run config ledgerId limits inputs).1
    (row.tsaStatus = .queued → readMaterial g.pipeline.store ledgerId number = .error .pending)
      ∧ (row.tsaStatus = .failed → readMaterial g.pipeline.store ledgerId number
        = .error .unavailable)
      ∧ (row.tsaStatus = .verified → ∃ material segment,
        row.artifactCbor = material.artifact ∧ row.tsaResponse = some material.tsaResponse
          ∧ decodeSegmentRecord material.artifact = .ok segment
          ∧ (∀ later, readMaterial
            (runTrace (Gateway.step config) g later).1.pipeline.store ledgerId
              number = .ok material)
          ∧ (∀ disclosureClass selectedBatches,
            (∃ assembled, assembleExport ledgerId number disclosureClass selectedBatches material
                = .ok assembled)
              ↔ Selectable disclosureClass selectedBatches segment.batchRoots.length)
          ∧ ExportsAccepted writeManifest env ledgerId number material) := by
  intro g
  have hrow : g.pipeline.store.tables.sealedSegment[number]? = some row := hrow
  have hledgerId : g.pipeline.store.ledgerId = ledgerId := Gateway.ledgerId_later _ inputs
  have hinvariant : GatewayInvariant config RecordsKept g :=
    Gateway.run_invariant recordsKept config ledgerId limits inputs
  -- there is no material before the timestamp is verified
  have hfailed : row.tsaStatus ≠ .verified → readMaterial g.pipeline.store ledgerId number
      = .error (if row.tsaStatus = .queued then .pending else .unavailable) := fun hne =>
    hledgerId ▸ readMaterial_unverified hrow hne
  refine ⟨fun hqueued => (hfailed (by rw [hqueued]; simp)).trans (congrArg _ (if_pos hqueued)),
    fun hstatus => (hfailed (by rw [hstatus]; simp)).trans
      (congrArg _ (if_neg (by rw [hstatus]; simp))), ?_⟩
  intro hverified
  -- a verified row has its material, which later inputs keep
  obtain ⟨material, segment, hcbor, hresponse, hreproduces, hpredecessor, hlater⟩ :=
    exists_material hinvariant hrow hverified
  rw [hledgerId] at hreproduces hlater
  refine ⟨material, segment, hcbor, hresponse, hreproduces.decoded, hlater, ?_,
    exportsAccepted_of_predecessor hpredecessor writeManifest env⟩
  -- what can be assembled is what may be selected
  intro disclosureClass selectedBatches
  constructor
  · rintro ⟨assembled, hassembled⟩
    obtain ⟨segment', disclosed, hexportable, -⟩ := assembleExport_eq_ok.mp hassembled
    obtain rfl : segment' = segment :=
      Except.ok.inj (hexportable.reproduces.decoded.symm.trans hreproduces.decoded)
    obtain ⟨numbers, -, hdiscloses⟩ := hexportable.discloses
    exact hdiscloses.selectable hexportable.selected
  · intro hselectable
    obtain ⟨disclosed, hexportable⟩ := hreproduces.exportable hselectable
    exact ⟨_, assembleExport_eq_ok.mpr ⟨segment, disclosed, hexportable, rfl⟩⟩

/-! ## A sample -/

/-- The segment is sealed, and a response is attached from outside the queue. A response is the
digest it was issued for. -/
def sampleGateway : List GatewayInput :=
  let sealed := (Gateway.run .default "b7a1d5e40c6f438e9a75db27c96f31aa" ⟨none, none⟩
    Gateway.sampleSealing).1
  Gateway.sampleSealing ++ (sealed.pipeline.store.tables.sealedSegment[(0 : UInt64)]?.map fun row =>
    .work (.attachTimestamp 1 0 row.artifactSha256 (sha256Digest row.artifactCbor).bytes
      none)).toList

omit [Sha256] in
def writeText (manifest : SnapshotManifest) : Except String Bytes :=
  .ok (utf8Bytes (Disclosures.exportText manifest))

/-- The manifest of the first segment in the tables, exported with class A. -/
def firstManifest (store : PostgresLedgerStore) : Option SnapshotManifest := do
  let material ← (readMaterial store "b7a1d5e40c6f438e9a75db27c96f31aa" 0).toOption
  let assembled ← (assembleExport "b7a1d5e40c6f438e9a75db27c96f31aa" 0 .a ∅ material).toOption
  pure assembled.manifest

theorem firstManifest_eq {store : PostgresLedgerStore} {material : SnapshotMaterial}
    {assembled : Assembled}
    (hmaterial : readMaterial store "b7a1d5e40c6f438e9a75db27c96f31aa" 0 = .ok material)
    (hassembled : assembleExport "b7a1d5e40c6f438e9a75db27c96f31aa" 0 .a ∅ material
      = .ok assembled) :
    firstManifest store = some assembled.manifest := by
  have hexported : (assembleExport "b7a1d5e40c6f438e9a75db27c96f31aa" 0 .a ∅ material).toOption
      = some assembled := congrArg Except.toOption hassembled
  have hread : (readMaterial store "b7a1d5e40c6f438e9a75db27c96f31aa" 0).toOption = some material :=
    congrArg Except.toOption hmaterial
  unfold firstManifest
  rw [hread, Option.bind_eq_bind, Option.bind_some, hexported]
  rfl

omit [Sha256] in
/-- An environment that reads one manifest, and in which a timestamp response is the digest it was
issued for. -/
def exportEnvironment (manifest : Option SnapshotManifest) : Environment where
  readManifest bytes :=
    match manifest.filter fun manifest => bytes = utf8Bytes (Disclosures.exportText manifest) with
    | some manifest => .ok manifest.document
    | none => .error "expected value at line 1 column 1"
  encodeFingerprint _ := []
  verifyResponse response digest _ :=
    if response = digest.bytes then .ok ⟨none⟩
    else .error "RFC 3161 message imprint does not match the artifact"
  verifyRequest _ _ _ := .error "malformed RFC 3161 request"
  hostFile _ := .error .enoent

/-- Files of a size that the verifier reads, with a timestamp of their segment. -/
def readableSample (material : SnapshotMaterial) : Bool :=
  decide (material.tsaResponse = (sha256Digest material.artifact).bytes)
    && (prepareExport writeText "b7a1d5e40c6f438e9a75db27c96f31aa" 0 .a ∅ material).toOption.any
      fun files => files.all fun file => decide (file.2.length ≤ maxArchiveMember)

theorem success_of_exportsAccepted {store : PostgresLedgerStore} {material : SnapshotMaterial}
    {assembled : Assembled}
    (hmaterial : readMaterial store "b7a1d5e40c6f438e9a75db27c96f31aa" 0 = .ok material)
    (hassembled : assembleExport "b7a1d5e40c6f438e9a75db27c96f31aa" 0 .a ∅ material = .ok assembled)
    (haccepted : ExportsAccepted writeText (exportEnvironment (firstManifest store))
      "b7a1d5e40c6f438e9a75db27c96f31aa" 0 material) (hreadable : readableSample material = true) :
    ∃ files result,
      prepareExport writeText "b7a1d5e40c6f438e9a75db27c96f31aa" 0 .a ∅ material = .ok files
        ∧ verifyBundleWithPolicy (exportEnvironment (firstManifest store)) (directoryOf files)
          (selectingPolicy .publicRecompute ∅) = .ok result
        ∧ result.overall = .success := by
  rw [readableSample, Bool.and_eq_true, decide_eq_true_eq] at hreadable
  obtain ⟨hresponse, hfiles⟩ := hreadable
  obtain ⟨files', hprepare', hall⟩ := Except.exists_ok_of_any hfiles
  have hexported := firstManifest_eq hmaterial hassembled
  have hroundTrips : RoundTrips writeText (exportEnvironment (firstManifest store))
    assembled.manifest
      (utf8Bytes (Disclosures.exportText assembled.manifest)) := by
    refine ⟨rfl, ?_⟩
    simp [exportEnvironment, hexported, Option.filter]
  obtain ⟨files, hprepare, -, -, hverified⟩ := haccepted .a ∅ assembled _ hassembled hroundTrips
  obtain rfl : files' = files := Except.ok.inj (hprepare'.symm.trans hprepare)
  have hsizes : WithinMemberLimit files' := fun file hfile =>
    of_decide_eq_true (List.all_eq_true.mp hall file hfile)
  obtain ⟨result, hresult, -, -, -, -, hoverall⟩ := hverified hsizes
    (selectingPolicy .publicRecompute ∅) ⟨rfl, ⟨_, rfl⟩, ⟨_, rfl⟩⟩ rfl (.inl rfl)
  refine ⟨files', result, hprepare, hresult, hoverall.mpr ⟨rfl, ⟨none⟩, ?_, rfl⟩⟩
  show ((if material.tsaResponse = (sha256Digest material.artifact).bytes then .ok ⟨none⟩ else _ :
    Except String VerifiedTimestamp).mapError bad) = _
  rw [if_pos hresponse]
  rfl

omit [Sha256] in
/-- The timestamp of the sample is there. -/
theorem sampleGateway_verified :
    letI := Sha256.fips
    ∃ row, (Gateway.run .default "b7a1d5e40c6f438e9a75db27c96f31aa" ⟨none, none⟩
        sampleGateway).1.pipeline.store.tables.sealedSegment[(0 : UInt64)]? = some row
      ∧ row.tsaStatus = .verified := by
  let := Sha256.fips
  have hsealed : ((Gateway.run .default "b7a1d5e40c6f438e9a75db27c96f31aa" ⟨none, none⟩
      sampleGateway).1.pipeline.store.tables.sealedSegment[(0 : UInt64)]?).any
      (fun row => decide (row.tsaStatus = .verified)) = true := by
    decide +kernel
  obtain ⟨row, hrow, htest⟩ := (Option.any_eq_true _ _).mp hsealed
  exact ⟨row, hrow, of_decide_eq_true htest⟩

omit [Sha256] in
/-- The sample is exported with its record, and verified. -/
theorem exports_accepted_sampleGateway :
    letI := Sha256.fips
    let store := (Gateway.run .default "b7a1d5e40c6f438e9a75db27c96f31aa" ⟨none, none⟩
      sampleGateway).1.pipeline.store
    ∃ material files result,
      readMaterial store "b7a1d5e40c6f438e9a75db27c96f31aa" 0 = .ok material
        ∧ prepareExport writeText "b7a1d5e40c6f438e9a75db27c96f31aa" 0 .a ∅ material = .ok files
        ∧ verifyBundleWithPolicy (exportEnvironment (firstManifest store)) (directoryOf files)
          (selectingPolicy .publicRecompute ∅) = .ok result
        ∧ result.overall = .success := by
  intro store
  let := Sha256.fips
  obtain ⟨row, hrow, hverified⟩ := sampleGateway_verified
  have hread : (readMaterial (Gateway.run .default "b7a1d5e40c6f438e9a75db27c96f31aa" ⟨none, none⟩
      sampleGateway).1.pipeline.store "b7a1d5e40c6f438e9a75db27c96f31aa" 0).toOption.any
        readableSample = true := by
    decide +kernel
  obtain ⟨-, -, hexports⟩ :=
    exports_accepted .default "b7a1d5e40c6f438e9a75db27c96f31aa" ⟨none, none⟩
    sampleGateway writeText (exportEnvironment (firstManifest store)) 0 row hrow
  obtain ⟨material, segment, -, -, -, hlater, hselected, haccepted⟩ := hexports hverified
  have hmaterial := readMaterial_now hlater
  obtain ⟨material', hmaterial', hreadable⟩ := Except.exists_ok_of_any hread
  obtain rfl : material' = material := Except.ok.inj (hmaterial'.symm.trans hmaterial)
  obtain ⟨assembled, hassembled⟩ := (hselected .a ∅).mpr rfl
  obtain ⟨files, result, hprepare, hresult, hsuccess⟩ :=
    success_of_exportsAccepted hmaterial hassembled haccepted hreadable
  exact ⟨material', files, result, hmaterial, hprepare, hresult, hsuccess⟩

end TrackOne.Snapshot
