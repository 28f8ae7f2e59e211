import TrackOne.Gateway.PostgresRuns
import TrackOne.Evidence.Bundle
import Mathlib.Data.Finset.Sort

/-!
# Disclosure snapshots

`trackone-gateway-svc/src/snapshot.rs`: the export of a sealed segment as the files of a bundle. The
material is read from the tables in one transaction, checked against the sealed artifact, cut into
batches again and written with a manifest that names every file.

`usize` has 64 bits here, so that its conversions from `u64` do not fail. A slice of a vector ends
below `isize::MAX`, so that the end of a batch is a sum of natural numbers. The JSON writer is a
parameter; the references and openings of the manifest have the members that the verifier reads.
-/

namespace TrackOne.Snapshot

open Evidence (ArtifactRef RecordBatchOpening manifestName)

/-! ## The material -/

inductive DisclosureClass where
  | a
  | b
  | c
deriving DecidableEq, Repr

def DisclosureClass.asStr : DisclosureClass → String
  | a => "A"
  | b => "B"
  | c => "C"

/-- `ExportError`, without the failures of the database and of the file system. -/
inductive ExportError where
  | invalid (message : String)
  | absent
  | pending
  | unavailable
deriving DecidableEq, Repr

structure SnapshotMaterial where
  artifact : Bytes
  artifactSha256 : String
  predecessor : Option Bytes
  records : List Bytes
  tsaResponse : Bytes

/-- `read_material`, in one read-only transaction. The tables hold the rows of one ledger. -/
def readMaterial (store : PostgresLedgerStore) (ledgerId : String) (segmentNumber : UInt64) :
    Except ExportError SnapshotMaterial := do
  let row ← Except.ofOption .absent
    (if ledgerId = store.ledgerId then store.tables.sealedSegment[segmentNumber]? else none)
  Except.require (if row.tsaStatus = .queued then .pending else .unavailable)
    (row.tsaStatus = .verified && row.tsaResponse.any fun response => response ≠ [])
  let response ← Except.ofOption .unavailable row.tsaResponse
  let predecessor ←
    if segmentNumber = 0 then pure none
    else do
      let previous ← Except.ofOption (.invalid "immediate predecessor was not found")
        store.tables.sealedSegment[segmentNumber - 1]?
      pure (some previous.artifactCbor)
  pure {
    artifact := row.artifactCbor
    artifactSha256 := row.artifactSha256
    predecessor
    records := store.tables.sealedRecords segmentNumber
    tsaResponse := response }

/-! ## The manifest -/

structure SnapshotArtifacts where
  segmentCbor : ArtifactRef
  predecessorSegmentCbor : Option ArtifactRef
  recordBatches : Option (List RecordBatchOpening)
  tsaTsr : ArtifactRef
deriving DecidableEq

/-- `Manifest` of the exporter; `anchoring.tsa.status` is the only member of its object. -/
structure SnapshotManifest where
  version : UInt8
  ledgerId : String
  segmentNumber : String
  commitmentProfileId : String
  disclosureClass : String
  artifacts : SnapshotArtifacts
  tsaStatus : String
deriving DecidableEq

/-- The manifest a reader finds in the JSON text: an absent member is `none`. -/
def SnapshotManifest.document (manifest : SnapshotManifest) : Evidence.Manifest where
  version := manifest.version
  ledgerId := manifest.ledgerId
  segmentNumber := manifest.segmentNumber
  commitmentProfileId := manifest.commitmentProfileId
  disclosureClass := manifest.disclosureClass
  artifacts := {
    segmentCbor := manifest.artifacts.segmentCbor
    predecessorSegmentCbor := manifest.artifacts.predecessorSegmentCbor
    recordBatches := manifest.artifacts.recordBatches
    tsaReq := none
    tsaTsr := some manifest.artifacts.tsaTsr
    extensions := ∅ }
  tsaStatus := manifest.tsaStatus

section

variable [Sha256]

def artifactRef (path : String) (bytes : Bytes) : ArtifactRef := ⟨path, sha256Hex bytes⟩

/-! ## Occurrences -/

/-- A record of the segment with its leaf hash and its position. -/
structure Occurrence where
  digest : Digest
  ordinal : Nat
  record : Bytes

/-- The order of the sort keys: the leaf digest, then the original ordinal. -/
def Occurrence.ble (left right : Occurrence) : Bool :=
  if left.digest = right.digest then left.ordinal ≤ right.ordinal else left.digest.ble right.digest

/-- The occurrences in the order that is cut into batches. -/
def occurrences (records : List Bytes) : List Occurrence :=
  (records.zipIdx.map fun (record, ordinal) =>
    ⟨prefixedHash 0 record, ordinal, record⟩).mergeSort Occurrence.ble

/-- The path of an occurrence. -/
def occurrencePath (batchNumber index ordinal : Nat) : String :=
  String.ofList ("records/batch-".toList ++ Decimal.padded 20 batchNumber ++ "/occurrence-".toList
    ++ Decimal.padded 20 index ++ "-ordinal-".toList ++ Decimal.padded 20 ordinal ++ ".cbor".toList)

/-- The opening of a batch, and its files. -/
structure ExportedBatch where
  opening : RecordBatchOpening
  files : List (String × Bytes)

/-- One round of the loop over the disclosed batches, from the slice of the batch on. -/
def exportOccurrences (batchNumber : Nat) (batch : List Occurrence) : ExportedBatch :=
  let files := batch.zipIdx.map fun (occurrence, index) =>
    (occurrencePath batchNumber index occurrence.ordinal, occurrence.record)
  { opening := {
      batchNumber := toString batchNumber
      records := files.map fun (path, record) => artifactRef path record }
    files }

/-- One round of the loop over the disclosed batches. -/
def exportBatch (ordered : List Occurrence) (batchLimit : Nat) (batchNumber : Nat) :
    Except ExportError ExportedBatch := do
  let start ← Except.ofOption (.invalid "batch offset overflow")
    ((UInt64.ofNat? (batchNumber * batchLimit)).map UInt64.toNat)
  let stop := min (start + batchLimit) ordered.length
  Except.require (.invalid "selected batch is incomplete") (start ≤ stop)
  pure (exportOccurrences batchNumber ((ordered.take stop).drop start))

/-! ## `prepare_export` -/

/-- The check of the stored predecessor, if there is one. -/
def validatePredecessor (ledgerId : String) (segmentNumber : UInt64) (segment : SegmentRecord) :
    Option Bytes → Except ExportError Unit
  | none => .ok ()
  | some predecessor => do
    let predecessorRecord ← (decodeSegmentRecord predecessor).mapError fun error =>
      .invalid ("stored predecessor is invalid: " ++ error.toString)
    Except.require (.invalid "stored predecessor does not match the sealed artifact chain")
      (predecessorRecord.ledgerId = ledgerId
        && predecessorRecord.segmentNumber.checkedAdd 1 = some segmentNumber
        && sha256Digest predecessor = segment.prevSegmentSha256)

/-- The checks on the material: the segment that was sealed from it. -/
def validateMaterial (ledgerId : String) (segmentNumber : UInt64) (material : SnapshotMaterial) :
    Except ExportError SegmentRecord := do
  Except.require (.invalid "stored artifact bytes do not match the stored artifact digest")
    (sha256Hex material.artifact = material.artifactSha256)
  let segment ← (decodeSegmentRecord material.artifact).mapError fun error =>
    .invalid ("stored segment is invalid: " ++ error.toString)
  Except.require (.invalid "stored segment identity does not match the requested segment")
    (segment.ledgerId = ledgerId && segment.segmentNumber = segmentNumber)
  Except.require (.invalid "retained-record count does not match the sealed artifact")
    (UInt64.ofNat? material.records.length = some segment.recordCount)
  material.records.forM fun record => do
    let _ ← (validateCanonicalRecord record).mapError fun error =>
      ExportError.invalid ("retained canonical record is invalid: " ++ error.toString)
  let computed := merkleRootFromRecords material.records
  let batchRoots ← Except.ofOption (.invalid "stored batch policy is unsupported")
    (batchRootsFromLeafHashes computed.leafHashes segment.closurePolicy.batchRecordLimit)
  Except.require (.invalid "retained records do not reproduce the sealed artifact")
    (computed.root = segment.segmentRoot && batchRoots = segment.batchRoots)
  validatePredecessor ledgerId segmentNumber segment material.predecessor
  pure segment

/-- The batches that a class discloses, in ascending order. -/
def disclosedBatches (disclosureClass : DisclosureClass) (selectedBatches : Finset UInt64)
    (batchCount : UInt64) : Except ExportError (List Nat) :=
  match disclosureClass with
  | .a => .ok (List.range batchCount.toNat)
  | .b => do
    Except.require
      (.invalid "class B requires a non-empty proper subset of complete batch numbers")
      (!(batchCount ≤ 1 || selectedBatches = ∅
        || UInt64.ofNat? selectedBatches.card = some batchCount
        || decide (∃ number ∈ selectedBatches, batchCount ≤ number)))
    pure ((selectedBatches.image UInt64.toNat).sort (· ≤ ·))
  | .c => .ok []

/-- The files of an export before the manifest, and the manifest. -/
structure Assembled where
  files : List (String × Bytes)
  manifest : SnapshotManifest

/-- `prepare_export` up to the serialisation of the manifest. -/
def assembleExport (ledgerId : String) (segmentNumber : UInt64) (disclosureClass : DisclosureClass)
    (selectedBatches : Finset UInt64) (material : SnapshotMaterial) :
    Except ExportError Assembled := do
  Except.require (.invalid "--batch is valid only with disclosure class B")
    (disclosureClass = .b || selectedBatches = ∅)
  let segment ← validateMaterial ledgerId segmentNumber material
  let batchCount ← Except.ofOption (.invalid "batch count exceeds uint64")
    (UInt64.ofNat? segment.batchRoots.length)
  let disclosed ← disclosedBatches disclosureClass selectedBatches batchCount
  let batches ← disclosed.mapM
    (exportBatch (occurrences material.records) segment.closurePolicy.batchRecordLimit.toNat)
  let openings := batches.map ExportedBatch.opening
  pure {
    files := [("segment.cbor", material.artifact)] ++ batches.flatMap ExportedBatch.files
      ++ (material.predecessor.map fun bytes => ("predecessor.cbor", bytes)).toList
      ++ [("timestamp.tsr", material.tsaResponse)]
    manifest := {
      version := 1
      ledgerId
      segmentNumber := toString segmentNumber
      commitmentProfileId := segment.commitmentProfileId
      disclosureClass := disclosureClass.asStr
      artifacts := {
        segmentCbor := ⟨"segment.cbor", material.artifactSha256⟩
        predecessorSegmentCbor := material.predecessor.map (artifactRef "predecessor.cbor")
        recordBatches := if openings.isEmpty then none else some openings
        tsaTsr := artifactRef "timestamp.tsr" material.tsaResponse }
      tsaStatus := "present" } }

/-- `prepare_export`; `writeManifest` is `serde_json::to_vec_pretty`. -/
def prepareExport (writeManifest : SnapshotManifest → Except String Bytes) (ledgerId : String)
    (segmentNumber : UInt64) (disclosureClass : DisclosureClass) (selectedBatches : Finset UInt64)
    (material : SnapshotMaterial) : Except ExportError (List (String × Bytes)) := do
  let assembled ←
    assembleExport ledgerId segmentNumber disclosureClass selectedBatches material
  let manifestBytes ← (writeManifest assembled.manifest).mapError .invalid
  pure (assembled.files ++ [(manifestName, manifestBytes)])

end

end TrackOne.Snapshot
