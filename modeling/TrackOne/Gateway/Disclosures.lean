import TrackOne.Gateway.Snapshot
import TrackOne.Vtl.CanonicalCbor

/-!
# Disclosures over HTTP

`trackone-gateway-svc/src/evidence.rs`: a disclosure is generated for a credential whose grant
permits its class and batches, and stored. Its objects are retrieved under the same check, of a
class and batches that are read back from the stored manifest.

`generate` starts from the parsed request, and both handlers from the grants of an authenticated
credential. The tables hold the rows of one ledger.
-/

namespace TrackOne.Disclosures

open Evidence (ArtifactRef RecordBatchOpening manifestName parseU64)
open CCbor (JsonValue)
open Snapshot

/-! ## Grants -/

/-- `Failure`; an unavailable response has a reason. -/
inductive Failure where
  | unauthorized
  | denied
  | absent
  | pending
  | unavailable (reason : String)
  | invalid
  | tooLarge
  | mediaType
  | precondition
deriving DecidableEq, Repr

/-- `impl From<ExportError> for Failure`. -/
def Failure.ofExportError : ExportError → Failure
  | .absent => .absent
  | .pending => .pending
  | .unavailable => .unavailable "timestamp"
  | .invalid _ => .unavailable "integrity"

def number (value : String) : Option UInt64 :=
  (parseU64 value).filter fun parsed => toString parsed == value

inductive BatchGrant where
  | all (value : String)
  | selected (values : List String)

structure Grant where
  ledgerId : String
  readSegments : Bool
  classes : List String
  batches : BatchGrant

def Grant.permits (grant : Grant) (disclosureClass : String) (batches : Finset UInt64) : Bool :=
  grant.classes.any (· == disclosureClass)
    && (disclosureClass != "B"
      || match grant.batches with
        | .all _ => true
        | .selected allowed =>
          decide (batches.filter (fun batch => !allowed.contains (toString batch)) = ∅))

/-- `authorize`, from the grants of the credential on. -/
def authorize (served : String) (grants : List Grant) (ledger segment : String) :
    Except Failure (Grant × UInt64) := do
  Except.require .invalid (validHex ledger 32)
  let segment ← Except.ofOption .invalid (number segment)
  let grant ← Except.ofOption .denied (grants.find? fun grant => grant.ledgerId == ledger)
  Except.require .absent (ledger == served)
  pure (grant, segment)

/-! ## Selections -/

structure Selection where
  disclosureClass : String
  batches : List String

/-- `DisclosureClass::parse`. -/
def parseClass (value : String) : Except ExportError DisclosureClass :=
  if value = "A" then .ok .a
  else if value = "B" then .ok .b
  else if value = "C" then .ok .c
  else .error (.invalid "class must be A, B, or C")

/-- One round of the loop over the batches. -/
def parseBatch (batches : Finset UInt64) (batch : String) : Except Failure (Finset UInt64) := do
  let parsed ← Except.ofOption .invalid (number batch)
  Except.require .invalid (decide (parsed ∉ batches))
  pure (insert parsed batches)

def Selection.parse (selection : Selection) : Except Failure (DisclosureClass × Finset UInt64) := do
  let disclosureClass ← (parseClass selection.disclosureClass).mapError fun _ => .invalid
  let batches ← selection.batches.foldlM parseBatch ∅
  Except.require .invalid
    (!((disclosureClass = .b && decide (batches = ∅))
      || (disclosureClass ≠ .b && decide (batches ≠ ∅))))
  pure (disclosureClass, batches)

/-! ## JSON -/

/-- `value[key]`: null where there is no such member. -/
def member (value : JsonValue) (key : String) : JsonValue :=
  match value with
  | .object entries => (entries.lookup key).getD .null
  | _ => .null

def asStr : JsonValue → Option String
  | .string s => some s
  | _ => none

def asArray : JsonValue → Option (List JsonValue)
  | .array items => some items
  | _ => none

def manifestSelection (manifest : JsonValue) : Except Failure Selection := do
  let disclosureClass ←
    Except.ofOption (.unavailable "integrity") (asStr (member manifest "disclosure_class"))
  let batches ← if disclosureClass = "B" then do
      let openings ← Except.ofOption (.unavailable "integrity")
        (asArray (member (member manifest "artifacts") "record_batches"))
      openings.mapM fun batch =>
        Except.ofOption (.unavailable "integrity") (asStr (member batch "batch_number"))
    else pure []
  pure { disclosureClass, batches }

mutual

def referenceDigest (path : String) : JsonValue → Option String
  | .object entries =>
    if (entries.lookup "path").bind asStr = some path then (entries.lookup "sha256").bind asStr
    else referenceInEntries path entries
  | .array items => referenceInItems path items
  | _ => none

/-- `find_map` over the items of an array. -/
def referenceInItems (path : String) : List JsonValue → Option String
  | [] => none
  | item :: items => (referenceDigest path item).or (referenceInItems path items)

/-- `find_map` over the values of an object. -/
def referenceInEntries (path : String) : List (String × JsonValue) → Option String
  | [] => none
  | (_, value) :: entries => (referenceDigest path value).or (referenceInEntries path entries)

end

/-! ## The manifest as JSON

What a reader finds in the text of a manifest. The members of an object are in the order of their
keys. -/

def refValue (reference : ArtifactRef) : JsonValue :=
  .object [("path", .string reference.path), ("sha256", .string reference.sha256)]

def openingValue (opening : RecordBatchOpening) : JsonValue :=
  .object [("batch_number", .string opening.batchNumber),
    ("records", .array (opening.records.map refValue))]

def artifactsValue (artifacts : SnapshotArtifacts) : JsonValue :=
  .object ((artifacts.predecessorSegmentCbor.map fun reference =>
      ("predecessor_segment_cbor", refValue reference)).toList
    ++ (artifacts.recordBatches.map fun openings =>
      ("record_batches", JsonValue.array (openings.map openingValue))).toList
    ++ [("segment_cbor", refValue artifacts.segmentCbor), ("tsa_tsr", refValue artifacts.tsaTsr)])

def manifestValue (manifest : SnapshotManifest) : JsonValue :=
  .object [
    ("anchoring", .object [("tsa", .object [("status", .string manifest.tsaStatus)])]),
    ("artifacts", artifactsValue manifest.artifacts),
    ("commitment_profile_id", .string manifest.commitmentProfileId),
    ("disclosure_class", .string manifest.disclosureClass),
    ("ledger_id", .string manifest.ledgerId),
    ("segment_number", .string manifest.segmentNumber),
    ("version", .number (.posInt manifest.version.toUInt64))]

/-! ## The handlers -/

/-- The rows of `trackone_vtl_disclosure` and `trackone_vtl_disclosure_object`, by segment number
and manifest digest, and by path. -/
structure DisclosureTables where
  manifests : UInt64 → String → Option Bytes
  objects : UInt64 → String → String → Option Bytes

section

variable [Sha256]

/-- The predecessor in `anchor_view`: it is the one the segment was chained to. -/
def anchorPredecessor (store : PostgresLedgerStore) (ledger : String) (segment : UInt64)
    (decoded : SegmentRecord) : Except Failure (List (String × Bytes)) :=
  if segment > 0 then do
    let previous ←
      Except.ofOption (.unavailable "integrity") store.tables.sealedSegment[segment - 1]?
    let prior ←
      (decodeSegmentRecord previous.artifactCbor).mapError fun _ => .unavailable "integrity"
    Except.require (.unavailable "integrity")
      (sha256Digest previous.artifactCbor == decoded.prevSegmentSha256 && prior.ledgerId == ledger
        && prior.segmentNumber == segment - 1)
    pure [("predecessor.cbor", previous.artifactCbor)]
  else .ok []

/-- The timestamp response in `anchor_view`, by the status of the row. -/
def anchorTimestamp (status : TsaStatus) (response : Option Bytes) :
    Except Failure (List (String × Bytes)) :=
  match status, response with
  | .queued, none => .ok []
  | .failed, none => .ok []
  | .verified, some bytes =>
    if bytes.isEmpty then .error (.unavailable "integrity") else .ok [("timestamp.tsr", bytes)]
  | _, _ => .error (.unavailable "integrity")

/-- `anchor_view`, the files of it. -/
def anchorFiles (store : PostgresLedgerStore) (ledger : String) (segment : UInt64) :
    Except Failure (List (String × Bytes)) := do
  let row ← Except.ofOption .absent
    (if ledger = store.ledgerId then store.tables.sealedSegment[segment]? else none)
  let decoded ← (decodeSegmentRecord row.artifactCbor).mapError fun _ => .unavailable "integrity"
  Except.require (.unavailable "integrity")
    (sha256Hex row.artifactCbor == row.artifactSha256 && decoded.ledgerId == ledger
      && decoded.segmentNumber == segment)
  let predecessor ← anchorPredecessor store ledger segment decoded
  let timestamp ← anchorTimestamp row.tsaStatus row.tsaResponse
  pure ([("segment.cbor", row.artifactCbor)] ++ predecessor ++ timestamp)

/-- `INSERT … ON CONFLICT DO NOTHING` of a manifest, and of the files if it is a new one. -/
def DisclosureTables.record (tables : DisclosureTables) (segment : UInt64)
    (files : List (String × Bytes)) (manifest : Bytes) : Except Failure DisclosureTables :=
  let digest := sha256Hex manifest
  match tables.manifests segment digest with
  | some existing =>
    if existing = manifest then .ok tables else .error (.unavailable "integrity")
  | none => .ok {
      manifests := fun n d =>
        if n = segment ∧ d = digest then some manifest else tables.manifests n d
      objects := fun n d path =>
        if n = segment ∧ d = digest ∧ path ≠ manifestName then
          (files.lookup path).or (tables.objects n d path)
        else tables.objects n d path }

/-- `generate`: the digest of the manifest it answers with, and the tables afterwards. -/
def generate (writeManifest : SnapshotManifest → Except String Bytes) (served : String)
    (store : PostgresLedgerStore) (tables : DisclosureTables) (grants : List Grant)
    (ledger segment : String) (selection : Selection) :
    Except Failure (String × DisclosureTables) := do
  let (grant, segment) ← authorize served grants ledger segment
  let (disclosureClass, batches) ← selection.parse
  Except.require .denied (grant.permits selection.disclosureClass batches)
  let files ← anchorFiles store ledger segment
  let artifact ← Except.ofOption (.unavailable "integrity") (files.head?.map Prod.snd)
  let decoded ← (decodeSegmentRecord artifact).mapError fun _ => .unavailable "integrity"
  Except.require .invalid
    (!(disclosureClass = .b && (decide (decoded.batchRoots.length ≤ batches.card)
      || decide (∃ batch ∈ batches, decoded.batchRoots.length ≤ batch.toNat))))
  let material ← (readMaterial store ledger segment).mapError .ofExportError
  let prepared ←
    (prepareExport writeManifest ledger segment disclosureClass batches material).mapError
      .ofExportError
  let manifest ← Except.ofOption (.unavailable "integrity") (prepared.lookup manifestName)
  let tables ← tables.record segment prepared manifest
  pure (sha256Hex manifest, tables)

/-- An object with the headers that depend on it, as the texts of their values. -/
structure ObjectResponse where
  bytes : Bytes
  contentType : String
  etag : String
  link : String
deriving DecidableEq

/-- `object_response`, without the digest headers, which repeat the digest in base64. -/
def objectResponse (bytes : Bytes) (path link : String) : ObjectResponse where
  bytes
  contentType :=
    if ".json".toList <:+ path.toList then "application/json"
    else if ".tsr".toList <:+ path.toList then "application/timestamp-reply"
    else "application/cbor"
  etag := "\"" ++ sha256Hex bytes ++ "\""
  link := "<" ++ link ++ ">; rel=\"describedby\""

/-- `base`. -/
def basePath (ledger : String) (segment : UInt64) : String :=
  "/v2/ledgers/" ++ ledger ++ "/segments/" ++ toString segment

/-- `bundle_object` from the manifest on that the grant permits. -/
def bundleFile (tables : DisclosureTables) (ledger : String) (segment : UInt64)
    (digest path : String)
    (manifestBytes : Bytes) (manifest : JsonValue) : Except Failure ObjectResponse :=
  let link := basePath ledger segment ++ "/disclosures/" ++ digest ++ "/" ++ manifestName
  if path = manifestName then .ok (objectResponse manifestBytes path link)
  else do
    let expected ← Except.ofOption .absent (referenceDigest path (member manifest "artifacts"))
    let bytes ← Except.ofOption (.unavailable "integrity") (tables.objects segment digest path)
    Except.require (.unavailable "integrity") (sha256Hex bytes == expected)
    pure (objectResponse bytes path link)

/-- `bundle_object`; `readJson` is `serde_json::from_slice`. -/
def bundleObject (readJson : Bytes → Except String JsonValue) (served : String)
    (tables : DisclosureTables) (grants : List Grant) (ledger segment digest path : String) :
    Except Failure ObjectResponse := do
  let (grant, segment) ← authorize served grants ledger segment
  Except.require .denied (!grant.classes.isEmpty)
  Except.require .invalid (validHex digest 64)
  let bytes ← Except.ofOption .absent (tables.manifests segment digest)
  Except.require (.unavailable "integrity") (sha256Hex bytes == digest)
  let manifest ← (readJson bytes).mapError fun _ => .unavailable "integrity"
  Except.require (.unavailable "integrity")
    (asStr (member manifest "ledger_id") == some ledger
      && (asStr (member manifest "segment_number")).bind number == some segment)
  let selection ← manifestSelection manifest
  let (_, batches) ← selection.parse.mapError fun _ => .unavailable "integrity"
  Except.require .denied (grant.permits selection.disclosureClass batches)
  bundleFile tables ledger segment digest path bytes manifest

end

end TrackOne.Disclosures
