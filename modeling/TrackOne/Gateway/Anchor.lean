import TrackOne.Gateway.Disclosures
import TrackOne.Gateway.Material

/-!
# The anchor view

`anchor_view` and `current_object` of `trackone-gateway-svc/src/evidence.rs`: the segment itself,
its predecessor and its timestamp, as they are now, under a manifest of class C that opens nothing.

The view of a segment is read again for every object. `map_snd_anchorView` says that its files are
those that `generate` reads, and `anchorView_of_agrees` what it is in terms of what the producer has
sealed. -/

namespace TrackOne.Disclosures

open Evidence (ArtifactRef Manifest manifestName)
open Snapshot

variable [Sha256]

/-- The manifest of `anchor_view`, from the files and the state of the timestamp. -/
def anchorManifest (ledger : String) (segment : UInt64) (profile : String) (digest : String)
    (predecessor timestamp : List (String × Bytes)) (state : String) : Manifest where
  version := 1
  ledgerId := ledger
  segmentNumber := toString segment
  commitmentProfileId := profile
  disclosureClass := "C"
  artifacts := {
    segmentCbor := ⟨"segment.cbor", digest⟩
    predecessorSegmentCbor := predecessor.head?.map fun file => artifactRef file.1 file.2
    recordBatches := none
    tsaReq := none
    tsaTsr := timestamp.head?.map fun file => artifactRef file.1 file.2
    extensions := ∅ }
  tsaStatus := state

/-- `anchor_view`: the manifest and the files. -/
def anchorView (store : PostgresLedgerStore) (ledger : String) (segment : UInt64) :
    Except Failure (Manifest × List (String × Bytes)) := do
  let row ← Except.ofOption .absent
    (if ledger = store.ledgerId then store.tables.sealedSegment[segment]? else none)
  let decoded ← (decodeSegmentRecord row.artifactCbor).mapError fun _ => .unavailable "integrity"
  Except.require (.unavailable "integrity")
    (sha256Hex row.artifactCbor == row.artifactSha256 && decoded.ledgerId == ledger
      && decoded.segmentNumber == segment)
  let predecessor ← anchorPredecessor store ledger segment decoded
  let timestamp ← anchorTimestamp row.tsaStatus row.tsaResponse
  let state ← Except.ofOption (.unavailable "integrity") (anchorState row)
  pure (anchorManifest ledger segment decoded.commitmentProfileId row.artifactSha256 predecessor
      timestamp state,
    [("segment.cbor", row.artifactCbor)] ++ predecessor ++ timestamp)

/-- `current_object`; `writeJson` is `serde_json::to_vec_pretty`. -/
def currentObject (writeJson : Manifest → Except String Bytes) (served : String)
    (store : PostgresLedgerStore) (grants : List Grant) (ledger segment object : String) :
    Except Failure ObjectResponse := do
  let (grant, segment) ← authorize served grants ledger segment
  Except.require .denied grant.readSegments
  let (manifest, files) ← anchorView store ledger segment
  let link := basePath ledger segment ++ "/" ++ manifestName
  if object = manifestName then do
    let bytes ← (writeJson manifest).mapError fun _ => .unavailable "integrity"
    pure (objectResponse bytes manifestName link)
  else do
    Except.require .pending (!(object = "timestamp.tsr" && manifest.tsaStatus = "pending"))
    Except.require (.unavailable "timestamp")
      (!(object = "timestamp.tsr" && manifest.tsaStatus = "unavailable"))
    let bytes ← Except.ofOption .absent (files.lookup object)
    pure (objectResponse bytes object link)

omit [Sha256] in
theorem anchorState_of_timestamp {row : SegmentRow} {timestamp : List (String × Bytes)}
    (h : anchorTimestamp row.tsaStatus row.tsaResponse = .ok timestamp) :
    (anchorState row).isSome := by
  unfold anchorState
  generalize row.tsaStatus = status at h ⊢
  generalize row.tsaResponse = response at h ⊢
  cases status with
  | queued =>
    cases response with
    | none => rfl
    | some bytes => cases h
  | failed =>
    cases response with
    | none => rfl
    | some bytes => cases h
  | verified =>
    cases response with
    | none => cases h
    | some bytes =>
      show (if bytes ≠ [] then some "present" else none).isSome
      -- a response without bytes is refused
      have hbytes : bytes ≠ [] := by
        rintro rfl
        cases h
      rw [if_pos hbytes]
      rfl

/-- The files that `generate` reads are those of the view. -/
theorem map_snd_anchorView (store : PostgresLedgerStore) (ledger : String) (segment : UInt64) :
    (anchorView store ledger segment).map Prod.snd = anchorFiles store ledger segment := by
  unfold anchorView anchorFiles
  cases Except.ofOption Failure.absent
    (if ledger = store.ledgerId then store.tables.sealedSegment[segment]? else none) with
  | error error => rfl
  | ok row =>
    rw [Except.ok_bind, Except.ok_bind]
    cases (decodeSegmentRecord row.artifactCbor).mapError fun _ =>
      Failure.unavailable "integrity" with
    | error error => rfl
    | ok decoded =>
      rw [Except.ok_bind, Except.ok_bind]
      cases Except.require (Failure.unavailable "integrity")
        (sha256Hex row.artifactCbor == row.artifactSha256 && decoded.ledgerId == ledger
          && decoded.segmentNumber == segment) with
      | error error => rfl
      | ok _ =>
        rw [Except.ok_bind, Except.ok_bind]
        cases anchorPredecessor store ledger segment decoded with
        | error error => rfl
        | ok predecessor =>
          rw [Except.ok_bind, Except.ok_bind]
          cases htimestamp : anchorTimestamp row.tsaStatus row.tsaResponse with
          | error error => rfl
          | ok timestamp =>
            -- a row with a timestamp column that is read has a state
            obtain ⟨state, hstate⟩ :=
              Option.isSome_iff_exists.mp (anchorState_of_timestamp htimestamp)
            rw [Except.ok_bind, Except.ok_bind, hstate]
            rfl

/-! ## What is in the view -/

/-- The file of a predecessor. -/
def predecessorFile (predecessor : Option Bytes) : List (String × Bytes) :=
  (predecessor.map fun bytes => ("predecessor.cbor", bytes)).toList

/-- The file of a response. -/
def timestampFile (response : Option Bytes) : List (String × Bytes) :=
  (response.map fun bytes => ("timestamp.tsr", bytes)).toList

section

variable {store : PostgresLedgerStore} {state : ProducerState} {segments : List SealedSegment}
variable {number : UInt64} {sealed : SealedSegment} {row : SegmentRow} {job : QueueColumns}
variable {r : SegmentRecord} {config : TimestampWorkerConfig}

omit [Sha256] in
theorem anchorTimestamp_of_invariant (h : JobInvariant config ⟨row, job⟩) :
    anchorTimestamp row.tsaStatus row.tsaResponse = .ok (timestampFile row.tsaResponse) := by
  cases hstatus : row.tsaStatus with
  | queued =>
    rw [show row.tsaResponse = none from (h.queued hstatus).1]
    rfl
  | failed =>
    rw [show row.tsaResponse = none from (h.failed hstatus).1]
    rfl
  | verified =>
    obtain ⟨response, hresponse, hne⟩ := h.verified hstatus
    rw [show row.tsaResponse = some response from hresponse]
    exact if_neg (by simpa using hne)

theorem anchorPredecessor_of_agrees (h : Agrees store state segments)
    (hchained : Chained state segments)
    (hsealed : segments[number.toNat]? = some sealed)
    (hat : SegmentAt state.ledgerId (lastArtifact (segments.take number.toNat)) number.toNat
      sealed r) :
    anchorPredecessor store state.ledgerId number r
      = .ok (predecessorFile (lastArtifact (segments.take number.toNat))) := by
  unfold anchorPredecessor
  by_cases hzero : number = 0
  · subst hzero
    rfl
  · obtain ⟨previous, hprevious, hnext, hlast⟩ := lastArtifact_take hsealed hzero
    obtain ⟨row', hrow', hcbor'⟩ := exists_row h.sealedSegment hprevious
    obtain ⟨p, hp⟩ := hchained.chain _ _ hprevious
    have hprev := hat.prevSegmentSha256
    rw [hlast, predecessorHash] at hprev
    have hpos : number > 0 := by
      rw [gt_iff_lt, UInt64.lt_iff_toNat_lt]
      exact Nat.pos_of_ne_zero fun h0 => hzero (UInt64.toNat_inj.mp h0)
    have hnumber : p.segmentNumber = number - 1 := UInt64.toNat_inj.mp hp.number
    rw [if_pos hpos, hrow', Except.ofOption, Except.ok_bind, hcbor', hp.decoded, Except.mapError,
      Except.ok_bind, hprev, hp.ledgerId, hnumber, hlast]
    simp [Except.require, predecessorFile, bind, Except.bind, pure, Except.pure]

/-- The view of a segment that the producer has sealed. -/
theorem anchorView_of_agrees (h : Agrees store state segments) (hchained : Chained state segments)
    (hsealed : segments[number.toNat]? = some sealed)
    (hrow : store.tables.sealedSegment[number]? = some row) (hjob : JobInvariant config ⟨row, job⟩)
    (hat : SegmentAt state.ledgerId (lastArtifact (segments.take number.toNat)) number.toNat
      sealed r) :
    ∃ status, anchorState row = some status
      ∧ anchorView store state.ledgerId number
        = .ok (anchorManifest state.ledgerId number r.commitmentProfileId sealed.artifactSha256
            (predecessorFile (lastArtifact (segments.take number.toNat)))
            (timestampFile row.tsaResponse) status,
          [("segment.cbor", sealed.artifactCbor)]
            ++ predecessorFile (lastArtifact (segments.take number.toNat))
            ++ timestampFile row.tsaResponse) := by
  obtain ⟨status, hstatus⟩ := Option.isSome_iff_exists.mp hjob.anchorState_isSome
  refine ⟨status, hstatus, ?_⟩
  obtain ⟨sealed', hsealed', hcbor, hsha⟩ := exists_sealed h.sealedSegment hrow
  obtain rfl : sealed' = sealed := Option.some.inj (hsealed'.symm.trans hsealed)
  have hnumber : r.segmentNumber = number := UInt64.toNat_inj.mp hat.number
  unfold anchorView
  rw [if_pos h.ledgerId, hrow, Except.ofOption, Except.ok_bind, hcbor, hat.decoded, Except.mapError,
    Except.ok_bind, hsha, hat.artifactSha256, hat.ledgerId, hnumber,
    anchorPredecessor_of_agrees h hchained hsealed hat, anchorTimestamp_of_invariant hjob]
  simp [Except.require, bind, Except.bind, pure, Except.pure, hstatus, Except.ofOption]

end

end TrackOne.Disclosures
