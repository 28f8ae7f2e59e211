import TrackOne.Gateway.Disclosures
import TrackOne.Gateway.Export
import TrackOne.Evidence.Soundness

/-!
# What a disclosure is retrieved under

The manifest of an export says which class and which batches were selected, and which digest each of
its files has. Both are read back from its JSON, by `manifestSelection` and `referenceDigest`.

* `manifestSelection_exported`: the class and the batches are those of the request.
* `referenceDigest_exported`: the digests are those of the files, and no other path has one.
* `retrieved_as_generated`: so a grant permits the retrieval of what it permits to generate.
-/

namespace TrackOne.Disclosures

open Evidence (ArtifactRef RecordBatchOpening leafHashes_sampleRecords manifestName
  parseU64_of_parseUint64 parseUint64_toString sampleRecord sampleRecords_canonical sampleSealed
  sampleSealed_valid)
open CCbor (JsonValue)
open Snapshot

/-! ## Selections -/

/-- A written segment number is read back. -/
@[simp] theorem number_toString (n : UInt64) : number (toString n) = some n := by
  unfold number
  rw [parseU64_of_parseUint64 (parseUint64_toString n)]
  simp

/-- A credential with a grant is authorised for every segment number. -/
theorem authorize_served {ledgerId : String} {grants : List Grant} {grant : Grant}
    (hledger : validHex ledgerId 32 = true)
    (hgrant : grants.find? (fun grant => grant.ledgerId == ledgerId) = some grant) (n : UInt64) :
    authorize ledgerId grants ledgerId (toString n) = .ok (grant, n) := by
  simp [authorize, hledger, hgrant, number_toString, Except.require, Except.ofOption, bind,
    Except.bind, pure, Except.pure]

/-- The numbers of a selection are read one by one. -/
theorem foldlM_parseBatch {numbers : List UInt64} {batches : Finset UInt64} (h : numbers.Nodup)
    (hnew : ∀ n ∈ numbers, n ∉ batches) :
    (numbers.map toString).foldlM parseBatch batches = .ok (batches ∪ numbers.toFinset) := by
  induction numbers generalizing batches with
  | nil => simp [pure, Except.pure]
  | cons n numbers ih =>
    obtain ⟨hn, hnodup⟩ := List.nodup_cons.mp h
    have hround : parseBatch batches (toString n) = .ok (insert n batches) := by
      have hfresh : n ∉ batches := hnew n List.mem_cons_self
      unfold parseBatch
      rw [number_toString, Except.ofOption, Except.ok_bind, decide_eq_true hfresh]
      rfl
    have hrest : ∀ m ∈ numbers, m ∉ insert n batches := by
      intro m hm hmem
      rcases Finset.mem_insert.mp hmem with rfl | hmem
      · exact hn hm
      · exact hnew m (List.mem_cons_of_mem _ hm) hmem
    rw [List.map_cons, List.foldlM_cons, hround, Except.ok_bind, ih hnodup hrest]
    congr 1
    ext m
    simp

/-- The class of a selection is named in it. -/
theorem Selection.parse_class {selection : Selection} {disclosureClass : DisclosureClass}
    {batches : Finset UInt64} (h : selection.parse = .ok (disclosureClass, batches)) :
    selection.disclosureClass = disclosureClass.asStr := by
  simp only [Selection.parse, Except.bind_eq_ok, Except.mapError_eq_ok] at h
  obtain ⟨parsed, hparsed, _, _, _, _, heq⟩ := h
  obtain ⟨rfl, rfl⟩ := Prod.mk.inj (Except.ok.inj heq)
  unfold parseClass at hparsed
  split_ifs at hparsed with ha hb hc
  · obtain rfl := Except.ok.inj hparsed
    exact ha
  · obtain rfl := Except.ok.inj hparsed
    exact hb
  · obtain rfl := Except.ok.inj hparsed
    exact hc

/-! ## References -/

/-- A reference answers for its own path. -/
@[simp] theorem referenceDigest_refValue (path : String) (reference : ArtifactRef) :
    referenceDigest path (refValue reference)
      = if reference.path = path then some reference.sha256 else none := by
  simp [refValue, referenceDigest, referenceInEntries, List.lookup_cons, asStr]

/-- In a list of references the first of a path answers. -/
theorem referenceInItems_refs (path : String) (references : List ArtifactRef) :
    referenceInItems path (references.map refValue)
      = (references.find? fun reference => reference.path = path).map ArtifactRef.sha256 := by
  induction references with
  | nil => rfl
  | cons reference references ih =>
    rw [List.map_cons, referenceInItems, referenceDigest_refValue, ih]
    by_cases hpath : reference.path = path <;> simp [hpath]

/-- In a list of openings the first reference of a path answers. -/
theorem referenceInItems_openings (path : String) (openings : List RecordBatchOpening) :
    referenceInItems path (openings.map openingValue)
      = ((openings.flatMap RecordBatchOpening.records).find? fun reference =>
        reference.path = path).map ArtifactRef.sha256 := by
  induction openings with
  | nil => rfl
  | cons opening openings ih =>
    have hopening : referenceDigest path (openingValue opening)
        = (opening.records.find? fun reference => reference.path = path).map
          ArtifactRef.sha256 := by
      simp [openingValue, referenceDigest, referenceInEntries, List.lookup_cons,
        referenceInItems_refs]
    rw [List.map_cons, referenceInItems, hopening, ih, List.flatMap_cons, List.find?_append,
      Option.map_or]

/-- In a longer object the earlier entries answer first. -/
theorem referenceInEntries_append (path : String) (entries entries' : List (String × JsonValue)) :
    referenceInEntries path (entries ++ entries')
      = (referenceInEntries path entries).or (referenceInEntries path entries') := by
  induction entries with
  | nil => rfl
  | cons entry entries ih =>
    rw [List.cons_append, referenceInEntries, referenceInEntries, ih, Option.or_assoc]

/-- The search finds the first reference to a path. -/
theorem referenceDigest_artifacts (path : String) (artifacts : SnapshotArtifacts) :
    referenceDigest path (artifactsValue artifacts)
      = (artifacts.references.find? fun reference => reference.path = path).map
        ArtifactRef.sha256 := by
  -- the object of the artifacts is no reference itself
  have hobject : ∀ entries : List (String × JsonValue), entries.lookup "path" = none →
      referenceDigest path (.object entries) = referenceInEntries path entries := by
    intro entries hnone
    rw [referenceDigest, hnone]
    rfl
  have hlast : referenceInEntries path
        [("segment_cbor", refValue artifacts.segmentCbor), ("tsa_tsr", refValue artifacts.tsaTsr)]
      = ([artifacts.segmentCbor, artifacts.tsaTsr].find? fun reference => reference.path = path).map
        ArtifactRef.sha256 := by
    rw [← referenceInItems_refs]
    simp [referenceInEntries, referenceInItems]
  have hpredecessor : referenceInEntries path (artifacts.predecessorSegmentCbor.map fun reference =>
        ("predecessor_segment_cbor", refValue reference)).toList
      = (artifacts.predecessorSegmentCbor.toList.find? fun reference => reference.path = path).map
        ArtifactRef.sha256 := by
    rw [← referenceInItems_refs]
    cases artifacts.predecessorSegmentCbor <;> simp [referenceInEntries, referenceInItems]
  have hbatches : referenceInEntries path (artifacts.recordBatches.map fun openings =>
        ("record_batches", JsonValue.array (openings.map openingValue))).toList
      = (((artifacts.recordBatches.getD []).flatMap RecordBatchOpening.records).find?
        fun reference =>
        reference.path = path).map ArtifactRef.sha256 := by
    rw [← referenceInItems_openings]
    cases artifacts.recordBatches <;> simp [referenceInEntries, referenceInItems, referenceDigest]
  rw [artifactsValue, hobject, referenceInEntries_append, referenceInEntries_append, hpredecessor,
    hbatches, hlast, SnapshotArtifacts.references, List.find?_append, List.find?_append,
    Option.map_or, Option.map_or]
  cases artifacts.predecessorSegmentCbor <;> cases artifacts.recordBatches <;> rfl

/-! ## The members of a manifest -/

/-- The artifacts are read back from a manifest. -/
@[simp] theorem member_artifacts (manifest : SnapshotManifest) :
    member (manifestValue manifest) "artifacts" = artifactsValue manifest.artifacts := by
  simp [member, manifestValue, List.lookup_cons]

/-- The class is read back from a manifest. -/
@[simp] theorem member_disclosureClass (manifest : SnapshotManifest) :
    member (manifestValue manifest) "disclosure_class" = .string manifest.disclosureClass := by
  simp [member, manifestValue, List.lookup_cons]

/-- The ledger is read back from a manifest. -/
@[simp] theorem member_ledgerId (manifest : SnapshotManifest) :
    member (manifestValue manifest) "ledger_id" = .string manifest.ledgerId := by
  simp [member, manifestValue, List.lookup_cons]

/-- The segment is read back from a manifest. -/
@[simp] theorem member_segmentNumber (manifest : SnapshotManifest) :
    member (manifestValue manifest) "segment_number" = .string manifest.segmentNumber := by
  simp [member, manifestValue, List.lookup_cons]

/-- The openings are read back from a manifest. -/
theorem member_recordBatches {artifacts : SnapshotArtifacts} {openings : List RecordBatchOpening}
    (h : artifacts.recordBatches = some openings) :
    member (artifactsValue artifacts) "record_batches" = .array (openings.map openingValue) := by
  unfold member artifactsValue
  rw [h]
  cases artifacts.predecessorSegmentCbor <;> simp [List.lookup_cons]

/-- Outside class `B` a manifest selects no batches. -/
theorem manifestSelection_all {manifest : SnapshotManifest} (h : manifest.disclosureClass ≠ "B") :
    manifestSelection (manifestValue manifest) = .ok ⟨manifest.disclosureClass, []⟩ := by
  unfold manifestSelection
  rw [member_disclosureClass, asStr, Except.ofOption, Except.ok_bind, if_neg h]
  rfl

/-- In class `B` a manifest selects the batches it opens. -/
theorem manifestSelection_selected {manifest : SnapshotManifest}
    {openings : List RecordBatchOpening} (h : manifest.disclosureClass = "B")
    (hopenings : manifest.artifacts.recordBatches = some openings) :
    manifestSelection (manifestValue manifest)
      = .ok ⟨"B", openings.map RecordBatchOpening.batchNumber⟩ := by
  have hnumbers : (openings.map openingValue).mapM (fun batch =>
        Except.ofOption (Failure.unavailable "integrity") (asStr (member batch "batch_number")))
      = .ok (openings.map RecordBatchOpening.batchNumber) := by
    rw [Except.mapM_eq_ok_iff, List.forall₂_map_left_iff, List.forall₂_map_right_iff]
    refine List.forall₂_same.mpr fun opening _ => ?_
    simp [member, openingValue, asStr, Except.ofOption]
  unfold manifestSelection
  rw [member_disclosureClass, asStr, Except.ofOption, Except.ok_bind, if_pos h, member_artifacts,
    member_recordBatches hopenings, asArray, Except.ofOption, Except.ok_bind, hnumbers, h]
  rfl

section

variable [Sha256]

variable {ledger : String} {segment : UInt64} {disclosureClass : DisclosureClass}
variable {batches : Finset UInt64}
variable {material : SnapshotMaterial} {sealed : SegmentRecord} {disclosed : List Nat}

/-- The selection is read back from the manifest. -/
theorem manifestSelection_exported
    (h : Exportable ledger segment disclosureClass batches material sealed disclosed) :
    ∃ selection, manifestSelection (manifestValue (exportedManifest ledger segment disclosureClass
        material sealed (exportedBatches sealed material disclosed))) = .ok selection
      ∧ selection.disclosureClass = disclosureClass.asStr
      ∧ selection.parse = .ok (disclosureClass, batches) := by
  cases disclosureClass with
  | a =>
    obtain rfl : batches = ∅ := h.selected.resolve_left (by decide)
    have hclass : DisclosureClass.a.asStr ≠ "B" := by decide
    exact ⟨_, manifestSelection_all hclass, rfl, rfl⟩
  | b =>
    obtain ⟨numbers, rfl, hdiscloses⟩ := h.discloses
    obtain ⟨rfl, hne, -⟩ := hdiscloses.selected rfl
    have hopenings : (exportedBatches sealed material (numbers.map UInt64.toNat)).map
        ExportedBatch.opening ≠ [] := by
      simpa [exportedBatches] using hne
    have hnumbers : ((exportedBatches sealed material (numbers.map UInt64.toNat)).map
        ExportedBatch.opening).map RecordBatchOpening.batchNumber = numbers.map toString := by
      simp only [exportedBatches, List.map_map]
      rfl
    refine ⟨_, manifestSelection_selected rfl (if_neg ?_), rfl, ?_⟩
    · rwa [List.isEmpty_iff]
    · rw [hnumbers]
      have hbatches := foldlM_parseBatch hdiscloses.nodup fun n _ => Finset.notMem_empty n
      have hclass : parseClass "B" = .ok .b := rfl
      simp only [Selection.parse, hclass, hbatches, Except.mapError, Except.ok_bind]
      simp [Except.require, hne, pure, Except.pure, Except.ok_bind]
  | c =>
    obtain rfl : batches = ∅ := h.selected.resolve_left (by decide)
    have hclass : DisclosureClass.c.asStr ≠ "B" := by decide
    exact ⟨_, manifestSelection_all hclass, rfl, rfl⟩

/-- What the references say of an exported file is its digest, and nothing else is referred to. -/
theorem referenceDigest_exported
    (h : Exportable ledger segment disclosureClass batches material sealed disclosed) :
    let files := exportedFiles material (exportedBatches sealed material disclosed)
    let artifacts := artifactsValue (exportedManifest ledger segment disclosureClass material sealed
      (exportedBatches sealed material disclosed)).artifacts
    (∀ path bytes, (path, bytes) ∈ files → referenceDigest path artifacts = some (sha256Hex bytes))
      ∧ ∀ path, path ∉ files.map Prod.fst → referenceDigest path artifacts = none := by
  intro files artifacts
  have hperm := @references_perm _ ledger segment disclosureClass material sealed disclosed
    h.reproduces.digest
  have hnodup : (files.map Prod.fst).Nodup := nodup_exportedFiles h.nodup
  have hdigest : ∀ path, referenceDigest path artifacts = _ := fun path =>
    referenceDigest_artifacts path _
  generalize (exportedManifest ledger segment disclosureClass material sealed
    (exportedBatches sealed material disclosed)).artifacts.references = references at hperm hdigest
  have hmem : ∀ reference, reference ∈ references
      ↔ ∃ file ∈ files, artifactRef file.1 file.2 = reference := by
    intro reference
    rw [hperm.mem_iff, List.mem_map]
  constructor
  · intro path bytes hfile
    have hsome : (references.find? fun reference => reference.path = path).isSome :=
      List.find?_isSome.mpr ⟨_, (hmem _).mpr ⟨_, hfile, rfl⟩, by simp [artifactRef]⟩
    obtain ⟨reference, hfound⟩ := Option.isSome_iff_exists.mp hsome
    obtain ⟨⟨path', bytes'⟩, hfile', rfl⟩ := (hmem reference).mp (List.mem_of_find?_eq_some hfound)
    -- the reference that is found is the one of the file, as the paths are distinct
    have htest := List.find?_some hfound
    have hpath : path' = path := of_decide_eq_true htest
    obtain ⟨-, rfl⟩ := Prod.mk.inj (List.inj_on_of_nodup_map hnodup hfile' hfile hpath)
    rw [hdigest, hfound]
    rfl
  · intro path hpath
    rw [hdigest, Option.map_eq_none_iff, List.find?_eq_none]
    intro reference hreference hsame
    obtain ⟨file, hfile, rfl⟩ := (hmem reference).mp hreference
    apply hpath
    rw [← of_decide_eq_true hsame]
    exact List.mem_map_of_mem hfile

/-! ## Denials -/

omit [Sha256] in
/-- No failure of an export denies access. -/
theorem failsWith_ofExportError {α : Type} (x : Except ExportError α) :
    (x.mapError Failure.ofExportError).FailsWith (· ≠ Failure.denied) := by
  refine Except.failsWith_mapError (fun error => ?_) x
  cases error <;> simp [Failure.ofExportError]

/-- A missing predecessor denies no access. -/
theorem anchorPredecessor_failsWith (store : PostgresLedgerStore) (ledger : String)
    (segment : UInt64)
    (decoded : SegmentRecord) :
    (anchorPredecessor store ledger segment decoded).FailsWith (· ≠ Failure.denied) := by
  unfold anchorPredecessor
  split_ifs
  · refine (Except.failsWith_ofOption (by decide) _).bind fun previous _ => ?_
    refine (Except.failsWith_mapError (fun _ => by decide) _).bind fun prior _ => ?_
    exact (Except.failsWith_require (by decide) _).bind fun _ _ => Except.failsWith_ok _
  · exact Except.failsWith_ok _

omit [Sha256] in
/-- A missing timestamp denies no access. -/
theorem anchorTimestamp_failsWith (status : TsaStatus) (response : Option Bytes) :
    (anchorTimestamp status response).FailsWith (· ≠ Failure.denied) := by
  unfold anchorTimestamp
  split
  · exact Except.failsWith_ok _
  · exact Except.failsWith_ok _
  · split_ifs
    · exact Except.failsWith_error (by decide)
    · exact Except.failsWith_ok _
  · exact Except.failsWith_error (by decide)

/-- A missing anchor denies no access. -/
theorem anchorFiles_failsWith (store : PostgresLedgerStore) (ledger : String) (segment : UInt64) :
    (anchorFiles store ledger segment).FailsWith (· ≠ Failure.denied) := by
  refine (Except.failsWith_ofOption (by decide) _).bind fun row _ => ?_
  refine (Except.failsWith_mapError (fun _ => by decide) _).bind fun decoded _ => ?_
  refine (Except.failsWith_require (by decide) _).bind fun _ _ => ?_
  refine (anchorPredecessor_failsWith store ledger segment decoded).bind fun predecessor _ => ?_
  exact (anchorTimestamp_failsWith _ _).bind fun timestamp _ => Except.failsWith_ok _

/-- A conflict between objects denies no access. -/
theorem record_failsWith (tables : DisclosureTables) (segment : UInt64)
    (files : List (String × Bytes))
    (manifest : Bytes) :
    (tables.record segment files manifest).FailsWith (· ≠ Failure.denied) := by
  unfold DisclosureTables.record
  dsimp only
  split
  · split_ifs
    · exact Except.failsWith_ok _
    · exact Except.failsWith_error (by decide)
  · exact Except.failsWith_ok _

/-- After the grant permits a disclosure, `generate` does not deny it. -/
theorem generate_denied {writeManifest : SnapshotManifest → Except String Bytes} {served : String}
    {store : PostgresLedgerStore} {tables : DisclosureTables} {grants : List Grant} {grant : Grant}
    {segmentText : String} {request : Selection}
    (hauthorized : authorize served grants ledger segmentText = .ok (grant, segment))
    (hrequest : request.parse = .ok (disclosureClass, batches)) :
    generate writeManifest served store tables grants ledger segmentText request = .error .denied
      ↔ grant.permits request.disclosureClass batches = false := by
  simp only [generate, hauthorized, hrequest, Except.ok_bind]
  apply Except.require_bind_eq_error
  refine (anchorFiles_failsWith store ledger segment).bind fun files _ => ?_
  refine (Except.failsWith_ofOption (by decide) _).bind fun artifact _ => ?_
  refine (Except.failsWith_mapError (fun _ => by decide) _).bind fun decoded _ => ?_
  refine (Except.failsWith_require (by decide) _).bind fun _ _ => ?_
  refine (failsWith_ofExportError _).bind fun stored _ => ?_
  refine (failsWith_ofExportError _).bind fun prepared _ => ?_
  refine (Except.failsWith_ofOption (by decide) _).bind fun manifest _ => ?_
  exact (record_failsWith tables segment prepared manifest).bind fun _ _ => Except.failsWith_ok _

/-- A missing file denies no access. -/
theorem bundleFile_failsWith (tables : DisclosureTables) (ledger : String) (segment : UInt64)
    (digest path : String) (manifestBytes : Bytes) (manifest : JsonValue) :
    (bundleFile tables ledger segment digest path manifestBytes manifest).FailsWith
      (· ≠ Failure.denied) := by
  unfold bundleFile
  dsimp only
  split_ifs
  · exact Except.failsWith_ok _
  · refine (Except.failsWith_ofOption (by decide) _).bind fun expected _ => ?_
    refine (Except.failsWith_ofOption (by decide) _).bind fun bytes _ => ?_
    exact (Except.failsWith_require (by decide) _).bind fun _ _ => Except.failsWith_ok _

/-- A stored export is denied at retrieval by the same check. -/
theorem bundleObject_denied {readJson : Bytes → Except String JsonValue} {served : String}
    {tables : DisclosureTables} {grants : List Grant} {grant : Grant} {segmentText path : String}
    {manifestBytes : Bytes}
    (h : Exportable ledger segment disclosureClass batches material sealed disclosed)
    (hread : readJson manifestBytes
      = .ok (manifestValue (exportedManifest ledger segment disclosureClass
      material sealed (exportedBatches sealed material disclosed))))
    (hauthorized : authorize served grants ledger segmentText = .ok (grant, segment))
    (hstored : tables.manifests segment (sha256Hex manifestBytes) = some manifestBytes) :
    bundleObject readJson served tables grants ledger segmentText (sha256Hex manifestBytes) path
        = .error .denied
      ↔ grant.permits disclosureClass.asStr batches = false := by
  obtain ⟨selection, hselection, hclass, hparse⟩ := manifestSelection_exported h
  simp only [bundleObject, hauthorized, Except.ok_bind]
  cases hclasses : grant.classes.isEmpty with
  | true =>
    -- without a class nothing is permitted
    have hnone : grant.classes = [] := List.isEmpty_iff.mp hclasses
    refine ⟨fun _ => ?_, fun _ => rfl⟩
    rw [Grant.permits, hnone]
    rfl
  | false =>
    have hledger : (exportedManifest ledger segment disclosureClass material sealed
        (exportedBatches sealed material disclosed)).ledgerId = ledger := rfl
    have hnumber : (exportedManifest ledger segment disclosureClass material sealed
        (exportedBatches sealed material disclosed)).segmentNumber = toString segment := rfl
    simp only [validHex_sha256Hex, hstored, hread, hselection, hparse, hclass, member_ledgerId,
      member_segmentNumber, hledger, hnumber, asStr, Option.bind_some, number_toString,
      Except.ofOption, Except.mapError, Except.ok_bind, beq_self_eq_true, Bool.and_self,
      Bool.not_false, Except.require_true]
    exact Except.require_bind_eq_error (bundleFile_failsWith _ _ _ _ _ _ _)

/-- **Retrieval is authorised exactly as generation was.** -/
theorem retrieved_as_generated (writeManifest : SnapshotManifest → Except String Bytes)
    (readJson : Bytes → Except String JsonValue)
    (hjson : ∀ manifest bytes, writeManifest manifest = .ok bytes →
      readJson bytes = .ok (manifestValue manifest))
    (ledger : String) (segment : UInt64) (disclosureClass : DisclosureClass)
    (batches : Finset UInt64) (material : SnapshotMaterial) (files : List (String × Bytes))
    (hexport : prepareExport writeManifest ledger segment disclosureClass batches material
      = .ok files) :
    ∃ manifestBytes manifest, files.lookup manifestName = some manifestBytes
      ∧ readJson manifestBytes = .ok manifest
      ∧ (∃ selection, manifestSelection manifest = .ok selection
        ∧ selection.disclosureClass = disclosureClass.asStr
        ∧ selection.parse = .ok (disclosureClass, batches))
      ∧ (∀ served grants segmentText grant,
        authorize served grants ledger segmentText = .ok (grant, segment) →
        ∀ request : Selection, request.parse = .ok (disclosureClass, batches) →
          (∀ store tables,
            generate writeManifest served store tables grants ledger segmentText request
              = .error .denied ↔ grant.permits request.disclosureClass batches = false)
          ∧ ∀ (tables : DisclosureTables) path,
            tables.manifests segment (sha256Hex manifestBytes) = some manifestBytes →
            (bundleObject readJson served tables grants ledger segmentText
              (sha256Hex manifestBytes) path = .error .denied
                ↔ grant.permits request.disclosureClass batches = false))
      ∧ (∀ path bytes, (path, bytes) ∈ files → path ≠ manifestName →
        referenceDigest path (member manifest "artifacts") = some (sha256Hex bytes))
      ∧ ∀ path, path ∉ files.map Prod.fst →
        referenceDigest path (member manifest "artifacts") = none := by
  obtain ⟨sealed, disclosed, manifestBytes, hexportable, hwrite, rfl⟩ :=
    prepareExport_eq_ok.mp hexport
  have hread := hjson _ _ hwrite
  obtain ⟨hreferred, hnone⟩ := referenceDigest_exported hexportable
  refine ⟨manifestBytes, _, lookup_manifestName, hread, manifestSelection_exported hexportable,
    ?_, ?_, ?_⟩
  · intro served grants segmentText grant hauthorized request hrequest
    refine ⟨fun store tables => generate_denied hauthorized hrequest, fun tables path hstored => ?_⟩
    rw [Selection.parse_class hrequest]
    exact bundleObject_denied hexportable hread hauthorized hstored
  · intro path bytes hfile hne
    rw [member_artifacts]
    rcases List.mem_append.mp hfile with hfile | hmanifest
    · exact hreferred path bytes hfile
    · exact absurd (Prod.mk.inj (List.mem_singleton.mp hmanifest)).1 hne
  · intro path hpath
    rw [List.map_append, List.mem_append, not_or] at hpath
    rw [member_artifacts]
    exact hnone path hpath.1

/-! ## A sample -/

omit [Sha256] in
/-- The text of a manifest without a predecessor, as it is written over several lines. -/
def exportText (manifest : SnapshotManifest) : String :=
  let text (key value : String) : String := "\"" ++ key ++ "\": \"" ++ value ++ "\""
  let reference (indent : String) (reference : ArtifactRef) : String :=
    "\x7b\n" ++ indent ++ "  " ++ text "path" reference.path ++ ",\n" ++ indent ++ "  "
      ++ text "sha256" reference.sha256 ++ "\n" ++ indent ++ "\x7d"
  let opening (opening : RecordBatchOpening) : String :=
    "      \x7b\n        " ++ text "batch_number" opening.batchNumber
      ++ ",\n        \"records\": [\n"
      ++ ",\n".intercalate (opening.records.map fun record =>
        "          " ++ reference "          " record)
      ++ "\n        ]\n      \x7d"
  "\x7b\n  \"version\": 1,\n  " ++ text "ledger_id" manifest.ledgerId ++ ",\n  "
    ++ text "segment_number" manifest.segmentNumber ++ ",\n  "
    ++ text "commitment_profile_id" manifest.commitmentProfileId ++ ",\n  "
    ++ text "disclosure_class" manifest.disclosureClass
    ++ ",\n  \"artifacts\": \x7b\n    \"segment_cbor\": "
    ++ reference "    " manifest.artifacts.segmentCbor ++ ",\n    \"record_batches\": [\n"
    ++ ",\n".intercalate ((manifest.artifacts.recordBatches.getD []).map opening)
    ++ "\n    ],\n    \"tsa_tsr\": " ++ reference "    " manifest.artifacts.tsaTsr
    ++ "\n  \x7d,\n  \"anchoring\": \x7b\n    \"tsa\": \x7b\n      "
    ++ text "status" manifest.tsaStatus ++ "\n    \x7d\n  \x7d\n\x7d"

/-- Two records in batches of one. -/
def sampleMaterial : SnapshotMaterial where
  artifact := (sampleSealed [sampleRecord 2, sampleRecord 1]).cborBody
  artifactSha256 := sha256Hex (sampleSealed [sampleRecord 2, sampleRecord 1]).cborBody
  predecessor := none
  records := [sampleRecord 2, sampleRecord 1]
  tsaResponse := [0x30, 0]

/-- The manifest that opens the second batch. -/
def sampleManifest : SnapshotManifest :=
  exportedManifest "b7a1d5e40c6f438e9a75db27c96f31aa" 0 .b sampleMaterial
    (sampleSealed [sampleRecord 2, sampleRecord 1])
    (exportedBatches (sampleSealed [sampleRecord 2, sampleRecord 1]) sampleMaterial [1])

def writeSample (manifest : SnapshotManifest) : Except String Bytes :=
  if manifest = sampleManifest then .ok (utf8Bytes (exportText manifest))
  else .error "not the sample"

def readSample (bytes : Bytes) : Except String JsonValue :=
  if bytes = utf8Bytes (exportText sampleManifest) then .ok (manifestValue sampleManifest)
  else .error "expected value at line 1 column 1"

/-- The sample manifest is read back. -/
theorem readSample_of_writeSample {manifest : SnapshotManifest} {bytes : Bytes}
    (h : writeSample manifest = .ok bytes) : readSample bytes = .ok (manifestValue manifest) := by
  unfold writeSample at h
  split_ifs at h with hsame
  obtain rfl := Except.ok.inj h
  rw [hsame]
  exact if_pos rfl

omit [Sha256] in
/-- The second of two batches is disclosed. -/
theorem retrieved_as_generated_sample :
    letI := Sha256.fips
    ∃ files manifestBytes manifest selection,
      prepareExport writeSample "b7a1d5e40c6f438e9a75db27c96f31aa" 0 .b {1} sampleMaterial
          = .ok files
        ∧ files.lookup manifestName = some manifestBytes
        ∧ readSample manifestBytes = .ok manifest
        ∧ manifestSelection manifest = .ok selection
        ∧ selection.parse = .ok (.b, {1}) := by
  let := Sha256.fips
  have hreproduces : Reproduces "b7a1d5e40c6f438e9a75db27c96f31aa" 0 sampleMaterial
      (sampleSealed [sampleRecord 2, sampleRecord 1]) := by
    refine ⟨rfl, decodeSegmentRecord_cborBody sampleSealed_valid, rfl, rfl, rfl,
      sampleRecords_canonical, congrArg mth leafHashes_sampleRecords, ?_, rfl⟩
    show batchRootsFromLeafHashes
      (merkleRootFromRecords [sampleRecord 2, sampleRecord 1]).leafHashes 1 = _
    rw [leafHashes_sampleRecords]
    rfl
  have hexportable : Exportable "b7a1d5e40c6f438e9a75db27c96f31aa" 0 .b {1} sampleMaterial
      (sampleSealed [sampleRecord 2, sampleRecord 1]) [1] := by
    refine ⟨.inl rfl, hreproduces, ⟨2, by decide +kernel, ?_⟩, ?_⟩
    · have hsorted : (({1} : Finset UInt64).image UInt64.toNat).sort (· ≤ ·) = [1] := by simp
      unfold disclosedBatches
      rw [hsorted]
      rfl
    · intro number hnumber
      obtain rfl := List.mem_singleton.mp hnumber
      refine ⟨by decide, ?_⟩
      rw [occurrences, List.length_mergeSort]
      decide
  -- the manifest of the sample is the one that the two functions know
  have hwrite : writeSample sampleManifest = .ok (utf8Bytes (exportText sampleManifest)) :=
    if_pos rfl
  have hexport := prepareExport_eq_ok.mpr ⟨_, _, _, hexportable, hwrite, rfl⟩
  obtain ⟨manifestBytes, manifest, hmanifest, hread, ⟨selection, hselection, -, hparse⟩, -⟩ :=
    retrieved_as_generated writeSample readSample (fun _ _ => readSample_of_writeSample)
      _ _ _ _ _ _ hexport
  exact ⟨_, manifestBytes, manifest, selection, hexport, hmanifest, hread, hselection, hparse⟩

end

end TrackOne.Disclosures
