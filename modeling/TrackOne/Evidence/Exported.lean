import TrackOne.Gateway.Slices
import TrackOne.Evidence.Scopes

/-!
# Exported bundles

`prepare_export` and `verify_bundle_with_policy` cut a segment into batches independently of each
other. The verifier accepts every bundle that the exporter writes, at the scope of its class.

* `validatePortablePath_exported`, `referencedArtifact_exported` and `validate_bundleManifest`: the
  files can be read under their paths, and the manifest is accepted.
* `disclosureFailures_exported`: the openings recompute, because they are the slices of the segment.
* `Reproduces.linked`: the segment is the first one of its ledger, or continues the predecessor that
  was exported with it.
* `verifyBundleWithPolicy_exported` puts this together: at the scope of the class, only the
  timestamp is left to be judged. -/

namespace TrackOne.Snapshot

open Evidence SplitTree

section

variable [Sha256]

variable {ledgerId : String} {segmentNumber : UInt64} {disclosureClass : DisclosureClass}
variable {selectedBatches : Finset UInt64} {material : SnapshotMaterial} {segment : SegmentRecord}
variable {disclosed : List Nat} {manifestBytes : Bytes}

/-! ## Portable paths -/

/-- A character that can stand in the names of a portable path. -/
def portableChar (c : Char) : Bool := c != '/' && c != '\\' && c != ':' && !isControl c

omit [Sha256] in
/-- A digit may stand in a portable path. -/
theorem portableChar_of_isDigit {c : Char} (h : c.isDigit) : portableChar c = true := by
  have hrange : 48 ≤ c.toNat ∧ c.toNat ≤ 57 := by
    simp only [Char.isDigit, Bool.and_eq_true, decide_eq_true_eq] at h
    exact ⟨UInt32.le_iff_toNat_le.mp h.1, UInt32.le_iff_toNat_le.mp h.2⟩
  have hne : ∀ d : Char, d.toNat < 48 ∨ 57 < d.toNat → c ≠ d := by
    rintro d hd rfl
    omega
  have hcontrol : isControl c = false := by
    rw [isControl, Bool.or_eq_false_iff, Bool.and_eq_false_iff, decide_eq_false_iff_not,
      decide_eq_false_iff_not, decide_eq_false_iff_not]
    omega
  simp only [portableChar, Bool.and_eq_true, bne_iff_ne, Bool.not_eq_true', hcontrol, and_true]
  exact ⟨⟨hne '/' (by decide), hne '\\' (by decide)⟩, hne ':' (by decide)⟩

omit [Sha256] in
/-- A padded number may stand in a portable path. -/
theorem all_portableChar_padded (n : Nat) : (Decimal.padded 20 n).all portableChar = true :=
  List.all_eq_true.mpr fun _ hc => portableChar_of_isDigit (Decimal.isDigit_of_mem_padded hc)

omit [Sha256] in
/-- A name that does not start with a dot can be continued. -/
theorem portableName_append {name rest : List Char} (hname : portableName name = true)
    (hhead : name.head? ≠ some '.') (hrest : rest.all portableChar = true) :
    portableName (name ++ rest) = true := by
  simp only [portableName, Bool.and_eq_true, bne_iff_ne] at hname ⊢
  obtain ⟨⟨⟨hne, -⟩, -⟩, hall⟩ := hname
  obtain ⟨c, cs, rfl⟩ := List.exists_cons_of_ne_nil hne
  have hdot : c ≠ '.' := fun heq => hhead (congrArg some heq)
  refine ⟨⟨⟨by simp, by simp [hdot]⟩, by simp [hdot]⟩, ?_⟩
  rw [List.all_append, Bool.and_eq_true]
  exact ⟨hall, hrest⟩

omit [Sha256] in
/-- The path of a record is portable. -/
theorem validatePortablePath_occurrencePath (batchNumber index ordinal : Nat) :
    validatePortablePath (occurrencePath batchNumber index ordinal) = .ok () := by
  refine @validatePortablePath_intercalate _ ["records".toList,
    "batch-".toList ++ Decimal.padded 20 batchNumber,
    "occurrence-".toList ++ (Decimal.padded 20 index ++ "-ordinal-".toList
      ++ Decimal.padded 20 ordinal ++ ".cbor".toList)] ?_ (List.cons_ne_nil _ _) ?_
  · unfold occurrencePath
    have hfirst : "records/batch-".toList = "records".toList ++ ['/'] ++ "batch-".toList := by
      decide +kernel
    have hsecond : "/occurrence-".toList = ['/'] ++ "occurrence-".toList := by decide +kernel
    simp only [String.toList_ofList, hfirst, hsecond]
    simp only [List.intercalate, List.intersperse, List.flatten_cons, List.flatten_nil,
      List.append_nil, List.append_assoc]
  · intro name hname
    simp only [List.mem_cons, List.not_mem_nil, or_false] at hname
    rcases hname with rfl | rfl | rfl
    · decide +kernel
    · exact portableName_append (by decide +kernel) (by decide +kernel) (all_portableChar_padded _)
    · refine portableName_append (by decide +kernel) (by decide +kernel) ?_
      have hordinal : "-ordinal-".toList.all portableChar = true := by decide +kernel
      have hcbor : ".cbor".toList.all portableChar = true := by decide +kernel
      simp only [List.all_append, all_portableChar_padded, hordinal, hcbor, Bool.and_self]

/-! ## The files -/

/-- The files of an export, with the bytes of its manifest. -/
def bundleFiles (material : SnapshotMaterial) (segment : SegmentRecord) (disclosed : List Nat)
    (manifestBytes : Bytes) : List (String × Bytes) :=
  exportedFiles material (exportedBatches segment material disclosed)
    ++ [(manifestName, manifestBytes)]

/-- Files in a directory, by their paths. -/
def directoryOf (files : List (String × Bytes)) : Directory := Std.ExtTreeMap.ofList files compare

/-- No two files of a bundle share a path. -/
theorem nodup_bundleFiles (h : disclosed.Nodup) :
    ((bundleFiles material segment disclosed manifestBytes).map Prod.fst).Nodup := by
  rw [bundleFiles, List.map_append, List.nodup_append]
  refine ⟨nodup_exportedFiles h, List.nodup_singleton _, ?_⟩
  rintro path hpath name hname rfl
  obtain rfl : path = manifestName := List.mem_singleton.mp hname
  exact manifestName_notMem hpath

omit [Sha256] in
/-- A directory of files with different paths holds exactly them. -/
theorem getElem?_directoryOf {files : List (String × Bytes)} (h : (files.map Prod.fst).Nodup)
    {path : String} {bytes : Bytes} : (directoryOf files)[path]? = some bytes
      ↔ (path, bytes) ∈ files := by
  rw [directoryOf, TreeMap.getElem?_ofList h, TreeMap.lookup_eq_some_iff_mem h]

/-- The files of an export: the artifact, the records of the disclosed batches, and the predecessor
and the response where there are any. -/
theorem mem_exportedFiles {file : String × Bytes} :
    file ∈ exportedFiles material (exportedBatches segment material disclosed)
      ↔ file = ("segment.cbor", material.artifact)
        ∨ (∃ number ∈ disclosed,
          file ∈ (exportOccurrences number (slice material segment number)).files)
        ∨ (∃ bytes, material.predecessor = some bytes ∧ file = ("predecessor.cbor", bytes))
        ∨ file = ("timestamp.tsr", material.tsaResponse) := by
  have hbatches : file ∈ (exportedBatches segment material disclosed).flatMap ExportedBatch.files
      ↔ ∃ number ∈ disclosed,
        file ∈ (exportOccurrences number (slice material segment number)).files := by
    rw [exportedBatches, List.flatMap_map, List.mem_flatMap]
    rfl
  have hpredecessor : file
    ∈ (material.predecessor.map fun bytes => ("predecessor.cbor", bytes)).toList
      ↔ ∃ bytes, material.predecessor = some bytes ∧ file = ("predecessor.cbor", bytes) := by
    cases material.predecessor <;> simp
  simp only [exportedFiles, List.mem_append, List.mem_singleton, hbatches, hpredecessor, or_assoc]

/-- Every path of an export is portable. -/
theorem validatePortablePath_exported {file : String × Bytes}
    (h : file ∈ bundleFiles material segment disclosed manifestBytes) :
    validatePortablePath file.1 = .ok () := by
  have hsegment : validatePortablePath "segment.cbor" = .ok () := by decide +kernel
  have hpredecessor : validatePortablePath "predecessor.cbor" = .ok () := by decide +kernel
  have htimestamp : validatePortablePath "timestamp.tsr" = .ok () := by decide +kernel
  have hmanifest : validatePortablePath manifestName = .ok () := by decide +kernel
  rcases List.mem_append.mp h with hfile | hlast
  · rcases mem_exportedFiles.mp hfile with rfl | ⟨number, -, hrecord⟩ | ⟨_, -, rfl⟩ | rfl
    · exact hsegment
    · obtain ⟨_, -, rfl⟩ := List.mem_map.mp hrecord
      exact validatePortablePath_occurrencePath _ _ _
    · exact hpredecessor
    · exact htimestamp
  · obtain rfl := List.mem_singleton.mp hlast
    exact hmanifest

/-- The files of a bundle: each path is portable and names one file, and every reference of the
manifest is to a file with the digest it declares. -/
structure Bundled (files : List (String × Bytes)) (manifest : Evidence.Manifest) : Prop where
  nodup : (files.map Prod.fst).Nodup
  portable : ∀ file ∈ files, validatePortablePath file.1 = .ok ()
  referenced : ∀ reference ∈ manifest.artifacts.references true,
    ∃ bytes, (reference.path, bytes) ∈ files ∧ sha256Hex bytes = reference.sha256

/-- No file is larger than the verifier reads. -/
def WithinMemberLimit (files : List (String × Bytes)) : Prop :=
  ∀ file ∈ files, file.2.length ≤ maxArchiveMember

omit [Sha256] in
/-- A file is read back under its path. -/
theorem safeRead_directoryOf {files : List (String × Bytes)} (hnodup : (files.map Prod.fst).Nodup)
    {path : String} {bytes : Bytes} (hfile : (path, bytes) ∈ files)
    (hpath : validatePortablePath path = .ok ()) (hsize : bytes.length ≤ maxArchiveMember) :
    (directoryOf files).safeRead path = .ok bytes :=
  Directory.safeRead_eq_ok.mpr ⟨hpath, (getElem?_directoryOf hnodup).mpr hfile, hsize⟩

/-- A file of the directory is read through the reference to it. -/
theorem referencedArtifact_directoryOf {files : List (String × Bytes)}
    (hnodup : (files.map Prod.fst).Nodup) {path : String} {bytes : Bytes}
    (hfile : (path, bytes) ∈ files) (hpath : validatePortablePath path = .ok ())
    (hsize : bytes.length ≤ maxArchiveMember) :
    (directoryOf files).referencedArtifact (artifactRef path bytes) = .ok bytes :=
  Directory.referencedArtifact_eq_ok.mpr
    ⟨validHex_sha256Hex bytes, safeRead_directoryOf hnodup hfile hpath hsize, rfl⟩

/-- A file that the manifest refers to is read back. -/
theorem referencedArtifact_exported (hnodup : disclosed.Nodup)
    (hreadable : WithinMemberLimit
      (exportedFiles material (exportedBatches segment material disclosed)))
    {path : String} {bytes : Bytes}
    (hfile : (path, bytes) ∈ exportedFiles material (exportedBatches segment material disclosed)) :
    (directoryOf (bundleFiles material segment disclosed manifestBytes)).referencedArtifact
      (artifactRef path bytes) = .ok bytes := by
  have hmem : (path, bytes) ∈ bundleFiles material segment disclosed manifestBytes :=
    List.mem_append_left _ hfile
  have hpath := validatePortablePath_exported hmem
  exact referencedArtifact_directoryOf (nodup_bundleFiles hnodup) hmem hpath (hreadable _ hfile)

/-! ## The manifest -/

/-- The manifest of an export, as it is read back. -/
def bundleManifest (ledgerId : String) (segmentNumber : UInt64) (disclosureClass : DisclosureClass)
    (material : SnapshotMaterial) (segment : SegmentRecord) (disclosed : List Nat) :
    Evidence.Manifest :=
  (exportedManifest ledgerId segmentNumber disclosureClass material segment
    (exportedBatches segment material disclosed)).document

/-- The openings of the manifest are those of the disclosed batches. -/
theorem openings_bundleManifest :
    (bundleManifest ledgerId segmentNumber disclosureClass material segment
      disclosed).artifacts.openings
      = disclosed.map fun number =>
        (exportOccurrences number (slice material segment number)).opening := by
  show (if _ then none else some _ : Option (List RecordBatchOpening)).getD [] = _
  rw [openings_getD, exportedBatches, List.map_map]
  rfl

/-- Every reference of the manifest is to an exported file. -/
theorem reference_exported (h : sha256Hex material.artifact = material.artifactSha256)
    {reference : ArtifactRef}
    (hreference : reference
      ∈ (bundleManifest ledgerId segmentNumber disclosureClass material segment
      disclosed).artifacts.references true) :
    ∃ file ∈ exportedFiles material (exportedBatches segment material disclosed),
      reference = artifactRef file.1 file.2 := by
  have hmem : reference ∈ (exportedManifest ledgerId segmentNumber disclosureClass material segment
      (exportedBatches segment material disclosed)).artifacts.references := by
    have hextensions : (∅ : Std.ExtTreeMap String ArtifactRef compare).values = [] := rfl
    simp only [bundleManifest, SnapshotManifest.document, Artifacts.references, Artifacts.openings,
      if_true, hextensions, List.mem_append, List.mem_singleton, Option.toList_none,
      Option.toList_some, List.not_mem_nil, or_false] at hreference
    simp only [SnapshotArtifacts.references, List.mem_append, List.mem_cons, List.not_mem_nil,
      or_false]
    tauto
  obtain ⟨file, hfile, rfl⟩ := List.mem_map.mp ((references_perm h).mem_iff.mp hmem)
  exact ⟨file, hfile, rfl⟩

/-- A reference to a portable path is valid. -/
theorem validate_artifactRef {path : String} (bytes : Bytes)
    (h : validatePortablePath path = .ok ()) :
    (artifactRef path bytes).validate = .ok () := by
  rw [ArtifactRef.validate, artifactRef, h, validHex_sha256Hex]
  rfl

/-- An opening refers to every record of its batch. -/
theorem length_records_opening (number : Nat) (batch : List Occurrence) :
    (exportOccurrences number batch).opening.records.length = batch.length := by
  simp [exportOccurrences]

/-- No opening of the manifest is empty. -/
theorem openingsLexical_bundleManifest (h : Reproduces ledgerId segmentNumber material segment)
    {numbers : List UInt64}
    (hdiscloses : Discloses disclosureClass selectedBatches segment.batchRoots.length numbers) :
    (bundleManifest ledgerId segmentNumber disclosureClass material segment
      (numbers.map UInt64.toNat)).artifacts.openingsLexical = true := by
  have hbatches : (bundleManifest ledgerId segmentNumber disclosureClass material segment
        (numbers.map UInt64.toNat)).artifacts.recordBatches
      = if ((exportedBatches segment material (numbers.map UInt64.toNat)).map
            ExportedBatch.opening).isEmpty then none
        else some ((exportedBatches segment material (numbers.map UInt64.toNat)).map
          ExportedBatch.opening) := rfl
  -- an opening has its batch number in its shortest form, and at least one record
  unfold Artifacts.openingsLexical
  rw [hbatches]
  split_ifs with hempty
  · rfl
  · rw [Bool.not_eq_true] at hempty
    dsimp only
    rw [hempty, Bool.not_false, Bool.true_and, List.all_eq_true]
    intro opening hopening
    simp only [exportedBatches, List.map_map, List.mem_map] at hopening
    obtain ⟨number, hnumber, rfl⟩ := hopening
    have hne : (slice material segment number.toNat).length ≠ 0 := fun hzero =>
      slice_ne_nil h (hdiscloses.lt number hnumber) (List.length_eq_zero_iff.mp hzero)
    have hrecords : (exportOccurrences number.toNat
        (slice material segment number.toNat)).opening.records.isEmpty = false := by
      rw [List.isEmpty_eq_false_iff, ← List.length_pos_iff, length_records_opening]
      exact Nat.pos_of_ne_zero hne
    have hparse : parseUint64 (exportOccurrences number.toNat
        (slice material segment number.toNat)).opening.batchNumber = some number :=
      parseUint64_toString number
    show (!(exportOccurrences number.toNat
      (slice material segment number.toNat)).opening.records.isEmpty
      && (parseUint64 (exportOccurrences number.toNat
        (slice material segment number.toNat)).opening.batchNumber).isSome) = true
    rw [hrecords, hparse]
    rfl

/-- The manifest of an export is accepted. -/
theorem validate_bundleManifest
    (h : Exportable ledgerId segmentNumber disclosureClass selectedBatches material segment
      disclosed) :
    (bundleManifest ledgerId segmentNumber disclosureClass material segment disclosed).validate
      = .ok () := by
  obtain ⟨numbers, rfl, hdiscloses⟩ := h.discloses
  obtain ⟨hledger, hprofile, -⟩ := SegmentRecord.validateDetailed_eq_ok h.reproduces.valid
  have hlexical : (bundleManifest ledgerId segmentNumber disclosureClass material segment
      (numbers.map UInt64.toNat)).lexical = true := by
    have hnumber : parseUint64 (toString segmentNumber) = some segmentNumber :=
      parseUint64_toString segmentNumber
    simp only [Manifest.lexical, bundleManifest, SnapshotManifest.document,
      exportedManifest, hnumber, hprofile, Bool.and_eq_true]
    refine ⟨⟨⟨⟨h.reproduces.ledgerId_eq ▸ hledger, rfl⟩, by decide⟩, ?_⟩, by decide⟩
    cases disclosureClass <;> decide
  simp only [Manifest.validate, Except.bind_eq_ok, Except.require_eq_ok]
  refine ⟨(), rfl, (), hlexical, (), openingsLexical_bundleManifest h.reproduces hdiscloses,
    (), ?_, rfl⟩
  rw [Except.forM_eq_ok]
  intro reference hreference
  obtain ⟨file, hfile, rfl⟩ := reference_exported h.reproduces.digest hreference
  exact validate_artifactRef
    _ (validatePortablePath_exported (@List.mem_append_left _ _ _ [(manifestName, [])] hfile))

/-! ## The disclosure -/

/-- The records of the disclosed batches. -/
def disclosedRecords (material : SnapshotMaterial) (segment : SegmentRecord)
    (numbers : List UInt64) :
    List (UInt64 × List Bytes) :=
  numbers.map fun number => (number, (slice material segment number.toNat).map Occurrence.record)

/-- The openings with their numbers. -/
theorem zip_openings (numbers : List UInt64) :
    numbers.zip (bundleManifest ledgerId segmentNumber disclosureClass material segment
        (numbers.map UInt64.toNat)).artifacts.openings
      = numbers.map fun number =>
        (number, (exportOccurrences number.toNat
          (slice material segment number.toNat)).opening) := by
  rw [openings_bundleManifest, List.map_map]
  induction numbers with
  | nil => rfl
  | cons number numbers ih => rw [List.map_cons, List.zip_cons_cons, ih, List.map_cons]; rfl

/-- The openings are numbered by the disclosed batches. -/
theorem numbered_exported {numbers : List UInt64}
    (h : Discloses disclosureClass selectedBatches segment.batchRoots.length numbers) :
    Numbered segment.batchRoots.length
      (bundleManifest ledgerId segmentNumber disclosureClass material
      segment (numbers.map UInt64.toNat)).artifacts.openings numbers := by
  refine ⟨?_, h.nodup, h.lt⟩
  rw [openings_bundleManifest, List.map_map, List.map_map]
  exact List.map_congr_left fun number _ => parseUint64_toString number

/-- The cardinality that the verifier expects of a batch is that of its slice. -/
theorem expectedOpeningCount_slice (h : Reproduces ledgerId segmentNumber material segment)
    {number : UInt64} (hlt : number.toNat < segment.batchRoots.length) :
    UInt64.ofNat? (slice material segment number.toNat).length
      = expectedOpeningCount segment segment.batchRoots.length number := by
  obtain ⟨expected, hexpected⟩ := exists_expectedOpeningCount h.aligned hlt
  rw [hexpected, UInt64.ofNat?_eq_some, expectedOpeningCount_eq h.aligned hexpected,
    length_slice h hlt]

/-- The manifest of an export has the shape of its class. -/
theorem shaped_exported (h : Reproduces ledgerId segmentNumber material segment)
    {numbers : List UInt64}
    (hdiscloses : Discloses disclosureClass selectedBatches segment.batchRoots.length numbers) :
    Shaped (bundleManifest ledgerId segmentNumber disclosureClass material segment
      (numbers.map UInt64.toNat)) segment numbers := by
  refine ⟨numbered_exported hdiscloses, ?_, ?_⟩
  -- every disclosed batch has one opening
  · have hcard : numbers.toFinset.card = numbers.length :=
      List.toFinset_card_of_nodup hdiscloses.nodup
    have hlength : (bundleManifest ledgerId segmentNumber disclosureClass material segment
        (numbers.map UInt64.toNat)).artifacts.openings.length = numbers.length := by
      rw [openings_bundleManifest, List.length_map, List.length_map]
    have hclass : (bundleManifest ledgerId segmentNumber disclosureClass material segment
        (numbers.map UInt64.toNat)).disclosureClass = disclosureClass.asStr := rfl
    unfold shapeValid
    rw [hlength, hcard, hclass]
    cases disclosureClass with
    -- class A discloses every batch
    | a =>
      have hall := congrArg List.length (hdiscloses.all rfl)
      rw [List.length_map, List.length_range] at hall
      have hletter : DisclosureClass.a.asStr = "A" := rfl
      dsimp only
      rw [if_pos hletter]
      split_ifs with hzero
      · -- a segment without records has no batches
        have hcount := h.aligned.count
        rw [hzero] at hcount
        exact decide_eq_true (hall.trans hcount)
      · simp [hall]
    -- class B discloses at least one batch, and not all of them
    | b =>
      obtain ⟨-, hne, hlt⟩ := hdiscloses.selected rfl
      have hpos := List.length_pos_of_ne_nil hne
      have hletter : DisclosureClass.b.asStr = "B" := rfl
      dsimp only
      rw [if_neg (by decide), if_pos hletter]
      simp only [Bool.and_eq_true, decide_eq_true_eq, ne_eq]
      omega
    -- class C discloses none
    | c =>
      obtain rfl := hdiscloses.nothing rfl
      have hletter : DisclosureClass.c.asStr = "C" := rfl
      dsimp only
      rw [if_neg (by decide), if_neg (by decide), if_pos hletter]
      rfl
  -- each opening has as many records as its batch
  · unfold cardinalitiesValid
    rw [zip_openings, List.all_map, List.all_eq_true]
    intro number hnumber
    obtain ⟨expected, hexpected⟩ :=
      exists_expectedOpeningCount h.aligned (hdiscloses.lt number hnumber)
    have hactual := expectedOpeningCount_slice h (hdiscloses.lt number hnumber)
    rw [hexpected] at hactual
    simp only [Function.comp_apply, hexpected, length_records_opening, hactual, beq_self_eq_true]

/-- The records of a disclosed batch are read back. -/
theorem mapM_referencedArtifact_exported
    (h : Exportable ledgerId segmentNumber disclosureClass selectedBatches material segment
      disclosed)
    (hreadable : WithinMemberLimit
      (exportedFiles material (exportedBatches segment material disclosed)))
    {number : Nat} (hnumber : number ∈ disclosed) :
    (exportOccurrences number (slice material segment number)).opening.records.mapM
        (directoryOf (bundleFiles material segment disclosed manifestBytes)).referencedArtifact
      = .ok ((slice material segment number).map Occurrence.record) := by
  have hrecords : (slice material segment number).map Occurrence.record
      = (exportOccurrences number (slice material segment number)).files.map Prod.snd := by
    show _ = (List.map _ (List.zipIdx _)).map Prod.snd
    rw [List.map_map]
    conv_lhs => rw [← List.zipIdx_map_fst 0 (slice material segment number), List.map_map]
    rfl
  rw [Except.mapM_eq_ok_iff, hrecords]
  show List.Forall₂ _ ((exportOccurrences number (slice material segment number)).files.map
    fun file => artifactRef file.1 file.2) _
  rw [List.forall₂_map_left_iff, List.forall₂_map_right_iff, List.forall₂_same]
  intro file hfile
  exact referencedArtifact_exported h.nodup hreadable
    (mem_exportedFiles.mpr (.inr (.inl ⟨number, hnumber, hfile⟩)))

/-- A disclosed batch recomputes. -/
theorem batchRead_exported
    (h : Exportable ledgerId segmentNumber disclosureClass selectedBatches material segment
      disclosed)
    (hreadable : WithinMemberLimit
      (exportedFiles material (exportedBatches segment material disclosed))) {number : UInt64}
    (hnumber : number.toNat ∈ disclosed) (hlt : number.toNat < segment.batchRoots.length) :
    BatchRead (directoryOf (bundleFiles material segment disclosed manifestBytes)) segment
      (number, (exportOccurrences number.toNat (slice material segment number.toNat)).opening)
      (number, (slice material segment number.toNat).map Occurrence.record) where
  number := rfl
  read := mapM_referencedArtifact_exported h hreadable hnumber
  canonical := by
    intro record hrecord
    obtain ⟨occurrence, hoccurrence, rfl⟩ := List.mem_map.mp hrecord
    exact h.reproduces.canonical _ ((map_record_occurrences_perm material.records).subset
      (List.mem_map_of_mem (mem_occurrences_of_mem_slice hoccurrence)))
  count := by
    rw [List.length_map]
    exact expectedOpeningCount_slice h.reproduces hlt
  root := getElem?_batchRoots h.reproduces hlt

/-- The records of a batch are in order already. -/
theorem sortedBatch_slice (number : UInt64) :
    sortedBatch (number, (slice material segment number.toNat).map Occurrence.record)
      = (number.toNat, (slice material segment number.toNat).map Occurrence.digest) := by
  rw [sortedBatch, leafHashes_slice]

/-- Slices are never out of order. -/
theorem outOfOrder_slices (left right : UInt64) :
    outOfOrder (sortedBatch (left, (slice material segment left.toNat).map Occurrence.record))
      (sortedBatch (right, (slice material segment right.toNat).map Occurrence.record))
        = false := by
  rw [sortedBatch_slice, sortedBatch_slice, outOfOrder]
  by_cases hnext : left.toNat + 1 = right.toNat
  · simp only [hnext, beq_self_eq_true, Bool.true_and, List.getLast?_map, List.head?_map]
    cases hlast : (slice material segment left.toNat).getLast? with
    | none => rfl
    | some last =>
      cases hfirst : (slice material segment right.toNat).head? with
      | none => rfl
      | some first =>
        have hble := slices_inOrder (List.mem_of_getLast? hlast)
          (hnext ▸ List.mem_of_mem_head? hfirst)
        simp [hble]
  · simp [hnext]

/-- The verifier recomputes the disclosed batches from the exported files. -/
theorem recomputed_exported
    (h : Exportable ledgerId segmentNumber disclosureClass selectedBatches material segment
      disclosed)
    (hreadable : WithinMemberLimit
      (exportedFiles material (exportedBatches segment material disclosed))) {numbers : List UInt64}
    (hnumbers : disclosed = numbers.map UInt64.toNat)
    (hdiscloses : Discloses disclosureClass selectedBatches segment.batchRoots.length numbers)
    {scope : VerificationScope} (hscope : scope = .publicRecompute → disclosureClass = .a) :
    Recomputed (directoryOf (bundleFiles material segment disclosed manifestBytes)) segment scope
      (numbers.map fun number =>
        (number, (exportOccurrences number.toNat (slice material segment number.toNat)).opening))
      (disclosedRecords material segment numbers) := by
  have hfst : (disclosedRecords material segment numbers).map Prod.fst = numbers := by
    rw [disclosedRecords, List.map_map]
    exact List.map_id _
  refine ⟨?_, ?_, ?_⟩
  · rw [disclosedRecords, List.forall₂_map_left_iff, List.forall₂_map_right_iff, List.forall₂_same]
    intro number hnumber
    exact batchRead_exported h hreadable (hnumbers ▸ List.mem_map_of_mem hnumber)
      (hdiscloses.lt number hnumber)
  · refine (ordered_iff (hfst.symm ▸ hdiscloses.nodup)).mpr ?_
    intro left hleft right hright
    obtain ⟨number, -, rfl⟩ := List.mem_map.mp hleft
    obtain ⟨number', -, rfl⟩ := List.mem_map.mp hright
    exact outOfOrder_slices number number'
  · intro hpublic _
    -- all slices in a row are the leaf hashes of the segment
    have hall := hdiscloses.all (hscope hpublic)
    have hsorted : (disclosedRecords material segment numbers).map sortedBatch
        = (List.range segment.batchRoots.length).map fun number =>
          (number, (slice material segment number).map Occurrence.digest) := by
      rw [← hall, disclosedRecords, List.map_map, List.map_map]
      exact List.map_congr_left fun number _ => sortedBatch_slice number
    have hinOrder : inOrder (disclosedRecords material segment numbers)
        = (disclosedRecords material segment numbers).map sortedBatch := by
      refine List.mergeSort_of_pairwise ?_
      rw [hsorted, List.pairwise_map]
      exact List.pairwise_lt_range.imp fun hlt => decide_eq_true (Nat.le_of_lt hlt)
    rw [hinOrder, hsorted, List.flatMap_map, flatten_slices h.reproduces]
    exact h.reproduces.root

/-- The disclosure check finds nothing, at the scope of the class. -/
theorem disclosureFailures_exported
    (h : Exportable ledgerId segmentNumber disclosureClass selectedBatches material segment
      disclosed)
    (hreadable : WithinMemberLimit
      (exportedFiles material (exportedBatches segment material disclosed))) {policy : VerifyPolicy}
    (hpolicy : policy.selectedBatches = ∅ ∨ policy.selectedBatches = selectedBatches) :
    disclosureFailures (directoryOf (bundleFiles material segment disclosed manifestBytes))
      (bundleManifest ledgerId segmentNumber disclosureClass material segment disclosed)
        segment policy
      (.forDisclosureClass disclosureClass.asStr) = ∅ := by
  obtain ⟨numbers, hnumbers, hdiscloses⟩ := h.discloses
  have hshaped := @shaped_exported _ ledgerId segmentNumber disclosureClass selectedBatches material
    segment h.reproduces numbers hdiscloses
  rw [← hnumbers] at hshaped
  -- the openings are those of the disclosed batches
  have hzip : consumedOpenings numbers.toFinset (numbers.zip (bundleManifest ledgerId segmentNumber
        disclosureClass material segment disclosed).artifacts.openings)
      = numbers.map fun number =>
        (number, (exportOccurrences number.toNat
          (slice material segment number.toNat)).opening) := by
    rw [consumedOpenings_zip, hnumbers, zip_openings]
  refine (validateDisclosure_clean.mpr ⟨numbers, hshaped, ?_⟩).2
  cases disclosureClass with
  | a =>
    refine .inr ⟨numbers.toFinset, disclosedRecords material segment numbers, rfl, ?_⟩
    rw [hzip]
    exact recomputed_exported h hreadable hnumbers hdiscloses fun _ => rfl
  | b =>
    obtain ⟨hselected, hne, hlt⟩ := hdiscloses.selected rfl
    have hpos := List.length_pos_of_ne_nil hne
    -- some of the batches, but not all: the selected ones are those of the policy
    refine .inr ⟨numbers.toFinset, disclosedRecords material segment numbers, ?_, ?_⟩
    · show consumeFor _ segment policy .disclosedBatchRecompute numbers.toFinset = _
      have hclass :
        (bundleManifest ledgerId segmentNumber .b material segment disclosed).disclosureClass
          = "B" := rfl
      unfold consumeFor
      dsimp only
      rw [hclass, if_neg (by simp; omega), if_neg (by decide), if_neg]
      rintro ⟨hsome, hother⟩
      exact hother ((hpolicy.resolve_left hsome).trans hselected.symm)
    · rw [hzip]
      refine recomputed_exported h hreadable hnumbers hdiscloses fun hpublic => ?_
      exact absurd hpublic (by decide)
  | c => exact .inl rfl

/-! ## The chain -/

/-- The segment is the first one, or follows the predecessor that can be read. -/
theorem Reproduces.linked (h : Reproduces ledgerId segmentNumber material segment)
    (hpredecessor : material.predecessor = none ↔ segmentNumber = 0) {dir : Directory}
    {manifest : Evidence.Manifest}
    (hreference : manifest.artifacts.predecessorSegmentCbor
      = material.predecessor.map (artifactRef "predecessor.cbor"))
    (hread : ∀ bytes, material.predecessor = some bytes →
      dir.referencedArtifact (artifactRef "predecessor.cbor" bytes) = .ok bytes) :
    ∃ status, (status = .epoch ∨ status = .validated) ∧ Linked dir manifest segment status := by
  have hlinks := h.predecessor
  cases hcase : material.predecessor with
  | none =>
    have hzero : segment.segmentNumber = 0 := h.segmentNumber_eq.trans (hpredecessor.mp hcase)
    exact ⟨_, .inl rfl, .epoch hzero (h.epoch hzero)⟩
  | some bytes =>
    rw [hcase] at hlinks hreference
    simp only [validatePredecessor, Except.bind_eq_ok, Except.mapError_eq_ok, Except.require_eq_ok,
      Bool.and_eq_true, decide_eq_true_eq] at hlinks
    obtain ⟨predecessor, hdecoded, ⟨hledger, hnext⟩, hprev⟩ := hlinks
    have hvalid :=
      (SegmentRecord.canonicalCborBytes_eq_ok.mp (decodeSegmentRecord_eq_ok.mp hdecoded)).1
    obtain ⟨-, hprofile, -⟩ := SegmentRecord.validateDetailed_eq_ok h.valid
    obtain ⟨-, hprofile', -⟩ := SegmentRecord.validateDetailed_eq_ok hvalid
    refine ⟨_, .inr rfl, .validated (artifactRef "predecessor.cbor" bytes) bytes predecessor ?_
      hreference (hread bytes hcase) hdecoded (hledger.trans h.ledgerId_eq.symm)
      (hprofile'.trans hprofile.symm) ?_ hprev⟩
    · rw [h.segmentNumber_eq]
      intro hzero
      rw [hpredecessor.mpr hzero] at hcase
      cases hcase
    · rw [h.segmentNumber_eq]
      rw [UInt64.checkedAdd_eq_some.mp hnext, UInt64.toNat_one]

/-! ## The verdict -/

/-- A policy that can be applied: it is valid, and the files it names can be hashed. -/
def Applicable (env : Environment) (policy : VerifyPolicy) : Prop :=
  Evidence.validatePolicy env policy = .ok ()
    ∧ (∃ identifier, effectiveVerifierPolicyId env policy = .ok identifier)
    ∧ ∃ digest, configuredFileSha256 env policy.verifierPolicyArtifact "verifier policy artifact"
      = .ok digest

/-- The verifier's checks of the segment and of its records pass on an export. -/
theorem checked_exported {policy : VerifyPolicy}
    (h : Exportable ledgerId segmentNumber disclosureClass selectedBatches material segment
      disclosed)
    (hpredecessor : material.predecessor = none ↔ segmentNumber = 0)
    (hreadable : WithinMemberLimit
      (exportedFiles material (exportedBatches segment material disclosed)))
    (hscope : policy.scopeFor
      (bundleManifest ledgerId segmentNumber disclosureClass material segment
      disclosed) = .forDisclosureClass disclosureClass.asStr)
    (hbatches : policy.selectedBatches = ∅ ∨ policy.selectedBatches = selectedBatches) :
    ∃ status, (status = .epoch ∨ status = .validated)
      ∧ SegmentChecked (directoryOf (bundleFiles material segment disclosed manifestBytes))
        (bundleManifest ledgerId segmentNumber disclosureClass material segment disclosed)
          segment policy
        material.artifact status := by
  obtain ⟨status, hstatus, hlinked⟩ := @Reproduces.linked _ _ _ _ _ h.reproduces hpredecessor
    (directoryOf (bundleFiles material segment disclosed manifestBytes))
    (bundleManifest ledgerId segmentNumber disclosureClass material segment disclosed) rfl
    fun bytes hbytes => referencedArtifact_exported h.nodup hreadable
      (mem_exportedFiles.mpr (.inr (.inr (.inl ⟨bytes, hbytes, rfl⟩))))
  refine ⟨status, hstatus, h.reproduces.digest, h.reproduces.decoded,
    h.reproduces.ledgerId_eq, ?_, rfl, hlinked, ?_⟩
  · rw [h.reproduces.segmentNumber_eq]
    rfl
  · rw [hscope]
    exact disclosureFailures_exported h hreadable hbatches

/-- The timestamp authority's response is accepted for an artifact, without a request. -/
def TimestampAccepted (env : Environment) (policy : VerifyPolicy)
    (artifact response : Bytes) : Prop :=
  missingTimestampPolicy policy = none ∧ ∃ verified,
    verifyTimestamp env response (sha256Digest artifact) policy = .ok verified
      ∧ verified.nonce = none

/-- What is concluded from a response when nothing has failed before. -/
theorem evaluateResponse_clean {env : Environment} {dir : Directory} {manifest : Evidence.Manifest}
    {policy : VerifyPolicy} {artifact response : Bytes} {conclusions : Conclusions}
    (hrequest : manifest.artifacts.tsaReq = none) (hclean : conclusions.failures = ∅) :
    let after :=
      evaluateResponse env dir manifest (sha256Digest artifact) policy response conclusions
    after.failures ⊆ {.channelFailure, .verifierPolicyRejection}
      ∧ after.scope = conclusions.scope
      ∧ (after.overall = .success ↔ TimestampAccepted env policy artifact response) := by
  intro after
  have hafter : after
      = evaluateResponse env dir manifest (sha256Digest artifact) policy response conclusions := rfl
  clear_value after
  unfold evaluateResponse at hafter
  unfold TimestampAccepted
  -- without a timestamp policy nothing is verified
  cases hmissing : missingTimestampPolicy policy with
  | some reason =>
    rw [hmissing] at hafter
    subst hafter
    simp [Conclusions.fail, Conclusions.tsa, Conclusions.overall, hclean, Finset.insert_subset_iff]
  | none =>
    rw [hmissing] at hafter
    simp only [verifyTsaRequest, hrequest] at hafter
    cases hverified : verifyTimestamp env response (sha256Digest artifact) policy with
    | error error =>
      rw [hverified] at hafter
      subst hafter
      simp [Conclusions.fail, Conclusions.tsa, Conclusions.overall, hclean, bind, Except.bind]
    | ok verified =>
      rw [hverified] at hafter
      -- a nonce without a request cannot be checked
      cases hnonce : verified.nonce with
      | none =>
        simp only [hnonce, bind, Except.bind, Except.require, Option.isNone_none, if_true] at hafter
        subst hafter
        simp [Conclusions.overall, hclean, hnonce]
      | some nonce =>
        simp only [hnonce, bind, Except.bind, Except.require, Option.isNone_some] at hafter
        subst hafter
        simp [Conclusions.fail, Conclusions.tsa, Conclusions.overall, hclean, hnonce]

/-- The verifier's answer to a bundle in which only the timestamp is left to be judged. -/
def BundleAccepted (env : Environment) (dir : Directory) (policy : VerifyPolicy)
    (disclosureClass : DisclosureClass) (artifact response : Bytes) : Prop :=
  ∃ result, verifyBundleWithPolicy env dir policy = .ok result
    ∧ (result.chainStatus = some .epoch ∨ result.chainStatus = some .validated)
    ∧ result.verificationScope = .forDisclosureClass disclosureClass.asStr
    ∧ result.artifactSha256 = sha256Hex artifact
    ∧ result.failureReasons ⊆ {.channelFailure, .verifierPolicyRejection}
    ∧ (result.overall = .success ↔ TimestampAccepted env policy artifact response)

/-- The verifier's answer to a bundle whose segment is checked is that of the timestamp channel. -/
theorem verifyBundleWithPolicy_of_checked {env : Environment} {dir : Directory}
    {manifest : Evidence.Manifest} {policy : VerifyPolicy} {artifact : Bytes} {status : ChainStatus}
    (happlicable : Applicable env policy)
    (hmanifest : dir[manifestName]? = some manifestBytes ∧ manifestBytes.length ≤ maxArchiveMember)
    (hparsed : parseManifest env manifestBytes = .ok manifest)
    (hextensions : manifest.artifacts.extensions = ∅)
    (hartifact : dir.safeRead manifest.artifacts.segmentCbor.path = .ok artifact)
    (hchecked : SegmentChecked dir manifest segment policy artifact status)
    (hscope : policy.scopeFor manifest = .forDisclosureClass manifest.disclosureClass) :
    let conclusions := evaluateTsa env dir manifest (sha256Digest artifact) policy
      { Conclusions.new (policy.scopeFor manifest) with chainStatus := some status }
    ∃ result, verifyBundleWithPolicy env dir policy = .ok result
      ∧ result.chainStatus = some status ∧ result.artifactSha256 = sha256Hex artifact
      ∧ result.verificationScope = conclusions.scope
      ∧ result.failureReasons = conclusions.failures ∧ result.overall = conclusions.overall := by
  intro conclusions
  obtain ⟨hpolicy, ⟨identifier, hidentifier⟩, digest, hdigest⟩ := happlicable
  have hstrength : policy.requireClaimedScope = true →
      (VerificationScope.forDisclosureClass manifest.disclosureClass).strength
        ≤ (policy.scopeFor manifest).strength := by
    intro _
    rw [hscope]
    exact Nat.le_refl _
  have hconclude := @concludeBundle_of_checked _ env _ _ _ _ _ _ hchecked hstrength
  refine ⟨_, verifyBundleWithPolicy_iff.mpr
    ⟨hpolicy, manifestBytes, manifest, artifact, hmanifest.1, hmanifest.2, hparsed, ?_, hartifact,
    resultValue_eq_ok.mpr ⟨identifier, digest, hidentifier, hdigest, rfl⟩⟩, ?_⟩
  · intro reference hreference
    rw [hextensions] at hreference
    cases hreference
  · dsimp only
    rw [hconclude]
    exact ⟨chainStatus_evaluateTsa _ _, rfl, rfl, rfl, rfl⟩

/-- A bundle whose segment is checked and whose response can be read is accepted, up to the
timestamp. -/
theorem bundleAccepted_of_checked {env : Environment} {dir : Directory}
    {manifest : Evidence.Manifest}
    {policy : VerifyPolicy} {artifact response : Bytes} {status : ChainStatus}
    (happlicable : Applicable env policy)
    (hmanifest : dir[manifestName]? = some manifestBytes ∧ manifestBytes.length ≤ maxArchiveMember)
    (hparsed : parseManifest env manifestBytes = .ok manifest)
    (hextensions : manifest.artifacts.extensions = ∅)
    (hartifact : dir.safeRead manifest.artifacts.segmentCbor.path = .ok artifact)
    (hchecked : SegmentChecked dir manifest segment policy artifact status)
    (hstatus : status = .epoch ∨ status = .validated)
    (hclaimed : manifest.disclosureClass = disclosureClass.asStr)
    (hscope : policy.scopeFor manifest = .forDisclosureClass disclosureClass.asStr)
    (hpresent : manifest.tsaStatus = "present") (hrequest : manifest.artifacts.tsaReq = none)
    {reference : ArtifactRef} (htsr : manifest.artifacts.tsaTsr = some reference)
    (hresponse : dir.referencedArtifact reference = .ok response) :
    BundleAccepted env dir policy disclosureClass artifact response := by
  have hevaluate : ∀ conclusions,
    evaluateTsa env dir manifest (sha256Digest artifact) policy conclusions
      = evaluateResponse env dir manifest (sha256Digest artifact) policy response conclusions := by
    intro conclusions
    simp only [evaluateTsa, hpresent, if_true, htsr, hresponse]
  obtain ⟨result, hresult, hchain, hdigest, hscoped, hreasons, hverdict⟩ :=
    verifyBundleWithPolicy_of_checked happlicable hmanifest hparsed hextensions hartifact hchecked
      (hscope.trans (congrArg _ hclaimed.symm))
  obtain ⟨hfailures, hkept, hoverall⟩ := @evaluateResponse_clean _ env dir manifest policy artifact
    response { Conclusions.new (policy.scopeFor manifest) with chainStatus := some status }
      hrequest rfl
  rw [hevaluate] at hscoped hreasons hverdict
  refine ⟨result, hresult, ?_, hscoped.trans (hkept.trans hscope), hdigest, hreasons ▸ hfailures,
    hverdict ▸ hoverall⟩
  exact hstatus.imp (fun h => hchain.trans (congrArg some h)) fun h =>
    hchain.trans (congrArg some h)

/-- An exported bundle, at the scope of its class. -/
theorem verifyBundleWithPolicy_exported {env : Environment} {policy : VerifyPolicy}
    (h : Exportable ledgerId segmentNumber disclosureClass selectedBatches material segment
      disclosed)
    (hpredecessor : material.predecessor = none ↔ segmentNumber = 0)
    (hreadable : WithinMemberLimit (bundleFiles material segment disclosed manifestBytes))
    (hread : env.readManifest manifestBytes
      = .ok (bundleManifest ledgerId segmentNumber disclosureClass material segment disclosed))
    (happlicable : Applicable env policy)
    (hscope : policy.scopeFor
      (bundleManifest ledgerId segmentNumber disclosureClass material segment
      disclosed) = .forDisclosureClass disclosureClass.asStr)
    (hbatches : policy.selectedBatches = ∅ ∨ policy.selectedBatches = selectedBatches) :
    BundleAccepted env (directoryOf (bundleFiles material segment disclosed manifestBytes)) policy
      disclosureClass material.artifact material.tsaResponse := by
  have hfiles : WithinMemberLimit
    (exportedFiles material (exportedBatches segment material disclosed)) :=
    fun file hfile => hreadable file (List.mem_append_left _ hfile)
  obtain ⟨status, hstatus, hchecked⟩ := @checked_exported _ _ _ _ _ _ _ _ manifestBytes policy h
    hpredecessor hfiles hscope hbatches
  have hmanifest : (manifestName, manifestBytes)
      ∈ bundleFiles material segment disclosed manifestBytes :=
    List.mem_append_right _ List.mem_cons_self
  have hartifact : ("segment.cbor", material.artifact)
      ∈ bundleFiles material segment disclosed manifestBytes :=
    List.mem_append_left _ (mem_exportedFiles.mpr (.inl rfl))
  have hpath := validatePortablePath_exported hartifact
  have hresponse :
    (directoryOf (bundleFiles material segment disclosed manifestBytes)).referencedArtifact
      (artifactRef "timestamp.tsr" material.tsaResponse) = .ok material.tsaResponse :=
    referencedArtifact_exported h.nodup hfiles (mem_exportedFiles.mpr (.inr (.inr (.inr rfl))))
  refine bundleAccepted_of_checked happlicable
    ⟨(getElem?_directoryOf (nodup_bundleFiles h.nodup)).mpr hmanifest, hreadable _ hmanifest⟩
    (parseManifest_eq_ok.mpr ⟨hread, validate_bundleManifest h⟩) rfl
    (Directory.safeRead_eq_ok.mpr ⟨hpath,
      (getElem?_directoryOf (nodup_bundleFiles h.nodup)).mpr hartifact, hreadable _ hartifact⟩)
    hchecked hstatus rfl hscope rfl rfl rfl hresponse

end

end TrackOne.Snapshot
