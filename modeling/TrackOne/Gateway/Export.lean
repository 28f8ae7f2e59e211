import TrackOne.Gateway.Snapshot

/-!
# What a disclosure snapshot exports

`prepare_export` as a function of the sealed segment: which files are written, which references the
manifest has to them, and what must hold of the material.

* `assembleExport_eq_ok`: an export succeeds exactly on `Exportable` material, and its files and its
  manifest are those of the disclosed slices.
* `nodup_exportedFiles` and `references_perm`: the files have different paths, and the manifest
  refers to each of them once.
-/

namespace TrackOne.Snapshot

open Evidence (ArtifactRef RecordBatchOpening manifestName)

variable [Sha256]

variable {ledgerId : String} {segmentNumber : UInt64} {disclosureClass : DisclosureClass}
variable {selectedBatches : Finset UInt64} {material : SnapshotMaterial} {segment : SegmentRecord}
variable {disclosed : List Nat}

/-! ## What is checked of the material -/

/-- The checks of `validateMaterial` on the segment that the artifact holds. -/
structure Reproduces (ledgerId : String) (segmentNumber : UInt64) (material : SnapshotMaterial)
    (segment : SegmentRecord) : Prop where
  digest : sha256Hex material.artifact = material.artifactSha256
  decoded : decodeSegmentRecord material.artifact = .ok segment
  ledgerId_eq : segment.ledgerId = ledgerId
  segmentNumber_eq : segment.segmentNumber = segmentNumber
  count : UInt64.ofNat? material.records.length = some segment.recordCount
  canonical : ∀ record ∈ material.records, ∃ metadata, validateCanonicalRecord record = .ok metadata
  root : (merkleRootFromRecords material.records).root = segment.segmentRoot
  batchRoots : batchRootsFromLeafHashes (merkleRootFromRecords material.records).leafHashes
    segment.closurePolicy.batchRecordLimit = some segment.batchRoots
  predecessor : validatePredecessor ledgerId segmentNumber segment material.predecessor = .ok ()

/-- The material passes the checks exactly where it reproduces its segment. -/
theorem validateMaterial_eq_ok :
    validateMaterial ledgerId segmentNumber material = .ok segment
      ↔ Reproduces ledgerId segmentNumber material segment := by
  simp only [validateMaterial, Except.bind_eq_ok, Except.require_eq_ok, Except.ofOption_eq_ok,
    Except.mapError_eq_ok, Bool.and_eq_true, decide_eq_true_eq, pure, Except.pure, Except.ok.injEq,
    exists_const]
  constructor
  · rintro ⟨hdigest, _, hdecoded, ⟨hledger, hnumber⟩, hcount, _, hcanonical, batchRoots, hbatches,
      ⟨hroot, rfl⟩, _, hpredecessor, rfl⟩
    refine ⟨hdigest, hdecoded, hledger, hnumber, hcount, ?_, hroot, hbatches, hpredecessor⟩
    intro record hrecord
    obtain ⟨metadata, hmetadata, -⟩ :=
      Except.bind_eq_ok.mp (Except.forM_eq_ok.mp hcanonical record hrecord)
    exact ⟨metadata, Except.mapError_eq_ok.mp hmetadata⟩
  · intro h
    refine ⟨h.digest, segment, h.decoded, ⟨h.ledgerId_eq, h.segmentNumber_eq⟩, h.count, (), ?_, _,
      h.batchRoots, ⟨h.root, rfl⟩, (), h.predecessor, rfl⟩
    refine Except.forM_eq_ok.mpr fun record hrecord => ?_
    obtain ⟨metadata, hmetadata⟩ := h.canonical record hrecord
    rw [hmetadata]
    rfl

/-! ## What is exported -/

/-- The slice of a batch. -/
def batchSlice (ordered : List Occurrence) (batchLimit batchNumber : Nat) : List Occurrence :=
  let start := batchNumber * batchLimit
  (ordered.take (min (start + batchLimit) ordered.length)).drop start

/-- A batch that starts within the occurrences. -/
def BatchStarts (ordered : List Occurrence) (batchLimit batchNumber : Nat) : Prop :=
  batchNumber * batchLimit < 2 ^ 64 ∧ batchNumber * batchLimit ≤ ordered.length

/-- A batch is exported where its range starts within the records, as that range. -/
theorem exportBatch_eq_ok {ordered : List Occurrence} {batchLimit batchNumber : Nat}
    {batch : ExportedBatch} :
    exportBatch ordered batchLimit batchNumber = .ok batch
      ↔ BatchStarts ordered batchLimit batchNumber
        ∧ exportOccurrences batchNumber (batchSlice ordered batchLimit batchNumber) = batch := by
  simp only [exportBatch, Except.bind_eq_ok, Except.ofOption_eq_ok, Except.require_eq_ok,
    Option.map_eq_some_iff, decide_eq_true_eq, pure, Except.pure, Except.ok.injEq, exists_const,
    BatchStarts]
  constructor
  · rintro ⟨_, ⟨start, hstart, rfl⟩, hle, rfl⟩
    rw [UInt64.ofNat?_eq_some] at hstart
    rw [hstart] at hle
    rw [hstart]
    exact ⟨⟨hstart ▸ start.toNat_lt, by omega⟩, rfl⟩
  · rintro ⟨⟨hlt, hle⟩, rfl⟩
    have htoNat := UInt64.toNat_ofNat_of_lt64 hlt
    exact ⟨batchNumber * batchLimit, ⟨_, UInt64.ofNat?_of_lt hlt, htoNat⟩, by omega, rfl⟩

/-- Batches are exported one by one, as their ranges. -/
theorem mapM_exportBatch {ordered : List Occurrence} {batchLimit : Nat}
    {batches : List ExportedBatch} :
    disclosed.mapM (exportBatch ordered batchLimit) = .ok batches
      ↔ (∀ number ∈ disclosed, BatchStarts ordered batchLimit number)
        ∧ batches = disclosed.map fun number =>
          exportOccurrences number (batchSlice ordered batchLimit number) := by
  rw [Except.mapM_eq_ok_iff]
  simp only [exportBatch_eq_ok]
  induction disclosed generalizing batches with
  | nil => simp [List.forall₂_nil_left_iff]
  | cons number disclosed ih =>
    rw [List.forall₂_cons_left_iff]
    simp only [ih, List.forall_mem_cons, List.map_cons]
    constructor
    · rintro ⟨_, _, ⟨hfirst, rfl⟩, ⟨hrest, rfl⟩, rfl⟩
      exact ⟨⟨hfirst, hrest⟩, rfl⟩
    · rintro ⟨⟨hfirst, hrest⟩, rfl⟩
      exact ⟨_, _, ⟨hfirst, rfl⟩, ⟨hrest, rfl⟩, rfl⟩

/-- The batches of an export. -/
def exportedBatches (segment : SegmentRecord) (material : SnapshotMaterial) (disclosed : List Nat) :
    List ExportedBatch :=
  disclosed.map fun number => exportOccurrences number
    (batchSlice (occurrences material.records) segment.closurePolicy.batchRecordLimit.toNat number)

/-- The files before the manifest. -/
def exportedFiles (material : SnapshotMaterial) (batches : List ExportedBatch) :
    List (String × Bytes) :=
  [("segment.cbor", material.artifact)] ++ batches.flatMap ExportedBatch.files
    ++ (material.predecessor.map fun bytes => ("predecessor.cbor", bytes)).toList
    ++ [("timestamp.tsr", material.tsaResponse)]

def exportedManifest (ledgerId : String) (segmentNumber : UInt64)
    (disclosureClass : DisclosureClass)
    (material : SnapshotMaterial) (segment : SegmentRecord) (batches : List ExportedBatch) :
    SnapshotManifest where
  version := 1
  ledgerId
  segmentNumber := toString segmentNumber
  commitmentProfileId := segment.commitmentProfileId
  disclosureClass := disclosureClass.asStr
  artifacts := {
    segmentCbor := ⟨"segment.cbor", material.artifactSha256⟩
    predecessorSegmentCbor := material.predecessor.map (artifactRef "predecessor.cbor")
    recordBatches := if (batches.map ExportedBatch.opening).isEmpty then none
      else some (batches.map ExportedBatch.opening)
    tsaTsr := artifactRef "timestamp.tsr" material.tsaResponse }
  tsaStatus := "present"

/-- What is checked before anything is written. -/
structure Exportable (ledgerId : String) (segmentNumber : UInt64)
    (disclosureClass : DisclosureClass)
    (selectedBatches : Finset UInt64) (material : SnapshotMaterial) (segment : SegmentRecord)
    (disclosed : List Nat) : Prop where
  selected : disclosureClass = .b ∨ selectedBatches = ∅
  reproduces : Reproduces ledgerId segmentNumber material segment
  disclosed_eq : ∃ batchCount, UInt64.ofNat? segment.batchRoots.length = some batchCount
    ∧ disclosedBatches disclosureClass selectedBatches batchCount = .ok disclosed
  starts : ∀ number ∈ disclosed,
    BatchStarts (occurrences material.records) segment.closurePolicy.batchRecordLimit.toNat number

/-- An export is assembled exactly where it is exportable, as the files of its batches. -/
theorem assembleExport_eq_ok {assembled : Assembled} :
    assembleExport ledgerId segmentNumber disclosureClass selectedBatches material = .ok assembled
      ↔ ∃ segment disclosed,
        Exportable ledgerId segmentNumber disclosureClass selectedBatches material segment disclosed
        ∧ assembled = ⟨exportedFiles material (exportedBatches segment material disclosed),
          exportedManifest ledgerId segmentNumber disclosureClass material segment
            (exportedBatches segment material disclosed)⟩ := by
  simp only [assembleExport, Except.bind_eq_ok, Except.require_eq_ok, Except.ofOption_eq_ok,
    mapM_exportBatch, validateMaterial_eq_ok, pure, Except.pure, Except.ok.injEq, exists_const,
    Bool.or_eq_true, decide_eq_true_eq]
  constructor
  · rintro ⟨hselected, segment, hreproduces, count, hcount, disclosed, hdisclosed, _,
      ⟨hstarts, rfl⟩, rfl⟩
    exact ⟨segment, disclosed, ⟨hselected, hreproduces, ⟨count, hcount, hdisclosed⟩, hstarts⟩, rfl⟩
  · rintro ⟨segment, disclosed, ⟨hselected, hreproduces, ⟨count, hcount, hdisclosed⟩, hstarts⟩, rfl⟩
    exact ⟨hselected, segment, hreproduces, count, hcount, disclosed, hdisclosed, _,
      ⟨hstarts, rfl⟩, rfl⟩

/-! ## The disclosed numbers -/

/-- The batches that can be selected with a class: some and not all of them with class B. -/
def Selectable (disclosureClass : DisclosureClass) (selectedBatches : Finset UInt64)
    (batchCount : Nat) : Prop :=
  if disclosureClass = .b then
    selectedBatches.Nonempty ∧ selectedBatches.image UInt64.toNat ⊂ Finset.range batchCount
  else selectedBatches = ∅

/-- The numbers of the batches that a class discloses. -/
structure Discloses (disclosureClass : DisclosureClass) (selectedBatches : Finset UInt64)
    (batchCount : Nat) (numbers : List UInt64) : Prop where
  nodup : numbers.Nodup
  lt : ∀ number ∈ numbers, number.toNat < batchCount
  all : disclosureClass = .a → numbers.map UInt64.toNat = List.range batchCount
  selected : disclosureClass = .b →
    numbers.toFinset = selectedBatches ∧ numbers ≠ [] ∧ numbers.length < batchCount
  nothing : disclosureClass = .c → numbers = []

omit [Sha256] in
/-- Numbers that fit survive the words. -/
theorem map_toNat_ofNat {ns : List Nat} (h : ∀ n ∈ ns, n < 2 ^ 64) :
    (ns.map UInt64.ofNat).map UInt64.toNat = ns := by
  rw [List.map_map]
  refine (List.map_congr_left fun n hn => ?_).trans (List.map_id _)
  exact UInt64.toNat_ofNat_of_lt64 (h n hn)

omit [Sha256] in
/-- The sorted numbers are those selected. -/
theorem mem_sort_image {n : Nat} :
    n ∈ (selectedBatches.image UInt64.toNat).sort (· ≤ ·) ↔ ∃ b ∈ selectedBatches, b.toNat = n := by
  rw [Finset.mem_sort, Finset.mem_image]

omit [Sha256] in
/-- The sorted numbers are those selected, as words. -/
theorem toFinset_sort_image :
    (((selectedBatches.image UInt64.toNat).sort (· ≤ ·)).map UInt64.ofNat).toFinset
      = selectedBatches := by
  ext b
  simp only [List.mem_toFinset, List.mem_map, mem_sort_image]
  constructor
  · rintro ⟨_, ⟨c, hc, rfl⟩, rfl⟩
    rwa [UInt64.ofNat_toNat]
  · intro hb
    exact ⟨b.toNat, ⟨b, hb, rfl⟩, UInt64.ofNat_toNat⟩

omit [Sha256] in
/-- No selected number is lost in the sorting. -/
theorem length_sort_image :
    ((selectedBatches.image UInt64.toNat).sort (· ≤ ·)).length = selectedBatches.card := by
  rw [Finset.length_sort, Finset.card_image_of_injective _ fun a b hab => UInt64.toNat_inj.mp hab]

omit [Sha256] in
/-- The disclosed batches, as numbers of 64 bits. -/
theorem discloses_of_disclosedBatches {batchCount : UInt64}
    (h : disclosedBatches disclosureClass selectedBatches batchCount = .ok disclosed) :
    ∃ numbers : List UInt64, disclosed = numbers.map UInt64.toNat
      ∧ Discloses disclosureClass selectedBatches batchCount.toNat numbers := by
  cases disclosureClass with
  -- class `A`: every batch
  | a =>
    obtain rfl := Except.ok.inj h
    have hmap := @map_toNat_ofNat (List.range batchCount.toNat) fun n hn =>
      (List.mem_range.mp hn).trans batchCount.toNat_lt
    refine ⟨(List.range batchCount.toNat).map UInt64.ofNat, hmap.symm, ?_, ?_,
      fun _ => hmap, ?_, ?_⟩
    · exact List.Nodup.of_map UInt64.toNat (hmap.symm ▸ List.nodup_range)
    · intro number hnumber
      have hmem := List.mem_map_of_mem (f := UInt64.toNat) hnumber
      rw [hmap] at hmem
      exact List.mem_range.mp hmem
    · rintro ⟨⟩
    · rintro ⟨⟩
  | b =>
    -- class `B`: a proper part that is not empty, sorted
    simp only [disclosedBatches, Except.bind_eq_ok, Except.require_eq_ok, Bool.not_eq_true',
      Bool.or_eq_false_iff, decide_eq_false_iff_not, not_exists, not_and] at h
    obtain ⟨_, ⟨⟨⟨-, hne⟩, hcard⟩, hlt⟩, hsorted⟩ := h
    obtain rfl := Except.ok.inj hsorted
    have hmap := @map_toNat_ofNat ((selectedBatches.image UInt64.toNat).sort (· ≤ ·)) fun n hn => by
      obtain ⟨b, -, rfl⟩ := mem_sort_image.mp hn
      exact b.toNat_lt
    -- each selected batch is one of the segment
    have hbound : ∀ b ∈ selectedBatches, b.toNat < batchCount.toNat := by
      intro b hb
      exact UInt64.lt_iff_toNat_lt.mp (UInt64.not_le.mp (hlt b hb))
    refine ⟨((selectedBatches.image UInt64.toNat).sort (· ≤ ·)).map UInt64.ofNat, hmap.symm,
      ?_, ?_, ?_,
      fun _ => ⟨toFinset_sort_image, ?_, ?_⟩, ?_⟩
    · exact List.Nodup.of_map UInt64.toNat (hmap.symm ▸ Finset.sort_nodup _ _)
    · intro number hnumber
      rw [← List.mem_toFinset, toFinset_sort_image] at hnumber
      exact hbound number hnumber
    · rintro ⟨⟩
    · intro hnil
      rw [← @toFinset_sort_image selectedBatches, hnil] at hne
      exact hne rfl
    · rw [List.length_map, length_sort_image]
      -- not all of them are selected
      have hle : selectedBatches.card ≤ batchCount.toNat := by
        rw [← Finset.card_image_of_injective selectedBatches fun a b hab => UInt64.toNat_inj.mp hab,
          ← Finset.card_range batchCount.toNat]
        refine Finset.card_le_card fun n hn => ?_
        obtain ⟨b, hb, rfl⟩ := Finset.mem_image.mp hn
        exact Finset.mem_range.mpr (hbound b hb)
      refine lt_of_le_of_ne hle fun heq => hcard ?_
      exact UInt64.ofNat?_eq_some.mpr heq.symm
    · rintro ⟨⟩
  | c =>
    -- class `C`: none
    obtain rfl := Except.ok.inj h
    refine ⟨[], rfl, List.nodup_nil, fun _ hnumber => absurd hnumber List.not_mem_nil, ?_, ?_,
      fun _ => rfl⟩
    · rintro ⟨⟩
    · rintro ⟨⟩

omit [Sha256] in
/-- What can be selected is disclosed. -/
theorem exists_disclosedBatches {batchCount : UInt64}
    (h : Selectable disclosureClass selectedBatches batchCount.toNat) :
    ∃ disclosed, disclosedBatches disclosureClass selectedBatches batchCount = .ok disclosed := by
  cases disclosureClass with
  | a => exact ⟨_, rfl⟩
  | b =>
    obtain ⟨hne, hproper⟩ := h
    have hcard := Finset.card_lt_card hproper
    rw [Finset.card_range,
      Finset.card_image_of_injective _ fun a b hab => UInt64.toNat_inj.mp hab] at hcard
    have hpos := Finset.card_pos.mpr hne
    refine ⟨(selectedBatches.image UInt64.toNat).sort (· ≤ ·), ?_⟩
    simp only [disclosedBatches, Except.bind_eq_ok, Except.require_eq_ok, Bool.not_eq_true',
      Bool.or_eq_false_iff, decide_eq_false_iff_not, not_exists, not_and]
    refine ⟨(), ⟨⟨⟨?_, hne.ne_empty⟩, ?_⟩, ?_⟩, rfl⟩
    · rw [UInt64.not_le, UInt64.lt_iff_toNat_lt]
      exact lt_of_le_of_lt hpos hcard
    · intro heq
      rw [UInt64.ofNat?_eq_some] at heq
      omega
    · intro b hb hle
      have hlt := Finset.mem_range.mp (hproper.1 (Finset.mem_image_of_mem UInt64.toNat hb))
      exact absurd (UInt64.le_iff_toNat_le.mp hle) (Nat.not_le.mpr hlt)
  | c => exact ⟨_, rfl⟩

/-- The batches of an export are those its class discloses. -/
theorem Exportable.discloses
    (h : Exportable ledgerId segmentNumber disclosureClass selectedBatches material segment
      disclosed) :
    ∃ numbers : List UInt64, disclosed = numbers.map UInt64.toNat
      ∧ Discloses disclosureClass selectedBatches segment.batchRoots.length numbers := by
  obtain ⟨batchCount, hcount, hdisclosed⟩ := h.disclosed_eq
  exact UInt64.ofNat?_eq_some.mp hcount ▸ discloses_of_disclosedBatches hdisclosed

/-! ## Paths -/

omit [Sha256] in
/-- A path names its batch, its index and its ordinal. -/
theorem occurrencePath_inj {batch index ordinal batch' index' ordinal' : Nat}
    (h : occurrencePath batch index ordinal = occurrencePath batch' index' ordinal') :
    batch = batch' ∧ index = index' ∧ ordinal = ordinal' := by
  have hchars := String.ofList_injective h
  simp only [List.append_assoc] at hchars
  have hdigits : ∀ n, ∀ c ∈ Decimal.padded 20 n, c.isDigit :=
    fun _ _ => Decimal.isDigit_of_mem_padded
  have hbatch := Decimal.append_inj (hdigits batch) (hdigits batch') (by decide) (by decide)
    (List.append_cancel_left hchars)
  have hindex := Decimal.append_inj (hdigits index) (hdigits index') (by decide) (by decide)
    (@List.append_cancel_left _ "/occurrence-".toList _ _ hbatch.2)
  have hordinal := Decimal.append_inj (hdigits ordinal) (hdigits ordinal') (by decide) (by decide)
    (@List.append_cancel_left _ "-ordinal-".toList _ _ hindex.2)
  have hpadded : ∀ {n m}, Decimal.padded 20 n = Decimal.padded 20 m → n = m := by
    intro n m heq
    rw [← Decimal.value_padded 20 n, heq, Decimal.value_padded]
  exact ⟨hpadded hbatch.1, hpadded hindex.1, hpadded hordinal.1⟩

/-- The paths of a batch. -/
def batchPaths (batchNumber : Nat) (batch : List Occurrence) : List String :=
  batch.zipIdx.map fun (occurrence, index) => occurrencePath batchNumber index occurrence.ordinal

/-- The paths of a batch, in order. -/
theorem paths_exportOccurrences (batchNumber : Nat) (batch : List Occurrence) :
    (exportOccurrences batchNumber batch).files.map Prod.fst = batchPaths batchNumber batch := by
  rw [exportOccurrences, List.map_map]
  rfl

omit [Sha256] in
/-- No two batches share a path. -/
theorem batchNumber_of_mem {batchNumber batchNumber' : Nat} {batch batch' : List Occurrence}
    {path : String} (h : path ∈ batchPaths batchNumber batch)
    (h' : path ∈ batchPaths batchNumber' batch') :
    batchNumber = batchNumber' := by
  obtain ⟨_, -, rfl⟩ := List.mem_map.mp h
  obtain ⟨_, -, hpath⟩ := List.mem_map.mp h'
  exact (occurrencePath_inj hpath).1.symm

omit [Sha256] in
/-- The index of an occurrence is a part of its path. -/
theorem nodup_batchPaths (batchNumber : Nat) (batch : List Occurrence) :
    (batchPaths batchNumber batch).Nodup := by
  have hindices : batch.zipIdx.Nodup := by
    refine List.Nodup.of_map Prod.snd ?_
    rw [List.zipIdx_map_snd]
    exact List.nodup_range'
  rw [batchPaths, List.nodup_map_iff_inj_on hindices]
  rintro ⟨occurrence, index⟩ hmem ⟨occurrence', index'⟩ hmem' hpath
  obtain ⟨-, hindex, -⟩ := occurrencePath_inj hpath
  obtain rfl : index = index' := hindex
  rw [List.mk_mem_zipIdx_iff_getElem?] at hmem hmem'
  rw [hmem] at hmem'
  rw [Option.some.inj hmem']

omit [Sha256] in
/-- The paths of different batches are different. -/
theorem nodup_paths_of_batches (h : disclosed.Nodup) (slice : Nat → List Occurrence) :
    (disclosed.flatMap fun number => batchPaths number (slice number)).Nodup := by
  rw [List.nodup_flatMap]
  refine ⟨fun number _ => nodup_batchPaths number _, h.imp ?_⟩
  intro number number' hne path hpath hpath'
  exact hne (batchNumber_of_mem hpath hpath')

omit [Sha256] in
/-- The names of the files outside of the batches. -/
theorem occurrencePath_ne {batchNumber index ordinal : Nat} {name : String}
    (h : name.toList.head? ≠ some 'r') : occurrencePath batchNumber index ordinal ≠ name := by
  have hrecords : "records/batch-".toList.head? = some 'r' := by decide +kernel
  intro hname
  apply h
  rw [← hname]
  unfold occurrencePath
  simp only [String.toList_ofList]
  simp only [List.append_assoc]
  simp only [List.head?_append, hrecords, Option.some_or]

/-- No batch is exported twice. -/
theorem Exportable.nodup
    (h : Exportable ledgerId segmentNumber disclosureClass selectedBatches material segment
      disclosed) :
    disclosed.Nodup := by
  obtain ⟨numbers, rfl, hdiscloses⟩ := h.discloses
  exact hdiscloses.nodup.map fun a b hab => UInt64.toNat_inj.mp hab

/-- The paths of an export, batch by batch. -/
theorem paths_exportedBatches (segment : SegmentRecord) (material : SnapshotMaterial)
    (disclosed : List Nat) :
    ((exportedBatches segment material disclosed).flatMap ExportedBatch.files).map Prod.fst
      = disclosed.flatMap fun number => batchPaths number
        (batchSlice (occurrences material.records) segment.closurePolicy.batchRecordLimit.toNat
          number) := by
  rw [exportedBatches, List.flatMap_map, List.map_flatMap]
  exact List.flatMap_congr fun number _ => paths_exportOccurrences number _

/-- The files outside of the batches have other names. -/
theorem notMem_paths_exportedBatches (segment : SegmentRecord) (material : SnapshotMaterial)
    (disclosed : List Nat) {name : String} (h : name.toList.head? ≠ some 'r') :
    name ∉ ((exportedBatches segment material disclosed).flatMap ExportedBatch.files).map
      Prod.fst := by
  intro hmem
  rw [paths_exportedBatches, List.mem_flatMap] at hmem
  obtain ⟨number, -, hmem⟩ := hmem
  obtain ⟨_, -, hpath⟩ := List.mem_map.mp hmem
  exact occurrencePath_ne h hpath

/-- Every file of an export has its own path. -/
theorem nodup_exportedFiles (h : disclosed.Nodup) :
    ((exportedFiles material (exportedBatches segment material disclosed)).map Prod.fst).Nodup := by
  have hnodup := paths_exportedBatches segment material disclosed ▸ nodup_paths_of_batches h _
  have hsegment : "segment.cbor" ∉ _ :=
    notMem_paths_exportedBatches segment material disclosed (by decide)
  have hpredecessor : "predecessor.cbor" ∉ _ :=
    notMem_paths_exportedBatches segment material disclosed (by decide)
  have htimestamp : "timestamp.tsr" ∉ _ :=
    notMem_paths_exportedBatches segment material disclosed (by decide)
  simp only [exportedFiles, List.map_append, List.map_singleton]
  generalize ((exportedBatches segment material disclosed).flatMap ExportedBatch.files).map Prod.fst
    = paths at hnodup hsegment hpredecessor htimestamp
  cases material.predecessor with
  | none =>
    refine (List.perm_append_comm.nodup_iff).mpr ?_
    simp [hsegment, htimestamp, hnodup]
  | some bytes =>
    refine (List.perm_append_comm.nodup_iff).mpr ?_
    have hpaths : (paths ++ ["predecessor.cbor"]).Nodup := by
      refine (List.perm_append_comm.nodup_iff).mpr ?_
      simp [hpredecessor, hnodup]
    simp [hsegment, htimestamp, hpaths]

/-- No exported file takes the name of the manifest. -/
theorem manifestName_notMem :
    manifestName ∉ (exportedFiles material (exportedBatches segment material disclosed)).map
      Prod.fst := by
  have hbatches : manifestName ∉ _ :=
    notMem_paths_exportedBatches segment material disclosed (by decide)
  simp only [exportedFiles, List.map_append, List.map_singleton, List.mem_append,
    List.mem_singleton]
  rintro (((hsegment | hmem) | hpredecessor) | htimestamp)
  · exact absurd hsegment (by decide)
  · exact hbatches hmem
  · cases hcase : material.predecessor with
    | none =>
      rw [hcase] at hpredecessor
      cases hpredecessor
    | some bytes =>
      rw [hcase] at hpredecessor
      have heq : manifestName = "predecessor.cbor" := List.mem_singleton.mp hpredecessor
      exact absurd heq (by decide)
  · exact absurd htimestamp (by decide)

/-! ## References -/

/-- The references of a manifest. -/
def SnapshotArtifacts.references (artifacts : SnapshotArtifacts) : List ArtifactRef :=
  artifacts.predecessorSegmentCbor.toList
    ++ (artifacts.recordBatches.getD []).flatMap Evidence.RecordBatchOpening.records
    ++ [artifacts.segmentCbor, artifacts.tsaTsr]

omit [Sha256] in
/-- An export with no batches has no openings. -/
theorem openings_getD (batches : List ExportedBatch) :
    ((if (batches.map ExportedBatch.opening).isEmpty then none
      else some (batches.map ExportedBatch.opening) : Option (List RecordBatchOpening)).getD [])
      = batches.map ExportedBatch.opening := by
  split_ifs with hempty
  · exact (List.isEmpty_iff.mp hempty).symm
  · rfl

/-- The manifest refers to each file once. -/
theorem references_perm (h : sha256Hex material.artifact = material.artifactSha256) :
    (exportedManifest ledgerId segmentNumber disclosureClass material segment
        (exportedBatches segment material disclosed)).artifacts.references.Perm
      ((exportedFiles material (exportedBatches segment material disclosed)).map
        fun file => artifactRef file.1 file.2) := by
  have hrecords : ((exportedBatches segment material disclosed).map ExportedBatch.opening).flatMap
        Evidence.RecordBatchOpening.records
      = ((exportedBatches segment material disclosed).flatMap ExportedBatch.files).map
        fun file => artifactRef file.1 file.2 := by
    rw [exportedBatches, List.map_map, List.flatMap_map, List.flatMap_map, List.map_flatMap]
    rfl
  simp only [SnapshotArtifacts.references, exportedManifest, openings_getD, hrecords, exportedFiles,
    List.map_append, List.map_singleton]
  have hpredecessor : (material.predecessor.map (artifactRef "predecessor.cbor")).toList
      = (material.predecessor.map fun bytes => ("predecessor.cbor", bytes)).toList.map
        fun file => artifactRef file.1 file.2 := by
    cases material.predecessor <;> rfl
  rw [hpredecessor, ← h]
  generalize (material.predecessor.map fun bytes => ("predecessor.cbor", bytes)).toList.map
    (fun file => artifactRef file.1 file.2) = predecessor
  generalize ((exportedBatches segment material disclosed).flatMap ExportedBatch.files).map
    (fun file => artifactRef file.1 file.2) = records
  have hfirst : (predecessor ++ (records ++ [artifactRef "segment.cbor" material.artifact])).Perm
      ([artifactRef "segment.cbor" material.artifact] ++ records ++ predecessor) :=
    List.perm_append_comm.trans (List.perm_append_comm.append_right _)
  simpa [artifactRef] using hfirst.append_right [artifactRef "timestamp.tsr" material.tsaResponse]

/-! ## The files of an export -/

/-- An export is prepared exactly where it is exportable and its manifest can be written. -/
theorem prepareExport_eq_ok {writeManifest : SnapshotManifest → Except String Bytes}
    {files : List (String × Bytes)} :
    prepareExport writeManifest ledgerId segmentNumber disclosureClass selectedBatches material
        = .ok files
      ↔ ∃ segment disclosed manifestBytes,
        Exportable ledgerId segmentNumber disclosureClass selectedBatches material segment disclosed
        ∧ writeManifest (exportedManifest ledgerId segmentNumber disclosureClass material segment
            (exportedBatches segment material disclosed)) = .ok manifestBytes
        ∧ files = exportedFiles material (exportedBatches segment material disclosed)
            ++ [(manifestName, manifestBytes)] := by
  simp only [prepareExport, Except.bind_eq_ok, assembleExport_eq_ok, Except.mapError_eq_ok, pure,
    Except.pure, Except.ok.injEq]
  constructor
  · rintro ⟨_, ⟨segment, disclosed, hexportable, rfl⟩, manifestBytes, hwrite, rfl⟩
    exact ⟨segment, disclosed, manifestBytes, hexportable, hwrite, rfl⟩
  · rintro ⟨segment, disclosed, manifestBytes, hexportable, hwrite, rfl⟩
    exact ⟨_, ⟨segment, disclosed, hexportable, rfl⟩, manifestBytes, hwrite, rfl⟩

/-- The manifest is found under its name. -/
theorem lookup_manifestName {manifestBytes : Bytes} :
    (exportedFiles material (exportedBatches segment material disclosed)
      ++ [(manifestName, manifestBytes)]).lookup manifestName = some manifestBytes := by
  have hnone : (exportedFiles material (exportedBatches segment material disclosed)).lookup
    manifestName
      = none := by
    rw [List.lookup_eq_none_iff]
    intro file hfile
    have hne : file.1 ≠ manifestName := by
      intro heq
      apply manifestName_notMem
      rw [← heq]
      exact List.mem_map_of_mem hfile
    simpa using hne.symm
  rw [List.lookup_append, hnone]
  simp

end TrackOne.Snapshot
