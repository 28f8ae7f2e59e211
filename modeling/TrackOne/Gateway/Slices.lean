import TrackOne.Gateway.Export
import TrackOne.Evidence.Soundness

/-!
# The batches an exporter cuts

The exporter sorts the occurrences of the records by leaf hash and ordinal, and cuts them at the
batch limit. The segment was sealed over the sorted leaf hashes alone, and a verifier sorts those of
each batch that it reads.

* `map_digest_occurrences`: the exporter's order is that of the commitment, so that its slices are
  the chunks of it (`getElem?_chunks_slice`).
* `leafHashes_slice` and `getElem?_batchRoots`: a slice that is read in any order has the stored
  root.
* `slices_inOrder` and `flatten_slices`: the slices follow each other, and all of them are the
  segment. -/

namespace TrackOne.Snapshot

open SplitTree

variable [Sha256]

/-! ## The order of the occurrences -/

namespace Occurrence

omit [Sha256] in
/-- Occurrences are sorted by their digests first. -/
theorem ble_digest {left right : Occurrence} (h : left.ble right = true) :
    left.digest.ble right.digest = true := by
  unfold ble at h
  split_ifs at h with heq
  · rw [heq]
    simpa using Digest.ble_total right.digest right.digest
  · exact h

omit [Sha256] in
/-- The order of occurrences is transitive. -/
theorem ble_trans (a b c : Occurrence) (hab : a.ble b = true) (hbc : b.ble c = true) :
    a.ble c = true := by
  have hle := Digest.ble_trans _ _ _ (ble_digest hab) (ble_digest hbc)
  unfold ble at hab hbc ⊢
  split_ifs with hac
  · -- what lies between equal digests has the same one
    have hba : a.digest = b.digest := by
      split_ifs at hab hbc with h₁ h₂ h₃
      · exact h₁
      · exact h₁
      · exact hac.trans h₃.symm
      · exact Digest.ble_antisymm hab (hac ▸ hbc)
    rw [if_pos hba, decide_eq_true_eq] at hab
    rw [if_pos (hba.symm.trans hac), decide_eq_true_eq] at hbc
    exact decide_eq_true (hab.trans hbc)
  · exact hle

omit [Sha256] in
/-- The order of occurrences is total. -/
theorem ble_total (a b : Occurrence) : (a.ble b || b.ble a) = true := by
  unfold ble
  by_cases heq : a.digest = b.digest
  · rw [if_pos heq, if_pos heq.symm]
    simpa using Nat.le_total a.ordinal b.ordinal
  · rw [if_neg heq, if_neg fun h => heq h.symm]
    exact Digest.ble_total _ _

end Occurrence

/-- The occurrences are in the order of their digests. -/
theorem pairwise_occurrences (records : List Bytes) :
    (occurrences records).Pairwise fun left right => left.digest.ble right.digest = true :=
  (List.pairwise_mergeSort Occurrence.ble_trans Occurrence.ble_total _).imp Occurrence.ble_digest

/-- An occurrence has the leaf hash of its record. -/
theorem digest_of_mem_occurrences {records : List Bytes} {occurrence : Occurrence}
    (h : occurrence ∈ occurrences records) :
    occurrence.digest = prefixedHash 0 occurrence.record := by
  obtain ⟨entry, -, rfl⟩ := List.mem_map.mp (List.mem_mergeSort.mp h)
  rfl

/-- The occurrences are the records, sorted. -/
theorem map_record_occurrences_perm (records : List Bytes) :
    ((occurrences records).map Occurrence.record).Perm records := by
  refine ((List.mergeSort_perm _ _).map _).trans ?_
  rw [List.map_map]
  have hfst : (records.zipIdx.map Prod.fst) = records := List.zipIdx_map_fst _ _
  exact List.Perm.of_eq hfst

/-- No record is lost in the sorting. -/
@[simp] theorem length_occurrences (records : List Bytes) :
    (occurrences records).length = records.length := by
  rw [occurrences, List.length_mergeSort, List.length_map, List.length_zipIdx]

/-- The exporter's order is that of the leaf hashes. -/
theorem map_digest_occurrences (records : List Bytes) :
    (occurrences records).map Occurrence.digest = (merkleRootFromRecords records).leafHashes := by
  have hdigests : (occurrences records).map Occurrence.digest
      = ((occurrences records).map Occurrence.record).map (prefixedHash 0) := by
    rw [List.map_map]
    exact List.map_congr_left fun occurrence hmem => digest_of_mem_occurrences hmem
  have hperm : ((occurrences records).map Occurrence.digest).Perm
      (merkleRootFromRecords records).leafHashes := by
    rw [hdigests]
    exact ((map_record_occurrences_perm records).map _).trans (leafHashes_perm records).symm
  refine hperm.eq_of_pairwise (fun a b _ _ hab hba => Digest.ble_antisymm hab hba) ?_
    (List.pairwise_mergeSort Digest.ble_trans Digest.ble_total _)
  exact List.pairwise_map.mpr (pairwise_occurrences records)

/-! ## Slices -/

omit [Sha256] in
/-- A batch is a range of the sorted records. -/
theorem batchSlice_eq (ordered : List Occurrence) (batchLimit batchNumber : Nat) :
    batchSlice ordered batchLimit batchNumber
      = (ordered.drop (batchNumber * batchLimit)).take batchLimit := by
  unfold batchSlice
  dsimp only
  rw [List.drop_take]
  by_cases hle : batchNumber * batchLimit + batchLimit ≤ ordered.length
  · rw [Nat.min_eq_left hle, Nat.add_sub_cancel_left]
  · rw [Nat.min_eq_right (by omega), List.take_of_length_le, List.take_of_length_le]
    · rw [List.length_drop]; omega
    · rw [List.length_drop]

variable {ledgerId : String} {segmentNumber : UInt64} {material : SnapshotMaterial}
variable {segment : SegmentRecord} {number : Nat}

/-- The occurrences of a batch. -/
def slice (material : SnapshotMaterial) (segment : SegmentRecord) (number : Nat) :
    List Occurrence :=
  batchSlice (occurrences material.records) segment.closurePolicy.batchRecordLimit.toNat number

/-- A record of a batch is one of the segment's. -/
theorem mem_occurrences_of_mem_slice {occurrence : Occurrence}
    (h : occurrence ∈ slice material segment number) :
    occurrence ∈ occurrences material.records := by
  rw [slice, batchSlice_eq] at h
  exact List.mem_of_mem_drop (List.mem_of_mem_take h)

/-- The reproduced segment is valid. -/
theorem Reproduces.valid (h : Reproduces ledgerId segmentNumber material segment) :
    segment.validateDetailed = .ok () :=
  (SegmentRecord.canonicalCborBytes_eq_ok.mp (decodeSegmentRecord_eq_ok.mp h.decoded)).1

/-- The first segment has the zero digest for predecessor. -/
theorem Reproduces.epoch (h : Reproduces ledgerId segmentNumber material segment)
    (hzero : segment.segmentNumber = 0) : segment.prevSegmentSha256 = Digest.zero := by
  have hvalid := h.valid
  by_contra hne
  unfold SegmentRecord.validateDetailed at hvalid
  split_ifs at hvalid with _ _ hepoch
  all_goals exact hepoch ⟨hzero, hne⟩

/-- There are as many records as the segment counts. -/
theorem Reproduces.length_records (h : Reproduces ledgerId segmentNumber material segment) :
    material.records.length = segment.recordCount.toNat :=
  (UInt64.ofNat?_eq_some.mp h.count).symm

/-- The reproduced segment has a batch root for each aligned chunk. -/
theorem Reproduces.aligned (h : Reproduces ledgerId segmentNumber material segment) :
    Evidence.Aligned segment := Evidence.aligned_of_validateDetailed h.valid

/-- Every batch starts within the records. -/
theorem Reproduces.starts (h : Reproduces ledgerId segmentNumber material segment)
    (hnumber : number < segment.batchRoots.length) :
    number * segment.closurePolicy.batchRecordLimit.toNat < material.records.length := by
  rw [h.length_records]
  exact mul_lt_of_lt_chunkCount (h.aligned.count ▸ hnumber)

/-- A segment whose records are there can be exported with any selection. -/
theorem Reproduces.exportable {disclosureClass : DisclosureClass} {selectedBatches : Finset UInt64}
    (h : Reproduces ledgerId segmentNumber material segment)
    (hselected : Selectable disclosureClass selectedBatches segment.batchRoots.length) :
    ∃ disclosed,
      Exportable ledgerId segmentNumber disclosureClass selectedBatches material segment
        disclosed := by
  obtain ⟨-, -, -, -, hroots⟩ := SegmentRecord.validateDetailed_eq_ok h.valid
  have hcount := UInt64.ofNat?_of_lt hroots
  rw [← UInt64.ofNat?_eq_some.mp hcount] at hselected
  obtain ⟨disclosed, hdisclosed⟩ := exists_disclosedBatches hselected
  obtain ⟨numbers, rfl, hdiscloses⟩ := discloses_of_disclosedBatches hdisclosed
  refine ⟨_, ?_, h, ⟨_, hcount, hdisclosed⟩, ?_⟩
  · unfold Selectable at hselected
    split_ifs at hselected with hclass
    · exact .inl hclass
    · exact .inr hselected
  · intro number hnumber
    obtain ⟨word, hword, rfl⟩ := List.mem_map.mp hnumber
    have hlt := hdiscloses.lt word hword
    rw [UInt64.ofNat?_eq_some.mp hcount] at hlt
    have hstart := h.starts hlt
    have hbound := segment.recordCount.toNat_lt
    rw [← h.length_records] at hbound
    refine ⟨by omega, ?_⟩
    rw [length_occurrences]
    omega

/-- A slice is a chunk of the occurrences. -/
theorem getElem?_chunks_slice (h : Reproduces ledgerId segmentNumber material segment)
    (hnumber : number < segment.batchRoots.length) :
    (chunks segment.closurePolicy.batchRecordLimit.toNat (occurrences material.records))[number]?
      = some (slice material segment number) := by
  rw [getElem?_chunks h.aligned.limit_pos, length_occurrences, if_pos (h.starts hnumber), slice,
    batchSlice_eq]

/-- A batch has the length of its aligned chunk. -/
theorem length_slice (h : Reproduces ledgerId segmentNumber material segment)
    (hnumber : number < segment.batchRoots.length) :
    (slice material segment number).length
      = chunkLength segment.closurePolicy.batchRecordLimit.toNat segment.recordCount.toNat
        number := by
  rw [length_of_getElem?_chunks h.aligned.limit_pos (getElem?_chunks_slice h hnumber),
    length_occurrences, h.length_records]

/-- No batch is empty. -/
theorem slice_ne_nil (h : Reproduces ledgerId segmentNumber material segment)
    (hnumber : number < segment.batchRoots.length) : slice material segment number ≠ [] :=
  ne_nil_of_getElem?_chunks h.aligned.limit_pos (getElem?_chunks_slice h hnumber)

/-- The records of a slice, sorted again, have its leaf hashes. -/
theorem leafHashes_slice (material : SnapshotMaterial) (segment : SegmentRecord) (number : Nat) :
    (merkleRootFromRecords ((slice material segment number).map Occurrence.record)).leafHashes
      = (slice material segment number).map Occurrence.digest := by
  have hdigests : ((slice material segment number).map Occurrence.record).map (prefixedHash 0)
      = (slice material segment number).map Occurrence.digest := by
    rw [List.map_map]
    exact List.map_congr_left fun occurrence hmem =>
      (digest_of_mem_occurrences (mem_occurrences_of_mem_slice hmem)).symm
  show (((slice material segment number).map Occurrence.record).map (prefixedHash 0)).mergeSort
    Digest.ble = _
  rw [hdigests]
  refine List.mergeSort_of_pairwise (List.pairwise_map.mpr ?_)
  rw [slice, batchSlice_eq]
  exact ((pairwise_occurrences _).sublist (List.drop_sublist _ _)).sublist (List.take_sublist _ _)

/-- The batch roots are those of the aligned chunks. -/
theorem Reproduces.batchRoots_eq (h : Reproduces ledgerId segmentNumber material segment) :
    segment.batchRoots = (chunks segment.closurePolicy.batchRecordLimit.toNat
      (occurrences material.records)).map fun chunk => mth (chunk.map Occurrence.digest) := by
  have hroots := h.batchRoots
  unfold batchRootsFromLeafHashes at hroots
  split at hroots
  · cases hroots
  · rw [← map_digest_occurrences, chunks_map h.aligned.limit_pos, List.map_map] at hroots
    exact (Option.some.inj hroots).symm

/-- The stored root of a batch is that of its slice. -/
theorem getElem?_batchRoots (h : Reproduces ledgerId segmentNumber material segment)
    (hnumber : number < segment.batchRoots.length) :
    segment.batchRoots[number]?
      = some (merkleRootFromRecords
        ((slice material segment number).map Occurrence.record)).root := by
  have hroot : (merkleRootFromRecords ((slice material segment number).map Occurrence.record)).root
      = mth ((slice material segment number).map Occurrence.digest) :=
        congrArg mth (leafHashes_slice _ _ _)
  rw [h.batchRoots_eq, List.getElem?_map, getElem?_chunks_slice h hnumber, hroot]
  rfl

/-- The leaf hashes of a slice do not exceed those of the next one. -/
theorem slices_inOrder {last first : Occurrence} (hlast : last ∈ slice material segment number)
    (hfirst : first ∈ slice material segment (number + 1)) :
    last.digest.ble first.digest = true := by
  have hsplit := pairwise_occurrences material.records
  rw [← List.take_append_drop ((number + 1) * segment.closurePolicy.batchRecordLimit.toNat)
    (occurrences material.records), List.pairwise_append] at hsplit
  rw [slice, batchSlice_eq] at hlast hfirst
  refine hsplit.2.2 last ?_ first (List.mem_of_mem_take hfirst)
  -- a slice ends where the next one starts
  have hend : ((occurrences material.records).drop
        (number * segment.closurePolicy.batchRecordLimit.toNat)).take
          segment.closurePolicy.batchRecordLimit.toNat
      = ((occurrences material.records).take
          ((number + 1) * segment.closurePolicy.batchRecordLimit.toNat)).drop
            (number * segment.closurePolicy.batchRecordLimit.toNat) := by
    rw [List.drop_take, Nat.succ_mul, Nat.add_sub_cancel_left]
  rw [hend] at hlast
  exact List.mem_of_mem_drop hlast

/-- All slices are the leaf hashes of the segment. -/
theorem flatten_slices (h : Reproduces ledgerId segmentNumber material segment) :
    (List.range segment.batchRoots.length).flatMap (fun number =>
        (slice material segment number).map Occurrence.digest)
      = (merkleRootFromRecords material.records).leafHashes := by
  have hchunks : (List.range segment.batchRoots.length).map (slice material segment)
      = chunks segment.closurePolicy.batchRecordLimit.toNat (occurrences material.records) := by
    apply List.ext_getElem?
    intro i
    rw [List.getElem?_map]
    by_cases hi : i < segment.batchRoots.length
    · rw [List.getElem?_range hi, getElem?_chunks_slice h hi]
      rfl
    · have hlength : (chunks segment.closurePolicy.batchRecordLimit.toNat
          (occurrences material.records)).length = segment.batchRoots.length := by
        rw [h.batchRoots_eq, List.length_map]
      rw [List.getElem?_eq_none (by simpa using hi), List.getElem?_eq_none (by omega)]
      rfl
  rw [← map_digest_occurrences, ← flatten_chunks h.aligned.limit_pos (occurrences material.records),
    ← hchunks, List.map_flatten, List.map_map, List.flatMap_def]
  rfl

end TrackOne.Snapshot
