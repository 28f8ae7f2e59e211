import TrackOne.Evidence.Recompute

/-!
# What a recomputation proves about the records

The segment is authoritative, the manifest and the files are not. This file says which records a
disclosure can contain once the verifier has recomputed it without a failure.

* `validateDisclosure_public`: a public recomputation has read exactly the records of the segment.
  The verifier never sorts all leaves; that its batches are the chunks of one sorted list comes from
  their sizes and from the order of neighbours.
* `validateDisclosure_disclosed`: the records of a disclosed batch are those sealed in it, up to a
  collision of the hash on inputs that were really hashed.
-/

namespace TrackOne.Evidence

open SplitTree

section

variable [Sha256] {dir : Directory} {manifest : Manifest} {segment : SegmentRecord}

/-! ## The sizes a segment commits to -/

/-- The batch roots of a segment are as many as its records have chunks. -/
structure Aligned (segment : SegmentRecord) : Prop where
  limit_pos : 0 < segment.closurePolicy.batchRecordLimit.toNat
  count : segment.batchRoots.length
    = chunkCount segment.closurePolicy.batchRecordLimit.toNat segment.recordCount.toNat

theorem aligned_of_validateDetailed (h : segment.validateDetailed = .ok ()) : Aligned segment := by
  obtain ⟨-, -, hpolicy, -, -⟩ := SegmentRecord.validateDetailed_eq_ok h
  obtain ⟨-, hlimit, -, -⟩ := ClosurePolicy.validate_eq_ok.mp hpolicy
  obtain ⟨j, -, hpow⟩ := ClosurePolicy.validateBatchRecordLimit_eq_ok.mp hlimit
  refine ⟨hpow ▸ Nat.two_pow_pos j, ?_⟩
  rcases SegmentRecord.roots_of_validateDetailed h with ⟨hzero, hroots, -⟩ | ⟨hcount, hroots, -⟩
  · rw [hroots, hzero]
    rfl
  · have hne : segment.recordCount.toNat ≠ 0 := fun h0 => hcount (UInt64.toNat_inj.mp h0)
    rw [hroots, chunkCount, if_neg hne]

omit [Sha256] in
/-- The cardinality the verifier expects of a batch is the size of its chunk. -/
theorem expectedOpeningCount_eq (h : Aligned segment) {number expected : UInt64}
    (hexpected :
      expectedOpeningCount segment segment.batchRoots.length number = some expected) :
    expected.toNat = chunkLength segment.closurePolicy.batchRecordLimit.toNat
      segment.recordCount.toNat number.toNat := by
  unfold expectedOpeningCount at hexpected
  split_ifs at hexpected with hrange hlast
  · rw [h.count] at hlast
    simp only [Option.bind_eq_bind, Option.bind_eq_some_iff] at hexpected
    obtain ⟨fullBefore, hfull, hsub⟩ := hexpected
    rw [UInt64.ofNat?_eq_some] at hfull
    rw [UInt64.checkedSub_eq_some, hfull] at hsub
    rw [chunkLength_of_last h.limit_pos hlast]
    omega
  · rw [h.count] at hrange hlast
    rw [chunkLength_of_not_last (by omega), ← Option.some.inj hexpected]

omit [Sha256] in
/-- The verifier expects something of every batch. -/
theorem exists_expectedOpeningCount (h : Aligned segment) {number : UInt64}
    (hlt : number.toNat < segment.batchRoots.length) :
    ∃ expected, expectedOpeningCount segment segment.batchRoots.length number = some expected := by
  unfold expectedOpeningCount
  rw [if_neg (by omega)]
  split_ifs with hlast
  · have hbefore := mul_lt_of_lt_chunkCount (h.count ▸ hlt)
    have hbound := segment.recordCount.toNat_lt
    obtain ⟨fullBefore, hfull⟩ : ∃ word, UInt64.ofNat?
        (number.toNat * segment.closurePolicy.batchRecordLimit.toNat) = some word :=
      ⟨_, UInt64.ofNat?_of_lt (by omega)⟩
    refine ⟨segment.recordCount - fullBefore, ?_⟩
    rw [hfull]
    refine UInt64.checkedSub_eq_some.mpr ?_
    rw [UInt64.ofNat?_eq_some] at hfull
    rw [UInt64.toNat_sub_of_le _ _ (UInt64.le_iff_toNat_le.mpr (by omega))]
    omega
  · exact ⟨_, rfl⟩

theorem BatchRead.number_lt {opening : UInt64 × RecordBatchOpening}
    {batch : UInt64 × List Bytes} (hread : BatchRead dir segment opening batch) :
    batch.1.toNat < segment.batchRoots.length :=
  (List.getElem?_eq_some_iff.mp hread.root).1

/-- A batch that was read has the size of its chunk. -/
theorem BatchRead.length_eq (h : Aligned segment) {opening : UInt64 × RecordBatchOpening}
    {batch : UInt64 × List Bytes} (hread : BatchRead dir segment opening batch) :
    batch.2.length = chunkLength segment.closurePolicy.batchRecordLimit.toNat
      segment.recordCount.toNat batch.1.toNat := by
  obtain ⟨expected, hexpected⟩ := exists_expectedOpeningCount h hread.number_lt
  have hcount := hread.count
  rw [hexpected, UInt64.ofNat?_eq_some] at hcount
  rw [← hcount, expectedOpeningCount_eq h hexpected]

/-! ## Public recomputation -/

omit [Sha256] in
/-- Numbers below a bound, as many as it and each its own, are all of them. -/
theorem perm_range_of_nodup {numbers : List UInt64} {count : Nat} (hnodup : numbers.Nodup)
    (hlt : ∀ number ∈ numbers, number.toNat < count) (hlength : numbers.length = count) :
    (numbers.map UInt64.toNat).Perm (List.range count) := by
  have hmap : (numbers.map UInt64.toNat).Nodup :=
    hnodup.map fun a b hab => UInt64.toNat_inj.mp hab
  have hsub : numbers.map UInt64.toNat ⊆ List.range count := by
    intro n hn
    obtain ⟨number, hnumber, rfl⟩ := List.mem_map.mp hn
    exact List.mem_range.mpr (hlt number hnumber)
  exact (hmap.subperm hsub).perm_of_length_le (by simp [hlength])

/-- The numbers of the batches that were read. -/
theorem fst_of_read {numbers : List UInt64} {openings : List RecordBatchOpening}
    {batches : List (UInt64 × List Bytes)} (hlength : openings.length = numbers.length)
    (h : List.Forall₂ (BatchRead dir segment) (numbers.zip openings) batches) :
    batches.map Prod.fst = numbers := by
  have hnumbers : List.Forall₂ Eq ((numbers.zip openings).map Prod.fst)
      (batches.map Prod.fst) := by
    rw [List.forall₂_map_left_iff, List.forall₂_map_right_iff]
    exact h.imp fun opening batch hread => hread.number.symm
  rw [List.forall₂_eq_eq_eq, List.map_fst_zip hlength.ge] at hnumbers
  exact hnumbers.symm

/-- The records of the openings, in the order of the manifest. -/
theorem records_of_read {numbers : List UInt64} {openings : List RecordBatchOpening}
    {batches : List (UInt64 × List Bytes)} (hlength : openings.length = numbers.length)
    (h : List.Forall₂ (BatchRead dir segment) (numbers.zip openings) batches) :
    (openings.flatMap RecordBatchOpening.records).mapM dir.referencedArtifact
      = .ok (batches.map Prod.snd).flatten := by
  apply Except.mapM_flatMap
  rw [← List.map_snd_zip hlength.le, List.forall₂_map_left_iff, List.forall₂_map_right_iff]
  exact h.imp fun opening batch hread => hread.read

/-- The numbers of all batches, in order. -/
theorem fst_inOrder {batches : List (UInt64 × List Bytes)} {count : Nat}
    (h : ((batches.map Prod.fst).map UInt64.toNat).Perm (List.range count)) :
    (inOrder batches).map Prod.fst = List.range count := by
  have hperm : ((inOrder batches).map Prod.fst).Perm (List.range count) := by
    refine ((List.mergeSort_perm _ _).map Prod.fst).trans ?_
    rw [List.map_map] at h ⊢
    exact h
  refine hperm.eq_of_pairwise (fun a b _ _ => Nat.le_antisymm) ?_
    (List.pairwise_lt_range.imp Nat.le_of_lt)
  rw [List.pairwise_map]
  have hsorted : (inOrder batches).Pairwise fun left right => decide (left.1 ≤ right.1) = true :=
    List.pairwise_mergeSort (by simp; omega) (by simp; omega) _
  exact hsorted.imp of_decide_eq_true

/-- The batch at an index, when all are there. -/
theorem getElem?_inOrder {batches : List (UInt64 × List Bytes)} {count : Nat}
    (h : (inOrder batches).map Prod.fst = List.range count) {i : Nat} {leaves : List Digest}
    (hi : ((inOrder batches).map Prod.snd)[i]? = some leaves) :
    ∃ batch ∈ batches, batch.1.toNat = i
      ∧ leaves = (merkleRootFromRecords batch.2).leafHashes := by
  rw [List.getElem?_map, Option.map_eq_some_iff] at hi
  obtain ⟨⟨n, leaves⟩, hentry, rfl⟩ := hi
  have hn : (List.range count)[i]? = some n := by
    rw [← h, List.getElem?_map, hentry]
    rfl
  obtain rfl : n = i := by
    rw [List.getElem?_eq_some_iff] at hn
    obtain ⟨hlt, hget⟩ := hn
    rw [← hget, List.getElem_range]
  have hmem : (n, leaves) ∈ batches.map sortedBatch :=
    (List.mergeSort_perm _ _).subset (List.mem_of_getElem? hentry)
  obtain ⟨batch, hbatch, heq⟩ := List.mem_map.mp hmem
  exact ⟨batch, hbatch, congrArg Prod.fst heq, (congrArg Prod.snd heq).symm⟩

/-- The leaf hashes in the order of the batches are those of the records. -/
theorem flatten_inOrder_perm (batches : List (UInt64 × List Bytes)) :
    ((inOrder batches).map Prod.snd).flatten.Perm
      ((batches.map Prod.snd).flatten.map (prefixedHash 0)) := by
  have hsort : ((inOrder batches).map Prod.snd).Perm
      (batches.map fun batch => (merkleRootFromRecords batch.2).leafHashes) := by
    refine ((List.mergeSort_perm _ _).map Prod.snd).trans ?_
    rw [List.map_map]
    rfl
  refine hsort.flatten.trans ?_
  rw [List.map_flatten, List.map_map, ← List.flatMap_def, ← List.flatMap_def]
  exact List.Perm.flatMap_left batches fun batch _ => leafHashes_perm batch.2

omit [Sha256] in
/-- What is related to a member of the second list. -/
theorem exists_of_forall₂_right {α β : Type} {r : α → β → Prop} {xs : List α} {ys : List β}
    (h : List.Forall₂ r xs ys) {y : β} (hy : y ∈ ys) : ∃ x ∈ xs, r x y := by
  induction h with
  | nil => cases hy
  | cons hfirst _ ih =>
    rcases List.mem_cons.mp hy with rfl | hlater
    · exact ⟨_, List.mem_cons_self, hfirst⟩
    · obtain ⟨x, hx, hr⟩ := ih hlater
      exact ⟨x, List.mem_cons_of_mem _ hx, hr⟩

/-- Neighbours among all batches follow each other. -/
theorem inOrder_neighbours {batches : List (UInt64 × List Bytes)} {count : Nat}
    (hfst : (inOrder batches).map Prod.fst = List.range count)
    (hordered : ∀ pair ∈ (inOrder batches).zip (inOrder batches).tail,
      outOfOrder pair.1 pair.2 = false) :
    ∀ pair ∈ ((inOrder batches).map Prod.snd).zip ((inOrder batches).map Prod.snd).tail,
      SplitTree.InOrder (fun left right : Digest => left.ble right = true) pair.1 pair.2 := by
  rw [← List.map_tail, List.zip_map]
  rintro pair hpair last hlast first hfirst
  obtain ⟨⟨left, right⟩, hmem, rfl⟩ := List.mem_map.mp hpair
  obtain ⟨i, hi⟩ := List.mem_iff_getElem?.mp hmem
  rw [List.getElem?_zip_eq_some, List.getElem?_tail] at hi
  -- the numbers are consecutive
  have hnumber : ∀ {j : Nat} {entry : Nat × List Digest},
      (inOrder batches)[j]? = some entry → entry.1 = j := by
    intro j entry hentry
    have hj : (List.range count)[j]? = some entry.1 := by
      rw [← hfst, List.getElem?_map, hentry]
      rfl
    obtain ⟨hlt, hget⟩ := List.getElem?_eq_some_iff.mp hj
    rw [← hget, List.getElem_range]
  have hout := hordered (left, right) hmem
  have hnext : left.1 + 1 = right.1 := by rw [hnumber hi.1, hnumber hi.2]
  have hlast : left.2.getLast? = some last := hlast
  have hfirst : right.2.head? = some first := hfirst
  simpa [outOfOrder, hnext, hlast, hfirst] using hout

/-- Batches that recompute and are all there contain the records of the segment. -/
theorem segment_of_recomputed (haligned : Aligned segment)
    {openings : List (UInt64 × RecordBatchOpening)} {batches : List (UInt64 × List Bytes)}
    (hrange : ((batches.map Prod.fst).map UInt64.toNat).Perm
      (List.range segment.batchRoots.length))
    (h : Recomputed dir segment .publicRecompute openings batches) :
    ((inOrder batches).map Prod.snd).flatten
        = (merkleRootFromRecords (batches.map Prod.snd).flatten).leafHashes
      ∧ (batches.map Prod.snd).flatten.length = segment.recordCount.toNat
      ∧ (chunks segment.closurePolicy.batchRecordLimit.toNat
          (merkleRootFromRecords (batches.map Prod.snd).flatten).leafHashes).map mth
        = segment.batchRoots := by
  have hfst := fst_inOrder hrange
  have hcount : ((inOrder batches).map Prod.snd).length = segment.batchRoots.length := by
    have := congrArg List.length hfst
    simpa using this
  -- every piece is a batch that was read
  have hpiece : ∀ {i leaves}, ((inOrder batches).map Prod.snd)[i]? = some leaves →
      leaves.length = chunkLength segment.closurePolicy.batchRecordLimit.toNat
          segment.recordCount.toNat i
        ∧ leaves.Pairwise (fun left right => left.ble right = true)
        ∧ segment.batchRoots[i]? = some (mth leaves) := by
    intro i leaves hi
    obtain ⟨batch, hbatch, rfl, rfl⟩ := getElem?_inOrder hfst hi
    obtain ⟨opening, -, hread⟩ := exists_of_forall₂_right h.read hbatch
    refine ⟨?_, List.pairwise_mergeSort Digest.ble_trans Digest.ble_total _, hread.root⟩
    rw [(leafHashes_perm batch.2).length_eq, List.length_map, hread.length_eq haligned]
  have hmem : ∀ {leaves}, leaves ∈ (inOrder batches).map Prod.snd →
      ∃ i, ((inOrder batches).map Prod.snd)[i]? = some leaves := List.mem_iff_getElem?.mp
  obtain ⟨htotal, hchunks⟩ := chunks_flatten haligned.limit_pos (hcount.trans haligned.count)
    fun i piece hi => (hpiece hi).1
  have hsorted : ((inOrder batches).map Prod.snd).flatten.Pairwise
      fun left right => left.ble right = true := by
    refine pairwise_flatten_of_neighbours Digest.ble_trans ?_ ?_
      (inOrder_neighbours hfst h.ordered)
    · intro piece hp
      obtain ⟨i, hi⟩ := hmem hp
      obtain ⟨hlt, -⟩ := List.getElem?_eq_some_iff.mp hi
      have hpos := chunkLength_pos haligned.limit_pos (i := i)
        (haligned.count ▸ hcount ▸ hlt)
      exact List.ne_nil_of_length_pos ((hpiece hi).1 ▸ hpos)
    · intro piece hp
      obtain ⟨i, hi⟩ := hmem hp
      exact (hpiece hi).2.1
  -- a sorted list with the leaf hashes of the records is their sorted list
  have hleaves : ((inOrder batches).map Prod.snd).flatten
      = (merkleRootFromRecords (batches.map Prod.snd).flatten).leafHashes :=
    ((flatten_inOrder_perm batches).trans (leafHashes_perm _).symm).eq_of_pairwise
      (fun a b _ _ => Digest.ble_antisymm) hsorted
      (List.pairwise_mergeSort Digest.ble_trans Digest.ble_total _)
  refine ⟨hleaves, ?_, ?_⟩
  · rw [← htotal, (flatten_inOrder_perm batches).length_eq, List.length_map]
  · rw [← hleaves, hchunks]
    apply List.ext_getElem?
    intro i
    rw [List.getElem?_map]
    cases hi : ((inOrder batches).map Prod.snd)[i]? with
    | some leaves => exact (hpiece hi).2.2.symm
    | none =>
      rw [List.getElem?_eq_none_iff, hcount] at hi
      exact (List.getElem?_eq_none_iff.mpr hi).symm

omit [Sha256] in
theorem consumedOpenings_zip {numbers : List UInt64} (openings : List RecordBatchOpening) :
    consumedOpenings numbers.toFinset (numbers.zip openings) = numbers.zip openings := by
  unfold consumedOpenings
  rw [List.filter_eq_self]
  intro opening hopening
  simpa using (List.of_mem_zip hopening).1

omit [Sha256] in
theorem consumeFor_public_ne_nothing {policy : VerifyPolicy} {numbers : Finset UInt64} :
    consumeFor manifest segment policy .publicRecompute numbers ≠ .nothing := by
  unfold consumeFor
  dsimp only
  split_ifs <;> simp

omit [Sha256] in
/-- At public scope every opening is consumed, and the class is the one that discloses all. -/
theorem consume_of_consumeFor_public {policy : VerifyPolicy} {numbers consume : Finset UInt64}
    (h : consumeFor manifest segment policy .publicRecompute numbers = .batches consume) :
    manifest.disclosureClass = "A" ∧ consume = numbers := by
  unfold consumeFor at h
  dsimp only at h
  split_ifs at h with hclass
  cases h
  exact ⟨not_not.mp hclass, rfl⟩

/-- Openings in the shape of class `A` are as many as the batch roots, also when there are none. -/
theorem Shaped.length_of_classA (hvalid : segment.validateDetailed = .ok ())
    {numbers : List UInt64} (h : Shaped manifest segment numbers)
    (hclass : manifest.disclosureClass = "A") : numbers.length = segment.batchRoots.length := by
  have hlength := h.numbered.length_eq
  have hshape := h.shape
  unfold shapeValid at hshape
  dsimp only at hshape
  rw [if_pos hclass] at hshape
  split_ifs at hshape with hzero
  · rcases SegmentRecord.roots_of_validateDetailed hvalid with ⟨-, hroots, -⟩ | ⟨hne, -⟩
    · rw [decide_eq_true_eq] at hshape
      rw [hroots, ← hlength, hshape]
      rfl
    · exact absurd hzero hne
  · simp only [Bool.and_eq_true, decide_eq_true_eq] at hshape
    rw [← hlength, hshape.1]

/-- **Public recomputation is sound.** If the check at public scope returns true and finds no
failure, the records read from the openings are as many as the segment has, each is canonical, and
their Merkle tree has the root and the batch roots of the segment. -/
theorem validateDisclosure_public {policy : VerifyPolicy} {conclusions : Conclusions}
    {artifactBytes : Bytes} (hsegment : decodeSegmentRecord artifactBytes = .ok segment)
    (hscope : conclusions.scope = .publicRecompute)
    (htrue : (validateDisclosure dir manifest segment policy conclusions).1 = true)
    (hfailures : disclosureFailures dir manifest segment policy .publicRecompute = ∅) :
    ∃ records : List Bytes,
      (manifest.artifacts.openings.flatMap RecordBatchOpening.records).mapM dir.referencedArtifact
          = .ok records
        ∧ records.length = segment.recordCount.toNat
        ∧ (∀ record ∈ records, ∃ metadata, validateCanonicalRecord record = .ok metadata)
        ∧ (merkleRootFromRecords records).root = segment.segmentRoot
        ∧ batchRootsFromLeafHashes (merkleRootFromRecords records).leafHashes
            segment.closurePolicy.batchRecordLimit = some segment.batchRoots := by
  have hvalid :=
    (SegmentRecord.canonicalCborBytes_eq_ok.mp (decodeSegmentRecord_eq_ok.mp hsegment)).1
  have haligned := aligned_of_validateDetailed hvalid
  obtain ⟨-, -, hpolicy, -, -⟩ := SegmentRecord.validateDetailed_eq_ok hvalid
  obtain ⟨-, hlimit, -, -⟩ := ClosurePolicy.validate_eq_ok.mp hpolicy
  -- the openings are in shape and the batches recompute
  rw [validateDisclosure_adding, hscope] at htrue
  obtain ⟨numbers, hshaped, hconsume⟩ := validateDisclosure_clean.mp ⟨htrue, hfailures⟩
  rcases hconsume with hnothing | ⟨consume, batches, hconsume, hrecomputed⟩
  · exact absurd hnothing consumeFor_public_ne_nothing
  obtain ⟨hclass, rfl⟩ := consume_of_consumeFor_public hconsume
  rw [consumedOpenings_zip] at hrecomputed
  have hopenings := hshaped.numbered.length_eq
  have hnumbers := fst_of_read hopenings hrecomputed.read
  have hrange := perm_range_of_nodup hshaped.numbered.nodup hshaped.numbered.lt
    (hshaped.length_of_classA hvalid hclass)
  -- so their leaves are those of the segment
  obtain ⟨hleaves, hcount, hroots⟩ :=
    segment_of_recomputed haligned (hnumbers ▸ hrange) hrecomputed
  refine ⟨_, records_of_read hopenings hrecomputed.read, hcount, ?_, ?_, ?_⟩
  · intro record hrecord
    obtain ⟨records, hrecords, hmem⟩ := List.mem_flatten.mp hrecord
    obtain ⟨batch, hbatch, rfl⟩ := List.mem_map.mp hrecords
    obtain ⟨opening, -, hread⟩ := exists_of_forall₂_right hrecomputed.read hbatch
    exact hread.canonical record hmem
  · rcases SegmentRecord.roots_of_validateDetailed hvalid with ⟨hzero, -, hroot⟩ | ⟨hne, -⟩
    · -- an empty segment has the root of no records
      rw [hzero] at hcount
      rw [List.length_eq_zero_iff.mp hcount, hroot]
      simp [merkleRootFromRecords, mth]
    · rw [← hrecomputed.root rfl hne, List.flatMap_def, hleaves]
      rfl
  · rw [batchRootsFromLeafHashes, hlimit]
    exact congrArg some hroots

/-- A canonical record of a device. -/
def sampleRecord (device : UInt8) : Bytes :=
  [0x87, 0x01, 0x48, 0, 0, 0, 0, 0, 0, 0, device, 1, 0, 0xf6, 0, 0xf6]

/-- Records in the order of their leaf hashes, sealed in batches of one. -/
def sampleSealed (records : List Bytes) : SegmentRecord :=
  SegmentRecord.atPosition ⟨"b7a1d5e40c6f438e9a75db27c96f31aa", 0, Digest.zero⟩
    { intervalMs := 1000, batchRecordLimit := 1, recordLimit := none, sizeLimitBytes := none
      emptyMode := .emit }
    "manual" (UInt64.ofNat records.length)
    ((chunks 1 (records.map (prefixedHash 0))).map mth) (mth (records.map (prefixedHash 0)))

/-- A manifest of class `A` for the records, the last batch first. -/
def sampleDisclosure (records : List Bytes) : Manifest where
  version := 1
  ledgerId := "b7a1d5e40c6f438e9a75db27c96f31aa"
  segmentNumber := "0"
  commitmentProfileId := commitmentProfileId
  disclosureClass := "A"
  artifacts := {
    segmentCbor := ⟨"segment.cbor", sha256Hex (sampleSealed records).cborBody⟩
    predecessorSegmentCbor := none
    recordBatches := some (records.zipIdx.reverse.map fun (record, i) =>
      ⟨toString i, [⟨sha256Hex record ++ ".cbor", sha256Hex record⟩]⟩)
    tsaReq := none
    tsaTsr := some ⟨"segment.tsr", sha256Hex (sha256Digest (sampleSealed records).cborBody).bytes⟩
    extensions := ∅ }
  tsaStatus := "present"

/-- The files of the manifest. A timestamp response is the digest it was issued for. -/
def sampleFiles (records : List Bytes) : Directory :=
  Std.ExtTreeMap.ofList
    (("segment.cbor", (sampleSealed records).cborBody)
      :: ("segment.tsr", (sha256Digest (sampleSealed records).cborBody).bytes)
      :: records.map fun record => (sha256Hex record ++ ".cbor", record)) compare

/-- A policy with a timestamp authority that selects a scope and the batches to open. -/
def selectingPolicy (scope : VerificationScope) (batches : Finset UInt64) : VerifyPolicy where
  tsaCaFile := some (utf8Bytes "tsa-ca.pem")
  tsaIntermediatesFile := none
  tsaCrlsFile := some (utf8Bytes "tsa-crls.pem")
  tsaPolicyOid := some "1.3.6.1.4.1.55555.1"
  tsaSignerCertSha256 := some Digest.zero
  opensslBinary := utf8Bytes "openssl"
  maxFutureSkew := ⟨0, 0⟩
  verifierPolicyId := some "selecting"
  verifierPolicyArtifact := none
  selectedScope := some scope
  selectedBatches := batches
  requireClaimedScope := false

omit [Sha256] in
/-- The sample records are canonical. -/
theorem sampleRecords_canonical : ∀ record ∈ [sampleRecord 2, sampleRecord 1],
    ∃ metadata, validateCanonicalRecord record = .ok metadata := by
  intro record hrecord
  have htrue : ∀ record ∈ [sampleRecord 2, sampleRecord 1],
      (validateCanonicalRecord record).toOption.any (fun _ => true) = true := by
    decide +kernel
  obtain ⟨metadata, hmetadata, -⟩ := Except.exists_ok_of_any (htrue record hrecord)
  exact ⟨metadata, hmetadata⟩

omit [Sha256] in
/-- They are in the order of their leaf hashes. -/
theorem leafHashes_sampleRecords :
    letI := Sha256.fips
    (merkleRootFromRecords [sampleRecord 2, sampleRecord 1]).leafHashes
      = [sampleRecord 2, sampleRecord 1].map (prefixedHash 0) := by
  let := Sha256.fips
  exact List.mergeSort_of_pairwise (by decide +kernel)

omit [Sha256] in
/-- The segment sealed from them is valid. -/
theorem sampleSealed_valid :
    letI := Sha256.fips
    (sampleSealed [sampleRecord 2, sampleRecord 1]).validateDetailed = .ok () := by
  let := Sha256.fips
  decide +kernel

omit [Sha256] in
/-- Nothing is found against two records in two batches. -/
theorem sampleDisclosure_accepted :
    letI := Sha256.fips
    (validateDisclosure (sampleFiles [sampleRecord 2, sampleRecord 1])
        (sampleDisclosure [sampleRecord 2, sampleRecord 1])
        (sampleSealed [sampleRecord 2, sampleRecord 1]) (selectingPolicy .publicRecompute ∅)
        (Conclusions.new .publicRecompute)).1 = true
      ∧ disclosureFailures (sampleFiles [sampleRecord 2, sampleRecord 1])
          (sampleDisclosure [sampleRecord 2, sampleRecord 1])
          (sampleSealed [sampleRecord 2, sampleRecord 1]) (selectingPolicy .publicRecompute ∅)
          .publicRecompute = ∅ := by
  let := Sha256.fips
  have hshaped : Shaped (sampleDisclosure [sampleRecord 2, sampleRecord 1])
      (sampleSealed [sampleRecord 2, sampleRecord 1]) [1, 0] := by
    refine ⟨⟨by decide +kernel, by decide, ?_⟩, by decide +kernel, by decide +kernel⟩
    exact List.forall_mem_cons.mpr
      ⟨by decide +kernel, List.forall_mem_singleton.mpr (by decide +kernel)⟩
  have hconsumed : consumedOpenings (List.toFinset [1, 0]) (([1, 0] : List UInt64).zip
      (sampleDisclosure [sampleRecord 2, sampleRecord 1]).artifacts.openings)
        = [(1, ⟨"1", [⟨sha256Hex (sampleRecord 1) ++ ".cbor", sha256Hex (sampleRecord 1)⟩]⟩),
          (0, ⟨"0", [⟨sha256Hex (sampleRecord 2) ++ ".cbor", sha256Hex (sampleRecord 2)⟩]⟩)] := by
    rfl
  -- the openings come in the other order
  have horder : inOrder [(1, [sampleRecord 1]), (0, [sampleRecord 2])]
      = [sortedBatch (0, [sampleRecord 2]), sortedBatch (1, [sampleRecord 1])] := by
    simp [inOrder, sortedBatch, List.mergeSort]
  refine validateDisclosure_clean.mpr ⟨[1, 0], hshaped, .inr
    ⟨_, [(1, [sampleRecord 1]), (0, [sampleRecord 2])], rfl, ?_, ?_, ?_⟩⟩
  · rw [hconsumed]
    refine .cons ⟨rfl, ?_, ?_, ?_, ?_⟩ (.cons ⟨rfl, ?_, ?_, ?_, ?_⟩ .nil)
    · decide +kernel
    · exact fun record hrecord => sampleRecords_canonical record (List.mem_cons_of_mem _ hrecord)
    · decide +kernel
    · decide +kernel
    · decide +kernel
    · simpa using sampleRecords_canonical (sampleRecord 2) List.mem_cons_self
    · decide +kernel
    · decide +kernel
  · rw [horder]
    decide +kernel
  · intro _ _
    rw [horder]
    simp [sortedBatch, merkleRootFromRecords, sampleSealed, SegmentRecord.atPosition]

omit [Sha256] in
/-- Two records in two batches, the last batch first. -/
theorem validateDisclosure_public_sample :
    letI := Sha256.fips
    ∃ records : List Bytes,
      ((sampleDisclosure [sampleRecord 2, sampleRecord 1]).artifacts.openings.flatMap
          RecordBatchOpening.records).mapM
          (Directory.referencedArtifact (sampleFiles [sampleRecord 2, sampleRecord 1]))
          = .ok records
        ∧ records.length = 2
        ∧ (∀ record ∈ records, ∃ metadata, validateCanonicalRecord record = .ok metadata)
        ∧ (merkleRootFromRecords records).root
          = (sampleSealed [sampleRecord 2, sampleRecord 1]).segmentRoot
        ∧ batchRootsFromLeafHashes (merkleRootFromRecords records).leafHashes 1
            = some (sampleSealed [sampleRecord 2, sampleRecord 1]).batchRoots := by
  let := Sha256.fips
  obtain ⟨htrue, hfailures⟩ := sampleDisclosure_accepted
  exact validateDisclosure_public (decodeSegmentRecord_cborBody sampleSealed_valid) rfl htrue
    hfailures

/-! ## Disclosed batches -/

/-- A segment with the root, the batch roots and the count of a record list. -/
structure SealedFrom (segment : SegmentRecord) (records : List Bytes) : Prop where
  count : UInt64.ofNat? records.length = some segment.recordCount
  root : (merkleRootFromRecords records).root = segment.segmentRoot
  batchRoots : batchRootsFromLeafHashes (merkleRootFromRecords records).leafHashes
    segment.closurePolicy.batchRecordLimit = some segment.batchRoots

/-- The records in batches: sorted by their leaf hashes and cut at the limit. -/
def sealedBatches (records : List Bytes) (limit : Nat) : List (List Bytes) :=
  chunks limit (records.mergeSort fun left right =>
    (prefixedHash 0 left).ble (prefixedHash 0 right))

/-- The byte strings hashed when a record list is sealed: for the segment root and for the batch
roots. -/
def sealingInputs (records : List Bytes) (limit : Nat) : List Bytes :=
  hashedInputs records
    ++ (chunks limit (merkleRootFromRecords records).leafHashes).flatMap mthInputs

/-- The leaf hashes of the batches are the aligned chunks of the sorted leaf list. -/
theorem map_sealedBatches {limit : Nat} (hlimit : 0 < limit) (records : List Bytes) :
    (sealedBatches records limit).map (List.map (prefixedHash 0))
      = chunks limit (merkleRootFromRecords records).leafHashes := by
  have hsort : (records.mergeSort fun left right =>
      (prefixedHash 0 left).ble (prefixedHash 0 right)).map (prefixedHash 0)
        = (merkleRootFromRecords records).leafHashes :=
    List.map_mergeSort fun _ _ _ _ => rfl
  rw [sealedBatches, ← chunks_map hlimit, hsort]

/-- The roots of a sealed segment, chunk by chunk. -/
theorem SealedFrom.roots {records : List Bytes} (h : SealedFrom segment records) :
    0 < segment.closurePolicy.batchRecordLimit.toNat
      ∧ segment.batchRoots = (chunks segment.closurePolicy.batchRecordLimit.toNat
        (merkleRootFromRecords records).leafHashes).map mth := by
  have hroots := h.batchRoots
  unfold batchRootsFromLeafHashes at hroots
  cases hlimit : ClosurePolicy.validateBatchRecordLimit segment.closurePolicy.batchRecordLimit with
  | error error => simp [hlimit] at hroots
  | ok u =>
    obtain ⟨j, -, hpow⟩ := ClosurePolicy.validateBatchRecordLimit_eq_ok.mp hlimit
    rw [hlimit] at hroots
    exact ⟨hpow ▸ Nat.two_pow_pos j, (Option.some.inj hroots).symm⟩

/-- Two record lists, one of them a batch of a longer list: one root means the same records, or the
hash collides. -/
theorem perm_batch_or_collides {limit : Nat} (hlimit : 0 < limit) {records read chunk : List Bytes}
    {i : Nat} (hchunk : (sealedBatches records limit)[i]? = some chunk) (hread : read ≠ [])
    (hroot : (merkleRootFromRecords read).root = mth (chunk.map (prefixedHash 0))) :
    read.Perm chunk
      ∨ Collides sha256Digest (hashedInputs read ++ sealingInputs records limit) := by
  have hleaves : (chunks limit (merkleRootFromRecords records).leafHashes)[i]?
      = some (chunk.map (prefixedHash 0)) := by
    rw [← map_sealedBatches hlimit, List.getElem?_map, hchunk]
    rfl
  have hsub : chunk ⊆ records := by
    intro record hrecord
    have hmem : record ∈ (sealedBatches records limit).flatten :=
      List.mem_flatten.mpr ⟨chunk, List.mem_of_getElem? hchunk, hrecord⟩
    rw [sealedBatches, flatten_chunks hlimit] at hmem
    exact (List.mergeSort_perm _ _).subset hmem
  have hne : (merkleRootFromRecords read).leafHashes ≠ [] := by rwa [ne_eq, leafHashes_eq_nil]
  have hne' : chunk.map (prefixedHash 0) ≠ [] := ne_nil_of_getElem?_chunks hlimit hleaves
  have hnodes : mthInputs (chunk.map (prefixedHash 0)) ⊆ sealingInputs records limit := by
    refine List.Subset.trans ?_ (List.subset_append_right _ _)
    exact fun x hx => List.mem_flatMap.mpr ⟨_, List.mem_of_getElem? hleaves, hx⟩
  have htagged : (chunk.map fun record => 0 :: record) ⊆ sealingInputs records limit := by
    refine List.Subset.trans (List.map_subset _ hsub) ?_
    exact List.Subset.trans (List.subset_append_left _ _) (List.subset_append_left _ _)
  -- the leaf lists agree, and then the records do
  rcases fold_injective_or_collides sha256Digest nodePreimage (sha256Digest [])
      (fun _ _ _ _ => nodePreimage_inj) _ _ _ _ rfl hne hne'
      (separated_leafHashes (List.subset_append_left read chunk))
      (separated_of_subset (List.map_subset _ (List.subset_append_right read chunk))) hroot
    with hequal | hcollides
  · have hmap : (read.map fun record => sha256Digest (0 :: record)).Perm
        (chunk.map fun record => sha256Digest (0 :: record)) :=
      (leafHashes_perm read).symm.trans (hequal ▸ List.Perm.refl _)
    rcases perm_of_map_perm_or_collides (fun x y he => (List.cons.inj he).2) read chunk hmap
      with hperm | hcollides
    · exact .inl hperm
    · refine .inr (hcollides.mono (List.append_subset.mpr ⟨?_, ?_⟩))
      · exact List.Subset.trans (List.subset_append_left _ _) (List.subset_append_left _ _)
      · exact List.Subset.trans htagged (List.subset_append_right _ _)
  · rw [mthInputs, if_neg hne'] at hnodes
    refine .inr (hcollides.mono ?_)
    rw [List.map_append, List.append_subset, List.append_subset, List.append_subset]
    refine ⟨⟨?_, ?_⟩, ?_, ?_⟩
    · exact List.Subset.trans (List.subset_append_left _ _) (List.subset_append_left _ _)
    · exact List.Subset.trans htagged (List.subset_append_right _ _)
    · rw [hashedInputs, mthInputs, if_neg hne]
      exact List.Subset.trans (List.subset_append_right _ _) (List.subset_append_left _ _)
    · exact List.Subset.trans hnodes (List.subset_append_right _ _)

theorem SealedFrom.aligned {records : List Bytes} (h : SealedFrom segment records) :
    Aligned segment := by
  obtain ⟨hlimit, hroots⟩ := h.roots
  refine ⟨hlimit, ?_⟩
  rw [hroots, List.length_map, length_chunks_eq hlimit, (leafHashes_perm records).length_eq,
    List.length_map, UInt64.ofNat?_eq_some.mp h.count]

omit [Sha256] in
theorem consumeFor_disclosed_ne_nothing {policy : VerifyPolicy} {numbers : Finset UInt64} :
    consumeFor manifest segment policy .disclosedBatchRecompute numbers ≠ .nothing := by
  unfold consumeFor
  dsimp only
  split_ifs <;> simp

omit [Sha256] in
/-- Only batches with an opening are consumed. -/
theorem consume_subset_of_consumeFor {policy : VerifyPolicy} {scope : VerificationScope}
    {numbers consume : Finset UInt64}
    (h : consumeFor manifest segment policy scope numbers = .batches consume) :
    consume ⊆ numbers := by
  unfold consumeFor at h
  cases scope with
  | anchorOnly => cases h
  | publicRecompute =>
    dsimp only at h
    split_ifs at h
    cases h
    exact Finset.Subset.refl _
  | disclosedBatchRecompute =>
    dsimp only at h
    split_ifs at h with hrefused hclass hselected hselected
    · cases h
      rw [not_or, not_or, not_not] at hselected
      exact hselected.2.2
    · cases h
      exact Finset.Subset.refl _

/-- The records read for an opening whose number is consumed. -/
theorem Recomputed.read_of_mem {scope : VerificationScope} {numbers : List UInt64}
    {consume : Finset UInt64} {openings : List RecordBatchOpening}
    {batches : List (UInt64 × List Bytes)}
    (h : Recomputed dir segment scope (consumedOpenings consume (numbers.zip openings)) batches)
    (hnumbered : Numbered segment.batchRoots.length openings numbers) {opening : RecordBatchOpening}
    (hopening : opening ∈ openings) {number : UInt64} (hnumber : number ∈ consume)
    (hparse : parseUint64 opening.batchNumber = some number) :
    ∃ records, BatchRead dir segment (number, opening) (number, records) := by
  have hpair : (number, opening) ∈ consumedOpenings consume (numbers.zip openings) :=
    List.mem_filter.mpr ⟨hnumbered.mem_zip.mpr ⟨hopening, hparse⟩, decide_eq_true hnumber⟩
  obtain ⟨⟨found, records⟩, -, hread⟩ := exists_of_forall₂_right h.read.flip hpair
  obtain rfl : found = number := hread.number
  exact ⟨records, hread⟩

omit [Sha256] in
/-- A number that is consumed has an opening. -/
theorem exists_opening {numbers : List UInt64} {consume : Finset UInt64}
    {openings : List RecordBatchOpening}
    (hnumbered : Numbered segment.batchRoots.length openings numbers)
    (hsub : consume ⊆ numbers.toFinset) {number : UInt64} (hnumber : number ∈ consume) :
    ∃ opening ∈ openings, parseUint64 opening.batchNumber = some number := by
  have hmem : number ∈ numbers := List.mem_toFinset.mp (hsub hnumber)
  rw [← List.map_fst_zip hnumbered.length_eq.ge] at hmem
  obtain ⟨⟨_, opening⟩, hpair, rfl⟩ := List.mem_map.mp hmem
  exact ⟨opening, hnumbered.mem_zip.mp hpair⟩

/-- **A disclosed batch cannot be forged.** If the check at the scope of disclosed batches returns
true and finds no failure on a segment sealed from a record list, every consumed batch has an
opening, and the records read for it are those of the batch in the list, with their multiplicities,
unless two different byte strings hashed on the way collide. -/
theorem validateDisclosure_disclosed {policy : VerifyPolicy} {conclusions : Conclusions}
    {records : List Bytes} (hsealed : SealedFrom segment records)
    (hscope : conclusions.scope = .disclosedBatchRecompute)
    (htrue : (validateDisclosure dir manifest segment policy conclusions).1 = true)
    (hfailures : disclosureFailures dir manifest segment policy .disclosedBatchRecompute = ∅) :
    ∃ consume, consumeFor manifest segment policy .disclosedBatchRecompute
        (indexOpenings segment.batchRoots.length conclusions
          manifest.artifacts.openings).numbers = .batches consume
      ∧ (∀ number ∈ consume, ∃ opening ∈ manifest.artifacts.openings,
          parseUint64 opening.batchNumber = some number)
      ∧ ∀ opening ∈ manifest.artifacts.openings, ∀ number ∈ consume,
          parseUint64 opening.batchNumber = some number →
          ∃ read chunk : List Bytes, opening.records.mapM dir.referencedArtifact = .ok read
            ∧ (sealedBatches records
                segment.closurePolicy.batchRecordLimit.toNat)[number.toNat]? = some chunk
            ∧ (chunks segment.closurePolicy.batchRecordLimit.toNat
                (merkleRootFromRecords records).leafHashes)[number.toNat]?
              = some (chunk.map (prefixedHash 0))
            ∧ (read.Perm chunk ∨ Collides sha256Digest (hashedInputs read
                ++ sealingInputs records segment.closurePolicy.batchRecordLimit.toNat)) := by
  obtain ⟨hlimit, hroots⟩ := hsealed.roots
  rw [validateDisclosure_adding, hscope] at htrue
  obtain ⟨numbers, hshaped, hconsume⟩ := validateDisclosure_clean.mp ⟨htrue, hfailures⟩
  rcases hconsume with hnothing | ⟨consume, batches, hconsume, hrecomputed⟩
  · exact absurd hnothing consumeFor_disclosed_ne_nothing
  rw [indexOpenings_of_numbered hshaped.numbered]
  refine ⟨consume, hconsume, ?_, ?_⟩
  · intro number hnumber
    exact exists_opening hshaped.numbered (consume_subset_of_consumeFor hconsume) hnumber
  · intro opening hopening number hnumber hparse
    obtain ⟨read, hread⟩ :=
      hrecomputed.read_of_mem hshaped.numbered hopening hnumber hparse
    -- the stored root is the root of the chunk
    have hroot := hread.root
    rw [hroots, List.getElem?_map, ← map_sealedBatches hlimit, List.getElem?_map,
      Option.map_map, Option.map_eq_some_iff] at hroot
    obtain ⟨chunk, hchunk, hroot⟩ := hroot
    have hne : read ≠ [] := by
      apply List.ne_nil_of_length_pos
      rw [hread.length_eq hsealed.aligned]
      exact chunkLength_pos hlimit (hsealed.aligned.count ▸ hread.number_lt)
    refine ⟨read, chunk, hread.read, hchunk, ?_, ?_⟩
    · rw [← map_sealedBatches hlimit, List.getElem?_map, hchunk]
      rfl
    · exact perm_batch_or_collides hlimit hchunk hne hroot.symm

omit [Sha256] in
/-- One of two batches is selected. -/
theorem validateDisclosure_disclosed_sample :
    letI := Sha256.fips
    ∃ consume, consumeFor (sampleDisclosure [sampleRecord 2, sampleRecord 1])
        (sampleSealed [sampleRecord 2, sampleRecord 1])
        (selectingPolicy .disclosedBatchRecompute {1}) .disclosedBatchRecompute
        (indexOpenings (sampleSealed [sampleRecord 2, sampleRecord 1]).batchRoots.length
          (Conclusions.new .disclosedBatchRecompute)
          (sampleDisclosure [sampleRecord 2, sampleRecord 1]).artifacts.openings).numbers
        = .batches consume
      ∧ ∀ opening ∈ (sampleDisclosure [sampleRecord 2, sampleRecord 1]).artifacts.openings,
          ∀ number ∈ consume, parseUint64 opening.batchNumber = some number →
          ∃ read chunk : List Bytes, opening.records.mapM (Directory.referencedArtifact
                (sampleFiles [sampleRecord 2, sampleRecord 1])) = .ok read
              ∧ (sealedBatches [sampleRecord 2, sampleRecord 1] 1)[number.toNat]? = some chunk
              ∧ (read.Perm chunk ∨ Collides sha256Digest
                (hashedInputs read ++ sealingInputs [sampleRecord 2, sampleRecord 1] 1)) := by
  let := Sha256.fips
  have hsealed : SealedFrom (sampleSealed [sampleRecord 2, sampleRecord 1])
      [sampleRecord 2, sampleRecord 1] := by
    refine ⟨rfl, congrArg mth leafHashes_sampleRecords, ?_⟩
    rw [leafHashes_sampleRecords]
    rfl
  have haccepted : (validateDisclosure (sampleFiles [sampleRecord 2, sampleRecord 1])
      (sampleDisclosure [sampleRecord 2, sampleRecord 1])
      (sampleSealed [sampleRecord 2, sampleRecord 1])
      (selectingPolicy .disclosedBatchRecompute {1})
      (Conclusions.new .disclosedBatchRecompute)).1 = true
        ∧ disclosureFailures (sampleFiles [sampleRecord 2, sampleRecord 1])
          (sampleDisclosure [sampleRecord 2, sampleRecord 1])
          (sampleSealed [sampleRecord 2, sampleRecord 1])
          (selectingPolicy .disclosedBatchRecompute {1}) .disclosedBatchRecompute = ∅ := by
    decide +kernel
  obtain ⟨consume, hconsume, -, hopenings⟩ :=
    validateDisclosure_disclosed hsealed rfl haccepted.1 haccepted.2
  refine ⟨consume, hconsume, fun opening hopening number hnumber hparse => ?_⟩
  obtain ⟨read, chunk, hread, hchunk, -, hbinding⟩ :=
    hopenings opening hopening number hnumber hparse
  exact ⟨read, chunk, hread, hchunk, hbinding⟩

end

end TrackOne.Evidence
