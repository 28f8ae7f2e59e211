import TrackOne.Lib.AlignedChunks
import TrackOne.Evidence.Disclosure

/-!
# What an accepted disclosure contains

The two loops of `validate_disclosure` collect failures and go on. This file says what they have
read when they collected none.

* `validateDisclosure_adding`: the check does not look at the failures recorded before it, so that
  what it adds is what it finds on its own (`disclosureFailures`).
* `Numbered` and `BatchRead` describe a round of each loop that records no failure; both are proved
  in the two directions, so that the exporter's side can use them as well.
* `validateDisclosure_clean`: the check returns true and finds nothing exactly when the openings are
  in shape and the batches that the scope consumes recompute.
-/

namespace TrackOne.Evidence

open SplitTree

/-! ## Failures are only added -/

namespace Conclusions

/-- The conclusions with further failures. -/
def adding (conclusions : Conclusions) (failures : Finset FailureReason) : Conclusions :=
  { conclusions with failures := conclusions.failures ∪ failures }

@[simp] theorem adding_empty (conclusions : Conclusions) : conclusions.adding ∅ = conclusions := by
  simp [adding]

/-- Failures add up. -/
theorem fail_adding (conclusions : Conclusions) (failures : Finset FailureReason)
    (reason : FailureReason) :
    (conclusions.adding failures).fail reason = conclusions.adding (insert reason failures) := by
  simp [adding, fail]

theorem failIf_adding (conclusions fresh : Conclusions) (condition : Bool)
    (reason : FailureReason) :
    (conclusions.adding fresh.failures).failIf condition reason
      = conclusions.adding (fresh.failIf condition reason).failures := by
  unfold failIf
  split_ifs
  · exact fail_adding conclusions fresh.failures reason
  · rfl

end Conclusions

section

variable [Sha256] {dir : Directory} {manifest : Manifest} {segment : SegmentRecord}

omit [Sha256] in
/-- The first loop from other conclusions. -/
theorem indexOpenings_adding (batchCount : Nat) (conclusions fresh : Conclusions)
    (hfresh : fresh.failures = ∅) (openings : List RecordBatchOpening) :
    indexOpenings batchCount conclusions openings
      = { indexOpenings batchCount fresh openings with
          conclusions := conclusions.adding
            (indexOpenings batchCount fresh openings).conclusions.failures } := by
  unfold indexOpenings
  refine List.foldl_rel (r := fun state state₀ : Indexed =>
    state = { state₀ with conclusions := conclusions.adding state₀.conclusions.failures }) ?_ ?_
  · simp [hfresh]
  · rintro opening - _ state₀ rfl
    unfold indexOpening
    cases parseUint64 opening.batchNumber with
    | none => simp only [Conclusions.fail_adding]; rfl
    | some number =>
      dsimp only
      split_ifs
      · simp only [Conclusions.fail_adding]; rfl
      · rfl

/-- Opening a batch adds its failures to those before. -/
theorem openBatch_adding (conclusions : Conclusions) (state₀ : Opened) (number : UInt64)
    (opening : RecordBatchOpening) :
    openBatch dir segment
        { state₀ with conclusions := conclusions.adding state₀.conclusions.failures } number opening
      = { openBatch dir segment state₀ number opening with
          conclusions := conclusions.adding
            (openBatch dir segment state₀ number opening).conclusions.failures } := by
  unfold openBatch
  cases openingLeaves dir opening with
  | error error => cases error <;> (simp only [Conclusions.fail_adding]; rfl)
  | ok result =>
    obtain ⟨leaves, pending⟩ := result
    dsimp only
    split_ifs
    · simp only [Conclusions.fail_adding]; rfl
    · -- the failures of the records, then the comparison with the root
      have hpending : { conclusions.adding state₀.conclusions.failures with
            failures := (conclusions.adding state₀.conclusions.failures).failures ∪ pending }
          = conclusions.adding
            ({ state₀.conclusions with
              failures := state₀.conclusions.failures ∪ pending } : Conclusions).failures := by
        simp [Conclusions.adding, Finset.union_assoc]
      rw [hpending, Conclusions.failIf_adding]

/-- The second loop from other conclusions. -/
theorem openBatches_adding (consume : Finset UInt64) (conclusions fresh : Conclusions)
    (failures : Finset FailureReason) (hfresh : fresh.failures = failures)
    (openings : List (UInt64 × RecordBatchOpening)) :
    openBatches dir segment consume (conclusions.adding failures) openings
      = { openBatches dir segment consume fresh openings with
          conclusions := conclusions.adding
            (openBatches dir segment consume fresh openings).conclusions.failures } := by
  unfold openBatches
  refine List.foldl_rel (r := fun state state₀ : Opened =>
    state = { state₀ with conclusions := conclusions.adding state₀.conclusions.failures }) ?_ ?_
  · rw [hfresh]
  · rintro ⟨number, opening⟩ - _ state₀ rfl
    dsimp only
    split_ifs
    · exact openBatch_adding conclusions state₀ number opening
    · rfl

/-- Comparing the batches adds its failures to those before. -/
theorem compareOpened_adding (scope : VerificationScope) (conclusions : Conclusions)
    (state₀ : Opened) :
    compareOpened segment scope
        { state₀ with conclusions := conclusions.adding state₀.conclusions.failures }
      = conclusions.adding (compareOpened segment scope state₀).failures := by
  unfold compareOpened
  simp only [Conclusions.failIf_adding]

variable (dir manifest segment) in
/-- The failures the disclosure check finds at a scope. -/
def disclosureFailures (policy : VerifyPolicy) (scope : VerificationScope) :
    Finset FailureReason :=
  (validateDisclosure dir manifest segment policy (Conclusions.new scope)).2.failures

/-- The check answers the same from any conclusions, and adds what it finds to them. -/
theorem validateDisclosure_adding (policy : VerifyPolicy) (conclusions : Conclusions) :
    validateDisclosure dir manifest segment policy conclusions
      = ((validateDisclosure dir manifest segment policy (Conclusions.new conclusions.scope)).1,
        conclusions.adding
          (disclosureFailures dir manifest segment policy conclusions.scope)) := by
  have hindexed := indexOpenings_adding segment.batchRoots.length conclusions
    (Conclusions.new conclusions.scope) rfl manifest.artifacts.openings
  have hscope : (Conclusions.new conclusions.scope).scope = conclusions.scope := rfl
  unfold disclosureFailures validateDisclosure
  rw [hindexed, hscope]
  dsimp only
  split_ifs
  · rw [Conclusions.fail_adding]; rfl
  · rw [Conclusions.fail_adding]; rfl
  · cases consumeFor manifest segment policy conclusions.scope _ with
    | nothing => rfl
    | refused => dsimp only; rw [Conclusions.fail_adding]; rfl
    | batches consume =>
      dsimp only
      rw [openBatches_adding consume conclusions _ _ rfl, compareOpened_adding]

/-! ## The first loop -/

/-- The openings have numbers of batches, each its own. -/
structure Numbered (batchCount : Nat) (openings : List RecordBatchOpening)
    (numbers : List UInt64) : Prop where
  parsed : openings.map (fun opening => parseUint64 opening.batchNumber) = numbers.map some
  nodup : numbers.Nodup
  lt : ∀ number ∈ numbers, number.toNat < batchCount

omit [Sha256] in
theorem Numbered.length_eq {batchCount : Nat} {openings : List RecordBatchOpening}
    {numbers : List UInt64} (h : Numbered batchCount openings numbers) :
    openings.length = numbers.length := by
  simpa using congrArg List.length h.parsed

omit [Sha256] in
/-- An opening stands with its number. -/
theorem Numbered.mem_zip {batchCount : Nat} {openings : List RecordBatchOpening}
    {numbers : List UInt64} (h : Numbered batchCount openings numbers) {number : UInt64}
    {opening : RecordBatchOpening} :
    (number, opening) ∈ numbers.zip openings
      ↔ opening ∈ openings ∧ parseUint64 opening.batchNumber = some number := by
  have hparsed : ∀ i : Nat,
      openings[i]?.map (fun opening : RecordBatchOpening => parseUint64 opening.batchNumber)
        = numbers[i]?.map some := by
    intro i
    rw [← List.getElem?_map, ← List.getElem?_map, h.parsed]
  constructor
  · intro hmem
    obtain ⟨i, hi⟩ := List.mem_iff_getElem?.mp hmem
    obtain ⟨hnumber, hopening⟩ := List.getElem?_zip_eq_some.mp hi
    refine ⟨List.mem_of_getElem? hopening, ?_⟩
    simpa [hnumber, hopening] using hparsed i
  · rintro ⟨hopening, hnumber⟩
    obtain ⟨i, hi⟩ := List.mem_iff_getElem?.mp hopening
    have hat := hparsed i
    rw [hi, Option.map_some, hnumber, eq_comm, Option.map_eq_some_iff] at hat
    obtain ⟨found, hfound, heq⟩ := hat
    cases heq
    exact List.mem_of_getElem? (List.getElem?_zip_eq_some.mpr ⟨hfound, hi⟩)

omit [Sha256] in
/-- The openings are indexed one after the other. -/
theorem indexOpenings_append_singleton (batchCount : Nat) (conclusions : Conclusions)
    (openings : List RecordBatchOpening) (opening : RecordBatchOpening) :
    indexOpenings batchCount conclusions (openings ++ [opening])
      = indexOpening batchCount (indexOpenings batchCount conclusions openings) opening := by
  simp only [indexOpenings, List.foldl_append, List.foldl_cons, List.foldl_nil]

omit [Sha256] in
/-- The last number belongs to the last opening, and is a new one. -/
theorem numbered_concat {batchCount : Nat} {openings : List RecordBatchOpening}
    {opening : RecordBatchOpening} {numbers : List UInt64} :
    Numbered batchCount (openings ++ [opening]) numbers
      ↔ ∃ front number, numbers = front ++ [number] ∧ Numbered batchCount openings front
        ∧ parseUint64 opening.batchNumber = some number ∧ number ∉ front
        ∧ number.toNat < batchCount := by
  constructor
  · rintro ⟨hparsed, hnodup, hlt⟩
    rw [List.map_append, List.map_singleton, eq_comm, List.map_eq_append_iff] at hparsed
    obtain ⟨front, last, rfl, hfront, hlast⟩ := hparsed
    obtain ⟨number, rfl, hnumber⟩ := List.map_eq_singleton_iff.mp hlast
    obtain ⟨hnodupFront, -, hfresh⟩ := List.nodup_append.mp hnodup
    refine ⟨front, number, rfl, ⟨hfront.symm, hnodupFront, ?_⟩, hnumber.symm, ?_, ?_⟩
    · exact fun n hn => hlt n (List.mem_append_left _ hn)
    · exact fun hmem => hfresh number hmem number (by simp) rfl
    · exact hlt number (by simp)
  · rintro ⟨front, number, rfl, hnumbers, hparse, hfresh, hbound⟩
    refine ⟨?_, ?_, ?_⟩
    · simp [hnumbers.parsed, hparse]
    · rw [List.nodup_append]
      refine ⟨hnumbers.nodup, List.nodup_singleton _, ?_⟩
      rintro a ha b hb rfl
      exact hfresh (List.mem_singleton.mp hb ▸ ha)
    · intro n hn
      rcases List.mem_append.mp hn with hfront | hlast
      · exact hnumbers.lt n hfront
      · exact List.mem_singleton.mp hlast ▸ hbound

omit [Sha256] in
/-- The first loop on openings that are numbered keeps them all. -/
theorem indexOpenings_of_numbered {batchCount : Nat} {openings : List RecordBatchOpening}
    {numbers : List UInt64} (h : Numbered batchCount openings numbers)
    (conclusions : Conclusions) :
    indexOpenings batchCount conclusions openings
      = ⟨numbers.toFinset, numbers.zip openings, conclusions⟩ := by
  induction openings using List.reverseRecOn generalizing numbers with
  | nil =>
    obtain rfl : numbers = [] := List.length_eq_zero_iff.mp h.length_eq.symm
    rfl
  | append_singleton openings opening ih =>
    obtain ⟨front, number, rfl, hnumbered, hnumber, hnotMem, hbound⟩ := numbered_concat.mp h
    rw [indexOpenings_append_singleton, ih hnumbered, indexOpening, hnumber]
    dsimp only
    rw [if_neg (by simp [hnotMem]; omega), List.zip_append hnumbered.length_eq.symm]
    have hset : insert number front.toFinset = (front ++ [number]).toFinset := by
      ext n
      simp
    rw [hset]
    rfl

omit [Sha256] in
/-- A first loop without a failure has numbered the openings. -/
theorem numbered_of_indexOpenings {batchCount : Nat} {conclusions : Conclusions}
    {openings : List RecordBatchOpening}
    (h : (indexOpenings batchCount conclusions openings).conclusions.failures = ∅) :
    ∃ numbers, Numbered batchCount openings numbers := by
  induction openings using List.reverseRecOn with
  | nil => exact ⟨[], rfl, List.nodup_nil, by simp⟩
  | append_singleton openings opening ih =>
    rw [indexOpenings_append_singleton] at h
    have hbefore : (indexOpenings batchCount conclusions openings).conclusions.failures = ∅ :=
      Finset.subset_empty.mp (h ▸ failures_subset_indexOpening batchCount _ opening)
    obtain ⟨numbers, hnumbers⟩ := ih hbefore
    rw [indexOpenings_of_numbered hnumbers, indexOpening] at h
    -- only the branch that keeps the opening records no failure
    cases hparse : parseUint64 opening.batchNumber with
    | none => simp [hparse, Conclusions.fail] at h
    | some number =>
      rw [hparse] at h
      dsimp only at h
      split_ifs at h with hbad
      · simp [Conclusions.fail] at h
      · simp only [not_or, not_le, List.mem_toFinset] at hbad
        exact ⟨numbers ++ [number], numbered_concat.mpr
          ⟨numbers, number, rfl, hnumbers, hparse, hbad.2, hbad.1⟩⟩

/-! ## The second loop -/

variable (dir segment) in
/-- The records of an opened batch: read with the digests of their references, canonical, as many
as the segment commits to, with the root the segment stores. -/
structure BatchRead (opening : UInt64 × RecordBatchOpening) (batch : UInt64 × List Bytes) :
    Prop where
  number : batch.1 = opening.1
  read : opening.2.records.mapM dir.referencedArtifact = .ok batch.2
  canonical : ∀ record ∈ batch.2, ∃ metadata, validateCanonicalRecord record = .ok metadata
  count : UInt64.ofNat? batch.2.length
    = expectedOpeningCount segment segment.batchRoots.length batch.1
  root : segment.batchRoots[batch.1.toNat]? = some (merkleRootFromRecords batch.2).root

/-- The leaf hashes the second loop keeps for a batch. -/
def sortedBatch (batch : UInt64 × List Bytes) : Nat × List Digest :=
  (batch.1.toNat, (merkleRootFromRecords batch.2).leafHashes)

omit [Sha256] in
/-- A record fails in no way when it is canonical. -/
theorem recordFailure_eq_none {record : Bytes} :
    recordFailure record = none ↔ ∃ metadata, validateCanonicalRecord record = .ok metadata := by
  unfold recordFailure
  cases validateCanonicalRecord record with
  | ok metadata => simp
  | error error => cases error <;> simp

/-- The leaves of an opening are those of its records, and its failures those of the records that
are not canonical. -/
theorem openingLeaves_eq_ok {opening : RecordBatchOpening} {leaves : List Digest}
    {pending : Finset FailureReason} :
    openingLeaves dir opening = .ok (leaves, pending)
      ↔ ∃ records, opening.records.mapM dir.referencedArtifact = .ok records
        ∧ records.map (prefixedHash 0) = leaves
        ∧ (records.filterMap recordFailure).toFinset = pending := by
  unfold openingLeaves
  simp only [Except.bind_eq_ok, pure, Except.pure, Except.ok.injEq, Prod.mk.injEq]

/-- A round on a batch that can be read keeps its leaf hashes and records no failure. -/
theorem openBatch_of_read {opening : UInt64 × RecordBatchOpening} {batch : UInt64 × List Bytes}
    (h : BatchRead dir segment opening batch) (state : Opened) :
    openBatch dir segment state opening.1 opening.2
      = ⟨state.batches ++ [sortedBatch batch], state.conclusions⟩ := by
  obtain ⟨hnumber, hread, hcanonical, hcount, hroot⟩ := h
  rw [hnumber] at hcount hroot
  have hpending : (batch.2.filterMap recordFailure).toFinset = ∅ := by
    rw [List.toFinset_eq_empty_iff, List.filterMap_eq_nil_iff]
    exact fun record hr => recordFailure_eq_none.mpr (hcanonical record hr)
  have hleaves : openingLeaves dir opening.2 = .ok (batch.2.map (prefixedHash 0), ∅) :=
    openingLeaves_eq_ok.mpr ⟨batch.2, hread, rfl, hpending⟩
  unfold openBatch
  rw [hleaves]
  dsimp only
  rw [List.length_map, if_neg (not_not.mpr hcount), hroot, Finset.union_empty]
  simp [Conclusions.failIf, sortedBatch, merkleRootFromRecords, merkleRootFromLeafHashes, hnumber]

/-- A round that ends without a failure has read its batch. -/
theorem read_of_openBatch {state : Opened} {opening : UInt64 × RecordBatchOpening}
    (h : (openBatch dir segment state opening.1 opening.2).conclusions.failures = ∅) :
    ∃ batch, BatchRead dir segment opening batch := by
  unfold openBatch at h
  cases hleaves : openingLeaves dir opening.2 with
  | error error =>
    rw [hleaves] at h
    cases error <;> simp [Conclusions.fail] at h
  | ok result =>
    obtain ⟨leaves, pending⟩ := result
    obtain ⟨records, hread, rfl, rfl⟩ := openingLeaves_eq_ok.mp hleaves
    rw [hleaves] at h
    dsimp only at h
    split_ifs at h with hcount
    · simp [Conclusions.fail] at h
    · rw [not_not, List.length_map] at hcount
      obtain ⟨hnone, hroot⟩ := Conclusions.failures_failIf_eq_empty.mp h
      have hpending := (Finset.union_eq_empty.mp hnone).2
      rw [List.toFinset_eq_empty_iff, List.filterMap_eq_nil_iff] at hpending
      refine ⟨(opening.1, records), rfl, hread, ?_, hcount, ?_⟩
      · exact fun record hr => recordFailure_eq_none.mp (hpending record hr)
      · exact bne_eq_false_iff_eq.mp hroot

/-- The openings the second loop does not skip. -/
def consumedOpenings (consume : Finset UInt64) (openings : List (UInt64 × RecordBatchOpening)) :
    List (UInt64 × RecordBatchOpening) :=
  openings.filter fun opening => opening.1 ∈ consume

/-- Only the consumed openings are opened. -/
theorem openBatches_eq (consume : Finset UInt64) (conclusions : Conclusions)
    (openings : List (UInt64 × RecordBatchOpening)) :
    openBatches dir segment consume conclusions openings
      = (consumedOpenings consume openings).foldl
        (fun state opening => openBatch dir segment state opening.1 opening.2)
        ⟨[], conclusions⟩ := by
  simp only [openBatches, consumedOpenings, List.foldl_filter, decide_eq_true_eq]

/-- The rounds on batches that can be read. -/
theorem foldl_openBatch_of_read {openings : List (UInt64 × RecordBatchOpening)}
    {batches : List (UInt64 × List Bytes)}
    (h : List.Forall₂ (BatchRead dir segment) openings batches) (state : Opened) :
    openings.foldl (fun state opening => openBatch dir segment state opening.1 opening.2) state
      = ⟨state.batches ++ batches.map sortedBatch, state.conclusions⟩ := by
  induction h generalizing state with
  | nil => simp
  | cons hread _ ih => simp [List.foldl_cons, openBatch_of_read hread, ih]

/-- The rounds keep the failures found before them. -/
theorem failures_subset_foldl_openBatch (state : Opened)
    (openings : List (UInt64 × RecordBatchOpening)) :
    state.conclusions.failures
      ⊆ (openings.foldl (fun state opening => openBatch dir segment state opening.1 opening.2)
          state).conclusions.failures := by
  refine Conclusions.failures_subset_foldl Opened.conclusions ?_ state openings
  intro state opening
  exact failures_subset_openBatch state opening.1 opening.2

/-- Rounds that end without a failure have read their batches. -/
theorem read_of_foldl_openBatch {openings : List (UInt64 × RecordBatchOpening)} {state : Opened}
    (h : (openings.foldl (fun state opening => openBatch dir segment state opening.1 opening.2)
      state).conclusions.failures = ∅) :
    ∃ batches, List.Forall₂ (BatchRead dir segment) openings batches := by
  induction openings generalizing state with
  | nil => exact ⟨[], .nil⟩
  | cons opening openings ih =>
    rw [List.foldl_cons] at h
    obtain ⟨batches, hbatches⟩ := ih h
    -- the later rounds would have kept a failure of this one
    have hround : (openBatch dir segment state opening.1 opening.2).conclusions.failures = ∅ :=
      Finset.subset_empty.mp ((failures_subset_foldl_openBatch _ openings).trans_eq h)
    obtain ⟨batch, hbatch⟩ := read_of_openBatch hround
    exact ⟨batch :: batches, .cons hbatch hbatches⟩

/-! ## The whole check -/

/-- The batches in the order of their numbers. -/
def inOrder (batches : List (UInt64 × List Bytes)) : List (Nat × List Digest) :=
  (batches.map sortedBatch).mergeSort fun left right => left.1 ≤ right.1

variable (manifest segment) in
/-- What is checked at every scope: the openings are numbered, as many as the class asks for, and
claim the right number of records each. -/
structure Shaped (numbers : List UInt64) : Prop where
  numbered : Numbered segment.batchRoots.length manifest.artifacts.openings numbers
  shape : shapeValid manifest segment numbers.toFinset = true
  cardinalities :
    cardinalitiesValid segment (numbers.zip manifest.artifacts.openings) = true

variable (dir segment) in
/-- What is checked of the openings a scope consumes. -/
structure Recomputed (scope : VerificationScope) (openings : List (UInt64 × RecordBatchOpening))
    (batches : List (UInt64 × List Bytes)) : Prop where
  read : List.Forall₂ (BatchRead dir segment) openings batches
  ordered : ∀ pair ∈ (inOrder batches).zip (inOrder batches).tail, outOfOrder pair.1 pair.2 = false
  root : scope = .publicRecompute → segment.recordCount ≠ 0 →
    mth ((inOrder batches).flatMap Prod.snd) = segment.segmentRoot

/-- The comparison finds nothing when the batches are in order and, at public scope, have the root
of a segment with records. -/
theorem failures_compareOpened_eq_empty {scope : VerificationScope}
    {batches : List (UInt64 × List Bytes)} {conclusions : Conclusions} :
    (compareOpened segment scope ⟨batches.map sortedBatch, conclusions⟩).failures = ∅
      ↔ conclusions.failures = ∅
        ∧ (∀ pair ∈ (inOrder batches).zip (inOrder batches).tail,
            outOfOrder pair.1 pair.2 = false)
        ∧ (scope = .publicRecompute → segment.recordCount ≠ 0 →
            mth ((inOrder batches).flatMap Prod.snd) = segment.segmentRoot) := by
  unfold compareOpened
  dsimp only
  rw [Conclusions.failures_failIf_eq_empty, Conclusions.failures_failIf_eq_empty, and_assoc]
  refine and_congr Iff.rfl (and_congr ?_ ?_)
  · rw [List.any_eq_false]
    simp only [Bool.not_eq_true]
    rfl
  · rw [Bool.and_eq_false_iff, Bool.and_eq_false_iff, decide_eq_false_iff_not,
      decide_eq_false_iff_not, decide_eq_false_iff_not, not_not, not_not, or_assoc,
      ← imp_iff_not_or, ← or_iff_not_imp_left]
    rfl

/-- The check on openings in shape. -/
theorem validateDisclosure_of_shaped {numbers : List UInt64}
    (h : Shaped manifest segment numbers) (policy : VerifyPolicy) (conclusions : Conclusions) :
    validateDisclosure dir manifest segment policy conclusions
      = match consumeFor manifest segment policy conclusions.scope numbers.toFinset with
        | .nothing => (true, conclusions)
        | .refused => (false, conclusions.fail .insufficientDisclosure)
        | .batches consume =>
          (true, compareOpened segment conclusions.scope
            (openBatches dir segment consume conclusions
              (numbers.zip manifest.artifacts.openings))) := by
  unfold validateDisclosure
  rw [indexOpenings_of_numbered h.numbered]
  cases hconsume : consumeFor manifest segment policy conclusions.scope numbers.toFinset <;>
    simp only [h.shape, h.cardinalities, hconsume, Bool.not_true, Bool.false_eq_true, if_false]

/-- A check that returns true without a failure has found the openings in shape. -/
theorem shaped_of_validateDisclosure {policy : VerifyPolicy} {conclusions : Conclusions}
    (htrue : (validateDisclosure dir manifest segment policy conclusions).1 = true)
    (hfailures : (validateDisclosure dir manifest segment policy conclusions).2.failures = ∅) :
    ∃ numbers, Shaped manifest segment numbers := by
  have hindex : (indexOpenings segment.batchRoots.length conclusions
      manifest.artifacts.openings).conclusions.failures = ∅ :=
    Finset.subset_empty.mp (hfailures ▸ failures_indexOpenings_subset policy conclusions)
  obtain ⟨numbers, hnumbered⟩ := numbered_of_indexOpenings hindex
  unfold validateDisclosure at htrue
  rw [indexOpenings_of_numbered hnumbered] at htrue
  dsimp only at htrue
  split_ifs at htrue with hshape hcardinalities
  exact ⟨numbers, hnumbered, by simpa using hshape, by simpa using hcardinalities⟩

/-- The check returns true and finds nothing exactly when the openings are in shape and the batches
it consumes recompute. -/
theorem validateDisclosure_clean {policy : VerifyPolicy} {scope : VerificationScope} :
    (validateDisclosure dir manifest segment policy (Conclusions.new scope)).1 = true
        ∧ disclosureFailures dir manifest segment policy scope = ∅
      ↔ ∃ numbers, Shaped manifest segment numbers
        ∧ (consumeFor manifest segment policy scope numbers.toFinset = .nothing
          ∨ ∃ consume batches,
            consumeFor manifest segment policy scope numbers.toFinset = .batches consume
              ∧ Recomputed dir segment scope
                (consumedOpenings consume (numbers.zip manifest.artifacts.openings))
                batches) := by
  have hscope : (Conclusions.new scope).scope = scope := rfl
  have hnone : (Conclusions.new scope).failures = ∅ := rfl
  unfold disclosureFailures
  constructor
  · rintro ⟨htrue, hfailures⟩
    obtain ⟨numbers, hshaped⟩ := shaped_of_validateDisclosure htrue hfailures
    refine ⟨numbers, hshaped, ?_⟩
    rw [validateDisclosure_of_shaped hshaped, hscope] at htrue hfailures
    cases hconsume : consumeFor manifest segment policy scope numbers.toFinset with
    | nothing => exact .inl rfl
    | refused => simp [hconsume] at htrue
    | batches consume =>
      rw [hconsume] at hfailures
      dsimp only at hfailures
      rw [openBatches_eq] at hfailures
      -- the comparison keeps the failures of the loop, so that there are none
      have hloop := Finset.subset_empty.mp (hfailures ▸ failures_subset_compareOpened _ _)
      obtain ⟨batches, hbatches⟩ := read_of_foldl_openBatch hloop
      rw [foldl_openBatch_of_read hbatches, List.nil_append] at hfailures
      obtain ⟨-, hordered, hroot⟩ := failures_compareOpened_eq_empty.mp hfailures
      exact .inr ⟨consume, batches, rfl, hbatches, hordered, hroot⟩
  · rintro ⟨numbers, hshaped, hconsume⟩
    rw [validateDisclosure_of_shaped hshaped, hscope]
    rcases hconsume with hnothing | ⟨consume, batches, hconsume, hread, hordered, hroot⟩
    · rw [hnothing]
      exact ⟨rfl, rfl⟩
    · rw [hconsume]
      dsimp only
      rw [openBatches_eq, foldl_openBatch_of_read hread, List.nil_append]
      exact ⟨rfl, failures_compareOpened_eq_empty.mpr ⟨hnone, hordered, hroot⟩⟩

end

end TrackOne.Evidence
