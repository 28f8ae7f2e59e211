import TrackOne.Evidence.Bundle
import TrackOne.Vtl.Merkle
import TrackOne.Vtl.Record
import TrackOne.Vtl.SegmentDecode
import Mathlib.Data.Finset.Sort

/-!
# Chain and disclosure checks

The verifier's policy and its running conclusions (`vtl.rs`, `vtl/result.rs`), the predecessor check
(`vtl/chain.rs`) and the disclosure check (`vtl/disclosure.rs`).

The source passes `&mut Conclusions` through every check. Here a check takes the conclusions and
returns the new ones; the loops of `validate_disclosure` are folds over explicit loop states,
`Indexed` for the first pass over the openings and `Opened` for the second.

No check ever takes a failure back: `failures_subset_validateChain` and
`failures_subset_validateDisclosure` say that the recorded failures only grow, from the round lemmas
of the two loops.
-/

namespace TrackOne.Evidence

/-! ## The policy of a verifier -/

inductive VerificationScope where
  | publicRecompute
  | disclosedBatchRecompute
  | anchorOnly
deriving DecidableEq, Repr

namespace VerificationScope

def asStr : VerificationScope → String
  | publicRecompute => "public_recompute"
  | disclosedBatchRecompute => "disclosed_batch_recompute"
  | anchorOnly => "anchor_only"

def strength : VerificationScope → UInt8
  | publicRecompute => 3
  | disclosedBatchRecompute => 2
  | anchorOnly => 1

def forDisclosureClass (value : String) : VerificationScope :=
  if value = "A" then publicRecompute
  else if value = "B" then disclosedBatchRecompute
  else anchorOnly

end VerificationScope

structure VerifyPolicy where
  tsaCaFile : Option HostPath
  tsaIntermediatesFile : Option HostPath
  tsaCrlsFile : Option HostPath
  tsaPolicyOid : Option String
  tsaSignerCertSha256 : Option Digest
  opensslBinary : HostPath
  maxFutureSkew : Duration
  verifierPolicyId : Option String
  verifierPolicyArtifact : Option HostPath
  selectedScope : Option VerificationScope
  selectedBatches : Finset UInt64
  requireClaimedScope : Bool

/-- The scope a policy selects for a manifest: its own, or the one the manifest claims. -/
def VerifyPolicy.scopeFor (policy : VerifyPolicy) (manifest : Manifest) : VerificationScope :=
  policy.selectedScope.getD (.forDisclosureClass manifest.disclosureClass)

def validatePolicy (env : Environment) (policy : VerifyPolicy) : EvidenceResult Unit := do
  Except.require (bad "verifier policy identifier must not be empty")
    (policy.verifierPolicyId != some "")
  Except.require (bad "verifier policy artifact is not available for hashing")
    (policy.verifierPolicyArtifact.all env.isFile)
  Except.require (bad "selected batches are valid only for disclosed_batch_recompute")
    (policy.selectedBatches = ∅ || policy.selectedScope = some .disclosedBatchRecompute)

/-! ## Conclusions -/

/-- The members of `failure_reasons`. -/
inductive FailureReason where
  | channelFailure
  | commitmentMismatch
  | insufficientDisclosure
  | invalidCanonicalRecord
  | invalidSegmentArtifact
  | scopeNotExercised
  | segmentChainMismatch
  | unsupportedCommitmentProfile
  | verifierPolicyRejection
deriving DecidableEq, Repr

/-- The values of `chain_status`. -/
inductive ChainStatus where
  | epoch
  | validated
  | predecessorNotDisclosed
  | failed
deriving DecidableEq, Repr

/-- The values of the timestamp channel's `status`. -/
inductive ChannelStatus where
  | verified
  | failed
  | missing
  | pendingClaim
deriving DecidableEq, Repr

/-- The values of `overall`. -/
inductive Overall where
  | success
  | incomplete
  | failure
deriving DecidableEq, Repr

structure Conclusions where
  failures : Finset FailureReason
  chainStatus : Option ChainStatus
  tsaStatus : ChannelStatus
  tsaReason : Option String
  scope : VerificationScope
deriving DecidableEq

namespace Conclusions

def new (scope : VerificationScope) : Conclusions :=
  { failures := ∅, chainStatus := none, tsaStatus := .missing, tsaReason := none, scope := scope }

def fail (conclusions : Conclusions) (reason : FailureReason) : Conclusions :=
  { conclusions with failures := insert reason conclusions.failures }

/-- `conclusions.fail(reason)` under a condition. -/
def failIf (conclusions : Conclusions) (condition : Bool) (reason : FailureReason) : Conclusions :=
  if condition then conclusions.fail reason else conclusions

/-- What `validate_chain` concludes from a verdict on the chain. -/
def chain (conclusions : Conclusions) (valid : Bool) (status : ChainStatus) :
    Conclusions :=
  if valid then { conclusions with chainStatus := some status }
  else { conclusions.fail .segmentChainMismatch with chainStatus := some .failed }

def overall (conclusions : Conclusions) : Overall :=
  if conclusions.failures ≠ ∅ then .failure
  else if conclusions.tsaStatus = .pendingClaim then .incomplete
  else .success

theorem failures_subset_fail (conclusions : Conclusions) (reason : FailureReason) :
    conclusions.failures ⊆ (conclusions.fail reason).failures :=
  Finset.subset_insert _ _

theorem failures_subset_failIf (conclusions : Conclusions) (condition : Bool)
    (reason : FailureReason) :
    conclusions.failures ⊆ (conclusions.failIf condition reason).failures := by
  unfold failIf
  split_ifs
  · exact conclusions.failures_subset_fail reason
  · exact Finset.Subset.refl _

theorem failures_subset_chain (conclusions : Conclusions) (valid : Bool)
    (status : ChainStatus) : conclusions.failures ⊆ (conclusions.chain valid status).failures := by
  unfold chain
  split_ifs
  · exact Finset.Subset.refl _
  · exact conclusions.failures_subset_fail _

@[simp] theorem scope_failIf (conclusions : Conclusions) (condition : Bool)
    (reason : FailureReason) : (conclusions.failIf condition reason).scope = conclusions.scope := by
  unfold failIf
  split_ifs <;> rfl

@[simp] theorem scope_chain (conclusions : Conclusions) (valid : Bool) (status : ChainStatus) :
    (conclusions.chain valid status).scope = conclusions.scope := by
  unfold chain
  split_ifs <;> rfl

/-- A fold whose rounds keep the failures keeps them as a whole. -/
theorem failures_subset_foldl {σ ι : Type} {step : σ → ι → σ} (view : σ → Conclusions)
    (hstep : ∀ state item, (view state).failures ⊆ (view (step state item)).failures) (state : σ)
    (items : List ι) : (view state).failures ⊆ (view (items.foldl step state)).failures := by
  induction items generalizing state with
  | nil => exact Finset.Subset.refl _
  | cons item items ih => exact Finset.Subset.trans (hstep state item) (ih (step state item))

theorem failures_failIf_eq_empty {conclusions : Conclusions} {condition : Bool}
    {reason : FailureReason} :
    (conclusions.failIf condition reason).failures = ∅
      ↔ conclusions.failures = ∅ ∧ condition = false := by
  unfold failIf
  split_ifs with hcondition
  · simp [fail, hcondition]
  · simp [hcondition]

end Conclusions

section

variable [Sha256] (dir : Directory) (manifest : Manifest) (segment : SegmentRecord)

/-! ## `validate_chain` -/

/-- Whether the bytes are a segment that the given one continues. -/
def continues (predecessorBytes : Bytes) : Bool :=
  match decodeSegmentRecord predecessorBytes with
  | .error _ => false
  | .ok predecessor =>
    predecessor.ledgerId == segment.ledgerId
      && predecessor.commitmentProfileId == segment.commitmentProfileId
      && predecessor.segmentNumber.checkedAdd 1 == some segment.segmentNumber
      && sha256Digest predecessorBytes == segment.prevSegmentSha256

def validateChain (conclusions : Conclusions) : Conclusions :=
  if segment.segmentNumber = 0 then
    conclusions.chain (segment.prevSegmentSha256 == Digest.zero) .epoch
  else match manifest.artifacts.predecessorSegmentCbor with
    | none => { conclusions with chainStatus := some .predecessorNotDisclosed }
    | some reference =>
      match dir.referencedArtifact reference with
      | .error _ => conclusions.chain false .validated
      | .ok predecessorBytes => conclusions.chain (continues segment predecessorBytes) .validated

/-! ## `validate_disclosure` -/

/-- The reason `opening_leaves` notes for a record, if it is not canonical. -/
def recordFailure (record : Bytes) : Option FailureReason :=
  match validateCanonicalRecord record with
  | .ok _ => none
  | .error (.resourceLimit _) => some .verifierPolicyRejection
  | .error _ => some .invalidCanonicalRecord

/-- `opening_leaves`: the leaf hashes of an opening and the failures of its records. -/
def openingLeaves (opening : RecordBatchOpening) :
    EvidenceResult (List Digest × Finset FailureReason) := do
  let records ← opening.records.mapM dir.referencedArtifact
  pure (records.map (prefixedHash 0), (records.filterMap recordFailure).toFinset)

/-- `expected_opening_count`: the number of records the segment commits to for a batch. -/
def expectedOpeningCount (batchCount : Nat) (number : UInt64) : Option UInt64 :=
  if batchCount ≤ number.toNat then none
  else if number.toNat + 1 = batchCount then do
    let fullBefore ← UInt64.ofNat? (number.toNat * segment.closurePolicy.batchRecordLimit.toNat)
    segment.recordCount.checkedSub fullBefore
  else some segment.closurePolicy.batchRecordLimit

/-- The state of the first loop: the numbers seen, the openings kept under them, the conclusions. -/
structure Indexed where
  numbers : Finset UInt64
  openings : List (UInt64 × RecordBatchOpening)
  conclusions : Conclusions

/-- One round of the first loop. -/
def indexOpening (batchCount : Nat) (state : Indexed) (opening : RecordBatchOpening) : Indexed :=
  match parseUint64 opening.batchNumber with
  | none => { state with conclusions := state.conclusions.fail .insufficientDisclosure }
  | some number =>
    if batchCount ≤ number.toNat ∨ number ∈ state.numbers then
      { state with conclusions := state.conclusions.fail .insufficientDisclosure }
    else
      { state with
        numbers := insert number state.numbers
        openings := state.openings ++ [(number, opening)] }

/-- The first loop. -/
def indexOpenings (batchCount : Nat) (conclusions : Conclusions)
    (openings : List RecordBatchOpening) : Indexed :=
  openings.foldl (indexOpening batchCount) ⟨∅, [], conclusions⟩

/-- `shape_valid`: the number of openings a disclosure class asks for. -/
def shapeValid (numbers : Finset UInt64) : Bool :=
  let count := manifest.artifacts.openings.length
  let batchCount := segment.batchRoots.length
  if manifest.disclosureClass = "A" then
    if segment.recordCount = 0 then count = 0 else count = batchCount && numbers.card = batchCount
  else if manifest.disclosureClass = "B" then 1 < batchCount && count ≠ 0 && count < batchCount
  else if manifest.disclosureClass = "C" then count = 0
  else false

/-- Whether every indexed opening has the cardinality the segment commits to. -/
def cardinalitiesValid (openings : List (UInt64 × RecordBatchOpening)) : Bool :=
  openings.all fun (number, opening) =>
    match expectedOpeningCount segment segment.batchRoots.length number,
        UInt64.ofNat? opening.records.length with
    | some expected, some actual => actual == expected
    | _, _ => false

/-- What the match on the scope decides: to stop with an answer, or the batches to open. -/
inductive Consume where
  | nothing
  | refused
  | batches (numbers : Finset UInt64)
deriving DecidableEq

/-- The match on the scope. -/
def consumeFor (policy : VerifyPolicy) (scope : VerificationScope) (numbers : Finset UInt64) :
    Consume :=
  match scope with
  | .anchorOnly => .nothing
  | .publicRecompute => if manifest.disclosureClass ≠ "A" then .refused else .batches numbers
  | .disclosedBatchRecompute =>
    let batchCount := segment.batchRoots.length
    if batchCount ≤ 1 ∨ manifest.disclosureClass = "C" then .refused
    else if manifest.disclosureClass = "A" then
      if policy.selectedBatches = ∅ ∨ batchCount ≤ policy.selectedBatches.card
          ∨ ¬ policy.selectedBatches ⊆ numbers then .refused
      else .batches policy.selectedBatches
    else if policy.selectedBatches ≠ ∅ ∧ policy.selectedBatches ≠ numbers then .refused
    else .batches numbers

/-- The state of the second loop: the batches opened so far with their sorted leaf hashes. -/
structure Opened where
  batches : List (Nat × List Digest)
  conclusions : Conclusions

/-- One round of the second loop, for a batch that is consumed. A `continue` of the source leaves
the batch out. -/
def openBatch (state : Opened) (number : UInt64) (opening : RecordBatchOpening) : Opened :=
  match openingLeaves dir opening with
  | .error (.verificationFailed _) =>
    { state with conclusions := state.conclusions.fail .commitmentMismatch }
  | .error _ => { state with conclusions := state.conclusions.fail .insufficientDisclosure }
  | .ok (leaves, pending) =>
    if UInt64.ofNat? leaves.length
        ≠ expectedOpeningCount segment segment.batchRoots.length number then
      { state with conclusions := state.conclusions.fail .insufficientDisclosure }
    else
      let sorted := leaves.mergeSort Digest.ble
      let conclusions := { state.conclusions with
        failures := state.conclusions.failures ∪ pending }
      { batches := state.batches ++ [(number.toNat, sorted)]
        conclusions := conclusions.failIf
          (segment.batchRoots[number.toNat]? != some (merkleRootFromLeafHashes sorted))
          .commitmentMismatch }

/-- The second loop. -/
def openBatches (consume : Finset UInt64) (conclusions : Conclusions)
    (openings : List (UInt64 × RecordBatchOpening)) : Opened :=
  openings.foldl (fun state (number, opening) =>
    if number ∈ consume then openBatch dir segment state number opening else state)
    ⟨[], conclusions⟩

/-- Whether two opened batches are neighbours in the wrong order. -/
def outOfOrder (left right : Nat × List Digest) : Bool :=
  left.1 + 1 == right.1
    && match left.2.getLast?, right.2.head? with
      | some last, some first => !last.ble first
      | _, _ => false

/-- What `validate_disclosure` concludes from the batches it opened. -/
def compareOpened (scope : VerificationScope) (state : Opened) : Conclusions :=
  let opened := state.batches.mergeSort fun left right => left.1 ≤ right.1
  let conclusions := state.conclusions.failIf
    ((opened.zip opened.tail).any fun (left, right) => outOfOrder left right) .commitmentMismatch
  conclusions.failIf
    (scope = .publicRecompute && segment.recordCount ≠ 0
      && merkleRootFromLeafHashes (opened.flatMap Prod.snd) ≠ segment.segmentRoot)
    .commitmentMismatch

def validateDisclosure (policy : VerifyPolicy) (conclusions : Conclusions) : Bool × Conclusions :=
  let indexed := indexOpenings segment.batchRoots.length conclusions manifest.artifacts.openings
  if !shapeValid manifest segment indexed.numbers then
    (false, indexed.conclusions.fail .insufficientDisclosure)
  else if !cardinalitiesValid segment indexed.openings then
    (false, indexed.conclusions.fail .insufficientDisclosure)
  else match consumeFor manifest segment policy conclusions.scope indexed.numbers with
    | .nothing => (true, indexed.conclusions)
    | .refused => (false, indexed.conclusions.fail .insufficientDisclosure)
    | .batches consume =>
      (true, compareOpened segment conclusions.scope
        (openBatches dir segment consume indexed.conclusions indexed.openings))

/-! ## Failures only grow -/

variable {dir manifest segment}

theorem failures_subset_validateChain (conclusions : Conclusions) :
    conclusions.failures ⊆ (validateChain dir manifest segment conclusions).failures := by
  unfold validateChain
  split_ifs
  · exact conclusions.failures_subset_chain _ _
  · cases manifest.artifacts.predecessorSegmentCbor with
    | none => exact Finset.Subset.refl _
    | some reference =>
      dsimp only
      cases dir.referencedArtifact reference with
      | error error => exact conclusions.failures_subset_chain _ _
      | ok bytes => exact conclusions.failures_subset_chain _ _

theorem scope_validateChain (conclusions : Conclusions) :
    (validateChain dir manifest segment conclusions).scope = conclusions.scope := by
  unfold validateChain
  split_ifs
  · exact conclusions.scope_chain _ _
  · cases manifest.artifacts.predecessorSegmentCbor with
    | none => rfl
    | some reference =>
      dsimp only
      cases dir.referencedArtifact reference <;> exact conclusions.scope_chain _ _

omit [Sha256] in
/-- One round of the first loop keeps the failures. -/
theorem failures_subset_indexOpening (batchCount : Nat) (state : Indexed)
    (opening : RecordBatchOpening) :
    state.conclusions.failures ⊆ (indexOpening batchCount state opening).conclusions.failures := by
  unfold indexOpening
  cases parseUint64 opening.batchNumber with
  | none => exact state.conclusions.failures_subset_fail _
  | some number =>
    dsimp only
    split_ifs
    · exact state.conclusions.failures_subset_fail _
    · exact Finset.Subset.refl _

/-- One round of the second loop keeps the failures. -/
theorem failures_subset_openBatch (state : Opened) (number : UInt64)
    (opening : RecordBatchOpening) :
    state.conclusions.failures
      ⊆ (openBatch dir segment state number opening).conclusions.failures := by
  unfold openBatch
  cases openingLeaves dir opening with
  | error error =>
    cases error <;> exact state.conclusions.failures_subset_fail _
  | ok result =>
    obtain ⟨leaves, pending⟩ := result
    dsimp only
    split_ifs
    · exact state.conclusions.failures_subset_fail _
    · -- the pending failures are added first, then the comparison with the root
      apply Finset.Subset.trans _ (Conclusions.failures_subset_failIf _ _ _)
      exact Finset.subset_union_left

omit [Sha256] in
theorem failures_subset_indexOpenings (batchCount : Nat) (conclusions : Conclusions)
    (openings : List RecordBatchOpening) :
    conclusions.failures ⊆ (indexOpenings batchCount conclusions openings).conclusions.failures :=
  Conclusions.failures_subset_foldl Indexed.conclusions (failures_subset_indexOpening batchCount)
    ⟨∅, [], conclusions⟩ openings

theorem failures_subset_openBatches (consume : Finset UInt64) (conclusions : Conclusions)
    (openings : List (UInt64 × RecordBatchOpening)) :
    conclusions.failures
      ⊆ (openBatches dir segment consume conclusions openings).conclusions.failures := by
  refine Conclusions.failures_subset_foldl Opened.conclusions ?_ ⟨[], conclusions⟩ openings
  intro state item
  dsimp only
  split_ifs
  · exact failures_subset_openBatch state item.1 item.2
  · exact Finset.Subset.refl _

theorem failures_subset_compareOpened (scope : VerificationScope) (state : Opened) :
    state.conclusions.failures ⊆ (compareOpened segment scope state).failures :=
  Finset.Subset.trans (Conclusions.failures_subset_failIf _ _ _)
    (Conclusions.failures_subset_failIf _ _ _)

/-- The failures of the first loop stay. -/
theorem failures_indexOpenings_subset (policy : VerifyPolicy) (conclusions : Conclusions) :
    (indexOpenings segment.batchRoots.length conclusions
        manifest.artifacts.openings).conclusions.failures
      ⊆ (validateDisclosure dir manifest segment policy conclusions).2.failures := by
  unfold validateDisclosure
  dsimp only
  split_ifs
  · exact Conclusions.failures_subset_fail _ _
  · exact Conclusions.failures_subset_fail _ _
  · cases consumeFor manifest segment policy conclusions.scope _ with
    | nothing => exact Finset.Subset.refl _
    | refused => exact Conclusions.failures_subset_fail _ _
    | batches consume =>
      exact (failures_subset_openBatches consume _ _).trans (failures_subset_compareOpened _ _)

theorem failures_subset_validateDisclosure (policy : VerifyPolicy) (conclusions : Conclusions) :
    conclusions.failures
      ⊆ (validateDisclosure dir manifest segment policy conclusions).2.failures :=
  (failures_subset_indexOpenings segment.batchRoots.length conclusions
    manifest.artifacts.openings).trans (failures_indexOpenings_subset policy conclusions)

end

end TrackOne.Evidence
