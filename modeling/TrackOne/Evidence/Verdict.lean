import TrackOne.Evidence.Soundness
import TrackOne.Evidence.Verify

/-!
# What a verdict of success means

`verify_bundle_with_policy` reports success when it has collected no failure, and it starts from
none. So a check that is skipped must leave a failure behind. This file inverts the checks one by
one and puts them together.

* `validateChain_of_linked` and `linked_of_validateChain`: the chain check without a failure is the
  relation `Linked`, under the status it reports.
* `timestamped_of_evaluateTsa`: a timestamp channel that neither fails nor is pending has accepted a
  response for the digest of the segment bytes.
* `verifyBundleWithPolicy_success`: what holds of the directory when the verdict is a success.
-/

namespace TrackOne.Evidence

section

variable [Sha256] {env : Environment} {dir : Directory} {manifest : Manifest}
  {segment : SegmentRecord} {policy : VerifyPolicy}

/-! ## The chain -/

variable (dir manifest segment) in
/-- The place of a segment in its chain, as a bundle shows it. -/
inductive Linked : ChainStatus → Prop
  | epoch (hzero : segment.segmentNumber = 0) (hprev : segment.prevSegmentSha256 = Digest.zero) :
      Linked .epoch
  | validated (reference : ArtifactRef) (bytes : Bytes) (predecessor : SegmentRecord)
      (hnumber : segment.segmentNumber ≠ 0)
      (hreference : manifest.artifacts.predecessorSegmentCbor = some reference)
      (hread : dir.referencedArtifact reference = .ok bytes)
      (hdecode : decodeSegmentRecord bytes = .ok predecessor)
      (hledger : predecessor.ledgerId = segment.ledgerId)
      (hprofile : predecessor.commitmentProfileId = segment.commitmentProfileId)
      (hnext : predecessor.segmentNumber.toNat + 1 = segment.segmentNumber.toNat)
      (hprev : sha256Digest bytes = segment.prevSegmentSha256) :
      Linked .validated
  | predecessorNotDisclosed (hnumber : segment.segmentNumber ≠ 0)
      (hnone : manifest.artifacts.predecessorSegmentCbor = none) :
      Linked .predecessorNotDisclosed

theorem continues_eq_true {bytes : Bytes} :
    continues segment bytes = true
      ↔ ∃ predecessor, decodeSegmentRecord bytes = .ok predecessor
        ∧ predecessor.ledgerId = segment.ledgerId
        ∧ predecessor.commitmentProfileId = segment.commitmentProfileId
        ∧ predecessor.segmentNumber.toNat + 1 = segment.segmentNumber.toNat
        ∧ sha256Digest bytes = segment.prevSegmentSha256 := by
  unfold continues
  cases decodeSegmentRecord bytes with
  | error error => simp
  | ok predecessor =>
    simp only [Bool.and_eq_true, beq_iff_eq, UInt64.checkedAdd_eq_some, UInt64.toNat_one,
      Except.ok.injEq, exists_eq_left', and_assoc]
    tauto

/-- The chain check on a linked segment only sets the status. -/
theorem validateChain_of_linked {status : ChainStatus} (h : Linked dir manifest segment status)
    (conclusions : Conclusions) :
    validateChain dir manifest segment conclusions
      = { conclusions with chainStatus := some status } := by
  unfold validateChain
  cases h with
  | epoch hzero hprev => simp [hzero, hprev, Conclusions.chain]
  | validated reference bytes predecessor hnumber hreference hread hdecode hledger hprofile hnext
      hprev =>
    have hcontinues : continues segment bytes = true :=
      continues_eq_true.mpr ⟨predecessor, hdecode, hledger, hprofile, hnext, hprev⟩
    simp [hnumber, hreference, hread, hcontinues, Conclusions.chain]
  | predecessorNotDisclosed hnumber hnone => simp [hnumber, hnone]

/-- A chain check without a failure has found the segment linked. -/
theorem linked_of_validateChain {conclusions : Conclusions}
    (h : (validateChain dir manifest segment conclusions).failures = ∅) :
    ∃ status, Linked dir manifest segment status := by
  -- a verdict that the chain is not valid is a failure
  have hvalid : ∀ {valid status}, (conclusions.chain valid status).failures = ∅ → valid = true := by
    intro valid status hchain
    cases valid with
    | true => rfl
    | false => simp [Conclusions.chain, Conclusions.fail] at hchain
  unfold validateChain at h
  split_ifs at h with hzero
  · exact ⟨_, .epoch hzero (by simpa using hvalid h)⟩
  · cases hreference : manifest.artifacts.predecessorSegmentCbor with
    | none => exact ⟨_, .predecessorNotDisclosed hzero hreference⟩
    | some reference =>
      rw [hreference] at h
      dsimp only at h
      cases hread : dir.referencedArtifact reference with
      | error error =>
        rw [hread] at h
        exact absurd (hvalid h) Bool.false_ne_true
      | ok bytes =>
        rw [hread] at h
        obtain ⟨predecessor, hdecode, hledger, hprofile, hnext, hprev⟩ :=
          continues_eq_true.mp (hvalid h)
        exact ⟨_, .validated reference bytes predecessor hzero hreference hread hdecode hledger
          hprofile hnext hprev⟩

/-! ## The timestamp -/

variable (env dir manifest policy) in
/-- A timestamp for some bytes: the response the manifest names is there, the authority of the
policy issued it for the digest, and the request belongs to it. -/
structure Timestamped (artifactDigest : Digest) : Prop where
  present : manifest.tsaStatus = "present"
  response : ∃ reference response timestampPolicy verified,
    manifest.artifacts.tsaTsr = some reference
      ∧ dir.referencedArtifact reference = .ok response
      ∧ policy.tsaCaFile = some timestampPolicy.trustAnchorsFile
      ∧ policy.tsaCrlsFile = some timestampPolicy.crlsFile
      ∧ policy.tsaPolicyOid = some timestampPolicy.policyOid
      ∧ policy.tsaSignerCertSha256 = some timestampPolicy.signerCertSha256
      ∧ env.verifyResponse response artifactDigest timestampPolicy = .ok verified
      ∧ match manifest.artifacts.tsaReq with
        | some requestReference => ∃ request,
            dir.referencedArtifact requestReference = .ok request
              ∧ env.verifyRequest request artifactDigest verified.nonce = .ok ()
        | none => verified.nonce = none

omit [Sha256] in
/-- The authority of a policy accepts a response. -/
theorem verifyTimestamp_eq_ok {response : Bytes} {artifactDigest : Digest}
    {verified : VerifiedTimestamp}
    (h : verifyTimestamp env response artifactDigest policy = .ok verified) :
    ∃ timestampPolicy : TimestampPolicy, policy.tsaCaFile = some timestampPolicy.trustAnchorsFile
      ∧ policy.tsaCrlsFile = some timestampPolicy.crlsFile
      ∧ policy.tsaPolicyOid = some timestampPolicy.policyOid
      ∧ policy.tsaSignerCertSha256 = some timestampPolicy.signerCertSha256
      ∧ env.verifyResponse response artifactDigest timestampPolicy = .ok verified := by
  unfold verifyTimestamp at h
  simp only [Except.bind_eq_ok, Except.ofOption_eq_ok, Except.mapError_eq_ok] at h
  obtain ⟨caFile, hca, crlsFile, hcrls, policyOid, hoid, signerHash, hsigner, hverified⟩ := h
  exact ⟨_, hca, hcrls, hoid, hsigner, hverified⟩

/-- The request is the one the manifest names, or there is no nonce it could belong to. -/
theorem verifyTsaRequest_eq_ok {artifactDigest : Digest} {nonce : Option Bytes}
    (h : verifyTsaRequest env dir manifest artifactDigest nonce = .ok ()) :
    match manifest.artifacts.tsaReq with
    | some requestReference => ∃ request, dir.referencedArtifact requestReference = .ok request
        ∧ env.verifyRequest request artifactDigest nonce = .ok ()
    | none => nonce = none := by
  unfold verifyTsaRequest at h
  cases hreference : manifest.artifacts.tsaReq with
  | some reference =>
    rw [hreference] at h
    simp only [Except.bind_eq_ok, Except.mapError_eq_ok] at h
    exact h
  | none =>
    rw [hreference] at h
    simpa using h

/-- A response that is evaluated without a failure was accepted, with its request. -/
theorem accepted_of_evaluateResponse {artifactDigest : Digest} {response : Bytes}
    {conclusions : Conclusions}
    (h : (evaluateResponse env dir manifest artifactDigest policy response conclusions).failures
      = ∅) :
    ∃ verified, verifyTimestamp env response artifactDigest policy = .ok verified
      ∧ verifyTsaRequest env dir manifest artifactDigest verified.nonce = .ok () := by
  unfold evaluateResponse at h
  cases hpolicy : missingTimestampPolicy policy with
  | some reason => simp [hpolicy, Conclusions.fail] at h
  | none =>
    rw [hpolicy] at h
    dsimp only at h
    split at h
    · next outcome houtcome => exact Except.bind_eq_ok.mp houtcome
    · simp [Conclusions.fail] at h

/-- A channel that neither fails nor is pending has a timestamp. -/
theorem timestamped_of_evaluateTsa {artifactDigest : Digest} {conclusions : Conclusions}
    (hfailures :
      (evaluateTsa env dir manifest artifactDigest policy conclusions).failures = ∅)
    (hpending :
      (evaluateTsa env dir manifest artifactDigest policy conclusions).tsaStatus ≠ .pendingClaim) :
    Timestamped env dir manifest policy artifactDigest := by
  unfold evaluateTsa at hfailures hpending
  split_ifs at hfailures hpending with hpresent hstatus
  · refine ⟨hpresent, ?_⟩
    cases hreference : manifest.artifacts.tsaTsr with
    | none => simp [hreference, Conclusions.fail] at hfailures
    | some reference =>
      rw [hreference] at hfailures
      dsimp only at hfailures
      cases hresponse : dir.referencedArtifact reference with
      | error error => cases error <;> simp [hresponse, Conclusions.fail] at hfailures
      | ok response =>
        rw [hresponse] at hfailures
        obtain ⟨verified, hverified, hrequest⟩ := accepted_of_evaluateResponse hfailures
        obtain ⟨timestampPolicy, hca, hcrls, hoid, hsigner, hverified⟩ :=
          verifyTimestamp_eq_ok hverified
        exact ⟨reference, response, timestampPolicy, verified, rfl, hresponse, hca, hcrls, hoid,
          hsigner, hverified, verifyTsaRequest_eq_ok hrequest⟩
  · simp [Conclusions.tsa] at hpending
  · simp [Conclusions.fail] at hfailures

omit [Sha256] in
theorem Conclusions.tsaStatus_of_success {conclusions : Conclusions}
    (h : conclusions.overall = .success) : conclusions.tsaStatus ≠ .pendingClaim := by
  unfold Conclusions.overall at h
  split_ifs at h with hfailures hpending
  exact hpending

theorem chainStatus_evaluateTsa (artifactDigest : Digest) (conclusions : Conclusions) :
    (evaluateTsa env dir manifest artifactDigest policy conclusions).chainStatus
      = conclusions.chainStatus := by
  unfold evaluateTsa evaluateResponse
  split_ifs
  · cases manifest.artifacts.tsaTsr with
    | none => rfl
    | some reference =>
      dsimp only
      cases dir.referencedArtifact reference with
      | error error => cases error <;> rfl
      | ok response =>
        dsimp only
        cases missingTimestampPolicy policy with
        | some reason => rfl
        | none =>
          dsimp only
          split <;> rfl
  · rfl
  · rfl

/-! ## The segment -/

/-- A disclosure check that finds nothing returns true. -/
theorem validateDisclosure_of_failures {scope : VerificationScope}
    (h : disclosureFailures dir manifest segment policy scope = ∅) :
    (validateDisclosure dir manifest segment policy (Conclusions.new scope)).1 = true := by
  unfold disclosureFailures validateDisclosure at h
  unfold validateDisclosure
  dsimp only at h ⊢
  split_ifs at h ⊢
  · simp [Conclusions.fail] at h
  · simp [Conclusions.fail] at h
  · cases hconsume : consumeFor manifest segment policy (Conclusions.new scope).scope
        (indexOpenings segment.batchRoots.length (Conclusions.new scope)
          manifest.artifacts.openings).numbers with
    | nothing => rfl
    | refused => simp [hconsume, Conclusions.fail] at h
    | batches consume => rfl

/-- What the checks on the segment have found when they left no failure. -/
theorem checkSegment_clean {artifactBytes : Bytes} {profile : Option String}
    {conclusions : Conclusions}
    (h : (checkSegment dir manifest artifactBytes profile policy conclusions).2.failures = ∅) :
    ∃ segment status, decodeSegmentRecord artifactBytes = .ok segment
      ∧ segment.ledgerId = manifest.ledgerId
      ∧ toString segment.segmentNumber = manifest.segmentNumber
      ∧ segment.commitmentProfileId = manifest.commitmentProfileId
      ∧ Linked dir manifest segment status
      ∧ disclosureFailures dir manifest segment policy conclusions.scope = ∅
      ∧ checkSegment dir manifest artifactBytes profile policy conclusions
        = (true, { conclusions with chainStatus := some status }) := by
  unfold checkSegment at h ⊢
  cases hdecode : decodeSegmentRecord artifactBytes with
  | error error => simp [hdecode, Conclusions.fail] at h
  | ok segment =>
    rw [hdecode] at h
    dsimp only at h ⊢
    split_ifs at h ⊢ with hmatches
    · simp only [hmatches, Bool.not_true] at h ⊢
      have hnot : conclusions.failIf false .commitmentMismatch = conclusions := rfl
      rw [hnot] at h ⊢
      rw [← Finset.subset_empty] at h
      have hchain :=
        Finset.subset_empty.mp ((failures_subset_validateDisclosure policy _).trans h)
      obtain ⟨status, hlinked⟩ := linked_of_validateChain hchain
      rw [validateChain_of_linked hlinked, validateDisclosure_adding] at h ⊢
      have hfailures : disclosureFailures dir manifest segment policy conclusions.scope = ∅ :=
        (Finset.union_eq_empty.mp (Finset.subset_empty.mp h)).2
      simp only [Bool.and_eq_true, beq_iff_eq] at hmatches
      refine ⟨segment, status, rfl, hmatches.1.1, hmatches.1.2, hmatches.2, hlinked, hfailures, ?_⟩
      rw [validateDisclosure_of_failures hfailures, hfailures, Conclusions.adding_empty]
    · -- a segment that is not the manifest's is a failure before the chain is looked at
      rw [← Finset.subset_empty] at h
      have hfirst := Finset.subset_empty.mp ((failures_subset_validateChain _).trans h)
      simp [Conclusions.failures_failIf_eq_empty, hmatches] at hfirst

/-! ## The verdict -/

variable (dir manifest segment policy) in
/-- A disclosure that the class of the manifest and the selected scope ask for: in shape, and every
consumed batch recomputes to its root. -/
structure Disclosed : Prop where
  shaped : ∃ numbers, Shaped manifest segment numbers
  recomputed : policy.scopeFor manifest ≠ .anchorOnly → ∃ numbers consume,
    Shaped manifest segment numbers
      ∧ consumeFor manifest segment policy (policy.scopeFor manifest) numbers.toFinset
        = .batches consume
      ∧ ∀ number ∈ consume, ∃ opening ∈ manifest.artifacts.openings, ∃ records : List Bytes,
        parseUint64 opening.batchNumber = some number
          ∧ opening.records.mapM dir.referencedArtifact = .ok records
          ∧ (∀ record ∈ records, ∃ metadata, validateCanonicalRecord record = .ok metadata)
          ∧ segment.batchRoots[number.toNat]? = some (merkleRootFromRecords records).root

theorem disclosed_of_failures
    (h : disclosureFailures dir manifest segment policy (policy.scopeFor manifest) = ∅) :
    Disclosed dir manifest segment policy := by
  obtain ⟨numbers, hshaped, hconsume⟩ :=
    validateDisclosure_clean.mp ⟨validateDisclosure_of_failures h, h⟩
  refine ⟨⟨numbers, hshaped⟩, fun hscope => ?_⟩
  rcases hconsume with hnothing | ⟨consume, batches, hconsume, hrecomputed⟩
  · -- only the scope that opens nothing stops here
    cases hselected : policy.scopeFor manifest with
    | anchorOnly => exact absurd hselected hscope
    | publicRecompute =>
      rw [hselected] at hnothing
      exact absurd hnothing consumeFor_public_ne_nothing
    | disclosedBatchRecompute =>
      rw [hselected] at hnothing
      exact absurd hnothing consumeFor_disclosed_ne_nothing
  · refine ⟨numbers, consume, hshaped, hconsume, fun number hnumber => ?_⟩
    obtain ⟨opening, hopening, hparse⟩ :=
      exists_opening hshaped.numbered (consume_subset_of_consumeFor hconsume) hnumber
    obtain ⟨records, hread⟩ :=
      hrecomputed.read_of_mem hshaped.numbered hopening hnumber hparse
    exact ⟨opening, hopening, records, hparse, hread.read, hread.canonical, hread.root⟩

/-- Conclusions without a failure, and not pending, put every check together. -/
theorem concludeBundle_success {artifactBytes : Bytes} {profile : Option String}
    (h : (concludeBundle env dir manifest artifactBytes profile policy).overall = .success) :
    ∃ segment status, decodeSegmentRecord artifactBytes = .ok segment
      ∧ segment.ledgerId = manifest.ledgerId
      ∧ toString segment.segmentNumber = manifest.segmentNumber
      ∧ segment.commitmentProfileId = manifest.commitmentProfileId
      ∧ (concludeBundle env dir manifest artifactBytes profile policy).chainStatus = some status
      ∧ Linked dir manifest segment status
      ∧ disclosureFailures dir manifest segment policy (policy.scopeFor manifest) = ∅
      ∧ Timestamped env dir manifest policy (sha256Digest artifactBytes)
      ∧ (policy.requireClaimedScope = true →
          (VerificationScope.forDisclosureClass manifest.disclosureClass).strength
            ≤ (policy.scopeFor manifest).strength) := by
  have hfailures := Conclusions.overall_eq_success h
  have hpending := Conclusions.tsaStatus_of_success h
  unfold concludeBundle at hfailures hpending ⊢
  dsimp only at hfailures hpending ⊢
  have htimestamped := timestamped_of_evaluateTsa hfailures hpending
  -- no check before the channel has left a failure
  rw [← Finset.subset_empty] at hfailures
  have hbefore := Finset.subset_empty.mp ((failures_subset_evaluateTsa _ _).trans hfailures)
  obtain ⟨hsegment, hskipped⟩ := Conclusions.failures_failIf_eq_empty.mp hbefore
  obtain ⟨segment, status, hdecode, hledger, hnumber, hprofile, hlinked, hdisclosure, hchecked⟩ :=
    checkSegment_clean hsegment
  rw [Conclusions.scope_failIf, Conclusions.scope_failIf] at hdisclosure
  refine ⟨segment, status, hdecode, hledger, hnumber, hprofile, ?_, hlinked, hdisclosure,
    htimestamped, ?_⟩
  · rw [chainStatus_evaluateTsa, hskipped, hchecked]
    rfl
  · intro hrequired
    simpa [hrequired, hchecked] using hskipped

/-- **A verdict of success means what it says.** -/
theorem verifyBundleWithPolicy_success {result : VerificationResult}
    (h : verifyBundleWithPolicy env dir policy = .ok result)
    (hsuccess : result.overall = .success) :
    ∃ manifestBytes manifest artifactBytes segment status,
      dir[manifestName]? = some manifestBytes
        ∧ parseManifest env manifestBytes = .ok manifest
        ∧ dir.safeRead manifest.artifacts.segmentCbor.path = .ok artifactBytes
        ∧ sha256Hex artifactBytes = manifest.artifacts.segmentCbor.sha256
        ∧ decodeSegmentRecord artifactBytes = .ok segment
        ∧ segment.ledgerId = manifest.ledgerId
        ∧ toString segment.segmentNumber = manifest.segmentNumber
        ∧ segment.commitmentProfileId = manifest.commitmentProfileId
        ∧ result.chainStatus = some status
        ∧ Linked dir manifest segment status
        ∧ (∀ reference ∈ manifest.artifacts.extensions.values, ∃ bytes,
            dir.safeRead reference.path = .ok bytes ∧ sha256Hex bytes = reference.sha256)
        ∧ Disclosed dir manifest segment policy
        ∧ Timestamped env dir manifest policy (sha256Digest artifactBytes)
        ∧ (policy.requireClaimedScope = true →
            (VerificationScope.forDisclosureClass manifest.disclosureClass).strength
              ≤ (policy.scopeFor manifest).strength)
        ∧ manifest.tsaStatus ≠ "pending" ∧ manifest.tsaStatus ≠ "unavailable" := by
  obtain ⟨manifestBytes, manifest, artifactBytes, hmanifestBytes, hmanifest, hextensions, hartifact,
    -, hstatus, hoverall⟩ := verifyBundleWithPolicy_eq_ok h
  rw [hoverall] at hsuccess
  obtain ⟨segment, status, hdecode, hledger, hnumber, hprofile, hchain, hlinked, hdisclosure,
    htimestamped, hclaimed⟩ := concludeBundle_success hsuccess
  have hdigest := sha256_of_concludeBundle (Conclusions.overall_eq_success hsuccess)
  refine ⟨manifestBytes, manifest, artifactBytes, segment, status, hmanifestBytes, hmanifest,
    hartifact, hdigest, hdecode, hledger, hnumber, hprofile, hstatus.trans hchain, hlinked, ?_,
    disclosed_of_failures hdisclosure, htimestamped, hclaimed, ?_, ?_⟩
  · intro reference hreference
    obtain ⟨bytes, hbytes⟩ := hextensions reference hreference
    obtain ⟨-, hread, hdigest⟩ := Directory.referencedArtifact_eq_ok.mp hbytes
    exact ⟨bytes, hread, hdigest⟩
  · rw [htimestamped.present]
    decide
  · rw [htimestamped.present]
    decide

/-- The JSON text of the sample disclosure. -/
def sampleDisclosureText (records : List Bytes) : String :=
  let reference (path : String) (bytes : Bytes) : String :=
    "\x7b\"path\":\"" ++ path ++ "\",\"sha256\":\"" ++ sha256Hex bytes ++ "\"\x7d"
  let opening (entry : Bytes × Nat) : String :=
    "\x7b\"batch_number\":\"" ++ toString entry.2 ++ "\",\"records\":["
      ++ reference (sha256Hex entry.1 ++ ".cbor") entry.1 ++ "]\x7d"
  let segment := (sampleSealed records).cborBody
  "\x7b\"version\":1,\"ledger_id\":\"b7a1d5e40c6f438e9a75db27c96f31aa\",\"segment_number\":\"0\","
    ++ "\"commitment_profile_id\":\"" ++ commitmentProfileId ++ "\",\"disclosure_class\":\"A\","
    ++ "\"artifacts\":\x7b\"segment_cbor\":" ++ reference "segment.cbor" segment
    ++ ",\"record_batches\":[" ++ ",".intercalate (records.zipIdx.reverse.map opening)
    ++ "],\"tsa_tsr\":" ++ reference "segment.tsr" (sha256Digest segment).bytes
    ++ "\x7d,\"anchoring\":\x7b\"tsa\":\x7b\"status\":\"present\"\x7d\x7d\x7d"

/-- An environment that reads the sample disclosure, and in which a timestamp response is the digest
it was issued for. -/
def disclosureEnvironment (records : List Bytes) : Environment where
  readManifest bytes :=
    if bytes = utf8Bytes (sampleDisclosureText records) then .ok (sampleDisclosure records)
    else .error "expected value at line 1 column 1"
  encodeFingerprint _ := []
  verifyResponse response digest _ :=
    if response = digest.bytes then .ok ⟨none⟩
    else .error "RFC 3161 message imprint does not match the artifact"
  verifyRequest _ _ _ := .error "malformed RFC 3161 request"
  hostFile _ := .error .enoent

/-- The sample disclosure as a directory. -/
def disclosureBundle (records : List Bytes) : Directory :=
  (sampleFiles records).insert manifestName (utf8Bytes (sampleDisclosureText records))

omit [Sha256] in
/-- All of one record is opened. -/
theorem verifyBundleWithPolicy_success_sample :
    letI := Sha256.fips
    ∃ result manifest segment status,
      verifyBundleWithPolicy (disclosureEnvironment [sampleRecord 1])
          (disclosureBundle [sampleRecord 1])
          (selectingPolicy .publicRecompute ∅) = .ok result
        ∧ result.overall = .success
        ∧ result.chainStatus = some status
        ∧ Linked (disclosureBundle [sampleRecord 1]) manifest segment status
        ∧ Disclosed (disclosureBundle [sampleRecord 1]) manifest segment
          (selectingPolicy .publicRecompute ∅) := by
  let := Sha256.fips
  have hrun : (verifyBundleWithPolicy (disclosureEnvironment [sampleRecord 1])
      (disclosureBundle [sampleRecord 1])
      (selectingPolicy .publicRecompute ∅)).toOption.any
      (fun result => result.overall = .success) = true := by
    decide +kernel
  obtain ⟨result, hresult, htest⟩ := Except.exists_ok_of_any hrun
  rw [decide_eq_true_eq] at htest
  obtain ⟨-, manifest, -, segment, status, -, -, -, -, -, -, -, -, hstatus, hlinked, -, hdisclosed,
    -⟩ := verifyBundleWithPolicy_success hresult htest
  exact ⟨result, manifest, segment, status, hresult, htest, hstatus, hlinked, hdisclosed⟩

end

end TrackOne.Evidence
