import TrackOne.Evidence.Disclosure
import TrackOne.Vtl.ProfileId

/-!
# The bundle verifier

`verify_bundle_with_policy` of `apps/trackone-evidence/src/vtl.rs`, with the timestamp channel
(`evaluate_tsa`, `vtl/timestamp.rs`), the derived policy identity (`vtl/policy.rs`) and the result
it reports (`vtl/result.rs`).

The source builds a JSON object; `VerificationResult` has one field per member. An absent member is
`none`, and `failure_reasons` is absent when the set is empty.

* `verifyBundleWithPolicy_eq_ok` says what a run that returned a result has read and concluded.
* `sha256_of_concludeBundle` is the first thing a verdict of success means: the segment bytes have
  the digest the manifest declares.
-/

namespace TrackOne.Evidence

/-! ## The timestamp channel -/

def missingTimestampPolicy (policy : VerifyPolicy) : Option String :=
  if policy.tsaCaFile.isNone then some "RFC 3161 trust anchor is not configured"
  else if policy.tsaCrlsFile.isNone then some "RFC 3161 historical CRL archive is not configured"
  else if policy.tsaPolicyOid.isNone then some "RFC 3161 TSA policy OID is not configured"
  else if policy.tsaSignerCertSha256.isNone then
    some "RFC 3161 signer certificate SHA-256 is not configured"
  else none

def verifyTimestamp (env : Environment) (response : Bytes) (artifactDigest : Digest)
    (policy : VerifyPolicy) : EvidenceResult VerifiedTimestamp := do
  let caFile ← Except.ofOption (bad "RFC 3161 trust anchor is not configured") policy.tsaCaFile
  let crlsFile ← Except.ofOption (bad "RFC 3161 historical CRL archive is not configured")
    policy.tsaCrlsFile
  let policyOid ← Except.ofOption (bad "RFC 3161 TSA policy OID is not configured")
    policy.tsaPolicyOid
  let signerHash ← Except.ofOption (bad "RFC 3161 signer certificate SHA-256 is not configured")
    policy.tsaSignerCertSha256
  let timestampPolicy : TimestampPolicy := {
    trustAnchorsFile := caFile
    intermediatesFile := policy.tsaIntermediatesFile
    crlsFile := crlsFile
    policyOid := policyOid
    signerCertSha256 := signerHash
    opensslBinary := policy.opensslBinary
    maxFutureSkew := policy.maxFutureSkew }
  (env.verifyResponse response artifactDigest timestampPolicy).mapError bad

namespace Conclusions

/-- What `evaluate_tsa` sets together: the status of the channel and its reason. -/
def tsa (conclusions : Conclusions) (status : ChannelStatus) (reason : Option String) :
    Conclusions :=
  { conclusions with tsaStatus := status, tsaReason := reason }

@[simp] theorem failures_tsa (conclusions : Conclusions) (status : ChannelStatus)
    (reason : Option String) : (conclusions.tsa status reason).failures = conclusions.failures :=
  rfl

end Conclusions

section

variable [Sha256]

/-- `request_result`: the request must match the response when there is one, and a response with a
nonce needs one. -/
def verifyTsaRequest (env : Environment) (dir : Directory) (manifest : Manifest)
    (artifactDigest : Digest) (nonce : Option Bytes) : EvidenceResult Unit :=
  match manifest.artifacts.tsaReq with
  | some reference => do
    let request ← dir.referencedArtifact reference
    (env.verifyRequest request artifactDigest nonce).mapError bad
  | none =>
    Except.require (bad "nonce-bearing timestamp response requires tsa_req") nonce.isNone

/-- What `evaluate_tsa` concludes from the bytes of a response. -/
def evaluateResponse (env : Environment) (dir : Directory) (manifest : Manifest)
    (artifactDigest : Digest) (policy : VerifyPolicy) (response : Bytes)
    (conclusions : Conclusions) : Conclusions :=
  match missingTimestampPolicy policy with
  | some reason =>
    ((conclusions.tsa .failed (some reason)).fail .channelFailure).fail .verifierPolicyRejection
  | none =>
    let outcome := do
      let verified ← verifyTimestamp env response artifactDigest policy
      verifyTsaRequest env dir manifest artifactDigest verified.nonce
    match outcome with
    | .ok _ => { conclusions with tsaStatus := .verified }
    | .error error => (conclusions.tsa .failed (some error.toString)).fail .channelFailure

def evaluateTsa (env : Environment) (dir : Directory) (manifest : Manifest)
    (artifactDigest : Digest) (policy : VerifyPolicy) (conclusions : Conclusions) : Conclusions :=
  if manifest.tsaStatus = "present" then
    match manifest.artifacts.tsaTsr with
    | none =>
      (conclusions.tsa .missing (some "timestamp response is absent")).fail .channelFailure
    | some reference =>
      match dir.referencedArtifact reference with
      | .error (.verificationFailed error) =>
        ((conclusions.tsa .failed (some error)).fail .channelFailure).fail .commitmentMismatch
      | .error error =>
        (conclusions.tsa .missing (some error.toString)).fail .channelFailure
      | .ok response =>
        evaluateResponse env dir manifest artifactDigest policy response conclusions
  else if manifest.tsaStatus = "pending" then
    conclusions.tsa .pendingClaim (some "producer_pending_claim")
  else
    (conclusions.tsa .missing (some "timestamp issuance is unavailable")).fail .channelFailure

/-! ## The result -/

def configuredFileSha256 (env : Environment) (path : Option HostPath) (label : String) :
    EvidenceResult (Option String) :=
  match path with
  | none => .ok none
  | some path => do
    let bytes ← env.readFileBounded path maxArchiveMember label
    pure (some (sha256Hex bytes))

/-- The derived identity of a policy: the digest of its complete configuration. -/
def derivedPolicyId (env : Environment) (policy : VerifyPolicy) : EvidenceResult String := do
  let tsaCaSha256 ← configuredFileSha256 env policy.tsaCaFile "RFC 3161 trust anchors"
  let tsaIntermediatesSha256 ←
    configuredFileSha256 env policy.tsaIntermediatesFile "RFC 3161 intermediates"
  let tsaCrlsSha256 ← configuredFileSha256 env policy.tsaCrlsFile "RFC 3161 CRLs"
  let verifierPolicyArtifactSha256 ←
    configuredFileSha256 env policy.verifierPolicyArtifact "verifier policy artifact"
  let fingerprint : PolicyFingerprint := {
    version := 1
    tsaCaSha256, tsaIntermediatesSha256, tsaCrlsSha256
    tsaPolicyOid := policy.tsaPolicyOid
    tsaSignerCertSha256 := policy.tsaSignerCertSha256.map fun digest => hexLower digest.bytes
    opensslBinary := policy.opensslBinary
    maxFutureSkewSeconds := policy.maxFutureSkew.secs
    maxFutureSkewNanoseconds := policy.maxFutureSkew.subsecNanos
    verifierPolicyArtifactSha256
    selectedScope := policy.selectedScope.map VerificationScope.asStr
    selectedBatches := (policy.selectedBatches.image UInt64.toNat).sort (· ≤ ·)
    requireClaimedScope := policy.requireClaimedScope }
  pure ("vtl-policy-sha256-" ++ sha256Hex (env.encodeFingerprint fingerprint))

def effectiveVerifierPolicyId (env : Environment) (policy : VerifyPolicy) :
    EvidenceResult String :=
  match policy.verifierPolicyId with
  | some identifier => .ok identifier
  | none => derivedPolicyId env policy

/-- The verification result, member by member. -/
structure VerificationResult where
  artifactSha256 : String
  manifestSha256 : String
  claimedDisclosureClass : String
  verificationScope : VerificationScope
  tsaStatus : ChannelStatus
  tsaReason : Option String
  verifierPolicyId : String
  overall : Overall
  commitmentProfileId : Option String
  chainStatus : Option ChainStatus
  failureReasons : Finset FailureReason
  verifierPolicySha256 : Option String
deriving DecidableEq

/-- `result_value`. The channel's reason is left out once it is verified. -/
def resultValue (env : Environment) (manifestBytes : Bytes) (manifest : Manifest)
    (artifactBytes : Bytes) (profile : Option String) (policy : VerifyPolicy)
    (conclusions : Conclusions) : EvidenceResult VerificationResult := do
  let verifierPolicyId ← effectiveVerifierPolicyId env policy
  let verifierPolicySha256 ←
    configuredFileSha256 env policy.verifierPolicyArtifact "verifier policy artifact"
  pure {
    artifactSha256 := sha256Hex artifactBytes
    manifestSha256 := sha256Hex manifestBytes
    claimedDisclosureClass := manifest.disclosureClass
    verificationScope := conclusions.scope
    tsaStatus := conclusions.tsaStatus
    tsaReason := if conclusions.tsaStatus = .verified then none else conclusions.tsaReason
    verifierPolicyId
    overall := conclusions.overall
    commitmentProfileId := profile
    chainStatus := conclusions.chainStatus
    failureReasons := conclusions.failures
    verifierPolicySha256 }

/-! ## The verifier -/

def isLowercaseUuid (value : String) : Bool :=
  let bytes := utf8Bytes value
  bytes.length == 36
    && (bytes.zipIdx).all fun (byte, index) =>
      if index = 8 ∨ index = 13 ∨ index = 18 ∨ index = 23 then byte == 0x2d
      else (0x30 ≤ byte && byte ≤ 0x39) || (0x61 ≤ byte && byte ≤ 0x66)

/-- The reason for a segment that does not decode. -/
def decodeFailure (profile : Option String) (error : SegmentDecodeError) : FailureReason :=
  if profile.any fun value => isLowercaseUuid value && value != commitmentProfileId then
    .unsupportedCommitmentProfile
  else match error with
    | .resourceLimit _ => .verifierPolicyRejection
    | _ => .invalidSegmentArtifact

/-- The checks on the segment itself: whether the claimed scope is supported, and the
conclusions. -/
def checkSegment (dir : Directory) (manifest : Manifest) (artifactBytes : Bytes)
    (profile : Option String) (policy : VerifyPolicy) (conclusions : Conclusions) :
    Bool × Conclusions :=
  match decodeSegmentRecord artifactBytes with
  | .error error => (false, conclusions.fail (decodeFailure profile error))
  | .ok segment =>
    let segmentMatchesManifest := segment.ledgerId == manifest.ledgerId
      && toString segment.segmentNumber == manifest.segmentNumber
      && segment.commitmentProfileId == manifest.commitmentProfileId
    let conclusions := conclusions.failIf (!segmentMatchesManifest) .commitmentMismatch
    let conclusions := validateChain dir manifest segment conclusions
    -- a segment that is not the manifest's has its disclosure left unchecked
    if segmentMatchesManifest then validateDisclosure dir manifest segment policy conclusions
    else (false, conclusions)

/-- Everything `verify_bundle_with_policy` concludes from a manifest and the segment bytes. -/
def concludeBundle (env : Environment) (dir : Directory) (manifest : Manifest)
    (artifactBytes : Bytes) (profile : Option String) (policy : VerifyPolicy) : Conclusions :=
  let claimedScope := VerificationScope.forDisclosureClass manifest.disclosureClass
  let selectedScope := policy.scopeFor manifest
  let downscoped := selectedScope.strength < claimedScope.strength
  let conclusions := (Conclusions.new selectedScope).failIf
    (sha256Hex artifactBytes != manifest.artifacts.segmentCbor.sha256) .commitmentMismatch
  let conclusions := conclusions.failIf
    (profile.any fun value => value != manifest.commitmentProfileId) .commitmentMismatch
  let (claimedScopeSupported, conclusions) :=
    checkSegment dir manifest artifactBytes profile policy conclusions
  let conclusions := conclusions.failIf
    (downscoped && policy.requireClaimedScope && claimedScopeSupported) .scopeNotExercised
  evaluateTsa env dir manifest (sha256Digest artifactBytes) policy conclusions

def verifyBundleWithPolicy (env : Environment) (dir : Directory) (policy : VerifyPolicy) :
    EvidenceResult VerificationResult := do
  validatePolicy env policy
  let manifestBytes ← dir.readFileBounded manifestName maxArchiveMember "producer manifest"
  let manifest ← parseManifest env manifestBytes
  manifest.artifacts.extensions.values.forM fun reference => do
    let _ ← dir.referencedArtifact reference
  let artifactBytes ← dir.safeRead manifest.artifacts.segmentCbor.path
  let profile := (decodeSegmentProfileId artifactBytes).toOption
  resultValue env manifestBytes manifest artifactBytes profile policy
    (concludeBundle env dir manifest artifactBytes profile policy)

/-! ## What a result stands for -/

variable {env : Environment} {dir : Directory} {policy : VerifyPolicy} {manifest : Manifest}

omit [Sha256] in
theorem Conclusions.overall_eq_success {conclusions : Conclusions}
    (h : conclusions.overall = .success) : conclusions.failures = ∅ := by
  unfold overall at h
  split_ifs at h with hfailures
  exact not_not.mp hfailures

theorem failures_subset_evaluateTsa (artifactDigest : Digest) (conclusions : Conclusions) :
    conclusions.failures
      ⊆ (evaluateTsa env dir manifest artifactDigest policy conclusions).failures := by
  have hfail : ∀ status reason failure,
      conclusions.failures ⊆ ((conclusions.tsa status reason).fail failure).failures :=
    fun status reason failure => (conclusions.tsa status reason).failures_subset_fail failure
  have hfail₂ : ∀ status reason failure failure', conclusions.failures
      ⊆ (((conclusions.tsa status reason).fail failure).fail failure').failures :=
    fun status reason failure failure' =>
      (hfail status reason failure).trans (Conclusions.failures_subset_fail _ failure')
  unfold evaluateTsa evaluateResponse
  -- every arm ends in one of the two, or changes only the status of the channel
  split_ifs
  · cases manifest.artifacts.tsaTsr with
    | none => exact hfail _ _ _
    | some reference =>
      dsimp only
      cases dir.referencedArtifact reference with
      | error error => cases error <;> first | exact hfail₂ _ _ _ _ | exact hfail _ _ _
      | ok response =>
        dsimp only
        cases missingTimestampPolicy policy with
        | some reason => exact hfail₂ _ _ _ _
        | none =>
          dsimp only
          split
          · exact Finset.Subset.refl _
          · exact hfail _ _ _
  · exact Finset.Subset.refl _
  · exact hfail _ _ _

theorem failures_subset_checkSegment (artifactBytes : Bytes) (profile : Option String)
    (conclusions : Conclusions) :
    conclusions.failures
      ⊆ (checkSegment dir manifest artifactBytes profile policy conclusions).2.failures := by
  unfold checkSegment
  cases decodeSegmentRecord artifactBytes with
  | error error => exact conclusions.failures_subset_fail _
  | ok segment =>
    dsimp only
    have hchain : ∀ condition, conclusions.failures ⊆ (validateChain dir manifest segment
        (conclusions.failIf condition .commitmentMismatch)).failures :=
      fun condition => (conclusions.failures_subset_failIf condition .commitmentMismatch).trans
        (failures_subset_validateChain _)
    split_ifs
    · exact (hchain _).trans (failures_subset_validateDisclosure policy _)
    · exact hchain _

/-- A result is made of the conclusions and of the identity of the policy. -/
theorem resultValue_eq_ok {manifestBytes artifactBytes : Bytes} {profile : Option String}
    {conclusions : Conclusions} {result : VerificationResult} :
    resultValue env manifestBytes manifest artifactBytes profile policy conclusions = .ok result
      ↔ ∃ verifierPolicyId verifierPolicySha256,
        effectiveVerifierPolicyId env policy = .ok verifierPolicyId
          ∧ configuredFileSha256 env policy.verifierPolicyArtifact "verifier policy artifact"
            = .ok verifierPolicySha256
          ∧ result = {
              artifactSha256 := sha256Hex artifactBytes
              manifestSha256 := sha256Hex manifestBytes
              claimedDisclosureClass := manifest.disclosureClass
              verificationScope := conclusions.scope
              tsaStatus := conclusions.tsaStatus
              tsaReason :=
                if conclusions.tsaStatus = .verified then none else conclusions.tsaReason
              verifierPolicyId
              overall := conclusions.overall
              commitmentProfileId := profile
              chainStatus := conclusions.chainStatus
              failureReasons := conclusions.failures
              verifierPolicySha256 } := by
  simp only [resultValue, Except.bind_eq_ok, pure, Except.pure, Except.ok.injEq]
  constructor
  · rintro ⟨verifierPolicyId, hid, verifierPolicySha256, hsha, rfl⟩
    exact ⟨verifierPolicyId, verifierPolicySha256, hid, hsha, rfl⟩
  · rintro ⟨verifierPolicyId, verifierPolicySha256, hid, hsha, rfl⟩
    exact ⟨verifierPolicyId, hid, verifierPolicySha256, hsha, rfl⟩

/-- A run returns a result exactly when the policy is valid, the manifest, the extensions and the
segment can be read, and the policy can be identified. -/
theorem verifyBundleWithPolicy_iff {result : VerificationResult} :
    verifyBundleWithPolicy env dir policy = .ok result
      ↔ validatePolicy env policy = .ok ()
        ∧ ∃ manifestBytes manifest artifactBytes,
          dir[manifestName]? = some manifestBytes
            ∧ manifestBytes.length ≤ maxArchiveMember
            ∧ parseManifest env manifestBytes = .ok manifest
            ∧ (∀ reference ∈ manifest.artifacts.extensions.values,
                ∃ bytes, dir.referencedArtifact reference = .ok bytes)
            ∧ dir.safeRead manifest.artifacts.segmentCbor.path = .ok artifactBytes
            ∧ resultValue env manifestBytes manifest artifactBytes
              (decodeSegmentProfileId artifactBytes).toOption policy
              (concludeBundle env dir manifest artifactBytes
                (decodeSegmentProfileId artifactBytes).toOption policy) = .ok result := by
  have hread : ∀ reference : ArtifactRef,
      (do let _ ← dir.referencedArtifact reference : EvidenceResult Unit) = .ok ()
        ↔ ∃ bytes, dir.referencedArtifact reference = .ok bytes := by
    intro reference
    rw [Except.bind_eq_ok]
    simp [pure, Except.pure]
  simp only [verifyBundleWithPolicy, Except.bind_eq_ok, Directory.readFileBounded_eq_ok]
  constructor
  · rintro ⟨_, hpolicy, manifestBytes, ⟨hfile, hsize⟩, manifest, hmanifest, _, hextensions,
      artifactBytes, hartifact, hresult⟩
    refine ⟨hpolicy, manifestBytes, manifest, artifactBytes, hfile, hsize, hmanifest, ?_, hartifact,
      hresult⟩
    intro reference hreference
    exact (hread reference).mp (Except.forM_eq_ok.mp hextensions reference hreference)
  · rintro ⟨hpolicy, manifestBytes, manifest, artifactBytes, hfile, hsize, hmanifest, hextensions,
      hartifact, hresult⟩
    refine ⟨(), hpolicy, manifestBytes, ⟨hfile, hsize⟩, manifest, hmanifest, (), ?_, artifactBytes,
      hartifact, hresult⟩
    exact Except.forM_eq_ok.mpr fun reference hreference =>
      (hread reference).mpr (hextensions reference hreference)

/-- A result was computed from the manifest and the segment file in the directory, with every
extension there. -/
theorem verifyBundleWithPolicy_eq_ok {result : VerificationResult}
    (h : verifyBundleWithPolicy env dir policy = .ok result) :
    ∃ manifestBytes manifest artifactBytes,
      dir[manifestName]? = some manifestBytes
        ∧ parseManifest env manifestBytes = .ok manifest
        ∧ (∀ reference ∈ manifest.artifacts.extensions.values,
            ∃ bytes, dir.referencedArtifact reference = .ok bytes)
        ∧ dir.safeRead manifest.artifacts.segmentCbor.path = .ok artifactBytes
        ∧ result.artifactSha256 = sha256Hex artifactBytes
        ∧ result.chainStatus = (concludeBundle env dir manifest artifactBytes
            (decodeSegmentProfileId artifactBytes).toOption policy).chainStatus
        ∧ result.overall = (concludeBundle env dir manifest artifactBytes
            (decodeSegmentProfileId artifactBytes).toOption policy).overall := by
  obtain ⟨-, manifestBytes, manifest, artifactBytes, hfile, -, hmanifest, hextensions, hartifact,
    hresult⟩ := verifyBundleWithPolicy_iff.mp h
  obtain ⟨_, _, -, -, rfl⟩ := resultValue_eq_ok.mp hresult
  exact ⟨manifestBytes, manifest, artifactBytes, hfile, hmanifest, hextensions, hartifact, rfl, rfl,
    rfl⟩

/-- Conclusions without a failure are about a segment with the declared digest: the mismatch is
noted first, and no later check takes it back. -/
theorem sha256_of_concludeBundle {artifactBytes : Bytes} {profile : Option String}
    (h : (concludeBundle env dir manifest artifactBytes profile policy).failures = ∅) :
    sha256Hex artifactBytes = manifest.artifacts.segmentCbor.sha256 := by
  have hfirst : ((Conclusions.new (policy.scopeFor manifest)).failIf
      (sha256Hex artifactBytes != manifest.artifacts.segmentCbor.sha256)
      .commitmentMismatch).failures = ∅ := by
    rw [← Finset.subset_empty, ← h]
    unfold concludeBundle
    apply (Conclusions.failures_subset_failIf _ _ _).trans
    apply (failures_subset_checkSegment artifactBytes profile _).trans
    apply (Conclusions.failures_subset_failIf _ _ _).trans
    exact failures_subset_evaluateTsa _ _
  simpa using (Conclusions.failures_failIf_eq_empty.mp hfirst).2

/-! ## The profile read ahead -/

/-- The profile read from the bytes of a segment is never a second opinion. -/
theorem decodeSegmentProfileId_of_decode {artifactBytes : Bytes} {segment : SegmentRecord}
    (h : decodeSegmentRecord artifactBytes = .ok segment) :
    decodeSegmentProfileId artifactBytes = .ok segment.commitmentProfileId := by
  have hbytes := decodeSegmentRecord_eq_ok.mp h
  obtain ⟨hvalid, rfl⟩ := SegmentRecord.canonicalCborBytes_eq_ok.mp hbytes
  exact decodeSegmentProfileId_cborBody hvalid

/-- For a segment that decodes, the profile read ahead changes no conclusion: a profile other than
the manifest's is a mismatch of the segment itself. -/
theorem concludeBundle_profile {artifactBytes : Bytes} {segment : SegmentRecord}
    (h : decodeSegmentRecord artifactBytes = .ok segment) :
    concludeBundle env dir manifest artifactBytes (decodeSegmentProfileId artifactBytes).toOption
        policy
      = concludeBundle env dir manifest artifactBytes none policy := by
  have hprofile : (decodeSegmentProfileId artifactBytes).toOption
      = some segment.commitmentProfileId := by
    rw [decodeSegmentProfileId_of_decode h]
    rfl
  have hsegment : ∀ profile conclusions,
      checkSegment dir manifest artifactBytes profile policy conclusions
        = checkSegment dir manifest artifactBytes none policy conclusions := by
    intro profile conclusions
    simp only [checkSegment, h]
  have hagain : ∀ conclusions : Conclusions, segment.commitmentProfileId
      ≠ manifest.commitmentProfileId →
      checkSegment dir manifest artifactBytes none policy (conclusions.fail .commitmentMismatch)
        = checkSegment dir manifest artifactBytes none policy conclusions := by
    intro conclusions hne
    have hidem : (conclusions.fail .commitmentMismatch).failIf true .commitmentMismatch
        = conclusions.failIf true .commitmentMismatch := by
      simp [Conclusions.failIf, Conclusions.fail]
    simp only [checkSegment, h, beq_false_of_ne hne, Bool.and_false, Bool.not_false, hidem]
  unfold concludeBundle
  rw [hprofile]
  simp only [Option.any_some, Option.any_none, hsegment (some segment.commitmentProfileId)]
  by_cases hsame : segment.commitmentProfileId = manifest.commitmentProfileId
  · rw [hsame, bne_self_eq_false]
  · rw [(bne_iff_ne).mpr hsame, show ∀ conclusions : Conclusions,
      conclusions.failIf true .commitmentMismatch = conclusions.fail .commitmentMismatch
        from fun _ => rfl, hagain _ hsame]
    rfl

/-- **The permissive profile reader agrees with the strict parser**, and on any bytes at all it only
moves forward inside them. -/
theorem profile_reader_agrees :
    (∀ (b : Bytes) (entries : List (String × CborValue)) (budget budget' : Nat),
        parseCborValue rootLevels budget b = .ok (.map entries, budget', []) →
        ∀ member text, extractTextMapMember b member = some text ↔ (member, .text text) ∈ entries)
      ∧ (∀ (b : Bytes) (segment : SegmentRecord), decodeSegmentRecord b = .ok segment →
        decodeSegmentProfileId b = .ok segment.commitmentProfileId
          ∧ ∀ env dir manifest policy,
            concludeBundle env dir manifest b (decodeSegmentProfileId b).toOption policy
              = concludeBundle env dir manifest b none policy)
      ∧ (∀ levels input rest, skipPermissiveItem levels input = some rest →
        ∃ read, read ≠ [] ∧ input = read ++ rest)
      ∧ (∀ input text rest, readPermissiveText input = some (text, rest) →
        ∃ read, read ≠ [] ∧ input = read ++ (utf8Bytes text ++ rest))
      ∧ (∀ levels count input, input.length < count →
        skipTimes (skipPermissiveItem levels) count input = none)
      ∧ ∀ member count input, findTextMember member count input
        = findTextMember member (min count (input.length + 1)) input := by
  refine ⟨?_, fun b segment h => ⟨decodeSegmentProfileId_of_decode h, ?_⟩,
    fun levels => skipPermissiveItem_advances levels,
    fun input text rest h => readPermissiveText_eq_some h,
    fun levels count input h => skipTimes_of_length_lt h, ?_⟩
  · intro b entries budget budget' h member text
    obtain ⟨hdet, rfl⟩ := parseCborValue_sound rootLevels _ _ _ _ _ h
    rw [List.append_nil]
    exact extractTextMapMember_encode (by decide) hdet
  · exact fun env dir manifest policy => concludeBundle_profile h
  · intro member count input
    rcases Nat.lt_or_ge input.length count with hlt | hge
    · exact findTextMember_of_length_lt hlt (by omega)
    · rw [Nat.min_eq_left (by omega)]

omit [Sha256] in
/-- A map with one text member. -/
theorem profile_reader_agrees_sample :
    letI := Sha256.fips
    parseCborValue rootLevels 5 [0xa1, 0x61, 0x6b, 0x61, 0x76]
      = .ok (.map [("k", .text "v")], 2, [])
      ∧ extractTextMapMember [0xa1, 0x61, 0x6b, 0x61, 0x76] "k" = some "v" := by
  let := Sha256.fips
  have hparse : parseCborValue rootLevels 5 [0xa1, 0x61, 0x6b, 0x61, 0x76]
      = .ok (.map [("k", .text "v")], 2, []) := rfl
  exact ⟨hparse, (profile_reader_agrees.1 _ _ _ _ hparse "k" "v").mpr List.mem_cons_self⟩

end

end TrackOne.Evidence
