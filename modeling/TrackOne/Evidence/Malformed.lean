import TrackOne.Evidence.Verify
import TrackOne.Vtl.Exhaustion

/-!
# Malformed segments and limits

How `verify_bundle_with_policy` tells a segment that is malformed from one that is beyond the limits
of the decoder. It is a policy rejection when the decoder reports a limit, so the two are kept apart
as long as the decoder reports a limit for one that is met. `malformedApart_iff`: it does, but for
the segments that end where an item of one byte is owed.
-/

namespace TrackOne.Evidence

variable [Sha256]

/-- A limit is reported only where one is met, and a segment within the limits that does not decode
adds no policy rejection to the conclusions. -/
def MalformedApart (bytes : Bytes) : Prop :=
  (∀ message, decodeSegmentRecord bytes = .error (.resourceLimit message) → LimitMet bytes)
    ∧ (¬ LimitMet bytes → ∀ error, decodeSegmentRecord bytes = .error error →
        ∀ (dir : Directory) (manifest : Manifest) (policy : VerifyPolicy)
          (conclusions : Conclusions),
          .verifierPolicyRejection ∈ (checkSegment dir manifest bytes
              (decodeSegmentProfileId bytes).toOption policy conclusions).2.failures →
            .verifierPolicyRejection ∈ conclusions.failures)

omit [Sha256] in
/-- A decoding error is a policy rejection only when it reports a limit. -/
theorem resourceLimit_of_decodeFailure {profile : Option String} {error : SegmentDecodeError}
    (h : decodeFailure profile error = .verifierPolicyRejection) :
    ∃ message, error = .resourceLimit message := by
  unfold decodeFailure at h
  split_ifs at h
  cases error with
  | resourceLimit message => exact ⟨message, rfl⟩
  | _ => cases h

/-- The decoder and the verifier keep malformed segments and limits apart, except where the items of
one byte of a segment end with another item owed. -/
theorem malformedApart_iff (bytes : Bytes) :
    MalformedApart bytes ↔ oneByteItem rootLevels bytes ≠ .owed := by
  constructor
  · rintro ⟨hlimit, -⟩ howed
    obtain ⟨hdecode, hwithin⟩ := decodeSegmentRecord_of_owed howed
    exact hwithin (hlimit _ hdecode)
  · intro hrun
    have hlimit : ∀ message, decodeSegmentRecord bytes = .error (.resourceLimit message) →
        LimitMet bytes := fun message => limitMet_of_resourceLimit hrun
    refine ⟨hlimit, fun hwithin error hdecode dir manifest policy conclusions hmem => ?_⟩
    simp only [checkSegment, hdecode, Conclusions.fail, Finset.mem_insert] at hmem
    rcases hmem with hfailure | hmem
    · obtain ⟨message, rfl⟩ := resourceLimit_of_decodeFailure hfailure.symm
      exact absurd (hlimit message hdecode) hwithin
    · exact hmem

/-- There the verifier records a policy rejection, unless the bytes name another profile. -/
theorem policyRejection_of_owed {bytes : Bytes} (howed : oneByteItem rootLevels bytes = .owed)
    (hprofile : (decodeSegmentProfileId bytes).toOption = none) (dir : Directory)
    (manifest : Manifest)
    (policy : VerifyPolicy) (conclusions : Conclusions) :
    .verifierPolicyRejection ∈ (checkSegment dir manifest bytes
      (decodeSegmentProfileId bytes).toOption policy conclusions).2.failures := by
  simp only [checkSegment, (decodeSegmentRecord_of_owed howed).1, hprofile]
  exact Finset.mem_insert_self _ _

omit [Sha256] in
/-- An array of two that ends behind its first item, and no bytes at all: both are truncated and
within the limits. -/
theorem malformedApart_truncated :
    letI := Sha256.fips
    (decodeSegmentRecord [0x82, 0x81, 0x00]
          = .error (.resourceLimit "CBOR item budget exceeded")
        ∧ ¬ LimitMet [0x82, 0x81, 0x00]
        ∧ ∀ dir manifest policy conclusions,
          .verifierPolicyRejection ∈ (checkSegment dir manifest [0x82, 0x81, 0x00]
            (decodeSegmentProfileId [0x82, 0x81, 0x00]).toOption policy conclusions).2.failures)
      ∧ ¬ MalformedApart [0x82, 0x81, 0x00] ∧ ¬ MalformedApart [] := by
  let := Sha256.fips
  have howed : oneByteItem rootLevels [0x82, 0x81, 0x00] = .owed := by decide
  have hempty : oneByteItem rootLevels [] = .owed := by decide
  obtain ⟨hdecode, hwithin⟩ := decodeSegmentRecord_of_owed howed
  obtain ⟨hdecode', hwithin'⟩ := decodeSegmentRecord_of_owed hempty
  refine ⟨⟨hdecode, hwithin, policyRejection_of_owed howed (by decide +kernel)⟩, ?_, ?_⟩
  · exact fun h => hwithin (h.1 _ hdecode)
  · exact fun h => hwithin' (h.1 _ hdecode')

end TrackOne.Evidence
