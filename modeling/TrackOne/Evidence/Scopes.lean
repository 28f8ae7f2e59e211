import TrackOne.Evidence.Verdict

/-!
# Weaker scopes

A verifier that may choose its scope can ask for less than the manifest claims. Two runs at
different scopes open different files and compare different pairs of batches; what they share is
everything before the disclosure check and everything after it.

* `checked_of_concludeBundle` and `concludeBundle_of_checked`: a run without failures before the
  timestamp channel is `SegmentChecked`, and its conclusions are those of the channel alone.
* `ordered_iff`: the comparison of neighbours in number order, free of the order in which the
  batches were opened. A subset of ordered batches is ordered.
* `disclosureFailures_anchorOnly` and `disclosureFailures_subset`: the disclosure check passes at
  the weaker scope.
-/

namespace TrackOne.Evidence

/-- The same policy at a scope of the verifier's choice. -/
def VerifyPolicy.selecting (policy : VerifyPolicy) (scope : VerificationScope)
    (batches : Finset UInt64) : VerifyPolicy :=
  { policy with selectedScope := some scope, selectedBatches := batches }

section

variable [Sha256] {env : Environment} {dir : Directory} {manifest : Manifest}
  {segment : SegmentRecord} {policy : VerifyPolicy} {artifactBytes : Bytes}

/-! ## The checks before the timestamp channel -/

variable (dir manifest artifactBytes policy segment) in
/-- The segment bytes are the manifest's, and chain and disclosure hold. -/
structure SegmentChecked (status : ChainStatus) : Prop where
  digest : sha256Hex artifactBytes = manifest.artifacts.segmentCbor.sha256
  decoded : decodeSegmentRecord artifactBytes = .ok segment
  ledgerId : segment.ledgerId = manifest.ledgerId
  segmentNumber : toString segment.segmentNumber = manifest.segmentNumber
  profile : segment.commitmentProfileId = manifest.commitmentProfileId
  linked : Linked dir manifest segment status
  disclosed : disclosureFailures dir manifest segment policy (policy.scopeFor manifest) = ∅

theorem checked_of_concludeBundle {profile : Option String}
    (h : (concludeBundle env dir manifest artifactBytes profile policy).failures = ∅) :
    ∃ segment status, SegmentChecked dir manifest segment policy artifactBytes status := by
  have hdigest := sha256_of_concludeBundle h
  unfold concludeBundle at h
  dsimp only at h
  rw [← Finset.subset_empty] at h
  have hbefore := Finset.subset_empty.mp ((failures_subset_evaluateTsa _ _).trans h)
  obtain ⟨hsegment, -⟩ := Conclusions.failures_failIf_eq_empty.mp hbefore
  obtain ⟨segment, status, hdecode, hledger, hnumber, hprofile, hlinked, hdisclosure, -⟩ :=
    checkSegment_clean hsegment
  rw [Conclusions.scope_failIf, Conclusions.scope_failIf] at hdisclosure
  exact ⟨segment, status, hdigest, hdecode, hledger, hnumber, hprofile, hlinked, hdisclosure⟩

/-- Once the segment is checked, what is left to conclude is the timestamp channel. -/
theorem concludeBundle_of_checked {status : ChainStatus}
    (h : SegmentChecked dir manifest segment policy artifactBytes status)
    (hscope : policy.requireClaimedScope = true →
      (VerificationScope.forDisclosureClass manifest.disclosureClass).strength
        ≤ (policy.scopeFor manifest).strength) :
    concludeBundle env dir manifest artifactBytes (decodeSegmentProfileId artifactBytes).toOption
        policy
      = evaluateTsa env dir manifest (sha256Digest artifactBytes) policy
        { Conclusions.new (policy.scopeFor manifest) with chainStatus := some status } := by
  have hprofile : (decodeSegmentProfileId artifactBytes).toOption
      = some manifest.commitmentProfileId := by
    rw [decodeSegmentProfileId_of_decode h.decoded, ← h.profile]
    rfl
  have hchecked : checkSegment dir manifest artifactBytes
        (decodeSegmentProfileId artifactBytes).toOption policy
        (Conclusions.new (policy.scopeFor manifest))
      = (true, { Conclusions.new (policy.scopeFor manifest) with chainStatus := some status }) := by
    have hscope' : ({ Conclusions.new (policy.scopeFor manifest) with
        chainStatus := some status } : Conclusions).scope = policy.scopeFor manifest := rfl
    unfold checkSegment
    rw [h.decoded]
    dsimp only
    simp only [h.ledgerId, h.segmentNumber, h.profile, beq_self_eq_true, Bool.and_self,
      Bool.not_true, if_true]
    rw [show (Conclusions.new (policy.scopeFor manifest)).failIf false .commitmentMismatch
      = Conclusions.new (policy.scopeFor manifest) from rfl, validateChain_of_linked h.linked,
      validateDisclosure_adding, hscope', validateDisclosure_of_failures h.disclosed, h.disclosed,
      Conclusions.adding_empty]
  -- the claimed scope is not required, or it is met
  have hskipped : (decide ((policy.scopeFor manifest).strength
      < (VerificationScope.forDisclosureClass manifest.disclosureClass).strength)
        && policy.requireClaimedScope && true) = false := by
    cases hrequired : policy.requireClaimedScope with
    | false => simp
    | true => simpa using hscope hrequired
  -- the digest, the profile and the segment pass, and no failure was added on the way
  unfold concludeBundle
  simp only [h.digest, bne_self_eq_false]
  rw [show (Conclusions.new (policy.scopeFor manifest)).failIf false .commitmentMismatch
    = Conclusions.new (policy.scopeFor manifest) from rfl]
  have hany : ((decodeSegmentProfileId artifactBytes).toOption.any
      fun value => value != manifest.commitmentProfileId) = false := by
    rw [hprofile]
    simp
  rw [hany, show (Conclusions.new (policy.scopeFor manifest)).failIf false .commitmentMismatch
    = Conclusions.new (policy.scopeFor manifest) from rfl, hchecked]
  dsimp only
  rw [hskipped]
  rfl

/-- The channel does not look at the scope: it concludes the same at every one. -/
theorem evaluateTsa_selecting (digest : Digest) (scope : VerificationScope)
    (batches : Finset UInt64) (conclusions : Conclusions) :
    evaluateTsa env dir manifest digest (policy.selecting scope batches)
        { conclusions with scope := scope }
      = { evaluateTsa env dir manifest digest policy conclusions with scope := scope } := by
  have hmissing : missingTimestampPolicy (policy.selecting scope batches)
      = missingTimestampPolicy policy := rfl
  have hverify : ∀ response, verifyTimestamp env response digest (policy.selecting scope batches)
      = verifyTimestamp env response digest policy := fun _ => rfl
  unfold evaluateTsa evaluateResponse
  rw [hmissing]
  split_ifs
  · cases manifest.artifacts.tsaTsr with
    | none => rfl
    | some reference =>
      dsimp only
      cases dir.referencedArtifact reference with
      | error error => cases error <;> rfl
      | ok response =>
        dsimp only
        cases missingTimestampPolicy policy with
        | some reason => rfl
        | none =>
          dsimp only
          rw [hverify]
          split <;> rfl
  · rfl
  · rfl

/-! ## Neighbours -/

omit [Sha256] in
/-- In a list in strict number order only neighbours can be out of order. -/
theorem outOfOrder_zip_tail_iff {batches : List (Nat × List Digest)}
    (h : batches.Pairwise fun left right => left.1 < right.1) :
    (∀ pair ∈ batches.zip batches.tail, outOfOrder pair.1 pair.2 = false)
      ↔ ∀ left ∈ batches, ∀ right ∈ batches, outOfOrder left right = false := by
  have hapart : ∀ {left right : Nat × List Digest}, left.1 + 1 ≠ right.1 →
      outOfOrder left right = false := by
    intro left right hne
    simp [outOfOrder, hne]
  constructor
  · intro hzip
    induction batches with
    | nil => simp
    | cons first others ih =>
      obtain ⟨hfirst, hothers⟩ := List.pairwise_cons.mp h
      have hrest : ∀ left ∈ others, ∀ right ∈ others, outOfOrder left right = false := by
        apply ih hothers
        intro pair hpair
        cases others with
        | nil => simp at hpair
        | cons second others => exact hzip pair (List.mem_cons_of_mem _ hpair)
      -- the first batch: only the second can follow it
      have hleft : ∀ right ∈ others, outOfOrder first right = false := by
        intro right hright
        cases others with
        | nil => cases hright
        | cons second others =>
          rcases List.mem_cons.mp hright with rfl | hlater
          · exact hzip (first, right) List.mem_cons_self
          · have hlt := (List.pairwise_cons.mp hothers).1 right hlater
            have hlt' := hfirst second List.mem_cons_self
            exact hapart (by omega)
      intro left hl right hr
      rcases List.mem_cons.mp hl with rfl | hl' <;> rcases List.mem_cons.mp hr with rfl | hr'
      · exact hapart (by omega)
      · exact hleft right hr'
      · have hlt := hfirst left hl'
        exact hapart (by omega)
      · exact hrest left hl' right hr'
  · intro hall pair hpair
    obtain ⟨hl, hr⟩ := List.of_mem_zip hpair
    exact hall _ hl _ (List.mem_of_mem_tail hr)

theorem pairwise_inOrder {batches : List (UInt64 × List Bytes)}
    (hnodup : (batches.map Prod.fst).Nodup) :
    (inOrder batches).Pairwise fun left right => left.1 < right.1 := by
  have hle : (inOrder batches).Pairwise fun left right => decide (left.1 ≤ right.1) = true :=
    List.pairwise_mergeSort (fun a b c hab hbc => by simp at *; omega)
      (fun a b => by simp; omega) _
  have hne : ((inOrder batches).map Prod.fst).Nodup := by
    refine ((List.mergeSort_perm _ _).map Prod.fst).nodup_iff.mpr ?_
    have hmap : (batches.map sortedBatch).map Prod.fst
        = (batches.map Prod.fst).map UInt64.toNat := by
      simp [sortedBatch, Function.comp_def]
    rw [hmap]
    exact hnodup.map fun a b hab => UInt64.toNat_inj.mp hab
  rw [List.Nodup, List.pairwise_map] at hne
  refine hle.imp₂ (fun left right hle hne => ?_) hne
  exact lt_of_le_of_ne (of_decide_eq_true hle) hne

/-- Whether neighbours are in order does not depend on the order in which batches were opened. -/
theorem ordered_iff {batches : List (UInt64 × List Bytes)}
    (hnodup : (batches.map Prod.fst).Nodup) :
    (∀ pair ∈ (inOrder batches).zip (inOrder batches).tail, outOfOrder pair.1 pair.2 = false)
      ↔ ∀ left ∈ batches, ∀ right ∈ batches,
        outOfOrder (sortedBatch left) (sortedBatch right) = false := by
  rw [outOfOrder_zip_tail_iff (pairwise_inOrder hnodup)]
  simp only [inOrder, List.mem_mergeSort, List.mem_map, forall_exists_index, and_imp,
    forall_apply_eq_imp_iff₂]

/-! ## The disclosure check at a weaker scope -/

omit [Sha256] in
theorem exists_of_forall₂_sublist {α β : Type} {r : α → β → Prop} {xs xs' : List α} {ys : List β}
    (hsub : xs'.Sublist xs) (h : List.Forall₂ r xs ys) :
    ∃ ys', ys'.Sublist ys ∧ List.Forall₂ r xs' ys' := by
  induction hsub generalizing ys with
  | slnil => exact ⟨[], List.nil_sublist _, .nil⟩
  | cons x _ ih =>
    cases h with
    | cons _ hrest =>
      obtain ⟨ys', hsub', h'⟩ := ih hrest
      exact ⟨ys', hsub'.cons _, h'⟩
  | cons_cons x _ ih =>
    cases h with
    | cons hfirst hrest =>
      obtain ⟨ys', hsub', h'⟩ := ih hrest
      exact ⟨_ :: ys', hsub'.cons_cons _, .cons hfirst h'⟩

theorem map_fst_of_read {openings : List (UInt64 × RecordBatchOpening)}
    {batches : List (UInt64 × List Bytes)}
    (h : List.Forall₂ (BatchRead dir segment) openings batches) :
    batches.map Prod.fst = openings.map Prod.fst := by
  induction h with
  | nil => rfl
  | cons hread _ ih => simp [hread.number, ih]

omit [Sha256] in
theorem Numbered.nodup_consumed {openings : List RecordBatchOpening} {numbers : List UInt64}
    {batchCount : Nat} (h : Numbered batchCount openings numbers) (consume : Finset UInt64) :
    ((consumedOpenings consume (numbers.zip openings)).map Prod.fst).Nodup := by
  have hfst : (numbers.zip openings).map Prod.fst = numbers := List.map_fst_zip h.length_eq.ge
  exact (hfst ▸ h.nodup).sublist (List.filter_sublist.map Prod.fst)

/-- A part of what recomputes at one scope recomputes at the scope of disclosed batches. -/
theorem Recomputed.of_subset {scope : VerificationScope} {openings : List RecordBatchOpening}
    {numbers : List UInt64} {batches : List (UInt64 × List Bytes)} {batchCount : Nat}
    (hnumbered : Numbered batchCount openings numbers) {consume consume' : Finset UInt64}
    (hsub : consume' ⊆ consume)
    (h : Recomputed dir segment scope (consumedOpenings consume (numbers.zip openings)) batches) :
    ∃ batches', Recomputed dir segment .disclosedBatchRecompute
      (consumedOpenings consume' (numbers.zip openings)) batches' := by
  have hsublist : (consumedOpenings consume' (numbers.zip openings)).Sublist
      (consumedOpenings consume (numbers.zip openings)) := by
    apply List.monotone_filter_right
    intro opening hopening
    simp only [decide_eq_true_eq] at hopening ⊢
    exact hsub hopening
  obtain ⟨batches', hbatches, hread⟩ := exists_of_forall₂_sublist hsublist h.read
  refine ⟨batches', hread, ?_, by simp⟩
  have hordered := (ordered_iff (map_fst_of_read h.read ▸ hnumbered.nodup_consumed consume)).mp
    h.ordered
  refine (ordered_iff (map_fst_of_read hread ▸ hnumbered.nodup_consumed consume')).mpr ?_
  intro left hleft right hright
  exact hordered left (hbatches.subset hleft) right (hbatches.subset hright)

/-- What passes at any scope passes where nothing is opened. -/
theorem disclosureFailures_anchorOnly {policy' : VerifyPolicy} {scope : VerificationScope}
    (h : disclosureFailures dir manifest segment policy scope = ∅) :
    disclosureFailures dir manifest segment policy' .anchorOnly = ∅ := by
  obtain ⟨numbers, hshaped, -⟩ :=
    validateDisclosure_clean.mp ⟨validateDisclosure_of_failures h, h⟩
  exact (validateDisclosure_clean.mpr ⟨numbers, hshaped, .inl rfl⟩).2

/-- What passes at public scope passes for every non-empty proper subset of the batches. -/
theorem disclosureFailures_subset (hvalid : segment.validateDetailed = .ok ())
    {policy' : VerifyPolicy} (hcount : 1 < segment.batchRoots.length)
    (hne : policy'.selectedBatches.Nonempty)
    (hbatches : policy'.selectedBatches.image UInt64.toNat
      ⊂ Finset.range segment.batchRoots.length)
    (h : disclosureFailures dir manifest segment policy .publicRecompute = ∅) :
    disclosureFailures dir manifest segment policy' .disclosedBatchRecompute = ∅ := by
  obtain ⟨numbers, hshaped, hconsume⟩ :=
    validateDisclosure_clean.mp ⟨validateDisclosure_of_failures h, h⟩
  rcases hconsume with hnothing | ⟨consume, batches, hconsume, hrecomputed⟩
  · exact absurd hnothing consumeFor_public_ne_nothing
  obtain ⟨hclass, rfl⟩ := consume_of_consumeFor_public hconsume
  -- class A opens every batch, so the selected ones are among them
  have hrange := perm_range_of_nodup hshaped.numbered.nodup hshaped.numbered.lt
    (hshaped.length_of_classA hvalid hclass)
  have hselected : policy'.selectedBatches ⊆ numbers.toFinset := by
    intro number hnumber
    have hmem := hbatches.1 (Finset.mem_image_of_mem UInt64.toNat hnumber)
    rw [Finset.mem_range, ← List.mem_range, ← hrange.mem_iff, List.mem_map] at hmem
    obtain ⟨number', hmem', heq⟩ := hmem
    rw [List.mem_toFinset, ← UInt64.toNat_inj.mp heq]
    exact hmem'
  have hcard : policy'.selectedBatches.card < segment.batchRoots.length := by
    have hlt := Finset.card_lt_card hbatches
    rwa [Finset.card_range,
      Finset.card_image_of_injective _ fun a b hab => UInt64.toNat_inj.mp hab] at hlt
  have hconsume' : consumeFor manifest segment policy' .disclosedBatchRecompute numbers.toFinset
      = .batches policy'.selectedBatches := by
    unfold consumeFor
    dsimp only
    rw [if_neg (by rw [hclass]; simp; omega), if_pos hclass,
      if_neg (by simp [hne.ne_empty, hselected]; omega)]
  obtain ⟨batches', hrecomputed'⟩ := hrecomputed.of_subset hshaped.numbered hselected
  exact (validateDisclosure_clean.mpr
    ⟨numbers, hshaped, .inr ⟨_, batches', hconsume', hrecomputed'⟩⟩).2

/-! ## The verdict at a weaker scope -/

variable (env dir policy) in
/-- Verification reports success. -/
def Succeeds : Prop :=
  ∃ result, verifyBundleWithPolicy env dir policy = .ok result ∧ result.overall = .success

variable (env dir) in
/-- The manifest and the segment that a directory holds. -/
def Holds (manifest : Manifest) (segment : SegmentRecord) : Prop :=
  ∃ manifestBytes artifactBytes, dir[manifestName]? = some manifestBytes
    ∧ parseManifest env manifestBytes = .ok manifest
    ∧ dir.safeRead manifest.artifacts.segmentCbor.path = .ok artifactBytes
    ∧ decodeSegmentRecord artifactBytes = .ok segment

/-- Whether a policy can be identified depends on its files alone. -/
theorem effectiveVerifierPolicyId_selecting {scope : VerificationScope}
    {batches : Finset UInt64} :
    (∃ identifier, effectiveVerifierPolicyId env (policy.selecting scope batches) = .ok identifier)
      ↔ ∃ identifier, effectiveVerifierPolicyId env policy = .ok identifier := by
  unfold effectiveVerifierPolicyId derivedPolicyId VerifyPolicy.selecting
  cases policy.verifierPolicyId with
  | some identifier => exact Iff.rfl
  | none =>
    simp only [Except.bind_eq_ok, pure, Except.pure, Except.ok.injEq]
    constructor
    · rintro ⟨_, ca, hca, intermediates, hintermediates, crls, hcrls, artifact, hartifact, -⟩
      exact ⟨_, ca, hca, intermediates, hintermediates, crls, hcrls, artifact, hartifact, rfl⟩
    · rintro ⟨_, ca, hca, intermediates, hintermediates, crls, hcrls, artifact, hartifact, -⟩
      exact ⟨_, ca, hca, intermediates, hintermediates, crls, hcrls, artifact, hartifact, rfl⟩

/-- Success at one scope is success at another if the disclosure of the segment at hand passes
there: the files read before, the policy's identity and the channel are the same. -/
theorem Succeeds.selecting (hclaimed : policy.requireClaimedScope = false)
    {scope scope' : VerificationScope} {batches batches' : Finset UInt64}
    (hbatches : batches' = ∅ ∨ scope' = .disclosedBatchRecompute)
    (hdisclosed : ∀ manifest segment, Holds env dir manifest segment →
      disclosureFailures dir manifest segment (policy.selecting scope batches) scope = ∅ →
      disclosureFailures dir manifest segment (policy.selecting scope' batches') scope' = ∅)
    (h : Succeeds env dir (policy.selecting scope batches)) :
    Succeeds env dir (policy.selecting scope' batches') := by
  obtain ⟨result, hresult, hsuccess⟩ := h
  obtain ⟨hpolicy, manifestBytes, manifest, artifactBytes, hfile, hsize, hmanifest, hextensions,
    hartifact, hvalue⟩ := verifyBundleWithPolicy_iff.mp hresult
  obtain ⟨verifierPolicyId, verifierPolicySha256, hid, hsha, rfl⟩ := resultValue_eq_ok.mp hvalue
  replace hsuccess : (concludeBundle env dir manifest artifactBytes
    (decodeSegmentProfileId artifactBytes).toOption
    (policy.selecting scope batches)).overall = .success := hsuccess
  -- what the verifier has checked at the first scope
  obtain ⟨segment, status, hchecked⟩ :=
    checked_of_concludeBundle (Conclusions.overall_eq_success hsuccess)
  -- the checks at the second are the same, but for the disclosure
  have hchecked' : SegmentChecked dir manifest segment (policy.selecting scope' batches')
      artifactBytes status :=
    { hchecked with
      disclosed := hdisclosed manifest segment
        ⟨manifestBytes, artifactBytes, hfile, hmanifest, hartifact, hchecked.decoded⟩
        hchecked.disclosed }
  have hoverall : (concludeBundle env dir manifest artifactBytes
      (decodeSegmentProfileId artifactBytes).toOption
      (policy.selecting scope' batches')).overall = .success := by
    have hunclaimed : ∀ scope batches, (policy.selecting scope batches).requireClaimedScope = true →
        (VerificationScope.forDisclosureClass manifest.disclosureClass).strength
          ≤ ((policy.selecting scope batches).scopeFor manifest).strength := by
      intro scope batches hrequired
      exact absurd (hclaimed.symm.trans hrequired) Bool.false_ne_true
    -- the channel does not ask for the scope
    have hchannel : ∀ scope batches, (evaluateTsa env dir manifest (sha256Digest artifactBytes)
          (policy.selecting scope batches)
          { Conclusions.new scope with chainStatus := some status }).overall
        = (evaluateTsa env dir manifest (sha256Digest artifactBytes) policy
          { Conclusions.new .anchorOnly with chainStatus := some status }).overall := by
      intro scope batches
      have hselecting := @evaluateTsa_selecting _ env dir manifest policy
        (sha256Digest artifactBytes) scope batches
        { Conclusions.new .anchorOnly with chainStatus := some status }
      have hoverall := congrArg Conclusions.overall hselecting
      exact hoverall
    rw [concludeBundle_of_checked hchecked (hunclaimed scope batches)] at hsuccess
    rw [concludeBundle_of_checked hchecked' (hunclaimed scope' batches')]
    exact (hchannel scope' batches').trans ((hchannel scope batches).symm.trans hsuccess)
  -- the policy is as valid as it was
  have hpolicy' : validatePolicy env (policy.selecting scope' batches') = .ok () := by
    simp only [validatePolicy, Except.bind_eq_ok, Except.require_eq_ok] at hpolicy ⊢
    obtain ⟨_, hidentifier, _, hfile, -⟩ := hpolicy
    refine ⟨(), hidentifier, (), hfile, ?_⟩
    rcases hbatches with rfl | rfl <;> simp [VerifyPolicy.selecting]
  -- and as well identified
  obtain ⟨identifier, hidentifier⟩ : ∃ identifier,
      effectiveVerifierPolicyId env (policy.selecting scope' batches') = .ok identifier :=
    effectiveVerifierPolicyId_selecting.mpr (effectiveVerifierPolicyId_selecting.mp ⟨_, hid⟩)
  exact ⟨_, verifyBundleWithPolicy_iff.mpr ⟨hpolicy', manifestBytes, manifest, artifactBytes, hfile,
    hsize, hmanifest, hextensions, hartifact,
    resultValue_eq_ok.mpr ⟨identifier, verifierPolicySha256, hidentifier, hsha, rfl⟩⟩, hoverall⟩

/-- **Weakening the scope never turns success into failure.** -/
theorem scope_weakening (env : Environment) (dir : Directory) (policy : VerifyPolicy)
    (hclaimed : policy.requireClaimedScope = false) :
    (Succeeds env dir (policy.selecting .publicRecompute ∅) →
        Succeeds env dir (policy.selecting .anchorOnly ∅)
          ∧ ∀ manifest segment, Holds env dir manifest segment → 1 < segment.batchRoots.length →
            ∀ batches : Finset UInt64, batches.Nonempty →
              batches.image UInt64.toNat ⊂ Finset.range segment.batchRoots.length →
              Succeeds env dir (policy.selecting .disclosedBatchRecompute batches))
      ∧ ∀ batches, Succeeds env dir (policy.selecting .disclosedBatchRecompute batches) →
        Succeeds env dir (policy.selecting .anchorOnly ∅) := by
  refine ⟨fun h => ⟨?_, ?_⟩, fun batches h => ?_⟩
  · exact h.selecting hclaimed (.inl rfl) fun _ _ _ => disclosureFailures_anchorOnly
  · intro manifest segment hholds hcount batches hne hbatches
    refine h.selecting hclaimed (.inr rfl) fun manifest' segment' hholds' => ?_
    -- a directory holds one manifest and one segment
    obtain ⟨manifestBytes, artifactBytes, hfile, hmanifest, hartifact, hdecode⟩ := hholds
    obtain ⟨manifestBytes', artifactBytes', hfile', hmanifest', hartifact', hdecode'⟩ := hholds'
    obtain rfl := Option.some.inj (hfile.symm.trans hfile')
    obtain rfl := Except.ok.inj (hmanifest.symm.trans hmanifest')
    obtain rfl := Except.ok.inj (hartifact.symm.trans hartifact')
    obtain rfl := Except.ok.inj (hdecode.symm.trans hdecode')
    obtain ⟨hvalid, -⟩ :=
      SegmentRecord.canonicalCborBytes_eq_ok.mp (decodeSegmentRecord_eq_ok.mp hdecode)
    exact disclosureFailures_subset hvalid hcount hne hbatches
  · exact h.selecting hclaimed (.inl rfl) fun _ _ _ => disclosureFailures_anchorOnly

omit [Sha256] in
/-- One of two batches is opened, then none. -/
theorem scope_weakening_sample :
    letI := Sha256.fips
    let records := [sampleRecord 2, sampleRecord 1]
    let policy := selectingPolicy .publicRecompute ∅
    policy.requireClaimedScope = false
      ∧ Succeeds (disclosureEnvironment records) (disclosureBundle records)
        (policy.selecting .disclosedBatchRecompute {1})
      ∧ Succeeds (disclosureEnvironment records) (disclosureBundle records)
        (policy.selecting .anchorOnly ∅) := by
  let := Sha256.fips
  have hrun : (verifyBundleWithPolicy (disclosureEnvironment [sampleRecord 2, sampleRecord 1])
      (disclosureBundle [sampleRecord 2, sampleRecord 1])
      ((selectingPolicy .publicRecompute ∅).selecting .disclosedBatchRecompute {1})).toOption.any
      (fun result => result.overall = .success) = true := by
    decide +kernel
  obtain ⟨result, hresult, htest⟩ := Except.exists_ok_of_any hrun
  rw [decide_eq_true_eq] at htest
  have hdisclosed : Succeeds (disclosureEnvironment [sampleRecord 2, sampleRecord 1])
      (disclosureBundle [sampleRecord 2, sampleRecord 1])
      ((selectingPolicy .publicRecompute ∅).selecting .disclosedBatchRecompute {1}) :=
    ⟨result, hresult, htest⟩
  exact ⟨rfl, hdisclosed, (scope_weakening _ _ _ rfl).2 {1} hdisclosed⟩

end

end TrackOne.Evidence
