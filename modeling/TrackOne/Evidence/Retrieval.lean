import TrackOne.Evidence.Remote
import TrackOne.Evidence.Verdict

/-!
# Selective retrieval

The retriever predicts from the manifest and the policy which files the local verifier will open;
the verifier finds out from the decoded segment. Both sides are compared here.

* `openedReferences` lists what `verify_bundle_with_policy` opens besides the manifest, and
  `verifyBundleWithPolicy_congr` is its locality: two directories with the same files there give
  the same answer, errors included.
* `openedReferences_subset`: everything on that list is requested.
* `verifyRemoteBundle_eq_local`: over a server that answers with the files of a complete directory,
  a retrieval that stays within its limits ends in the local verifier's answer on that directory.
-/

namespace TrackOne.Evidence

/-! ## What the verifier opens -/

section

variable (manifest : Manifest) (policy : VerifyPolicy)

/-- The records of the batches that are consumed at the selected scope. -/
def openedRecords (segment : SegmentRecord) : List ArtifactRef :=
  let scope := policy.scopeFor manifest
  let indexed := indexOpenings segment.batchRoots.length (Conclusions.new scope)
    manifest.artifacts.openings
  match consumeFor manifest segment policy scope indexed.numbers with
  | .nothing => []
  | .refused => []
  | .batches consume =>
    (consumedOpenings consume indexed.openings).flatMap fun entry => entry.2.records

/-- The references opened for a segment that decodes: its predecessor, and the records. -/
def openedForSegment (segment : SegmentRecord) : List ArtifactRef :=
  (if segment.segmentNumber = 0 then [] else manifest.artifacts.predecessorSegmentCbor.toList)
    ++ openedRecords manifest policy segment

/-- The references `verify_bundle_with_policy` opens, with the bytes of the segment file given. -/
def openedReferences [Sha256] (artifactBytes : Bytes) : List ArtifactRef :=
  manifest.artifacts.extensions.values ++ [manifest.artifacts.segmentCbor]
    ++ (match decodeSegmentRecord artifactBytes with
      | .error _ => []
      | .ok segment => openedForSegment manifest policy segment)
    ++ (if manifest.tsaStatus = "present" then
        manifest.artifacts.tsaTsr.toList ++ manifest.artifacts.tsaReq.toList
      else [])

end

/-! ## Locality -/

/-- Both directories have the file, with the same bytes. -/
def SameFile (staged dir : Directory) (path : String) : Prop :=
  ∃ bytes : Bytes, staged[path]? = some bytes ∧ dir[path]? = some bytes

section

variable {staged dir : Directory}

theorem SameFile.openPath {path : String} (h : SameFile staged dir path) :
    staged.openPath path = dir.openPath path := by
  obtain ⟨bytes, hstaged, hdir⟩ := h
  rw [openPath_eq_ok.mpr hstaged, openPath_eq_ok.mpr hdir]

theorem SameFile.safeRead {path : String} (h : SameFile staged dir path) :
    staged.safeRead path = dir.safeRead path := by
  rw [Directory.safeRead, Directory.safeRead, h.openPath]

variable [Sha256]

/-- A file that was staged unchanged is read alike through a reference. -/
theorem SameFile.referencedArtifact {reference : ArtifactRef}
    (h : SameFile staged dir reference.path) :
    staged.referencedArtifact reference = dir.referencedArtifact reference := by
  rw [Directory.referencedArtifact, Directory.referencedArtifact, h.safeRead]

theorem mapM_referencedArtifact_congr {references : List ArtifactRef}
    (h : ∀ reference ∈ references, SameFile staged dir reference.path) :
    references.mapM staged.referencedArtifact = references.mapM dir.referencedArtifact := by
  induction references with
  | nil => rfl
  | cons reference references ih =>
    rw [List.mapM_cons, List.mapM_cons, (h reference List.mem_cons_self).referencedArtifact,
      ih fun other hother => h other (List.mem_cons_of_mem _ hother)]

theorem forM_referencedArtifact_congr {references : List ArtifactRef}
    (h : ∀ reference ∈ references, SameFile staged dir reference.path) :
    (references.forM fun reference => (do let _ ← staged.referencedArtifact reference))
      = references.forM fun reference => (do let _ ← dir.referencedArtifact reference) := by
  simp only [List.forM_eq_forM]
  induction references with
  | nil => rfl
  | cons reference references ih =>
    rw [List.forM_cons, List.forM_cons, (h reference List.mem_cons_self).referencedArtifact,
      ih fun other hother => h other (List.mem_cons_of_mem _ hother)]

/-- A batch whose records were staged unchanged is opened alike. -/
theorem openBatch_congr {segment : SegmentRecord} {opening : RecordBatchOpening}
    (h : ∀ reference ∈ opening.records, SameFile staged dir reference.path) (state : Opened)
    (number : UInt64) :
    openBatch staged segment state number opening = openBatch dir segment state number opening := by
  have hleaves : openingLeaves staged opening = openingLeaves dir opening := by
    rw [openingLeaves, openingLeaves, mapM_referencedArtifact_congr h]
  rw [openBatch, openBatch, hleaves]

/-- Only the records of the consumed openings are read. -/
theorem openBatches_congr {segment : SegmentRecord} {consume : Finset UInt64}
    {openings : List (UInt64 × RecordBatchOpening)}
    (h : ∀ entry ∈ consumedOpenings consume openings, ∀ reference ∈ entry.2.records,
      SameFile staged dir reference.path) (conclusions : Conclusions) :
    openBatches staged segment consume conclusions openings
      = openBatches dir segment consume conclusions openings := by
  rw [openBatches_eq, openBatches_eq]
  apply List.foldl_ext
  intro state entry hentry
  exact openBatch_congr (h entry hentry) state entry.1

variable {env : Environment} {manifest : Manifest} {policy : VerifyPolicy}
  {segment : SegmentRecord}

omit [Sha256] in
/-- The records of a consumed opening are among those that are opened. -/
theorem mem_openedRecords {consume : Finset UInt64} {entry : UInt64 × RecordBatchOpening}
    {reference : ArtifactRef}
    (hconsume : consumeFor manifest segment policy (policy.scopeFor manifest)
      (indexOpenings segment.batchRoots.length (Conclusions.new (policy.scopeFor manifest))
        manifest.artifacts.openings).numbers = .batches consume)
    (hentry : entry ∈ consumedOpenings consume (indexOpenings segment.batchRoots.length
      (Conclusions.new (policy.scopeFor manifest)) manifest.artifacts.openings).openings)
    (hreference : reference ∈ entry.2.records) :
    reference ∈ openedRecords manifest policy segment := by
  unfold openedRecords
  dsimp only
  rw [hconsume]
  exact List.mem_flatMap.mpr ⟨entry, hentry, hreference⟩

/-- The predecessor is read alike. -/
theorem validateChain_congr
    (h : ∀ reference ∈ openedForSegment manifest policy segment,
      SameFile staged dir reference.path) (conclusions : Conclusions) :
    validateChain staged manifest segment conclusions
      = validateChain dir manifest segment conclusions := by
  unfold validateChain
  split_ifs with hnumber
  · rfl
  · cases hpredecessor : manifest.artifacts.predecessorSegmentCbor with
    | none => rfl
    | some reference =>
      have hmem : reference ∈ openedForSegment manifest policy segment := by
        simp [openedForSegment, hnumber, hpredecessor]
      dsimp only
      rw [(h reference hmem).referencedArtifact]

/-- Only the records of consumed batches are read. -/
theorem validateDisclosure_congr
    (h : ∀ reference ∈ openedForSegment manifest policy segment,
      SameFile staged dir reference.path)
    (conclusions : Conclusions) (hscope : conclusions.scope = policy.scopeFor manifest) :
    validateDisclosure staged manifest segment policy conclusions
      = validateDisclosure dir manifest segment policy conclusions := by
  -- which batches are opened does not depend on the failures recorded before
  have hindexed := indexOpenings_adding segment.batchRoots.length conclusions
    (Conclusions.new (policy.scopeFor manifest)) rfl manifest.artifacts.openings
  unfold validateDisclosure
  rw [hindexed, hscope]
  dsimp only
  split_ifs
  · rfl
  · rfl
  · cases hconsume : consumeFor manifest segment policy (policy.scopeFor manifest)
        (indexOpenings segment.batchRoots.length (Conclusions.new (policy.scopeFor manifest))
          manifest.artifacts.openings).numbers with
    | nothing => rfl
    | refused => rfl
    | batches consume =>
      dsimp only
      rw [openBatches_congr]
      intro entry hentry reference hreference
      exact h reference (List.mem_append_right _ (mem_openedRecords hconsume hentry hreference))

/-- A manifest without a timestamp has its timestamp files left unread. -/
theorem evaluateTsa_congr
    (h : manifest.tsaStatus = "present" →
      ∀ reference ∈ manifest.artifacts.tsaTsr.toList ++ manifest.artifacts.tsaReq.toList,
        SameFile staged dir reference.path)
    (artifactDigest : Digest) (conclusions : Conclusions) :
    evaluateTsa env staged manifest artifactDigest policy conclusions
      = evaluateTsa env dir manifest artifactDigest policy conclusions := by
  unfold evaluateTsa
  split_ifs with hpresent
  · have hrequest : ∀ nonce, verifyTsaRequest env staged manifest artifactDigest nonce
        = verifyTsaRequest env dir manifest artifactDigest nonce := by
      intro nonce
      unfold verifyTsaRequest
      cases hreq : manifest.artifacts.tsaReq with
      | none => rfl
      | some reference =>
        dsimp only
        rw [(h hpresent reference (by simp [hreq])).referencedArtifact]
    cases htsr : manifest.artifacts.tsaTsr with
    | none => rfl
    | some reference =>
      dsimp only
      rw [(h hpresent reference (by simp [htsr])).referencedArtifact]
      simp only [evaluateResponse, hrequest]
  · rfl
  · rfl

/-- The checks of a segment read its predecessor and its opened records, and no more. -/
theorem checkSegment_congr {artifactBytes : Bytes} {profile : Option String}
    (h : ∀ segment, decodeSegmentRecord artifactBytes = .ok segment →
      ∀ reference ∈ openedForSegment manifest policy segment,
        SameFile staged dir reference.path)
    (conclusions : Conclusions) (hscope : conclusions.scope = policy.scopeFor manifest) :
    checkSegment staged manifest artifactBytes profile policy conclusions
      = checkSegment dir manifest artifactBytes profile policy conclusions := by
  unfold checkSegment
  cases hdecode : decodeSegmentRecord artifactBytes with
  | error error => rfl
  | ok segment =>
    have hfiles := h segment hdecode
    have hchainScope : ∀ condition : Bool, (validateChain dir manifest segment
        (conclusions.failIf condition .commitmentMismatch)).scope = policy.scopeFor manifest := by
      intro condition
      rw [scope_validateChain, Conclusions.scope_failIf, hscope]
    dsimp only
    rw [validateChain_congr hfiles, validateDisclosure_congr hfiles _ (hchainScope _)]

/-- The local verifier concludes alike over any two directories with the files that it opens. -/
theorem concludeBundle_congr {artifactBytes : Bytes} {profile : Option String}
    (h : ∀ reference ∈ openedReferences manifest policy artifactBytes,
      SameFile staged dir reference.path) :
    concludeBundle env staged manifest artifactBytes profile policy
      = concludeBundle env dir manifest artifactBytes profile policy := by
  have hsegment : ∀ segment, decodeSegmentRecord artifactBytes = .ok segment →
      ∀ reference ∈ openedForSegment manifest policy segment,
        SameFile staged dir reference.path := by
    intro segment hdecode reference hmem
    refine h reference ?_
    simp only [openedReferences, hdecode, List.mem_append]
    exact .inl (.inr hmem)
  have htsa : manifest.tsaStatus = "present" →
      ∀ reference ∈ manifest.artifacts.tsaTsr.toList ++ manifest.artifacts.tsaReq.toList,
        SameFile staged dir reference.path := by
    intro hpresent reference hmem
    refine h reference ?_
    rw [openedReferences, if_pos hpresent]
    exact List.mem_append_right _ hmem
  unfold concludeBundle
  dsimp only
  rw [checkSegment_congr hsegment, evaluateTsa_congr htsa]
  rw [Conclusions.scope_failIf, Conclusions.scope_failIf]
  rfl

/-- The verifier's answer, an error included, depends on the files it opens and on no other. -/
theorem verifyBundleWithPolicy_congr {manifestBytes artifactBytes : Bytes}
    (hmanifestFile : SameFile staged dir manifestName)
    (hmanifestBytes : dir[manifestName]? = some manifestBytes)
    (hmanifest : parseManifest env manifestBytes = .ok manifest)
    (hartifact : dir[manifest.artifacts.segmentCbor.path]? = some artifactBytes)
    (h : ∀ reference ∈ openedReferences manifest policy artifactBytes,
      SameFile staged dir reference.path) :
    verifyBundleWithPolicy env staged policy = verifyBundleWithPolicy env dir policy := by
  have hread : staged.readFileBounded manifestName maxArchiveMember "producer manifest"
      = dir.readFileBounded manifestName maxArchiveMember "producer manifest" := by
    rw [Directory.readFileBounded, Directory.readFileBounded, hmanifestFile.openPath]
  have hextensions := forM_referencedArtifact_congr
    fun reference (hmem : reference ∈ manifest.artifacts.extensions.values) =>
      h reference (by simp [openedReferences, hmem])
  have hsegment : staged.safeRead manifest.artifacts.segmentCbor.path
      = dir.safeRead manifest.artifacts.segmentCbor.path :=
    (h manifest.artifacts.segmentCbor (by simp [openedReferences])).safeRead
  unfold verifyBundleWithPolicy
  rw [hread]
  -- the manifest is too large on both sides, or it is the one that was parsed
  cases hbounded : dir.readFileBounded manifestName maxArchiveMember "producer manifest" with
  | error error => simp only [Except.error_bind]
  | ok found =>
    obtain ⟨hfound, -⟩ := Directory.readFileBounded_eq_ok.mp hbounded
    obtain rfl : manifestBytes = found := Option.some.inj (hmanifestBytes.symm.trans hfound)
    simp only [Except.ok_bind, hmanifest, hextensions, hsegment]
    cases hartifactRead : dir.safeRead manifest.artifacts.segmentCbor.path with
    | error error => simp only [Except.error_bind]
    | ok read =>
      obtain ⟨-, hbytes, -⟩ := Directory.safeRead_eq_ok.mp hartifactRead
      obtain rfl : artifactBytes = read := Option.some.inj (hartifact.symm.trans hbytes)
      simp only [Except.ok_bind, concludeBundle_congr h]

/-! ## What the retriever stages -/

omit [Sha256] in
/-- An indexed opening is one of the manifest, under the number it was parsed to. -/
theorem mem_indexOpenings {batchCount : Nat} {conclusions : Conclusions}
    {openings : List RecordBatchOpening} :
    ((indexOpenings batchCount conclusions openings).numbers
        ⊆ (openings.filterMap fun opening => parseU64 opening.batchNumber).toFinset)
      ∧ ∀ entry ∈ (indexOpenings batchCount conclusions openings).openings,
        entry.2 ∈ openings ∧ parseU64 entry.2.batchNumber = some entry.1 := by
  induction openings using List.reverseRecOn with
  | nil => exact ⟨by simp [indexOpenings], by simp [indexOpenings]⟩
  | append_singleton openings opening ih =>
    obtain ⟨hnumbers, hentries⟩ := ih
    rw [indexOpenings_append_singleton]
    have hbefore : ∀ entry ∈ (indexOpenings batchCount conclusions openings).openings,
        entry.2 ∈ openings ++ [opening] ∧ parseU64 entry.2.batchNumber = some entry.1 :=
      fun entry hentry =>
        ⟨List.mem_append_left _ (hentries entry hentry).1, (hentries entry hentry).2⟩
    have hsubset : (openings.filterMap fun opening => parseU64 opening.batchNumber).toFinset
        ⊆ ((openings ++ [opening]).filterMap
            fun opening => parseU64 opening.batchNumber).toFinset := by
      intro number hnumber
      simp only [List.mem_toFinset, List.filterMap_append, List.mem_append] at hnumber ⊢
      exact .inl hnumber
    unfold indexOpening
    cases hparse : parseUint64 opening.batchNumber with
    | none => exact ⟨hnumbers.trans hsubset, hbefore⟩
    | some number =>
      -- a number in its shortest form is read by the looser parser too
      have hnumber := parseU64_of_parseUint64 hparse
      dsimp only
      split_ifs
      · exact ⟨hnumbers.trans hsubset, hbefore⟩
      · refine ⟨Finset.insert_subset ?_ (hnumbers.trans hsubset), ?_⟩
        · simp [hnumber]
        · intro entry hentry
          rcases List.mem_append.mp hentry with hearlier | hlast
          · exact hbefore entry hearlier
          · cases List.mem_singleton.mp hlast
            exact ⟨by simp, hnumber⟩

omit [Sha256] in
/-- The batches the verifier opens are among those the retriever expects it to. -/
theorem consume_subset_consumedBatches {numbers consume : Finset UInt64}
    (hnumbers : numbers ⊆ (manifest.artifacts.openings.filterMap
      fun opening => parseU64 opening.batchNumber).toFinset)
    (h : consumeFor manifest segment policy (policy.scopeFor manifest) numbers
      = .batches consume) :
    consume ⊆ consumedBatches manifest policy (policy.scopeFor manifest) := by
  have hconsume := consume_subset_of_consumeFor h
  unfold consumedBatches
  split_ifs with hanchor hselected
  · rw [hanchor] at h
    cases h
  · -- both sides take the batches the policy selects
    rw [hselected.1] at h
    unfold consumeFor at h
    dsimp only at h
    rw [if_pos hselected.2] at h
    split_ifs at h
    cases h
    exact Finset.Subset.refl _
  · exact hconsume.trans hnumbers

omit [Sha256] in
/-- The records that are opened are all fetched. -/
theorem openedRecords_subset (segment : SegmentRecord) :
    openedRecords manifest policy segment ⊆ secondaryReferences manifest policy := by
  intro reference hmem
  unfold openedRecords at hmem
  dsimp only at hmem
  obtain ⟨hnumbers, hentries⟩ := @mem_indexOpenings segment.batchRoots.length
    (Conclusions.new (policy.scopeFor manifest)) manifest.artifacts.openings
  cases hconsume : consumeFor manifest segment policy (policy.scopeFor manifest)
      (indexOpenings segment.batchRoots.length (Conclusions.new (policy.scopeFor manifest))
        manifest.artifacts.openings).numbers with
  | nothing =>
    rw [hconsume] at hmem
    cases hmem
  | refused =>
    rw [hconsume] at hmem
    cases hmem
  | batches consume =>
    rw [hconsume] at hmem
    obtain ⟨entry, hentry, hreference⟩ := List.mem_flatMap.mp hmem
    obtain ⟨hindexed, hconsumed⟩ := List.mem_filter.mp hentry
    obtain ⟨hopening, hparse⟩ := hentries entry hindexed
    have hexpected : entry.1 ∈ consumedBatches manifest policy (policy.scopeFor manifest) :=
      consume_subset_consumedBatches hnumbers hconsume (of_decide_eq_true hconsumed)
    unfold secondaryReferences
    refine List.mem_append_right _ (List.mem_flatMap.mpr ⟨entry.2, hopening, ?_⟩)
    rw [hparse]
    dsimp only
    rw [if_pos hexpected]
    exact hreference

/-- Whatever the segment file holds, the verifier opens only what was requested. -/
theorem openedReferences_subset (artifactBytes : Bytes) :
    openedReferences manifest policy artifactBytes
      ⊆ manifest.artifacts.segmentCbor :: secondaryReferences manifest policy := by
  have hsecondary : ∀ reference ∈ manifest.artifacts.predecessorSegmentCbor.toList
      ++ manifest.artifacts.extensions.values
      ++ (if manifest.tsaStatus = "present" then
          manifest.artifacts.tsaReq.toList ++ manifest.artifacts.tsaTsr.toList
        else []),
      reference ∈ manifest.artifacts.segmentCbor :: secondaryReferences manifest policy :=
    fun reference hmem => List.mem_cons_of_mem _ (List.mem_append_left _ hmem)
  intro reference hmem
  unfold openedReferences at hmem
  -- an extension, the segment, what the segment needs, or a timestamp
  rcases List.mem_append.mp hmem with hbefore | htsa
  · rcases List.mem_append.mp hbefore with hfirst | hsegment
    · rcases List.mem_append.mp hfirst with hextension | hartifact
      · exact hsecondary reference (by simp [hextension])
      · exact List.mem_singleton.mp hartifact ▸ List.mem_cons_self
    · cases hdecode : decodeSegmentRecord artifactBytes with
      | error error =>
        rw [hdecode] at hsegment
        cases hsegment
      | ok segment =>
        rw [hdecode] at hsegment
        rcases List.mem_append.mp hsegment with hpredecessor | hrecord
        · split_ifs at hpredecessor
          · cases hpredecessor
          · exact hsecondary reference (by simp [hpredecessor])
        · exact List.mem_cons_of_mem _ (openedRecords_subset segment hrecord)
  · split_ifs at htsa with hpresent
    · refine hsecondary reference ?_
      rw [if_pos hpresent]
      simp only [List.mem_append] at htsa ⊢
      exact .inr htsa.symm
    · cases htsa

omit [Sha256] in
/-- What is fetched is referenced. -/
theorem secondaryReferences_subset :
    secondaryReferences manifest policy ⊆ manifest.artifacts.references true := by
  intro reference hmem
  unfold secondaryReferences at hmem
  simp only [List.mem_append, List.mem_flatMap] at hmem
  simp only [Artifacts.references, List.mem_append, List.mem_flatMap, if_true]
  rcases hmem with (((hpredecessor | hextension) | htsa) | ⟨opening, hopening, hrecord⟩)
  · tauto
  · tauto
  · split_ifs at htsa
    · rw [List.mem_append] at htsa
      tauto
    · cases htsa
  · have hrecords : reference ∈ opening.records := by
      split at hrecord
      · cases hrecord
      · split_ifs at hrecord
        · exact hrecord
        · cases hrecord
    exact .inl (.inl (.inl (.inr ⟨opening, hopening, hrecords⟩)))

/-! ## Selective retrieval loses no evidence -/

/-- Over a server that answers with the files of a complete directory, a retrieval that completes
has staged every file the local verifier opens there, and with the expected digest of the segment
file its result is the local verifier's on the whole directory, an error included. -/
theorem verifyRemoteBundle_eq_local (env : Environment) (dir : Directory) (server : Server)
    (options : RemoteOptions) (policy : VerifyPolicy) (manifestBytes artifactBytes : Bytes)
    (manifest : Manifest) (retrieved : Bytes × Directory)
    (hmanifestBytes : dir[manifestName]? = some manifestBytes)
    (hmanifest : parseManifest env manifestBytes = .ok manifest)
    (hcomplete : ∀ reference ∈ manifest.artifacts.references true, reference.path ∈ dir)
    (hserver : ∀ index path bytes, dir[path]? = some bytes → server index path = .ok bytes)
    (hretrieved : retrieveBundle env server options policy = .ok retrieved)
    (hartifact : dir[manifest.artifacts.segmentCbor.path]? = some artifactBytes)
    (hexpected : options.expectedSegmentSha256 = sha256Hex artifactBytes) :
    (∀ reference ∈ openedReferences manifest policy artifactBytes,
        SameFile retrieved.2 dir reference.path)
      ∧ verifyRemoteBundle env server options policy = verifyBundleWithPolicy env dir policy := by
  obtain ⟨artifact, staged⟩ := retrieved
  obtain ⟨served, hserved, hsegment, hstaged⟩ := retrieveBundle_eq_ok hretrieved
  -- the server answers with the manifest and the segment of the directory
  obtain rfl : manifest = served := by
    have hfirst := hserver 0 manifestName manifestBytes hmanifestBytes
    simpa [servedManifest, hfirst, hmanifest, Except.toOption] using hserved
  obtain rfl : artifactBytes = artifact := by
    have hsecond := hserver 1 _ artifactBytes hartifact
    rw [hsegment] at hsecond
    exact (Except.ok.inj hsecond).symm
  -- every path asked for is a file of the directory
  have hpresent : ∀ path ∈ requestPaths policy manifest, path ∈ dir := by
    intro path hpath
    rcases List.mem_cons.mp hpath with rfl | hrest
    · exact Std.ExtTreeMap.mem_iff_isSome_getElem?.mpr (by rw [hmanifestBytes]; rfl)
    · rcases List.mem_cons.mp hrest with rfl | hothers
      · exact hcomplete _ (by simp [Artifacts.references])
      · obtain ⟨reference, hreference, rfl⟩ := List.mem_map.mp hothers
        exact hcomplete reference (secondaryReferences_subset hreference)
  -- so every answer to a path is the same, the bytes of that file
  have hsteady : ∀ index, ∀ path ∈ requestPaths policy manifest,
      (server index path).toOption = dir[path]? := by
    intro index path hpath
    obtain ⟨bytes, hbytes⟩ :=
      Option.isSome_iff_exists.mp (Std.ExtTreeMap.mem_iff_isSome_getElem?.mp (hpresent path hpath))
    rw [hserver index path bytes hbytes, hbytes]
    rfl
  have hsame : ∀ path ∈ requestPaths policy manifest, SameFile staged dir path := by
    intro path hpath
    obtain ⟨bytes, hbytes⟩ :=
      Option.isSome_iff_exists.mp (Std.ExtTreeMap.mem_iff_isSome_getElem?.mp (hpresent path hpath))
    refine ⟨bytes, ?_, hbytes⟩
    rw [hstaged, lastAnswer, lastWrite_answers_of_steady hsteady, if_pos hpath, hbytes]
  have hopened : ∀ reference ∈ openedReferences manifest policy artifactBytes,
      SameFile staged dir reference.path := by
    intro reference hreference
    refine hsame _ (List.mem_cons_of_mem _ ?_)
    exact List.mem_map_of_mem (openedReferences_subset artifactBytes hreference)
  -- the two verifiers then read the same bytes
  refine ⟨hopened, ?_⟩
  have hlocal := verifyBundleWithPolicy_congr (hsame manifestName List.mem_cons_self)
    hmanifestBytes hmanifest hartifact hopened
  have hmatches : (sha256Hex artifactBytes != options.expectedSegmentSha256) = false := by
    simp [hexpected]
  rw [verifyRemoteBundle_eq, hretrieved, Except.ok_bind, hlocal, hmatches]
  exact bind_pure _

omit [Sha256] in
/-- A server for the files of a directory. -/
def fileServer (dir : Directory) : Server := fun _ path =>
  Except.ofOption (bad "evidence retrieval requires a complete HTTP 200 response, got 404 2")
    dir[path]?

/-- The environment of the sample disclosure, with a file of HTTPS roots. -/
def retrievalEnvironment (records : List Bytes) : Environment :=
  { disclosureEnvironment records with
    hostFile := fun path => if path = utf8Bytes "ca.pem" then .ok [] else .error .enoent }

/-- The text of the sample manifest is read back. -/
theorem readManifest_retrievalEnvironment (records : List Bytes) :
    (retrievalEnvironment records).readManifest (utf8Bytes (sampleDisclosureText records))
      = .ok (sampleDisclosure records) := by
  unfold retrievalEnvironment disclosureEnvironment
  generalize sampleDisclosureText records = text
  exact if_pos (Eq.refl (utf8Bytes text))

omit [Sha256] in
/-- One of two batches is selected, and the record of the other is not fetched. -/
theorem verifyRemoteBundle_eq_local_sample :
    letI := Sha256.fips
    let env := retrievalEnvironment [sampleRecord 2, sampleRecord 1]
    let dir := disclosureBundle [sampleRecord 2, sampleRecord 1]
    let options := sampleOptions (sampleSealed [sampleRecord 2, sampleRecord 1]).cborBody
    let policy := selectingPolicy .disclosedBatchRecompute {1}
    ∃ retrieved : Bytes × Directory,
      retrieveBundle env (fileServer dir) options policy = .ok retrieved
        ∧ retrieved.2.toList.length = 4 ∧ dir.toList.length = 5
        ∧ verifyRemoteBundle env (fileServer dir) options policy
          = verifyBundleWithPolicy env dir policy := by
  let := Sha256.fips
  have hrun : (retrieveBundle (retrievalEnvironment [sampleRecord 2, sampleRecord 1])
      (fileServer (disclosureBundle [sampleRecord 2, sampleRecord 1]))
      (sampleOptions (sampleSealed [sampleRecord 2, sampleRecord 1]).cborBody)
      (selectingPolicy .disclosedBatchRecompute {1})).toOption.any
      (fun retrieved => retrieved.2.toList.length = 4) = true
        ∧ (disclosureBundle [sampleRecord 2, sampleRecord 1]).toList.length = 5 := by
    decide +kernel
  obtain ⟨retrieved, hretrieved, htest⟩ := Except.exists_ok_of_any hrun.1
  refine ⟨retrieved, hretrieved, of_decide_eq_true htest, hrun.2, ?_⟩
  have hmanifest : parseManifest (retrievalEnvironment [sampleRecord 2, sampleRecord 1])
      (utf8Bytes (sampleDisclosureText [sampleRecord 2, sampleRecord 1]))
      = .ok (sampleDisclosure [sampleRecord 2, sampleRecord 1]) := by
    have hvalid : (sampleDisclosure [sampleRecord 2, sampleRecord 1]).validate = .ok () := by
      decide +kernel
    exact parseManifest_eq_ok.mpr ⟨readManifest_retrievalEnvironment _, hvalid⟩
  refine (verifyRemoteBundle_eq_local _ (disclosureBundle [sampleRecord 2, sampleRecord 1])
    _ _ _ _ (sampleSealed [sampleRecord 2, sampleRecord 1]).cborBody _ retrieved
    Std.ExtTreeMap.getElem?_insert_self hmanifest (by decide +kernel) ?_ hretrieved
    (by decide +kernel) rfl).2
  intro index path bytes hbytes
  rw [fileServer, hbytes]
  rfl

end

end TrackOne.Evidence
