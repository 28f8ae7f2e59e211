import TrackOne.Evidence.Archive

/-!
# What was compacted and verifies

The two sides of an archive are put together: `compact_bundle` on a bundle directory, then
`verify_archive` on the file it wrote.

* `digest_of_mem_openedReferences`: a verdict of success has read everything it opened with the
  digest the manifest declares.
* `verifyArchive_compactBundle_iff`: the archive verifies exactly when it is within the limits of
  the reader, and the manifest was written as it was where it is itself opened as evidence
  (`Replayable`).
* `verifyArchive_compactBundle_noise` is a bundle beyond a limit: it is compacted all the same.
-/

namespace TrackOne.Evidence

section

variable [Sha256] {dir : Directory} {env : Environment} {carriage : Carriage}
  {policy : VerifyPolicy} {includeExtensions : Bool} {manifestBytes : Bytes} {manifest : Manifest}

/-! ## The manifest that is written -/

omit [Sha256] in
/-- The carried manifest is about the same segment. -/
@[simp] theorem Manifest.carried_segmentCbor :
    (manifest.carried includeExtensions).artifacts.segmentCbor
      = manifest.artifacts.segmentCbor := by
  unfold Manifest.carried
  split_ifs <;> rfl

omit [Sha256] in
/-- All references of the written manifest are packed. -/
theorem Manifest.references_carried :
    (manifest.carried includeExtensions).artifacts.references true
      = (manifest.carried includeExtensions).artifacts.references includeExtensions := by
  cases includeExtensions with
  | true => rfl
  | false =>
    have hempty : (∅ : Std.ExtTreeMap String ArtifactRef compare).values = [] := rfl
    simp [carried, Artifacts.references, Artifacts.openings, hempty]

omit [Sha256] in
/-- The carried manifest has no new references. -/
theorem Manifest.references_carried_subset :
    (manifest.carried includeExtensions).artifacts.references true
      ⊆ manifest.artifacts.references true := by
  cases includeExtensions with
  | true => exact List.Subset.refl _
  | false =>
    rw [references_carried]
    exact fun reference hmem => List.mem_append_left _ (List.mem_append.mp hmem |>.resolve_right
      (by simp))

omit [Sha256] in
/-- A valid manifest stays valid without its extensions. -/
theorem Manifest.validate_carried (h : manifest.validate = .ok ()) :
    (manifest.carried includeExtensions).validate = .ok () := by
  cases includeExtensions with
  | true => exact h
  | false =>
    simp only [validate, Except.bind_eq_ok, Except.require_eq_ok] at h ⊢
    obtain ⟨_, hversion, _, hlexical, _, hopenings, _, hreferences, htsa⟩ := h
    refine ⟨(), hversion, (), hlexical, (), hopenings, (), ?_, htsa⟩
    rw [Except.forM_eq_ok] at hreferences ⊢
    exact fun reference hmem => hreferences reference (references_carried_subset hmem)

/-- The verifier's conclusions do not depend on the extensions. -/
theorem concludeBundle_carried (artifactBytes : Bytes) (profile : Option String) :
    concludeBundle env dir (manifest.carried includeExtensions) artifactBytes profile policy
      = concludeBundle env dir manifest artifactBytes profile policy := by
  cases includeExtensions <;> rfl

/-! ## What a success has read -/

/-- Without failures every record that is opened could be read. -/
theorem read_of_mem_openedRecords {segment : SegmentRecord}
    (h : disclosureFailures dir manifest segment policy (policy.scopeFor manifest) = ∅)
    {reference : ArtifactRef} (hmem : reference ∈ openedRecords manifest policy segment) :
    ∃ bytes, dir.referencedArtifact reference = .ok bytes := by
  obtain ⟨numbers, hshaped, hconsume⟩ :=
    validateDisclosure_clean.mp ⟨validateDisclosure_of_failures h, h⟩
  unfold openedRecords at hmem
  dsimp only at hmem
  rw [indexOpenings_of_numbered hshaped.numbered] at hmem
  rcases hconsume with hnothing | ⟨consume, batches, hconsume, hrecomputed⟩
  · rw [hnothing] at hmem
    cases hmem
  · rw [hconsume] at hmem
    obtain ⟨entry, hentry, hrecord⟩ := List.mem_flatMap.mp hmem
    obtain ⟨batch, -, hread⟩ := exists_of_forall₂_right hrecomputed.read.flip hentry
    exact Except.exists_ok_of_mapM hread.read hrecord

/-- A success has read everything it opened with the digest that was declared. -/
theorem digest_of_mem_openedReferences {result : VerificationResult} {artifactBytes : Bytes}
    (h : verifyBundleWithPolicy env dir policy = .ok result) (hsuccess : result.overall = .success)
    (hmanifestBytes : dir[manifestName]? = some manifestBytes)
    (hmanifest : parseManifest env manifestBytes = .ok manifest)
    (hartifact : dir[manifest.artifacts.segmentCbor.path]? = some artifactBytes)
    {reference : ArtifactRef} (hmem : reference ∈ openedReferences manifest policy artifactBytes) :
    ∃ bytes : Bytes, dir[reference.path]? = some bytes ∧ sha256Hex bytes = reference.sha256 := by
  have hdigest : (∃ bytes, dir.referencedArtifact reference = .ok bytes) →
      ∃ bytes : Bytes, dir[reference.path]? = some bytes ∧ sha256Hex bytes = reference.sha256 := by
    rintro ⟨bytes, hbytes⟩
    obtain ⟨-, hread, hdigest⟩ := Directory.referencedArtifact_eq_ok.mp hbytes
    exact ⟨bytes, (Directory.safeRead_eq_ok.mp hread).2.1, hdigest⟩
  -- what the verifier read, and that it concluded in success
  obtain ⟨found, parsed, read, hfound, hparsed, hextensions, hread, -, -, hoverall⟩ :=
    verifyBundleWithPolicy_eq_ok h
  obtain rfl : manifestBytes = found := Option.some.inj (hmanifestBytes.symm.trans hfound)
  obtain rfl : manifest = parsed := Except.ok.inj (hmanifest.symm.trans hparsed)
  obtain rfl : artifactBytes = read :=
    Option.some.inj (hartifact.symm.trans (Directory.safeRead_eq_ok.mp hread).2.1)
  rw [hoverall] at hsuccess
  obtain ⟨segment, status, hdecode, -, -, -, -, hlinked, hdisclosure, htimestamped, -⟩ :=
    concludeBundle_success hsuccess
  unfold openedReferences at hmem
  rw [hdecode, if_pos htimestamped.present] at hmem
  simp only [List.mem_append, List.mem_singleton, openedForSegment] at hmem
  -- one case for each kind of reference it opens
  obtain ((hextension | rfl) | hpredecessor | hrecord) | htsa := hmem
  · exact hdigest (hextensions reference hextension)
  · exact ⟨artifactBytes, hartifact,
      sha256_of_concludeBundle (Conclusions.overall_eq_success hsuccess)⟩
  · -- the predecessor of a later segment was followed
    split_ifs at hpredecessor with hzero
    · cases hpredecessor
    · cases hlinked with
      | epoch hnumber _ => exact absurd hnumber hzero
      | validated named bytes _ _ hreference hread =>
        rw [hreference, Option.mem_toList] at hpredecessor
        cases hpredecessor
        exact hdigest ⟨bytes, hread⟩
      | predecessorNotDisclosed _ hnone => simp [hnone] at hpredecessor
  -- a record that was opened
  · exact hdigest (read_of_mem_openedRecords hdisclosure hrecord)
  -- the response, and the request when there is one
  · obtain ⟨response, responseBytes, _, verified, hresponse, hresponseRead, -, -, -, -, -,
      hrequest⟩ :=
      htimestamped.response
    rcases htsa with htsr | htsq
    · rw [hresponse, Option.mem_toList] at htsr
      cases htsr
      exact hdigest ⟨responseBytes, hresponseRead⟩
    · rw [Option.mem_toList] at htsq
      rw [htsq] at hrequest
      obtain ⟨request, hrequestRead, -⟩ := hrequest
      exact hdigest ⟨request, hrequestRead⟩

/-! ## What was compacted verifies within the limits -/

/-- What the archive of a bundle asks for: the limits of the reader hold for the packed files, and
where a reference that is opened names the manifest, writing the manifest anew has not changed
it. -/
structure Replayable (carriage : Carriage) (dir : Directory) (policy : VerifyPolicy)
    (manifestBytes : Bytes) (manifest : Manifest) (includeExtensions : Bool)
    (artifactBytes : Bytes) : Prop where
  members :
    (archivedFiles carriage dir manifestBytes manifest includeExtensions).size ≤ maxArchiveMembers
  rewritten : (carriage.rewrite manifestBytes manifest includeExtensions).length ≤ maxArchiveMember
  expanded : (carriage.tar (archivedFiles carriage dir manifestBytes manifest
    includeExtensions).toList).length ≤ maxExpandedArchive
  compressed : (carriage.gzip (carriage.tar (archivedFiles carriage dir manifestBytes manifest
    includeExtensions).toList)).length ≤ maxCompressedArchive
  unchanged : ∀ reference ∈
    openedReferences (manifest.carried includeExtensions) policy artifactBytes,
    reference.path = manifestName →
      carriage.rewrite manifestBytes manifest includeExtensions = manifestBytes

section

variable {artifactBytes : Bytes} (hmanifestBytes : dir[manifestName]? = some manifestBytes)
  (hmanifest : parseManifest env manifestBytes = .ok manifest)
  (hjson : env.readManifest (carriage.rewrite manifestBytes manifest includeExtensions)
    = .ok (manifest.carried includeExtensions))
  (hartifact : dir[manifest.artifacts.segmentCbor.path]? = some artifactBytes)
  (hpacked : ∀ reference ∈ (manifest.carried includeExtensions).artifacts.references
    includeExtensions, ∃ bytes, dir.referencedArtifact reference = .ok bytes)

include hmanifest hjson in
omit [Sha256] in
/-- The rewritten manifest is parsed as the carried one. -/
theorem parseManifest_rewrite :
    parseManifest env (carriage.rewrite manifestBytes manifest includeExtensions)
      = .ok (manifest.carried includeExtensions) :=
  parseManifest_eq_ok.mpr
    ⟨hjson, Manifest.validate_carried (parseManifest_eq_ok.mp hmanifest).2⟩

include hpacked in
/-- A packed file other than the manifest is the file of the bundle. -/
theorem sameFile_archivedFiles {path : String}
    (hpath : path ∈ ((manifest.carried includeExtensions).artifacts.references true).map
      ArtifactRef.path) (hname : path ≠ manifestName) :
    SameFile (archivedFiles carriage dir manifestBytes manifest includeExtensions) dir path := by
  rw [Manifest.references_carried] at hpath
  obtain ⟨reference, hreference, rfl⟩ := List.mem_map.mp hpath
  obtain ⟨bytes, hbytes⟩ := hpacked reference hreference
  obtain ⟨-, hread, -⟩ := Directory.referencedArtifact_eq_ok.mp hbytes
  have hfile := (Directory.safeRead_eq_ok.mp hread).2.1
  refine ⟨bytes, ?_, hfile⟩
  rw [archivedFiles, getElem?_carriedFiles, if_neg (Ne.symm hname), if_pos hpath, hfile]

omit [Sha256] in
/-- The rewritten manifest is in the archive. -/
theorem getElem?_archivedFiles_manifest :
    (archivedFiles carriage dir manifestBytes manifest includeExtensions)[manifestName]?
      = some (carriage.rewrite manifestBytes manifest includeExtensions) := by
  rw [archivedFiles, getElem?_carriedFiles, if_pos rfl]

/-- What is opened is packed. -/
theorem mem_references_of_opened {reference : ArtifactRef} (hmem : reference ∈
      openedReferences (manifest.carried includeExtensions) policy artifactBytes) :
    reference ∈ (manifest.carried includeExtensions).artifacts.references includeExtensions := by
  rw [← Manifest.references_carried]
  rcases List.mem_cons.mp (openedReferences_subset artifactBytes hmem) with rfl | hsecondary
  · simp [Artifacts.references]
  · exact secondaryReferences_subset hsecondary

include hmanifestBytes hpacked in
/-- Every file that is opened is the same in the archive, once the manifest is. -/
theorem sameFile_of_opened
    (hunchanged : ∀ reference ∈
      openedReferences (manifest.carried includeExtensions) policy artifactBytes,
      reference.path = manifestName →
        carriage.rewrite manifestBytes manifest includeExtensions = manifestBytes)
    {reference : ArtifactRef} (hmem : reference ∈
      openedReferences (manifest.carried includeExtensions) policy artifactBytes) :
    SameFile (archivedFiles carriage dir manifestBytes manifest includeExtensions) dir
      reference.path := by
  by_cases hname : reference.path = manifestName
  · refine ⟨manifestBytes, ?_, hname ▸ hmanifestBytes⟩
    rw [hname, getElem?_archivedFiles_manifest, hunchanged reference hmem hname]
  · refine sameFile_archivedFiles hpacked (List.mem_map_of_mem ?_) hname
    rw [Manifest.references_carried]
    exact mem_references_of_opened hmem

include hmanifestBytes hmanifest hjson hartifact hpacked in
/-- The verifier succeeds on the packed files. -/
theorem verifyBundleWithPolicy_archivedFiles
    (hverified : ∃ result, verifyBundleWithPolicy env dir policy = .ok result
      ∧ result.overall = .success)
    (hreplayable : Replayable carriage dir policy manifestBytes manifest includeExtensions
      artifactBytes) :
    ∃ result, verifyBundleWithPolicy env
        (archivedFiles carriage dir manifestBytes manifest includeExtensions) policy = .ok result
      ∧ result.overall = .success := by
  have hsame : ∀ reference ∈
      openedReferences (manifest.carried includeExtensions) policy artifactBytes,
      SameFile (archivedFiles carriage dir manifestBytes manifest includeExtensions) dir
        reference.path :=
    fun _ hmem => sameFile_of_opened hmanifestBytes hpacked hreplayable.unchanged hmem
  -- what the verifier read from the directory
  obtain ⟨result, hresult, hsuccess⟩ := hverified
  obtain ⟨hpolicy, found, parsed, read, hfound, -, hparsed, -, hread, hvalue⟩ :=
    verifyBundleWithPolicy_iff.mp hresult
  obtain rfl : manifestBytes = found := Option.some.inj (hmanifestBytes.symm.trans hfound)
  obtain rfl : manifest = parsed := Except.ok.inj (hmanifest.symm.trans hparsed)
  obtain rfl : artifactBytes = read :=
    Option.some.inj (hartifact.symm.trans (Directory.safeRead_eq_ok.mp hread).2.1)
  obtain ⟨verifierPolicyId, verifierPolicySha256, hid, hsha, rfl⟩ := resultValue_eq_ok.mp hvalue
  -- the conclusions are those on the bundle
  have hconclude : concludeBundle env
      (archivedFiles carriage dir manifestBytes manifest includeExtensions)
      (manifest.carried includeExtensions) artifactBytes
      (decodeSegmentProfileId artifactBytes).toOption policy
      = concludeBundle env dir manifest artifactBytes
        (decodeSegmentProfileId artifactBytes).toOption policy := by
    rw [concludeBundle_congr hsame, concludeBundle_carried]
  refine ⟨_, verifyBundleWithPolicy_iff.mpr ⟨hpolicy, _, manifest.carried includeExtensions,
    artifactBytes, getElem?_archivedFiles_manifest, hreplayable.rewritten,
    parseManifest_rewrite hmanifest hjson, ?_, ?_,
    resultValue_eq_ok.mpr ⟨verifierPolicyId, verifierPolicySha256, hid, hsha, rfl⟩⟩, ?_⟩
  -- the extensions it opens are members of the archive
  · intro reference hreference
    have hopened : reference ∈
        openedReferences (manifest.carried includeExtensions) policy artifactBytes := by
      simp [openedReferences, hreference]
    have hmember : reference ∈ (manifest.carried includeExtensions).artifacts.references
        includeExtensions := by
      rw [← Manifest.references_carried]
      exact List.mem_append_right _ hreference
    rw [(hsame _ hopened).referencedArtifact]
    exact hpacked reference hmember
  -- and so is the segment
  · have hopened : (manifest.carried includeExtensions).artifacts.segmentCbor ∈
        openedReferences (manifest.carried includeExtensions) policy artifactBytes := by
      simp [openedReferences]
    rw [(hsame _ hopened).safeRead, Manifest.carried_segmentCbor]
    exact hread
  · show (concludeBundle env _ _ _ _ policy).overall = .success
    rw [hconclude]
    exact hsuccess

include hpacked in
/-- The packed files are within the limit of a member, once the manifest is. -/
theorem length_le_of_archivedFiles
    (hrewritten : (carriage.rewrite manifestBytes manifest includeExtensions).length
      ≤ maxArchiveMember) {member : String × Bytes}
    (hmember : member ∈
      (archivedFiles carriage dir manifestBytes manifest includeExtensions).toList) :
    member.2.length ≤ maxArchiveMember := by
  have hfile := Std.ExtTreeMap.mem_toList_iff_getElem?_eq_some.mp hmember
  rw [archivedFiles, getElem?_carriedFiles] at hfile
  split_ifs at hfile with hname hreference
  · exact Option.some.inj hfile ▸ hrewritten
  · obtain ⟨reference, hpackedReference, heq⟩ := List.mem_map.mp hreference
    obtain ⟨bytes, hbytes⟩ := hpacked reference hpackedReference
    obtain ⟨-, hread, -⟩ := Directory.referencedArtifact_eq_ok.mp hbytes
    obtain ⟨-, hfound, hsize⟩ := Directory.safeRead_eq_ok.mp hread
    rw [heq, hfile] at hfound
    exact Option.some.inj hfound ▸ hsize

end

/-- What `compact_bundle` wrote for a bundle directory verifies, under the same policy and the same
answers of the timestamp verifier, exactly when the packed files are within the limits of the reader
and the manifest, where it is itself opened as evidence, was written as it was. -/
theorem verifyArchive_compactBundle_iff (env : Environment) (carriage : Carriage) (dir : Directory)
    (policy : VerifyPolicy) (includeExtensions : Bool) (archive manifestBytes artifactBytes : Bytes)
    (manifest : Manifest) (hfaithful : carriage.Faithful) (htree : dir.IsTree)
    (hmanifestBytes : dir[manifestName]? = some manifestBytes)
    (hmanifest : parseManifest env manifestBytes = .ok manifest)
    (hartifact : dir[manifest.artifacts.segmentCbor.path]? = some artifactBytes)
    (hjson : env.readManifest (carriage.rewrite manifestBytes manifest includeExtensions)
      = .ok (manifest.carried includeExtensions))
    (hcollision : sha256Hex (carriage.rewrite manifestBytes manifest includeExtensions)
      = sha256Hex manifestBytes →
        carriage.rewrite manifestBytes manifest includeExtensions = manifestBytes)
    (hcompact : compactBundle env carriage dir policy includeExtensions = .ok archive) :
    (∃ result, verifyArchive env carriage archive policy = .ok result
        ∧ result.overall = .success)
      ↔ Replayable carriage dir policy manifestBytes manifest includeExtensions artifactBytes := by
  obtain ⟨hverified, hpacked, hportable, rfl⟩ :=
    compactBundle_eq_ok hmanifestBytes hmanifest hcompact
  have hinside : ∀ path ∈ archivedFiles carriage dir manifestBytes manifest includeExtensions,
      path ∈ dir := by
    intro path hpath
    refine mem_of_mem_carriedFiles (Std.ExtTreeMap.mem_iff_isSome_getElem?.mpr ?_) hpath
    rw [hmanifestBytes]
    rfl
  simp only [verifyArchive_written hfaithful htree hinside hportable]
  constructor
  -- an archive that verifies is within the limits
  · rintro ⟨result, ⟨⟨hmembers, hsizes, hexpanded, hcompressed⟩, hresult⟩, hsuccess⟩
    have hrewritten : (carriage.rewrite manifestBytes manifest includeExtensions).length
        ≤ maxArchiveMember :=
      hsizes (manifestName, _) (Std.ExtTreeMap.mem_toList_iff_getElem?_eq_some.mpr
        getElem?_archivedFiles_manifest)
    refine ⟨hmembers, hrewritten, hexpanded, hcompressed, ?_⟩
    -- an opened reference that names the manifest has the digest of both texts
    have hunchanged : ∀ found reference,
        (archivedFiles carriage dir manifestBytes manifest includeExtensions)[(manifest.carried
          includeExtensions).artifacts.segmentCbor.path]? = some found →
        reference ∈ openedReferences (manifest.carried includeExtensions) policy found →
        reference.path = manifestName →
          carriage.rewrite manifestBytes manifest includeExtensions = manifestBytes := by
      intro found reference hfound hopened hname
      obtain ⟨bytes, hbytes, hdigest⟩ := digest_of_mem_openedReferences hresult hsuccess
        getElem?_archivedFiles_manifest (parseManifest_rewrite hmanifest hjson) hfound hopened
      rw [hname, getElem?_archivedFiles_manifest] at hbytes
      obtain ⟨read, hread⟩ := hpacked reference (mem_references_of_opened hopened)
      obtain ⟨-, hread, hreadDigest⟩ := Directory.referencedArtifact_eq_ok.mp hread
      have hfile := (Directory.safeRead_eq_ok.mp hread).2.1
      rw [hname, hmanifestBytes] at hfile
      rw [← Option.some.inj hbytes, ← hreadDigest, ← Option.some.inj hfile] at hdigest
      exact hcollision hdigest
    -- the segment itself is such a reference, or it is the file of the directory
    intro reference hreference hname
    by_cases hsegment : (manifest.carried includeExtensions).artifacts.segmentCbor.path
        = manifestName
    · exact hunchanged _ (manifest.carried includeExtensions).artifacts.segmentCbor
        (hsegment ▸ getElem?_archivedFiles_manifest) (by simp [openedReferences]) hsegment
    · obtain ⟨found, hfound, hdir⟩ := sameFile_archivedFiles hpacked
        (List.mem_map_of_mem (by simp [Artifacts.references])) hsegment
      rw [Manifest.carried_segmentCbor] at hdir
      obtain rfl : artifactBytes = found := Option.some.inj (hartifact.symm.trans hdir)
      exact hunchanged artifactBytes reference hfound hreference hname
  -- within the limits it is read back, and the files that are opened are the same
  · intro hreplayable
    obtain ⟨result, hresult, hsuccess⟩ := verifyBundleWithPolicy_archivedFiles hmanifestBytes
      hmanifest hjson hartifact hpacked hverified hreplayable
    refine ⟨result, ⟨⟨hreplayable.members, ?_, hreplayable.expanded, hreplayable.compressed⟩,
      hresult⟩, hsuccess⟩
    exact fun member hmember =>
      length_le_of_archivedFiles hpacked hreplayable.rewritten hmember

/-! ## A carriage -/

omit [Sha256] in
/-- Bytes, each behind a mark, with another mark at their end. -/
def frame (bytes : Bytes) : Bytes := bytes.flatMap (fun byte => [1, byte]) ++ [0]

omit [Sha256] in
def unframe : Bytes → Option (Bytes × Bytes)
  | 0 :: rest => some ([], rest)
  | 1 :: byte :: rest => (unframe rest).map fun pair => (byte :: pair.1, pair.2)
  | _ => none

omit [Sha256] in
/-- The entries of a stream of framed paths and contents. -/
def framedEntries : Nat → Bytes → Except String (List (Except String TarEntry))
  | _, [] => .ok []
  | 0, _ => .error "numeric field was not a number"
  | fuel + 1, stream => do
    let (path, rest) ← Except.ofOption "unexpected end of archive" (unframe stream)
    let (bytes, rest) ← Except.ofOption "unexpected end of archive" (unframe rest)
    let entries ← framedEntries fuel rest
    pure (.ok { isFile := true, size := bytes.length, path := ofUtf8? path, bytes } :: entries)

omit [Sha256] in
/-- The JSON text of a manifest whose members need no escapes. -/
def manifestText (manifest : Manifest) : String :=
  let reference (artifact : ArtifactRef) : String :=
    "\x7b\"path\":\"" ++ artifact.path ++ "\",\"sha256\":\"" ++ artifact.sha256 ++ "\"\x7d"
  let optional (name : String) (artifact : Option ArtifactRef) : String :=
    (artifact.map fun artifact => ",\"" ++ name ++ "\":" ++ reference artifact).getD ""
  let opening (opening : RecordBatchOpening) : String :=
    "\x7b\"batch_number\":\"" ++ opening.batchNumber ++ "\",\"records\":["
      ++ ",".intercalate (opening.records.map reference) ++ "]\x7d"
  let openings := (manifest.artifacts.recordBatches.map fun openings =>
    ",\"record_batches\":[" ++ ",".intercalate (openings.map opening) ++ "]").getD ""
  let extensions := ",".intercalate (manifest.artifacts.extensions.toList.map fun extension =>
    "\"" ++ extension.1 ++ "\":" ++ reference extension.2)
  "\x7b\"version\":" ++ toString manifest.version ++ ",\"ledger_id\":\"" ++ manifest.ledgerId
    ++ "\",\"segment_number\":\"" ++ manifest.segmentNumber
    ++ "\",\"commitment_profile_id\":\"" ++ manifest.commitmentProfileId
    ++ "\",\"disclosure_class\":\"" ++ manifest.disclosureClass
    ++ "\",\"artifacts\":\x7b\"segment_cbor\":" ++ reference manifest.artifacts.segmentCbor
    ++ optional "predecessor_segment_cbor" manifest.artifacts.predecessorSegmentCbor ++ openings
    ++ optional "tsa_req" manifest.artifacts.tsaReq
    ++ optional "tsa_tsr" manifest.artifacts.tsaTsr
    ++ (if manifest.artifacts.extensions.isEmpty then ""
      else ",\"extensions\":\x7b" ++ extensions ++ "\x7d")
    ++ "\x7d,\"anchoring\":\x7b\"tsa\":\x7b\"status\":\"" ++ manifest.tsaStatus
    ++ "\"\x7d\x7d\x7d"

omit [Sha256] in
/-- A carriage without compression, for manifests without a free-form member. -/
def storedCarriage : Carriage where
  tar members := members.flatMap fun member => frame (utf8Bytes member.1) ++ frame member.2
  entries stream := framedEntries stream.length stream
  gzip bytes := 0x1f :: 0x8b :: bytes
  gunzip limit input :=
    match input with
    | 0x1f :: 0x8b :: bytes =>
      .ok (bytes.take limit, if bytes.length < limit then input.length else limit + 2)
    | _ => .error "invalid gzip header"
  encodeManifest manifest _ := utf8Bytes (manifestText manifest)
  extensionsOf _ := none

omit [Sha256] in
/-- A framed entry is read off the front. -/
theorem unframe_frame (bytes rest : Bytes) :
    unframe (frame bytes ++ rest) = some (bytes, rest) := by
  induction bytes with
  | nil => rfl
  | cons byte bytes ih =>
    have hframe : frame (byte :: bytes) ++ rest = 1 :: byte :: (frame bytes ++ rest) := rfl
    rw [hframe, unframe, ih]
    rfl

omit [Sha256] in
/-- The framed members are read back, given enough fuel. -/
theorem framedEntries_tar (members : List (String × Bytes)) (fuel : Nat)
    (hfuel : members.length ≤ fuel) :
    framedEntries fuel (storedCarriage.tar members)
      = .ok (members.map fun member => .ok (.ofMember member)) := by
  induction members generalizing fuel with
  | nil => cases fuel <;> rfl
  | cons member members ih =>
    obtain ⟨fuel, rfl⟩ : ∃ n, fuel = n + 1 := ⟨fuel - 1, by rw [List.length_cons] at hfuel; omega⟩
    have htar : storedCarriage.tar (member :: members)
        = frame (utf8Bytes member.1) ++ (frame member.2 ++ storedCarriage.tar members) := by
      simp [storedCarriage, List.flatMap_cons]
    have hne : frame (utf8Bytes member.1) ++ (frame member.2 ++ storedCarriage.tar members)
      ≠ [] := by
      simp [frame]
    rw [htar, framedEntries, unframe_frame]
    · simp only [Except.ofOption, Except.ok_bind, unframe_frame,
        ih fuel (by rw [List.length_cons] at hfuel; omega), ofUtf8?_utf8Bytes]
      rfl
    · exact hne

omit [Sha256] in
/-- A framed member takes a byte at least. -/
theorem length_le_tar (members : List (String × Bytes)) :
    members.length ≤ (storedCarriage.tar members).length := by
  induction members with
  | nil => simp
  | cons member members ih =>
    have htar : storedCarriage.tar (member :: members)
        = (frame (utf8Bytes member.1) ++ frame member.2) ++ storedCarriage.tar members := rfl
    have hframe : ∀ bytes : Bytes, 1 ≤ (frame bytes).length := by simp [frame]
    have := hframe member.2
    rw [htar, List.length_cons, List.length_append, List.length_append]
    omega

omit [Sha256] in
/-- A carriage that stores is faithful. -/
theorem storedCarriage_faithful : storedCarriage.Faithful where
  entries_tar members _ := framedEntries_tar members _ (length_le_tar members)
  gunzip_gzip limit bytes hlength := by
    simp [storedCarriage, hlength, List.take_of_length_le hlength.le]
  take_gunzip limit bytes read position h := by
    simp only [storedCarriage, Except.ok.injEq, Prod.mk.injEq] at h
    exact h.1.symm

/-! ## A bundle that outgrows its archive -/

/-- The digests of the first numbers: bytes that gzip cannot shorten. -/
def noiseBytes (count : Nat) : Bytes :=
  (List.range count).flatMap fun i => (sha256Digest (utf8Bytes (toString i))).bytes

/-- A manifest of class `C` with an extension. -/
def extendedManifest (segment extension : Bytes) : Manifest :=
  { sampleManifest segment with
    artifacts := { (sampleManifest segment).artifacts with
      extensions :=
        Std.ExtTreeMap.ofList [("noise", ⟨"noise.bin", sha256Hex extension⟩)] compare } }

/-- The bundle of the manifest. -/
def extendedBundle (segment extension : Bytes) : Directory :=
  Std.ExtTreeMap.ofList [
    (manifestName, utf8Bytes (manifestText (extendedManifest segment extension))),
    ("segment.cbor", segment), ("segment.tsr", (sha256Digest segment).bytes),
    ("noise.bin", extension)] compare

/-- An environment that reads the manifest. -/
def extendedEnvironment (segment extension : Bytes) : Environment :=
  { sampleEnvironment segment with
    readManifest := fun bytes =>
      if bytes = utf8Bytes (manifestText (extendedManifest segment extension)) then
        .ok (extendedManifest segment extension)
      else .error "expected value at line 1 column 1" }

/-- The noise takes thirty-two bytes a block. -/
theorem length_noiseBytes (count : Nat) : (noiseBytes count).length = count * 32 := by
  simp [noiseBytes, List.length_flatMap, Digest.length_eq]

section

variable (segment extension : Bytes)

/-- The files of the extended bundle. -/
theorem getElem?_extendedBundle (path : String) :
    (extendedBundle segment extension)[path]?
      = [(manifestName, utf8Bytes (manifestText (extendedManifest segment extension))),
          ("segment.cbor", segment), ("segment.tsr", (sha256Digest segment).bytes),
          ("noise.bin", extension)].lookup path :=
  TreeMap.getElem?_ofList (by simp [manifestName]) path

/-- No file of the extended bundle is a directory of another. -/
theorem isTree_extendedBundle : (extendedBundle segment extension).IsTree := by
  have hflat : ∀ path ∈ extendedBundle segment extension, ancestors path = [] := by
    intro path hpath
    rw [extendedBundle, Std.ExtTreeMap.mem_ofList] at hpath
    simp only [List.map_cons, List.map_nil, List.contains_eq_mem, decide_eq_true_eq, List.mem_cons,
      List.not_mem_nil, or_false] at hpath
    obtain rfl | rfl | rfl | rfl := hpath <;> decide
  intro path hpath ancestor hancestor
  rw [hflat path hpath] at hancestor
  cases hancestor

/-- The environment reads the text of the extended manifest. -/
theorem readManifest_extendedEnvironment :
    (extendedEnvironment segment extension).readManifest
        (utf8Bytes (manifestText (extendedManifest segment extension)))
      = .ok (extendedManifest segment extension) := by
  unfold extendedEnvironment
  generalize manifestText (extendedManifest segment extension) = text
  exact if_pos (Eq.refl (utf8Bytes text))

/-- The text of the extended manifest is within the limit of a member. -/
theorem length_manifestText :
    (utf8Bytes (manifestText (extendedManifest segment extension))).length ≤ maxArchiveMember := by
  have happend : ∀ left right : String,
      (utf8Bytes (left ++ right)).length = (utf8Bytes left).length + (utf8Bytes right).length := by
    intro left right
    simp [utf8Bytes]
  have hhex : ∀ data : Bytes, (utf8Bytes (sha256Hex data)).length = 64 := by
    intro data
    have hvalid := validHex_sha256Hex data
    rw [validHex, Bool.and_eq_true, decide_eq_true_eq] at hvalid
    exact hvalid.1
  have hextensions : (extendedManifest segment extension).artifacts.extensions.toList
      = [("noise", ⟨"noise.bin", sha256Hex extension⟩)] := rfl
  have hempty : (extendedManifest segment extension).artifacts.extensions.isEmpty = false := rfl
  have hsingle : ∀ text : String, ",".intercalate [text] = text := fun text => by simp
  unfold manifestText
  rw [hextensions, hempty]
  simp only [Bool.false_eq_true, if_false, happend, List.map_cons, List.map_nil, extendedManifest,
    sampleManifest, Option.map_some, Option.map_none, Option.getD_some, Option.getD_none,
    hhex, hsingle]
  decide +kernel

/-- The extended manifest is valid. -/
theorem validate_extendedManifest : (extendedManifest segment extension).validate = .ok () := by
  have hreferences : (extendedManifest segment extension).artifacts.references true
      = [⟨"segment.cbor", sha256Hex segment⟩,
          ⟨"segment.tsr", sha256Hex (sha256Digest segment).bytes⟩,
          ⟨"noise.bin", sha256Hex extension⟩] := rfl
  have hreference : ∀ (path : String) (data : Bytes), validatePortablePath path = .ok () →
      ArtifactRef.validate ⟨path, sha256Hex data⟩ = .ok () := by
    intro path data hpath
    rw [ArtifactRef.validate, hpath, validHex_sha256Hex]
    rfl
  have hlexical : (extendedManifest segment extension).lexical = true := by
    simp only [Manifest.lexical, extendedManifest, sampleManifest]
    decide +kernel
  have htsa : (extendedManifest segment extension).validateTsaState = .ok () := rfl
  simp only [Manifest.validate, Except.bind_eq_ok, Except.require_eq_ok]
  refine ⟨(), rfl, (), hlexical, (), rfl, (), ?_, htsa⟩
  rw [Except.forM_eq_ok, hreferences]
  simp only [List.mem_cons, List.not_mem_nil, or_false, forall_eq_or_imp, forall_eq]
  exact ⟨hreference _ _ (by decide +kernel), hreference _ _ (by decide +kernel),
    hreference _ _ (by decide +kernel)⟩

/-- The text of the extended manifest is parsed to it. -/
theorem parseManifest_extended :
    parseManifest (extendedEnvironment segment extension)
        (utf8Bytes (manifestText (extendedManifest segment extension)))
      = .ok (extendedManifest segment extension) :=
  parseManifest_eq_ok.mpr
    ⟨readManifest_extendedEnvironment segment extension,
      validate_extendedManifest segment extension⟩

/-- A file of the bundle is read with the digest of its reference. -/
theorem referencedArtifact_extended {path : String} {bytes : Bytes}
    (hfile : (extendedBundle segment extension)[path]? = some bytes)
    (hpath : validatePortablePath path = .ok ()) (hlength : bytes.length ≤ maxArchiveMember) :
    (extendedBundle segment extension).referencedArtifact ⟨path, sha256Hex bytes⟩ = .ok bytes :=
  Directory.referencedArtifact_eq_ok.mpr ⟨validHex_sha256Hex bytes,
    Directory.safeRead_eq_ok.mpr ⟨hpath, hfile, hlength⟩, rfl⟩

/-- The files of the bundle. -/
theorem files_extendedBundle :
    (extendedBundle segment extension)[manifestName]?
        = some (utf8Bytes (manifestText (extendedManifest segment extension)))
      ∧ (extendedBundle segment extension)["segment.cbor"]? = some segment
      ∧ (extendedBundle segment extension)["segment.tsr"]? = some (sha256Digest segment).bytes
      ∧ (extendedBundle segment extension)["noise.bin"]? = some extension := by
  simp only [getElem?_extendedBundle]
  simp [List.lookup_cons, manifestName]

/-- The segment and its timestamp, without the extension. -/
def plainFiles (segment : Bytes) : Directory :=
  Std.ExtTreeMap.ofList
    [("segment.cbor", segment), ("segment.tsr", (sha256Digest segment).bytes)] compare

/-- The conclusions depend on the environment only in the timestamp checks. -/
theorem concludeBundle_environment {env env' : Environment} {dir : Directory} {manifest : Manifest}
    {policy : VerifyPolicy} {artifactBytes : Bytes} {profile : Option String}
    (hresponse : env.verifyResponse = env'.verifyResponse)
    (hrequest : env.verifyRequest = env'.verifyRequest) :
    concludeBundle env dir manifest artifactBytes profile policy
      = concludeBundle env' dir manifest artifactBytes profile policy := by
  simp only [concludeBundle, evaluateTsa, evaluateResponse, verifyTimestamp, verifyTsaRequest,
    hresponse, hrequest]

/-- The extension changes no conclusion. -/
theorem concludeBundle_extended (profile : Option String) :
    concludeBundle (extendedEnvironment segment extension) (extendedBundle segment extension)
        (extendedManifest segment extension) segment profile samplePolicy
      = concludeBundle (sampleEnvironment segment) (plainFiles segment) (sampleManifest segment)
        segment profile samplePolicy := by
  obtain ⟨-, hsegment, htsr, -⟩ := files_extendedBundle segment extension
  have hplain : ∀ path, (plainFiles segment)[path]? = [("segment.cbor", segment),
      ("segment.tsr", (sha256Digest segment).bytes)].lookup path :=
    fun path => TreeMap.getElem?_ofList (by simp) path
  have hcarried : (extendedManifest segment extension).carried false
      = (sampleManifest segment).carried false := rfl
  -- the extension does not count for the conclusion
  have hsame : ∀ manifest : Manifest, concludeBundle (sampleEnvironment segment)
        (extendedBundle segment extension) (manifest.carried false) segment profile samplePolicy
      = concludeBundle (sampleEnvironment segment) (extendedBundle segment extension) manifest
        segment profile samplePolicy :=
    fun _ => concludeBundle_carried segment profile
  have henv : concludeBundle (extendedEnvironment segment extension)
        (extendedBundle segment extension) (extendedManifest segment extension) segment profile
        samplePolicy
      = concludeBundle (sampleEnvironment segment) (extendedBundle segment extension)
        (extendedManifest segment extension) segment profile samplePolicy :=
    concludeBundle_environment rfl rfl
  rw [henv, ← hsame (extendedManifest segment extension), hcarried, hsame]
  -- both bundles have the two files that are read
  apply concludeBundle_congr
  intro reference hmem
  have hrequested := openedReferences_subset segment hmem
  have hsecondary : secondaryReferences (sampleManifest segment) samplePolicy
      = [⟨"segment.cbor", sha256Hex segment⟩,
        ⟨"segment.tsr", sha256Hex (sha256Digest segment).bytes⟩] := rfl
  have hfirst : (sampleManifest segment).artifacts.segmentCbor
      = ⟨"segment.cbor", sha256Hex segment⟩ := rfl
  rw [hsecondary, hfirst] at hrequested
  simp only [List.mem_cons, List.not_mem_nil, or_false] at hrequested
  obtain rfl | rfl | rfl := hrequested
  · exact ⟨segment, hsegment, by simp [hplain]⟩
  · exact ⟨segment, hsegment, by simp [hplain]⟩
  · exact ⟨_, htsr, by simp [hplain, List.lookup_cons]⟩

/-- The files that are packed with the extension. -/
def extendedFiles (segment extension : Bytes) : Directory :=
  archivedFiles storedCarriage (extendedBundle segment extension)
    (utf8Bytes (manifestText (extendedManifest segment extension)))
    (extendedManifest segment extension) true

/-- The files that the extended manifest carries. -/
theorem references_extended :
    ((extendedManifest segment extension).carried true).artifacts.references true
      = [⟨"segment.cbor", sha256Hex segment⟩,
          ⟨"segment.tsr", sha256Hex (sha256Digest segment).bytes⟩,
          ⟨"noise.bin", sha256Hex extension⟩] :=
  rfl

/-- The extension is among the files carried. -/
theorem mem_extendedFiles :
    ("noise.bin", extension) ∈ (extendedFiles segment extension).toList := by
  obtain ⟨-, -, -, hextension⟩ := files_extendedBundle segment extension
  rw [Std.ExtTreeMap.mem_toList_iff_getElem?_eq_some, extendedFiles, archivedFiles,
    getElem?_carriedFiles, references_extended, hextension]
  simp [manifestName]

/-- With a segment that verifies without the extension, the bundle can be compacted. -/
theorem compactBundle_extended (hsegment : segment.length ≤ maxArchiveMember)
    (hextension : extension.length ≤ maxArchiveMember)
    (hconclude : (concludeBundle (sampleEnvironment segment) (plainFiles segment)
      (sampleManifest segment) segment (decodeSegmentProfileId segment).toOption
      samplePolicy).overall = .success) :
    compactBundle (extendedEnvironment segment extension) storedCarriage
        (extendedBundle segment extension) samplePolicy true
      = .ok (storedCarriage.gzip
        (storedCarriage.tar (extendedFiles segment extension).toList)) := by
  obtain ⟨hmanifestFile, hsegmentFile, htsrFile, hextensionFile⟩ :=
    files_extendedBundle segment extension
  -- the three files that the manifest refers to are read
  have hportable : ∀ path ∈ ["segment.cbor", "segment.tsr", "noise.bin", manifestName],
      validatePortablePath path = .ok () := by
    decide +kernel
  have hsegmentRead := referencedArtifact_extended segment extension hsegmentFile
    (hportable _ (by simp)) hsegment
  have htsrRead := referencedArtifact_extended segment extension htsrFile
    (hportable _ (by simp)) (by rw [Digest.length_eq]; decide)
  have hextensionRead := referencedArtifact_extended segment extension hextensionFile
    (hportable _ (by simp)) hextension
  -- the bundle is verified, so that it may be packed
  have hverified : ∃ result, verifyBundleWithPolicy (extendedEnvironment segment extension)
      (extendedBundle segment extension) samplePolicy = .ok result ∧ result.overall = .success := by
    have hid : effectiveVerifierPolicyId (extendedEnvironment segment extension) samplePolicy
        = .ok "sample" := rfl
    have hsha : configuredFileSha256 (extendedEnvironment segment extension)
        samplePolicy.verifierPolicyArtifact "verifier policy artifact" = .ok none := rfl
    refine ⟨_, verifyBundleWithPolicy_iff.mpr ⟨rfl, _, extendedManifest segment extension, segment,
      hmanifestFile, length_manifestText segment extension,
      parseManifest_extended segment extension, ?_, ?_,
      resultValue_eq_ok.mpr ⟨"sample", none, hid, hsha, rfl⟩⟩, ?_⟩
    · have hvalues : (extendedManifest segment extension).artifacts.extensions.values
          = [⟨"noise.bin", sha256Hex extension⟩] := rfl
      rw [hvalues]
      simp only [List.mem_singleton, forall_eq]
      exact ⟨extension, hextensionRead⟩
    · exact Directory.safeRead_eq_ok.mpr ⟨hportable "segment.cbor" (by simp), hsegmentFile,
        hsegment⟩
    · rw [concludeBundle_extended]
      exact hconclude
  obtain ⟨result, hresult, hsuccess⟩ := hverified
  refine compactBundle_of_read hmanifestFile (length_manifestText segment extension)
    (parseManifest_extended segment extension) ⟨result, hresult, hsuccess⟩ ?_
  rw [references_extended]
  simp only [List.mem_cons, List.not_mem_nil, or_false, forall_eq_or_imp, forall_eq]
  exact ⟨⟨_, hsegmentRead⟩, ⟨_, htsrRead⟩, ⟨_, hextensionRead⟩⟩

end

omit [Sha256] in
/-- A stored member is longer in the archive. -/
theorem length_lt_storedCarriage {members : List (String × Bytes)} {member : String × Bytes}
    (h : member ∈ members) :
    member.2.length < (storedCarriage.gzip (storedCarriage.tar members)).length := by
  have hframe : ∀ bytes : Bytes, bytes.length < (frame bytes).length := by
    intro bytes
    induction bytes with
    | nil => simp [frame]
    | cons byte bytes ih =>
      have hcons : frame (byte :: bytes) = 1 :: byte :: frame bytes := rfl
      rw [hcons, List.length_cons, List.length_cons, List.length_cons]
      omega
  obtain ⟨before, after, rfl⟩ := List.append_of_mem h
  simp only [storedCarriage, List.flatMap_append, List.flatMap_cons, List.length_cons,
    List.length_append]
  have := hframe member.2
  omega

/-- A packed file that fills the compressed limit. -/
theorem verifyArchive_of_full {files : Directory} {member : String × Bytes}
    (hmember : member ∈ files.toList) (hlength : maxCompressedArchive ≤ member.2.length) :
    verifyArchive env storedCarriage (storedCarriage.gzip (storedCarriage.tar files.toList)) policy
      = .error (bad "compressed archive exceeds 64 MiB") := by
  have hlong := length_lt_storedCarriage hmember
  unfold verifyArchive
  rw [decide_eq_false (by omega)]
  rfl

/-- An extension as large as a file may be is packed into an archive that is refused. -/
theorem compactBundle_refused (segment extension : Bytes)
    (hsegment : segment.length ≤ maxArchiveMember)
    (hextension : extension.length = maxArchiveMember)
    (hconclude : (concludeBundle (sampleEnvironment segment) (plainFiles segment)
      (sampleManifest segment) segment (decodeSegmentProfileId segment).toOption
      samplePolicy).overall = .success) :
    ∃ archive, compactBundle (extendedEnvironment segment extension) storedCarriage
          (extendedBundle segment extension) samplePolicy true = .ok archive
      ∧ (extendedEnvironment segment extension).readManifest
          (storedCarriage.rewrite (utf8Bytes (manifestText (extendedManifest segment extension)))
            (extendedManifest segment extension) true)
        = .ok ((extendedManifest segment extension).carried true)
      ∧ verifyArchive (extendedEnvironment segment extension) storedCarriage archive samplePolicy
        = .error (bad "compressed archive exceeds 64 MiB") := by
  have hfull : maxCompressedArchive ≤ extension.length := by
    rw [hextension]
    decide
  exact ⟨_, compactBundle_extended segment extension hsegment hextension.le hconclude,
    readManifest_extendedEnvironment segment extension,
    verifyArchive_of_full (mem_extendedFiles segment extension) hfull⟩

omit [Sha256] in
/-- The sample segment verifies. -/
theorem overall_plainFiles :
    letI := Sha256.fips
    (concludeBundle (sampleEnvironment (sampleSegment 100)) (plainFiles (sampleSegment 100))
      (sampleManifest (sampleSegment 100)) (sampleSegment 100)
      (decodeSegmentProfileId (sampleSegment 100)).toOption samplePolicy).overall = .success := by
  decide +kernel

omit [Sha256] in
/-- A bundle with one incompressible extension of 64 MiB, the most a file of it may have: it
verifies and is compacted, and the archive is refused. -/
theorem verifyArchive_compactBundle_noise :
    letI := Sha256.fips
    let segment := sampleSegment 100
    let noise := noiseBytes (2 ^ 21)
    let env := extendedEnvironment segment noise
    let dir := extendedBundle segment noise
    storedCarriage.Faithful ∧ dir.IsTree
      ∧ ∃ archive, compactBundle env storedCarriage dir samplePolicy true = .ok archive
        ∧ env.readManifest (storedCarriage.rewrite
            (utf8Bytes (manifestText (extendedManifest segment noise)))
            (extendedManifest segment noise) true)
          = .ok ((extendedManifest segment noise).carried true)
        ∧ verifyArchive env storedCarriage archive samplePolicy
          = .error (bad "compressed archive exceeds 64 MiB") := by
  let := Sha256.fips
  have hlength : (noiseBytes (2 ^ 21)).length = maxArchiveMember := by
    rw [length_noiseBytes]
    decide
  exact ⟨storedCarriage_faithful, isTree_extendedBundle _ _, compactBundle_refused
    (sampleSegment 100) (noiseBytes (2 ^ 21)) (by decide +kernel) hlength overall_plainFiles⟩

omit [Sha256] in
/-- With an extension of one byte the same bundle is within the limits. -/
theorem verifyArchive_compactBundle_small :
    letI := Sha256.fips
    ∃ archive result,
      compactBundle (extendedEnvironment (sampleSegment 100) [0]) storedCarriage
          (extendedBundle (sampleSegment 100) [0]) samplePolicy true = .ok archive
        ∧ verifyArchive (extendedEnvironment (sampleSegment 100) [0]) storedCarriage archive
          samplePolicy = .ok result
        ∧ result.overall = .success := by
  let := Sha256.fips
  obtain ⟨hmanifest, hsegment, -, -⟩ := files_extendedBundle (sampleSegment 100) [0]
  have hcompact := compactBundle_extended (sampleSegment 100) [0] (by decide +kernel)
    (by decide) overall_plainFiles
  have hlimits : (extendedFiles (sampleSegment 100) [0]).size ≤ maxArchiveMembers
      ∧ (storedCarriage.tar (extendedFiles (sampleSegment 100) [0]).toList).length + 2
        ≤ maxCompressedArchive := by
    decide +kernel
  have hreplayable : Replayable storedCarriage (extendedBundle (sampleSegment 100) [0]) samplePolicy
      (utf8Bytes (manifestText (extendedManifest (sampleSegment 100) [0])))
      (extendedManifest (sampleSegment 100) [0]) true (sampleSegment 100) :=
    ⟨hlimits.1, length_manifestText _ _,
      (Nat.le_add_right _ 2).trans (hlimits.2.trans (by decide)), hlimits.2, fun _ _ _ => rfl⟩
  obtain ⟨result, hresult, hsuccess⟩ := (verifyArchive_compactBundle_iff _ storedCarriage _
    samplePolicy true _ _ (sampleSegment 100) _ storedCarriage_faithful (isTree_extendedBundle _ _)
    hmanifest (parseManifest_extended _ _) hsegment (readManifest_extendedEnvironment _ _)
    (fun _ => rfl) hcompact).mpr hreplayable
  exact ⟨_, result, hcompact, hresult, hsuccess⟩

end

end TrackOne.Evidence
