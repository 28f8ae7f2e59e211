import TrackOne.Evidence.Retrieval

/-!
# Compacted archives

`compact_bundle` (`apps/trackone-evidence/src/vtl.rs`) packs a bundle that verifies into a gzipped
tar file, with the manifest written anew; `verify_archive` (`vtl/archive.rs`) unpacks such a file
under limits of its own and runs the verifier on what it holds. The writer checks none of the
limits.

* `Carriage` is the code around the two: tar, gzip and the JSON writer. `Carriage.Faithful` is what
  is relied on of the first two.
* `foldlM_unpackEntry_eq_ok` and `foldlM_unpackEntry_of_fits` are the reading loop on the members
  that were written, in both directions.
* `compactBundle_eq_ok` and `verifyArchive_written` say what the writer has packed, and that within
  the limits (`WithinArchiveLimits`) the reader runs the verifier on just that.
-/

namespace TrackOne.Evidence

/-! ## Limits -/

def maxArchiveMembers : Nat := 10000

def maxCompressedArchive : Nat := 64 * 1024 * 1024

def maxExpandedArchive : Nat := 256 * 1024 * 1024

/-! ## What surrounds the archive -/

/-- An entry of a tar stream. A path that is not UTF-8 is `none`. -/
structure TarEntry where
  isFile : Bool
  size : Nat
  path : Option String
  bytes : Bytes

/-- The entry of a member that was written. -/
def TarEntry.ofMember (member : String × Bytes) : TarEntry :=
  { isFile := true, size := member.2.length, path := some member.1, bytes := member.2 }

structure Carriage where
  /-- `tar::Builder` over the members, in order. -/
  tar : List (String × Bytes) → Bytes
  /-- `tar::Archive::entries`, or the error text; an entry can fail on its own. -/
  entries : Bytes → Except String (List (Except String TarEntry))
  /-- `GzBuilder` with the best compression. -/
  gzip : Bytes → Bytes
  /-- `GzDecoder` read up to a limit: what was read, and the position in the input after it. -/
  gunzip : Nat → Bytes → Except String (Bytes × Nat)
  /-- `serde_json::to_vec` of a manifest with its free-form `extensions` member. -/
  encodeManifest : Manifest → Option Bytes → Bytes
  /-- The free-form `extensions` member of a manifest file, as JSON. -/
  extensionsOf : Bytes → Option Bytes

/-- Tar and gzip give back what was written. A bounded read gives the front of it. -/
structure Carriage.Faithful (carriage : Carriage) : Prop where
  entries_tar : ∀ members, (∀ member ∈ members, validatePortablePath member.1 = .ok ()) →
    carriage.entries (carriage.tar members)
      = .ok (members.map fun member => .ok (.ofMember member))
  gunzip_gzip : ∀ limit bytes, bytes.length < limit →
    carriage.gunzip limit (carriage.gzip bytes) = .ok (bytes, (carriage.gzip bytes).length)
  take_gunzip : ∀ limit bytes read position,
    carriage.gunzip limit (carriage.gzip bytes) = .ok (read, position) → read = bytes.take limit

/-! ## `compact_bundle` -/

/-- The manifest that is written: without its extensions, unless they are included. -/
def Manifest.carried (manifest : Manifest) (includeExtensions : Bool) : Manifest :=
  if includeExtensions then manifest
  else { manifest with artifacts := { manifest.artifacts with extensions := ∅ } }

/-- The manifest member of the archive. -/
def Carriage.rewrite (carriage : Carriage) (manifestBytes : Bytes) (manifest : Manifest)
    (includeExtensions : Bool) : Bytes :=
  carriage.encodeManifest (manifest.carried includeExtensions)
    (if includeExtensions then carriage.extensionsOf manifestBytes else none)

/-- `write_archive`, as the bytes of the file. -/
def writeArchive (carriage : Carriage) (members : Directory) : EvidenceResult Bytes := do
  members.toList.forM fun member => validatePortablePath member.1
  pure (carriage.gzip (carriage.tar members.toList))

section

variable [Sha256]

/-- One round of the packing loop. -/
def packReference (dir members : Directory) (reference : ArtifactRef) :
    EvidenceResult Directory := do
  let bytes ← dir.referencedArtifact reference
  pure (members.insert reference.path bytes)

def compactBundle (env : Environment) (carriage : Carriage) (dir : Directory)
    (policy : VerifyPolicy) (includeExtensions : Bool) : EvidenceResult Bytes := do
  let result ← verifyBundleWithPolicy env dir policy
  Except.require (.verificationFailed "compact requires successful baseline verification")
    (result.overall = .success)
  let manifestBytes ← dir.readFileBounded manifestName maxArchiveMember "producer manifest"
  let manifest ← parseManifest env manifestBytes
  let members ← ((manifest.carried includeExtensions).artifacts.references
    includeExtensions).foldlM (packReference dir) ∅
  writeArchive carriage
    (members.insert manifestName (carriage.rewrite manifestBytes manifest includeExtensions))

end

/-! ## `verify_archive` -/

/-- The state of the reading loop: the number of members, their paths, and the files written. -/
structure Unpacked where
  index : Nat
  paths : Finset String
  staged : Directory

/-- One round of the reading loop. -/
def unpackEntry (state : Unpacked) (entry : Except String TarEntry) :
    EvidenceResult Unpacked := do
  Except.require (bad "archive contains more than 10000 members")
    (state.index < maxArchiveMembers)
  let entry ← entry.mapError .io
  Except.require (bad "archive member is not a bounded regular file")
    (entry.isFile && entry.size ≤ maxArchiveMember)
  let relative ← Except.ofOption (bad "archive path is not UTF-8") entry.path
  validatePortablePath relative
  Except.require (bad "archive contains a duplicate path") (relative ∉ state.paths)
  (state.staged.createParents relative).mapError fun error => .io error.toString
  let staged ← (state.staged.write relative entry.bytes).mapError fun error => .io error.toString
  pure { index := state.index + 1, paths := insert relative state.paths, staged }

/-- The reading loop. -/
def unpackEntries (entries : List (Except String TarEntry)) : EvidenceResult Unpacked :=
  entries.foldlM unpackEntry ⟨0, ∅, ∅⟩

def verifyArchive [Sha256] (env : Environment) (carriage : Carriage) (archive : Bytes)
    (policy : VerifyPolicy) : EvidenceResult VerificationResult := do
  Except.require (bad "compressed archive exceeds 64 MiB") (archive.length ≤ maxCompressedArchive)
  let input ← readBounded maxCompressedArchive "compressed archive" (some archive)
  let (expanded, position) ← (carriage.gunzip (maxExpandedArchive + 1) input).mapError .io
  Except.require (bad "expanded archive exceeds 256 MiB") (expanded.length ≤ maxExpandedArchive)
  Except.require
    (bad "compressed archive must contain exactly one gzip member with no trailing bytes")
    (position = input.length)
  let entries ← (carriage.entries expanded).mapError .io
  let unpacked ← unpackEntries entries
  verifyBundleWithPolicy env unpacked.staged policy

/-! ## The reading loop on what was written -/

/-- A file is no directory: nothing lies below it. -/
def Directory.IsTree (dir : Directory) : Prop :=
  ∀ path ∈ dir, ∀ ancestor ∈ ancestors path, ancestor ∉ dir

section

variable {dir staged : Directory}

/-- Below the files of a tree there is room for each of them. -/
theorem Directory.IsTree.createParents (htree : dir.IsTree) (hsub : ∀ path ∈ staged, path ∈ dir)
    {path : String} (hpath : path ∈ dir) : staged.createParents path = .ok () := by
  have hfree : ∀ ancestor ∈ ancestors path, staged.contains ancestor = false := by
    intro ancestor hancestor
    rw [Bool.eq_false_iff, ne_eq, Std.ExtTreeMap.contains_iff_mem]
    exact fun hmem => htree path hpath ancestor hancestor (hsub ancestor hmem)
  unfold Directory.createParents
  cases hreverse : (ancestors path).reverse with
  | nil => rfl
  | cons parent above =>
    have hmem : ∀ ancestor ∈ parent :: above, ancestor ∈ ancestors path :=
      fun ancestor hancestor => List.mem_reverse.mp (hreverse ▸ hancestor)
    have habove : (above.any fun ancestor => staged.contains ancestor) = false := by
      rw [List.any_eq_false]
      intro ancestor hancestor
      simp [hfree ancestor (hmem ancestor (List.mem_cons_of_mem _ hancestor))]
    dsimp only
    rw [hfree parent (hmem parent List.mem_cons_self), habove]
    rfl

theorem Directory.IsTree.write (htree : dir.IsTree) (hsub : ∀ path ∈ staged, path ∈ dir)
    {path : String} (hpath : path ∈ dir) (bytes : Bytes) :
    staged.write path bytes = .ok (staged.insert path bytes) := by
  have hfile : staged.isDir path = false := by
    unfold Directory.isDir
    rw [List.any_eq_false]
    intro file hfile hcontains
    have hmem : file ∈ staged := Std.ExtTreeMap.mem_keys.mp hfile
    exact htree file (hsub file hmem) path (List.contains_iff_mem.mp hcontains) hpath
  rw [Directory.write, hfile]
  rfl

/-- A round on a member that was written. -/
theorem unpackEntry_eq_ok {state state' : Unpacked} {member : String × Bytes} :
    unpackEntry state (.ok (.ofMember member)) = .ok state'
      ↔ state.index < maxArchiveMembers ∧ member.2.length ≤ maxArchiveMember
        ∧ validatePortablePath member.1 = .ok () ∧ member.1 ∉ state.paths
        ∧ state.staged.createParents member.1 = .ok ()
        ∧ ∃ staged, state.staged.write member.1 member.2 = .ok staged
          ∧ state' = ⟨state.index + 1, insert member.1 state.paths, staged⟩ := by
  unfold unpackEntry TarEntry.ofMember
  simp only [Except.bind_eq_ok, Except.require_eq_ok, Except.mapError_eq_ok, Except.ofOption_eq_ok,
    decide_eq_true_eq, Except.ok.injEq, Option.some.injEq, exists_eq_left', exists_const,
    Bool.true_and, pure, Except.pure]
  constructor
  · rintro ⟨hindex, hsize, _, hportable, hfresh, _, hparents, staged, hwrite, rfl⟩
    exact ⟨hindex, hsize, hportable, hfresh, hparents, staged, hwrite, rfl⟩
  · rintro ⟨hindex, hsize, hportable, hfresh, hparents, staged, hwrite, rfl⟩
    exact ⟨hindex, hsize, (), hportable, hfresh, (), hparents, staged, hwrite, rfl⟩

/-- The members as the reader meets them. -/
def written (members : List (String × Bytes)) : List (Except String TarEntry) :=
  members.map fun member => .ok (.ofMember member)

/-- What a loop that ended has counted, bounded and written. -/
theorem foldlM_unpackEntry_eq_ok {members : List (String × Bytes)} {state state' : Unpacked}
    (h : (written members).foldlM unpackEntry state = .ok state') :
    (state.index ≤ maxArchiveMembers → state.index + members.length ≤ maxArchiveMembers)
      ∧ (∀ member ∈ members, member.2.length ≤ maxArchiveMember)
      ∧ state'.staged
        = members.foldl (fun staged member => staged.insert member.1 member.2) state.staged := by
  induction members generalizing state with
  | nil =>
    cases h
    exact ⟨id, by simp, rfl⟩
  | cons member members ih =>
    rw [written, List.map_cons, List.foldlM_cons, Except.bind_eq_ok] at h
    obtain ⟨next, hnext, hrest⟩ := h
    obtain ⟨hindex, hsize, -, -, -, staged, hwrite, rfl⟩ := unpackEntry_eq_ok.mp hnext
    obtain ⟨hcount, hsizes, hstaged⟩ := ih hrest
    have hstep : staged = state.staged.insert member.1 member.2 := by
      unfold Directory.write at hwrite
      split_ifs at hwrite
      exact (Except.ok.inj hwrite).symm
    refine ⟨fun _ => ?_, List.forall_mem_cons.mpr ⟨hsize, hsizes⟩, ?_⟩
    · have hlater : state.index + 1 + members.length ≤ maxArchiveMembers := hcount hindex
      rw [List.length_cons]
      omega
    · rw [hstaged, hstep, List.foldl_cons]

/-- The loop on the files of a tree that are within the limits. -/
theorem foldlM_unpackEntry_of_fits (htree : dir.IsTree) {members : List (String × Bytes)}
    {state : Unpacked} (hmembers : ∀ member ∈ members, member.1 ∈ dir)
    (hstaged : ∀ path ∈ state.staged, path ∈ dir)
    (hportable : ∀ member ∈ members, validatePortablePath member.1 = .ok ())
    (hnodup : (members.map Prod.fst).Nodup)
    (hfresh : ∀ member ∈ members, member.1 ∉ state.paths)
    (hsizes : ∀ member ∈ members, member.2.length ≤ maxArchiveMember)
    (hcount : state.index + members.length ≤ maxArchiveMembers) :
    ∃ state', (written members).foldlM unpackEntry state = .ok state' := by
  induction members generalizing state with
  | nil => exact ⟨state, rfl⟩
  | cons member members ih =>
    rw [List.map_cons, List.nodup_cons] at hnodup
    rw [List.length_cons] at hcount
    have hfirst : member.1 ∈ dir := hmembers member List.mem_cons_self
    have hround := unpackEntry_eq_ok.mpr ⟨by omega, hsizes member List.mem_cons_self,
      hportable member List.mem_cons_self, hfresh member List.mem_cons_self,
      htree.createParents hstaged hfirst, _, htree.write hstaged hfirst member.2, rfl⟩
    rw [written, List.map_cons, List.foldlM_cons, hround, Except.ok_bind]
    refine ih (fun other hother => hmembers other (List.mem_cons_of_mem _ hother)) ?_
      (fun other hother => hportable other (List.mem_cons_of_mem _ hother)) hnodup.2 ?_
      (fun other hother => hsizes other (List.mem_cons_of_mem _ hother)) (by dsimp only; omega)
    · intro path hpath
      rcases Std.ExtTreeMap.mem_insert.mp hpath with heq | hbefore
      · exact Std.LawfulEqCmp.eq_of_compare heq ▸ hfirst
      · exact hstaged path hbefore
    · intro other hother hmem
      rcases Finset.mem_insert.mp hmem with heq | hbefore
      · exact hnodup.1 (heq ▸ List.mem_map_of_mem hother)
      · exact hfresh other (List.mem_cons_of_mem _ hother) hbefore

/-! ## What is packed -/

/-- The files of an archive: the referenced files of the bundle, and the rewritten manifest. -/
def carriedFiles (dir : Directory) (references : List ArtifactRef) (manifestBytes : Bytes) :
    Directory :=
  (dir.filter fun path _ => (references.map ArtifactRef.path).contains path).insert manifestName
    manifestBytes

theorem getElem?_carriedFiles (references : List ArtifactRef) (manifestBytes : Bytes)
    (path : String) :
    (carriedFiles dir references manifestBytes)[path]?
      = if manifestName = path then some manifestBytes
        else if path ∈ references.map ArtifactRef.path then dir[path]? else none := by
  rw [carriedFiles, Std.ExtTreeMap.getElem?_insert, Std.ExtTreeMap.getElem?_filter']
  simp only [Std.LawfulEqCmp.compare_eq_iff_eq, List.contains_eq_mem]
  by_cases hreference : path ∈ references.map ArtifactRef.path
  · simp only [hreference, decide_true, if_true]
    cases dir[path]? <;> rfl
  · simp only [hreference, decide_false, if_false]
    cases dir[path]? <;> rfl

/-- Only files of the bundle are packed. -/
theorem mem_of_mem_carriedFiles {references : List ArtifactRef} {manifestBytes : Bytes}
    (hmanifest : manifestName ∈ dir) {path : String}
    (h : path ∈ carriedFiles dir references manifestBytes) : path ∈ dir := by
  rw [Std.ExtTreeMap.mem_iff_isSome_getElem?, getElem?_carriedFiles] at h
  split_ifs at h with hname hreference
  · exact hname ▸ hmanifest
  · exact Std.ExtTreeMap.mem_iff_isSome_getElem?.mpr h
  · cases h

variable [Sha256]

/-- The packing loop reads every reference with its digest, and keeps the file. -/
theorem foldlM_packReference_eq_ok {references : List ArtifactRef} {members : Directory}
    (h : references.foldlM (packReference dir) ∅ = .ok members) :
    (∀ reference ∈ references, ∃ bytes, dir.referencedArtifact reference = .ok bytes)
      ∧ ∀ path, members[path]?
        = if path ∈ references.map ArtifactRef.path then dir[path]? else none := by
  refine Except.foldlM_induction (P := fun taken members =>
    (∀ reference ∈ taken, ∃ bytes, dir.referencedArtifact reference = .ok bytes)
      ∧ ∀ path, members[path]?
        = if path ∈ taken.map ArtifactRef.path then dir[path]? else none) h ?_ ?_
  · exact ⟨by simp, by simp⟩
  · rintro taken members reference next ⟨hread, hmembers⟩ hnext
    obtain ⟨bytes, hbytes, hinsert⟩ := Except.bind_eq_ok.mp hnext
    obtain rfl : members.insert reference.path bytes = next := Except.ok.inj hinsert
    obtain ⟨-, hfile, -⟩ := Directory.referencedArtifact_eq_ok.mp hbytes
    obtain ⟨-, hfile, -⟩ := Directory.safeRead_eq_ok.mp hfile
    constructor
    · intro other hother
      rcases List.mem_append.mp hother with hearlier | hlast
      · exact hread other hearlier
      · exact List.mem_singleton.mp hlast ▸ ⟨bytes, hbytes⟩
    · intro path
      simp only [Std.ExtTreeMap.getElem?_insert, hmembers, Std.LawfulEqCmp.compare_eq_iff_eq,
        List.map_append, List.mem_append, List.map_cons, List.map_nil, List.mem_singleton]
      by_cases hpath : reference.path = path
      · subst hpath
        simp [hfile]
      · simp [hpath, Ne.symm hpath]

theorem packed_eq_carriedFiles {references : List ArtifactRef} {members : Directory}
    (h : references.foldlM (packReference dir) ∅ = .ok members) (manifestBytes : Bytes) :
    members.insert manifestName manifestBytes = carriedFiles dir references manifestBytes := by
  obtain ⟨-, hmembers⟩ := foldlM_packReference_eq_ok h
  refine Std.ExtTreeMap.ext_getElem? fun path => ?_
  rw [getElem?_carriedFiles, Std.ExtTreeMap.getElem?_insert, hmembers]
  simp only [Std.LawfulEqCmp.compare_eq_iff_eq]

variable {env : Environment} {carriage : Carriage} {policy : VerifyPolicy}
  {includeExtensions : Bool} {archive manifestBytes : Bytes} {manifest : Manifest}

omit [Sha256] in
/-- The files that are packed for a manifest. -/
def archivedFiles (carriage : Carriage) (dir : Directory) (manifestBytes : Bytes)
    (manifest : Manifest) (includeExtensions : Bool) : Directory :=
  carriedFiles dir ((manifest.carried includeExtensions).artifacts.references includeExtensions)
    (carriage.rewrite manifestBytes manifest includeExtensions)

/-- A compaction that ended: the bundle verified, every reference was read, and the archive holds
the packed files in order. -/
theorem compactBundle_eq_ok (hmanifestBytes : dir[manifestName]? = some manifestBytes)
    (hmanifest : parseManifest env manifestBytes = .ok manifest)
    (h : compactBundle env carriage dir policy includeExtensions = .ok archive) :
    (∃ result, verifyBundleWithPolicy env dir policy = .ok result ∧ result.overall = .success)
      ∧ (∀ reference ∈ (manifest.carried includeExtensions).artifacts.references
            includeExtensions, ∃ bytes, dir.referencedArtifact reference = .ok bytes)
      ∧ (∀ member ∈ (archivedFiles carriage dir manifestBytes manifest includeExtensions).toList,
          validatePortablePath member.1 = .ok ())
      ∧ archive = carriage.gzip (carriage.tar
          (archivedFiles carriage dir manifestBytes manifest includeExtensions).toList) := by
  simp only [compactBundle, Except.bind_eq_ok, Except.require_eq_ok, decide_eq_true_eq] at h
  obtain ⟨result, hresult, _, hsuccess, found, hfound, parsed, hparsed, members, hmembers,
    hwrite⟩ := h
  obtain ⟨hfound, -⟩ := Directory.readFileBounded_eq_ok.mp hfound
  obtain rfl : manifestBytes = found := Option.some.inj (hmanifestBytes.symm.trans hfound)
  obtain rfl : manifest = parsed := Except.ok.inj (hmanifest.symm.trans hparsed)
  rw [packed_eq_carriedFiles hmembers, writeArchive, Except.bind_eq_ok] at hwrite
  obtain ⟨_, hportable, harchive⟩ := hwrite
  exact ⟨⟨result, hresult, hsuccess⟩, (foldlM_packReference_eq_ok hmembers).1,
    Except.forM_eq_ok.mp hportable, (Except.ok.inj harchive).symm⟩

theorem exists_foldlM_packReference {references : List ArtifactRef}
    (h : ∀ reference ∈ references, ∃ bytes, dir.referencedArtifact reference = .ok bytes)
    (members : Directory) :
    ∃ packed, references.foldlM (packReference dir) members = .ok packed := by
  induction references generalizing members with
  | nil => exact ⟨members, rfl⟩
  | cons reference references ih =>
    obtain ⟨bytes, hbytes⟩ := h reference List.mem_cons_self
    rw [List.foldlM_cons, packReference, hbytes]
    exact ih (fun other hother => h other (List.mem_cons_of_mem _ hother)) _

/-- A bundle that verifies is compacted once all of its references can be read: their paths are
portable. -/
theorem compactBundle_of_read (hmanifestBytes : dir[manifestName]? = some manifestBytes)
    (hlength : manifestBytes.length ≤ maxArchiveMember)
    (hmanifest : parseManifest env manifestBytes = .ok manifest)
    (hverified : ∃ result, verifyBundleWithPolicy env dir policy = .ok result
      ∧ result.overall = .success)
    (hpacked : ∀ reference ∈ (manifest.carried includeExtensions).artifacts.references
      includeExtensions, ∃ bytes, dir.referencedArtifact reference = .ok bytes) :
    compactBundle env carriage dir policy includeExtensions
      = .ok (carriage.gzip (carriage.tar
          (archivedFiles carriage dir manifestBytes manifest includeExtensions).toList)) := by
  obtain ⟨result, hresult, hsuccess⟩ := hverified
  obtain ⟨members, hmembers⟩ := exists_foldlM_packReference hpacked ∅
  have hportable : ∀ member ∈
      (archivedFiles carriage dir manifestBytes manifest includeExtensions).toList,
      validatePortablePath member.1 = .ok () := by
    intro member hmember
    have hfile := Std.ExtTreeMap.mem_toList_iff_getElem?_eq_some.mp hmember
    rw [archivedFiles, getElem?_carriedFiles] at hfile
    split_ifs at hfile with hname hreference
    · rw [← hname]
      decide +kernel
    · obtain ⟨reference, hmem, heq⟩ := List.mem_map.mp hreference
      obtain ⟨bytes, hbytes⟩ := hpacked reference hmem
      obtain ⟨-, hread, -⟩ := Directory.referencedArtifact_eq_ok.mp hbytes
      exact heq ▸ (Directory.safeRead_eq_ok.mp hread).1
  have hwrite : writeArchive carriage
      (archivedFiles carriage dir manifestBytes manifest includeExtensions)
      = .ok (carriage.gzip (carriage.tar
          (archivedFiles carriage dir manifestBytes manifest includeExtensions).toList)) := by
    rw [writeArchive, Except.forM_eq_ok.mpr hportable]
    rfl
  have hread : dir.readFileBounded manifestName maxArchiveMember "producer manifest"
      = .ok manifestBytes := Directory.readFileBounded_eq_ok.mpr ⟨hmanifestBytes, hlength⟩
  unfold compactBundle
  rw [hresult, Except.ok_bind, (Except.require_eq_ok (u := ())).mpr (decide_eq_true hsuccess),
    Except.ok_bind, hread, Except.ok_bind, hmanifest, Except.ok_bind, hmembers, Except.ok_bind,
    packed_eq_carriedFiles hmembers]
  exact hwrite

/-! ## The reader on what was written -/

omit [Sha256] in
/-- The limits of `verify_archive`, on the files of an archive. -/
structure WithinArchiveLimits (carriage : Carriage) (files : Directory) : Prop where
  members : files.size ≤ maxArchiveMembers
  sizes : ∀ member ∈ files.toList, member.2.length ≤ maxArchiveMember
  expanded : (carriage.tar files.toList).length ≤ maxExpandedArchive
  compressed : (carriage.gzip (carriage.tar files.toList)).length ≤ maxCompressedArchive

/-- Within the limits, the verifier is run on the files that were written, and beyond them there is
no result. -/
theorem verifyArchive_written (hfaithful : carriage.Faithful) (htree : dir.IsTree)
    {files : Directory} (hfiles : ∀ path ∈ files, path ∈ dir)
    (hportable : ∀ member ∈ files.toList, validatePortablePath member.1 = .ok ())
    {result : VerificationResult} :
    verifyArchive env carriage (carriage.gzip (carriage.tar files.toList)) policy = .ok result
      ↔ WithinArchiveLimits carriage files ∧ verifyBundleWithPolicy env files policy
        = .ok result := by
  -- the archive has the entries that were written, and unpacking stages their files
  have hentries := hfaithful.entries_tar files.toList hportable
  have hstaged : ∀ unpacked : Unpacked,
      unpackEntries (written files.toList) = .ok unpacked → unpacked.staged = files := by
    intro unpacked hunpacked
    rw [(foldlM_unpackEntry_eq_ok hunpacked).2.2]
    exact TreeMap.foldl_insert_toList files
  simp only [verifyArchive, Except.bind_eq_ok, Except.require_eq_ok, Except.mapError_eq_ok,
    readBounded_eq_ok, decide_eq_true_eq]
  constructor
  · rintro ⟨_, hcompressed, input, ⟨hinput, -⟩, ⟨expanded, position⟩, hread, _, hexpanded, _, -,
      entries, hentries', unpacked, hunpacked, hresult⟩
    cases hinput
    -- a read that is shorter than its limit has seen the whole stream
    have htake := hfaithful.take_gunzip _ _ _ _ hread
    dsimp only at hexpanded hentries'
    have hlength : (carriage.tar files.toList).length ≤ maxExpandedArchive := by
      rw [htake, List.length_take] at hexpanded
      omega
    rw [htake, List.take_of_length_le (by omega), hentries] at hentries'
    cases hentries'
    obtain ⟨hcount, hsizes, -⟩ := foldlM_unpackEntry_eq_ok hunpacked
    have hmembers : files.size ≤ maxArchiveMembers := by
      have htotal : 0 + files.toList.length ≤ maxArchiveMembers := hcount (Nat.zero_le _)
      rwa [Nat.zero_add, Std.ExtTreeMap.length_toList] at htotal
    exact ⟨⟨hmembers, hsizes, hlength, hcompressed⟩, hstaged unpacked hunpacked ▸ hresult⟩
  -- within the limits every check passes
  · rintro ⟨⟨hmembers, hsizes, hexpanded, hcompressed⟩, hresult⟩
    have hread := hfaithful.gunzip_gzip (maxExpandedArchive + 1) (carriage.tar files.toList)
      (by omega)
    -- no member is written twice, and each is inside the directory
    have hnodup : (files.toList.map Prod.fst).Nodup := by
      rw [List.nodup_iff_pairwise_ne, List.pairwise_map]
      refine Std.ExtTreeMap.distinct_keys_toList.imp ?_
      intro left right hne heq
      exact hne (heq ▸ Std.ReflCmp.compare_self)
    have hinside : ∀ member ∈ files.toList, member.1 ∈ dir := by
      intro member hmember
      refine hfiles _ (Std.ExtTreeMap.mem_iff_isSome_getElem?.mpr ?_)
      rw [Std.ExtTreeMap.mem_toList_iff_getElem?_eq_some.mp hmember]
      rfl
    have hcount : 0 + files.toList.length ≤ maxArchiveMembers := by
      rwa [Nat.zero_add, Std.ExtTreeMap.length_toList]
    obtain ⟨unpacked, hunpacked⟩ := @foldlM_unpackEntry_of_fits dir htree files.toList ⟨0, ∅, ∅⟩
      hinside (by simp) hportable hnodup (by simp) hsizes hcount
    refine ⟨(), hcompressed, _, ⟨rfl, hcompressed⟩, _, hread, (), hexpanded, (), rfl, _, hentries,
      unpacked, hunpacked, ?_⟩
    rw [hstaged unpacked hunpacked]
    exact hresult

end

end TrackOne.Evidence
