import TrackOne.Evidence.Verify

/-!
# Remote verification

`verify_remote_bundle` of `apps/trackone-evidence/src/vtl/remote.rs`: the manifest and the evidence
a scope consumes are fetched one by one into a private staging directory, and the local verifier is
run on that directory. The digest of the segment that is expected comes from the caller, not from
the manifest.

A server is any function of the number of the request and the path, so it may answer one path in
two ways. What `curl` and the HTTP framing checks let through is its answer; the limits on requests
and bytes are the retriever's own.

* `stage_eq_ok` is what one request does, and `stageReferences_staged` what a sequence of them
  leaves behind: for each path the last answer.
* The expected digest is compared with the first answer for the segment, while the verifier reads
  the last one. `verifyRemoteBundle_pinned_iff` states exactly when a success is about the expected
  segment: when the last answer still has the digest of the first (`SegmentKept`).
* `segmentKept_of_distinct` and `segmentKept_of_stationary` are two cases in which it is: no other
  reference names the segment or the manifest, and a server that answers a path in one way.
-/

namespace TrackOne.Evidence

/-! ## Options -/

/-- `RemoteOptions`, without the `curl` binary and its retries. -/
structure RemoteOptions where
  bundleUrl : String
  expectedSegmentSha256 : String
  httpsCaFile : HostPath
  requestTimeout : Duration
  maxObjectBytes : UInt64
  maxTotalBytes : UInt64
  maxRequests : UInt64

def validateOptions (env : Environment) (options : RemoteOptions) : EvidenceResult Unit := do
  Except.require (bad "expected segment SHA-256 must be 64 lowercase hexadecimal characters")
    (validHex options.expectedSegmentSha256 64)
  Except.require (bad "HTTPS CA file is not a regular file") (env.isFile options.httpsCaFile)
  Except.require (bad "remote retrieval limits must be finite and positive")
    (!options.requestTimeout.isZero && options.maxObjectBytes != 0 && options.maxTotalBytes != 0
      && options.maxRequests != 0)

def validateBundleRoot (value : String) : EvidenceResult String := do
  let chars := value.toList
  Except.require (bad "bundle URL must use https") ("https://".toList.isPrefixOf chars)
  let authority := (chars.drop "https://".length).takeWhile (· ≠ '/')
  Except.require
    (bad "bundle URL must be an absolute HTTPS directory URL without userinfo, query, or fragment")
    (!(authority.isEmpty || authority.contains '@' || chars.contains '?' || chars.contains '#'
      || chars.contains '\\' || chars.any isControl || chars.getLast? != some '/'))
  pure value

/-! ## Retrieval -/

/-- The answer to the `n`-th request of a run, for the path it asks for. -/
abbrev Server := Nat → String → EvidenceResult Bytes

/-- `Retriever`, with the staging directory it fills. -/
structure Retriever where
  requests : UInt64
  bytes : UInt64
  staged : Directory

/-- The retriever of a new run. -/
def Retriever.new : Retriever := { requests := 0, bytes := 0, staged := ∅ }

def Retriever.fetch (server : Server) (options : RemoteOptions) (retriever : Retriever)
    (relative : String) : EvidenceResult (Bytes × Retriever) := do
  validatePortablePath relative
  let requests ← Except.ofOption (bad "remote request counter overflow")
    (retriever.requests.checkedAdd 1)
  Except.require (bad "remote evidence request limit exceeded") (requests ≤ options.maxRequests)
  let body ← server retriever.requests.toNat relative
  let length := (UInt64.ofNat? body.length).getD (UInt64.ofNat (2 ^ 64 - 1))
  Except.require (bad "remote evidence object exceeds the configured byte limit")
    (length ≤ options.maxObjectBytes)
  let bytes ← Except.ofOption (bad "remote evidence byte counter overflow")
    (retriever.bytes.checkedAdd length)
  Except.require (bad "remote evidence exceeds the configured aggregate byte limit")
    (bytes ≤ options.maxTotalBytes)
  pure (body, { retriever with requests, bytes })

def writeStaged (staged : Directory) (relative : String) (bytes : Bytes) :
    EvidenceResult Directory := do
  validatePortablePath relative
  (staged.createParents relative).mapError fun error => .io error.toString
  (staged.write relative bytes).mapError fun error => .io error.toString

/-- A fetch whose bytes are kept, matching or not: the manifest's, or `stage_reference`. -/
def Retriever.stage (server : Server) (options : RemoteOptions) (retriever : Retriever)
    (relative : String) : EvidenceResult (Bytes × Retriever) := do
  let (bytes, retriever) ← retriever.fetch server options relative
  let staged ← writeStaged retriever.staged relative bytes
  pure (bytes, { retriever with staged })

def consumedBatches (manifest : Manifest) (policy : VerifyPolicy) (scope : VerificationScope) :
    Finset UInt64 :=
  if scope = .anchorOnly then ∅
  else if scope = .disclosedBatchRecompute ∧ manifest.disclosureClass = "A" then
    policy.selectedBatches
  else (manifest.artifacts.openings.filterMap fun opening => parseU64 opening.batchNumber).toFinset

/-- The references staged after the segment, in the order of the source: the predecessor, the
extensions, the timestamp files, and the records of every consumed batch. -/
def secondaryReferences (manifest : Manifest) (policy : VerifyPolicy) : List ArtifactRef :=
  let consumed := consumedBatches manifest policy (policy.scopeFor manifest)
  manifest.artifacts.predecessorSegmentCbor.toList
    ++ manifest.artifacts.extensions.values
    ++ (if manifest.tsaStatus = "present" then
        manifest.artifacts.tsaReq.toList ++ manifest.artifacts.tsaTsr.toList
      else [])
    ++ manifest.artifacts.openings.flatMap fun opening =>
        match parseU64 opening.batchNumber with
        | none => []
        | some number => if number ∈ consumed then opening.records else []

/-- The staging of one reference after another. -/
def Retriever.stageReferences (server : Server) (options : RemoteOptions) :
    List ArtifactRef → Retriever → EvidenceResult Retriever
  | [], retriever => .ok retriever
  | reference :: references, retriever => do
    let (_, retriever) ← retriever.stage server options reference.path
    stageReferences server options references retriever

/-! ## Verification -/

def addIntegrityFailure (result : VerificationResult) : VerificationResult :=
  { result with
    failureReasons := insert .commitmentMismatch result.failureReasons
    overall := .failure }

def verifyRemoteBundle [Sha256] (env : Environment) (server : Server) (options : RemoteOptions)
    (policy : VerifyPolicy) : EvidenceResult VerificationResult := do
  validateOptions env options
  let _ ← validateBundleRoot options.bundleUrl
  let (manifestBytes, retriever) ← Retriever.new.stage server options manifestName
  let manifest ← parseManifest env manifestBytes
  let (artifact, retriever) ← retriever.stage server options manifest.artifacts.segmentCbor.path
  let expectedMismatch := sha256Hex artifact != options.expectedSegmentSha256
  let retriever ← retriever.stageReferences server options (secondaryReferences manifest policy)
  let result ← verifyBundleWithPolicy env retriever.staged policy
  pure (if expectedMismatch then addIntegrityFailure result else result)

/-- The part of a run before the local verifier is called: the segment it fetched, and the
directory it staged. -/
def retrieveBundle (env : Environment) (server : Server) (options : RemoteOptions)
    (policy : VerifyPolicy) : EvidenceResult (Bytes × Directory) := do
  validateOptions env options
  let _ ← validateBundleRoot options.bundleUrl
  let (manifestBytes, retriever) ← Retriever.new.stage server options manifestName
  let manifest ← parseManifest env manifestBytes
  let (artifact, retriever) ← retriever.stage server options manifest.artifacts.segmentCbor.path
  let retriever ← retriever.stageReferences server options (secondaryReferences manifest policy)
  pure (artifact, retriever.staged)

/-! ## What staging leaves behind -/

/-- The objects a server answers to a sequence of requests, from a request number on. -/
def answers (server : Server) : Nat → List String → List (String × Bytes)
  | _, [] => []
  | index, path :: paths =>
    (server index path).toOption.toList.map (fun bytes => (path, bytes))
      ++ answers server (index + 1) paths

/-- The object a server answers last for a path, over a whole sequence of requests. -/
def lastAnswer (server : Server) (paths : List String) (path : String) : Option Bytes :=
  TreeMap.lastWrite (answers server 0 paths) path

section

variable {server : Server} {options : RemoteOptions}

/-- One request: the answer is counted and written under its path. -/
theorem Retriever.stage_eq_ok {retriever retriever' : Retriever} {path : String} {bytes : Bytes}
    (h : retriever.stage server options path = .ok (bytes, retriever')) :
    server retriever.requests.toNat path = .ok bytes
      ∧ retriever'.requests.toNat = retriever.requests.toNat + 1
      ∧ retriever'.staged = retriever.staged.insert path bytes := by
  simp only [stage, fetch, Except.bind_eq_ok] at h
  obtain ⟨⟨body, fetched⟩,
    ⟨_, _, requests, hrequests, _, _, body', hbody, _, _, total, _, _, _, hfetched⟩, staged,
    hstaged, hout⟩ := h
  cases hfetched
  cases hout
  have hnext := UInt64.checkedAdd_eq_some.mp (Except.ofOption_eq_ok.mp hrequests)
  refine ⟨hbody, hnext, ?_⟩
  simp only [writeStaged, Directory.write, Except.bind_eq_ok, Except.mapError_eq_ok] at hstaged
  obtain ⟨_, _, _, _, hwrite⟩ := hstaged
  split_ifs at hwrite
  cases hwrite
  rfl

/-- A sequence of requests writes the answers one after another. -/
theorem Retriever.stageReferences_staged {references : List ArtifactRef}
    {retriever retriever' : Retriever}
    (h : retriever.stageReferences server options references = .ok retriever') :
    retriever'.staged
      = (answers server retriever.requests.toNat (references.map ArtifactRef.path)).foldl
          (fun staged entry => staged.insert entry.1 entry.2) retriever.staged := by
  induction references generalizing retriever with
  | nil =>
    cases h
    rfl
  | cons reference references ih =>
    rw [stageReferences, Except.bind_eq_ok] at h
    obtain ⟨⟨bytes, next⟩, hstage, hrest⟩ := h
    obtain ⟨hanswer, hrequests, hstaged⟩ := stage_eq_ok hstage
    rw [ih hrest, hrequests, hstaged, List.map_cons, answers, hanswer]
    rfl

end

/-! ## The expected digest -/

section

variable [Sha256] (env : Environment) (server : Server) (policy : VerifyPolicy)

/-- The paths a run asks for once it has the manifest, in order. -/
def requestPaths (manifest : Manifest) : List String :=
  manifestName :: manifest.artifacts.segmentCbor.path
    :: (secondaryReferences manifest policy).map ArtifactRef.path

/-- The manifest of the first answer. -/
def servedManifest : Option Manifest := do
  let bytes ← (server 0 manifestName).toOption
  (parseManifest env bytes).toOption

/-- The object the server answers to the request for the segment. -/
def firstSegment : Option Bytes := do
  let manifest ← servedManifest env server
  (server 1 manifest.artifacts.segmentCbor.path).toOption

/-- The object the server answers last for the segment, as the manifest it answers last names it. -/
def lastSegment : Option Bytes := do
  let manifest ← servedManifest env server
  let bytes ← lastAnswer server (requestPaths policy manifest) manifestName
  let reread ← (parseManifest env bytes).toOption
  lastAnswer server (requestPaths policy manifest) reread.artifacts.segmentCbor.path

/-- No later answer put another segment in the place of the first one. -/
def SegmentKept : Prop :=
  (lastSegment env server policy).map sha256Hex = (firstSegment env server).map sha256Hex

variable {env server policy} {options : RemoteOptions} {result : VerificationResult}

theorem verifyRemoteBundle_eq (env : Environment) (server : Server) (options : RemoteOptions)
    (policy : VerifyPolicy) :
    verifyRemoteBundle env server options policy
      = retrieveBundle env server options policy >>= fun retrieved =>
          verifyBundleWithPolicy env retrieved.2 policy >>= fun result =>
            pure (if sha256Hex retrieved.1 != options.expectedSegmentSha256 then
              addIntegrityFailure result
            else result) := by
  simp only [verifyRemoteBundle, retrieveBundle, bind_assoc, pure_bind]

omit [Sha256] in
/-- What a completed retrieval asked for, and what it left in the staging directory. -/
theorem retrieveBundle_eq_ok {artifact : Bytes} {staged : Directory}
    (h : retrieveBundle env server options policy = .ok (artifact, staged)) :
    ∃ manifest,
      servedManifest env server = some manifest
        ∧ server 1 manifest.artifacts.segmentCbor.path = .ok artifact
        ∧ ∀ path, staged[path]? = lastAnswer server (requestPaths policy manifest) path := by
  simp only [retrieveBundle, Except.bind_eq_ok] at h
  obtain ⟨_, _, _, _, ⟨manifestBytes, first⟩, hfirst, manifest, hmanifest, ⟨found, second⟩, hsecond,
    last, hlast, hresult⟩ := h
  obtain ⟨hmanifestBytes, hone, hfirstStaged⟩ := Retriever.stage_eq_ok hfirst
  obtain ⟨hartifact, htwo, hsecondStaged⟩ := Retriever.stage_eq_ok hsecond
  rw [hone] at hartifact htwo
  obtain ⟨rfl, rfl⟩ : found = artifact ∧ last.staged = staged := by
    simpa [pure, Except.pure] using hresult
  have hbytes : server 0 manifestName = .ok manifestBytes := hmanifestBytes
  have hsegment : server 1 manifest.artifacts.segmentCbor.path = .ok found := hartifact
  refine ⟨manifest, ?_, hsegment, ?_⟩
  · simp [servedManifest, hbytes, hmanifest, Except.toOption]
  · intro path
    -- the first two requests are writes like the others
    have hstaged : last.staged = (answers server 0 (requestPaths policy manifest)).foldl
        (fun staged entry => staged.insert entry.1 entry.2) ∅ := by
      rw [Retriever.stageReferences_staged hlast, htwo, hsecondStaged, hfirstStaged, requestPaths,
        answers, answers, hbytes, hsegment]
      rfl
    rw [hstaged, TreeMap.getElem?_foldl_insert]
    simp [lastAnswer]

/-- A run that returned a result: what was asked for, what it left in the staging directory, and
the local verification the result comes from. -/
theorem verifyRemoteBundle_eq_ok
    (h : verifyRemoteBundle env server options policy = .ok result) :
    ∃ manifest artifact staged checked,
      servedManifest env server = some manifest
        ∧ server 1 manifest.artifacts.segmentCbor.path = .ok artifact
        ∧ (∀ path, staged[path]? = lastAnswer server (requestPaths policy manifest) path)
        ∧ verifyBundleWithPolicy env staged policy = .ok checked
        ∧ result = if sha256Hex artifact != options.expectedSegmentSha256
            then addIntegrityFailure checked else checked := by
  rw [verifyRemoteBundle_eq, Except.bind_eq_ok] at h
  obtain ⟨⟨artifact, staged⟩, hretrieved, h⟩ := h
  obtain ⟨checked, hchecked, hresult⟩ := Except.bind_eq_ok.mp h
  cases hresult
  obtain ⟨manifest, hmanifest, hartifact, hstaged⟩ := retrieveBundle_eq_ok hretrieved
  exact ⟨manifest, artifact, staged, checked, hmanifest, hartifact, hstaged, hchecked, rfl⟩

/-- Remote verification reports a success about the expected segment exactly when the server kept
the segment it first answered: in a run with a verdict of success, the verified bytes have the
expected digest if and only if the last answer for the segment has the digest of the first one. -/
theorem verifyRemoteBundle_pinned_iff (env : Environment) (server : Server)
    (options : RemoteOptions) (policy : VerifyPolicy) (result : VerificationResult)
    (hrun : verifyRemoteBundle env server options policy = .ok result)
    (hsuccess : result.overall = .success) :
    result.artifactSha256 = options.expectedSegmentSha256 ↔ SegmentKept env server policy := by
  obtain ⟨manifest, artifact, staged, checked, hmanifest, hartifact, hstaged, hchecked, hresult⟩ :=
    verifyRemoteBundle_eq_ok hrun
  -- a verdict of success passed the comparison with the first answer
  have hexpected : sha256Hex artifact = options.expectedSegmentSha256 := by
    by_contra hne
    rw [if_pos (bne_iff_ne.mpr hne)] at hresult
    rw [hresult] at hsuccess
    cases hsuccess
  rw [if_neg (by simp [hexpected])] at hresult
  obtain ⟨rereadBytes, reread, verified, hrereadBytes, hreread, -, hread, hdigest, -, -⟩ :=
    verifyBundleWithPolicy_eq_ok hchecked
  obtain ⟨-, hverified, -⟩ := Directory.safeRead_eq_ok.mp hread
  rw [hstaged] at hrereadBytes hverified
  have hfirst : firstSegment env server = some artifact := by
    simp [firstSegment, hmanifest, hartifact, Except.toOption]
  have hlast : lastSegment env server policy = some verified := by
    simp [lastSegment, hmanifest, hrereadBytes, hreread, hverified, Except.toOption]
  rw [SegmentKept, hfirst, hlast, hresult, hdigest, ← hexpected, Option.map_some, Option.map_some,
    Option.some.injEq]

/-! ### When the segment is kept -/

omit [Sha256] in
theorem lastWrite_answers_cons (index : Nat) (path : String) (paths : List String) (a : String) :
    TreeMap.lastWrite (answers server index (path :: paths)) a
      = (TreeMap.lastWrite (answers server (index + 1) paths) a).or
          (if path = a then (server index path).toOption else none) := by
  rw [answers]
  cases (server index path).toOption with
  | none => simp
  | some bytes =>
    simp only [Option.toList_some, List.map_cons, List.map_nil, List.singleton_append]
    exact TreeMap.lastWrite_cons _ _ _

omit [Sha256] in
theorem lastWrite_answers_of_not_mem {paths : List String} {a : String} (h : a ∉ paths)
    (index : Nat) : TreeMap.lastWrite (answers server index paths) a = none := by
  induction paths generalizing index with
  | nil => rfl
  | cons path paths ih =>
    rw [List.mem_cons, not_or] at h
    rw [lastWrite_answers_cons, ih h.2, if_neg (Ne.symm h.1)]
    rfl

/-- A manifest whose other references name neither its segment nor itself. -/
theorem segmentKept_of_distinct {manifest : Manifest}
    (hmanifest : servedManifest env server = some manifest)
    (hsegment : manifest.artifacts.segmentCbor.path ≠ manifestName)
    (hothers : ∀ reference ∈ secondaryReferences manifest policy,
      reference.path ≠ manifest.artifacts.segmentCbor.path ∧ reference.path ≠ manifestName) :
    SegmentKept env server policy := by
  obtain ⟨bytes, hbytes, hparse⟩ := Option.bind_eq_some_iff.mp hmanifest
  have hfresh : ∀ path, (∀ reference ∈ secondaryReferences manifest policy, reference.path ≠ path) →
      path ∉ (secondaryReferences manifest policy).map ArtifactRef.path := by
    intro path hne hmem
    obtain ⟨reference, hreference, rfl⟩ := List.mem_map.mp hmem
    exact hne reference hreference rfl
  have hreread : lastAnswer server (requestPaths policy manifest) manifestName = some bytes := by
    rw [lastAnswer, requestPaths, lastWrite_answers_cons, lastWrite_answers_cons,
      lastWrite_answers_of_not_mem (hfresh _ fun reference h => (hothers reference h).2),
      if_neg hsegment, if_pos rfl, hbytes]
    rfl
  have hlast : lastAnswer server (requestPaths policy manifest) manifest.artifacts.segmentCbor.path
      = (server 1 manifest.artifacts.segmentCbor.path).toOption := by
    rw [lastAnswer, requestPaths, lastWrite_answers_cons, lastWrite_answers_cons,
      lastWrite_answers_of_not_mem (hfresh _ fun reference h => (hothers reference h).1),
      if_pos rfl, if_neg (Ne.symm hsegment)]
    simp
  simp [SegmentKept, lastSegment, firstSegment, hmanifest, hreread, hparse, hlast]

omit [Sha256] in
/-- A server that answers each of the paths in one way leaves that answer. -/
theorem lastWrite_answers_of_steady {answer : String → Option Bytes} {paths : List String}
    (hserver : ∀ index, ∀ path ∈ paths, (server index path).toOption = answer path) (index : Nat)
    (a : String) :
    TreeMap.lastWrite (answers server index paths) a = if a ∈ paths then answer a else none := by
  induction paths generalizing index with
  | nil => rfl
  | cons path paths ih =>
    rw [lastWrite_answers_cons, hserver index path List.mem_cons_self,
      ih fun index path hpath => hserver index path (List.mem_cons_of_mem _ hpath)]
    by_cases hpath : path = a
    · subst hpath
      -- a later answer for the path is the same one
      rw [if_pos rfl, if_pos List.mem_cons_self]
      split_ifs
      · exact Option.or_self
      · rfl
    · simp [hpath, Ne.symm hpath]

/-- A server that answers every path in one way, whatever the manifest repeats. -/
theorem segmentKept_of_stationary (hserver : ∀ index path, server index path = server 0 path) :
    SegmentKept env server policy := by
  cases hmanifest : servedManifest env server with
  | none => simp [SegmentKept, lastSegment, firstSegment, hmanifest]
  | some manifest =>
    obtain ⟨bytes, hbytes, hparse⟩ := Option.bind_eq_some_iff.mp hmanifest
    have hsteady : ∀ index, ∀ path ∈ requestPaths policy manifest,
        (server index path).toOption = (server 0 path).toOption :=
      fun index path _ => congrArg Except.toOption (hserver index path)
    have hreread : lastAnswer server (requestPaths policy manifest) manifestName = some bytes := by
      rw [lastAnswer, lastWrite_answers_of_steady hsteady, if_pos (by simp [requestPaths]), hbytes]
    have hlast : lastAnswer server (requestPaths policy manifest)
        manifest.artifacts.segmentCbor.path
        = (server 1 manifest.artifacts.segmentCbor.path).toOption := by
      rw [lastAnswer, lastWrite_answers_of_steady hsteady, if_pos (by simp [requestPaths]),
        hserver 1]
    simp [SegmentKept, lastSegment, firstSegment, hmanifest, hreread, hparse, hlast]

/-! ### A server that changes its answer -/

/-- The bytes of an empty first segment, closed under a policy with the given interval. -/
def sampleSegment (intervalMs : UInt64) : Bytes :=
  SegmentRecord.cborBody (SegmentRecord.atPosition
    ⟨"b7a1d5e40c6f438e9a75db27c96f31aa", 0, Digest.zero⟩
    { intervalMs, batchRecordLimit := 2, recordLimit := none, sizeLimitBytes := none
      emptyMode := .emit }
    "interval" 0 [] (sha256Digest []))

/-- A manifest for a segment, with an extension that names the segment's own path. -/
def sampleManifest (segment : Bytes) : Manifest where
  version := 1
  ledgerId := "b7a1d5e40c6f438e9a75db27c96f31aa"
  segmentNumber := "0"
  commitmentProfileId := commitmentProfileId
  disclosureClass := "C"
  artifacts := {
    segmentCbor := ⟨"segment.cbor", sha256Hex segment⟩
    predecessorSegmentCbor := none
    recordBatches := none
    tsaReq := none
    tsaTsr := some ⟨"segment.tsr", sha256Hex (sha256Digest segment).bytes⟩
    extensions := Std.ExtTreeMap.ofList [("copy", ⟨"segment.cbor", sha256Hex segment⟩)] compare }
  tsaStatus := "present"

/-- The JSON text of the manifest. -/
def sampleManifestText (segment : Bytes) : String :=
  let reference (path : String) (bytes : Bytes) : String :=
    "\x7b\"path\":\"" ++ path ++ "\",\"sha256\":\"" ++ sha256Hex bytes ++ "\"\x7d"
  "\x7b\"version\":1,\"ledger_id\":\"b7a1d5e40c6f438e9a75db27c96f31aa\",\"segment_number\":\"0\","
    ++ "\"commitment_profile_id\":\"" ++ commitmentProfileId ++ "\",\"disclosure_class\":\"C\","
    ++ "\"artifacts\":\x7b\"segment_cbor\":" ++ reference "segment.cbor" segment
    ++ ",\"tsa_tsr\":" ++ reference "segment.tsr" (sha256Digest segment).bytes
    ++ ",\"extensions\":\x7b\"copy\":" ++ reference "segment.cbor" segment ++ "\x7d\x7d,"
    ++ "\"anchoring\":\x7b\"tsa\":\x7b\"status\":\"present\"\x7d\x7d\x7d"

/-- An environment that reads the manifest, and in which a timestamp response is the digest it was
issued for. -/
def sampleEnvironment (segment : Bytes) : Environment where
  readManifest bytes :=
    if bytes = utf8Bytes (sampleManifestText segment) then .ok (sampleManifest segment)
    else .error "expected value at line 1 column 1"
  encodeFingerprint _ := []
  verifyResponse response digest _ :=
    if response = digest.bytes then .ok ⟨none⟩
    else .error "RFC 3161 message imprint does not match the artifact"
  verifyRequest _ _ _ := .error "malformed RFC 3161 request"
  hostFile path := if path = utf8Bytes "ca.pem" then .ok [] else .error .enoent

/-- A server that answers the request for the segment with one object, and every later request for
its path with another. -/
def sampleServer (first later : Bytes) : Server := fun index path =>
  if path = manifestName then .ok (utf8Bytes (sampleManifestText later))
  else if path = "segment.cbor" then (if index = 1 then .ok first else .ok later)
  else if path = "segment.tsr" then .ok (sha256Digest later).bytes
  else .error (bad "evidence retrieval requires a complete HTTP 200 response, got 404 2")

/-- The default limits, with the expected digest of a segment. -/
def sampleOptions (expected : Bytes) : RemoteOptions where
  bundleUrl := "https://example.test/bundle/"
  expectedSegmentSha256 := sha256Hex expected
  httpsCaFile := utf8Bytes "ca.pem"
  requestTimeout := ⟨15, 0⟩
  maxObjectBytes := 64 * 1024 * 1024
  maxTotalBytes := 256 * 1024 * 1024
  maxRequests := 10000

omit [Sha256] in
/-- A policy with a configured timestamp authority and the scope the manifest claims. -/
def samplePolicy : VerifyPolicy where
  tsaCaFile := some (utf8Bytes "tsa-ca.pem")
  tsaIntermediatesFile := none
  tsaCrlsFile := some (utf8Bytes "tsa-crls.pem")
  tsaPolicyOid := some "1.3.6.1.4.1.55555.1"
  tsaSignerCertSha256 := some Digest.zero
  opensslBinary := utf8Bytes "openssl"
  maxFutureSkew := ⟨0, 0⟩
  verifierPolicyId := some "sample"
  verifierPolicyArtifact := none
  selectedScope := none
  selectedBatches := ∅
  requireClaimedScope := false

/-- A run on the sample bundle: the segment that is expected and answered first, and the one that is
answered later. -/
def sampleRun (first later : Bytes) : EvidenceResult VerificationResult :=
  verifyRemoteBundle (sampleEnvironment later) (sampleServer first later) (sampleOptions first)
    samplePolicy

omit [Sha256] in
/-- The segment request is answered with the expected segment, the request for the extension with
another one: the verdict is a success about the other one. -/
theorem verifyRemoteBundle_swapped :
    letI := Sha256.fips
    ∃ result, sampleRun (sampleSegment 100) (sampleSegment 200) = .ok result
      ∧ result.overall = .success
      ∧ result.artifactSha256 ≠ (sampleOptions (sampleSegment 100)).expectedSegmentSha256 := by
  let := Sha256.fips
  have hrun : (sampleRun (sampleSegment 100) (sampleSegment 200)).toOption.any
      (fun result => result.overall = .success
        && result.artifactSha256 ≠ (sampleOptions (sampleSegment 100)).expectedSegmentSha256)
      = true := by
    decide +kernel
  obtain ⟨result, hresult, htest⟩ := Except.exists_ok_of_any hrun
  rw [Bool.and_eq_true, decide_eq_true_eq, decide_eq_true_eq] at htest
  exact ⟨result, hresult, htest⟩

omit [Sha256] in
/-- The extension is answered with the segment again. -/
theorem verifyRemoteBundle_unchanged :
    letI := Sha256.fips
    ∃ result, sampleRun (sampleSegment 100) (sampleSegment 100) = .ok result
      ∧ result.overall = .success
      ∧ (result.artifactSha256 = (sampleOptions (sampleSegment 100)).expectedSegmentSha256
        ↔ SegmentKept (sampleEnvironment (sampleSegment 100))
            (sampleServer (sampleSegment 100) (sampleSegment 100)) samplePolicy) := by
  let := Sha256.fips
  have hrun : (sampleRun (sampleSegment 100) (sampleSegment 100)).toOption.any
      (fun result => result.overall = .success) = true := by
    decide +kernel
  obtain ⟨result, hresult, htest⟩ := Except.exists_ok_of_any hrun
  rw [decide_eq_true_eq] at htest
  exact ⟨result, hresult, htest, verifyRemoteBundle_pinned_iff _ _ _ _ result hresult htest⟩

end

end TrackOne.Evidence
