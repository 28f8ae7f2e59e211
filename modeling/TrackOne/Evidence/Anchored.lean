import TrackOne.Evidence.Exported
import TrackOne.Gateway.Anchor
import TrackOne.Gateway.DisclosureGrants

/-!
# Anchors served by a running gateway

A client reads the manifest of a segment and then its files, one request after the other, while the
producer and the timestamp workers go on.

* `anchorVerdict_view`: the verifier's answer to a view, at the scope of an anchor.
* `currentObject_of_view`: what a request for one object is answered.
* `anchored_retrieval`: the files that a manifest refers to are served with these bytes at any later
  moment, so that it does not matter when they are fetched.
-/

namespace TrackOne.Disclosures

open Evidence (ArtifactRef Environment Manifest VerifyPolicy Directory manifestName maxArchiveMember
  Conclusions ChainStatus SegmentChecked validatePortablePath parseManifest evaluateTsa)
open Snapshot

variable [Sha256]

/-! ## The files of a view -/

/-- The states of a timestamp, with the response in the row. -/
inductive Stamped : String → Option Bytes → Prop where
  | pending : Stamped "pending" none
  | unavailable : Stamped "unavailable" none
  | present (response : Bytes) : Stamped "present" (some response)

omit [Sha256] in
theorem stamped_of_anchorState {row : SegmentRow} {status : String}
    (h : anchorState row = some status) : Stamped status row.tsaResponse := by
  unfold anchorState at h
  split at h
  · next hresponse =>
    cases h
    rw [hresponse]
    exact .pending
  · next hresponse =>
    cases h
    rw [hresponse]
    exact .unavailable
  · next response _ hresponse =>
    split_ifs at h
    cases h
    rw [hresponse]
    exact .present response
  · cases h

/-- The files of the view of a segment. -/
def viewFiles (artifact : Bytes) (predecessor response : Option Bytes) : List (String × Bytes) :=
  [("segment.cbor", artifact)] ++ predecessorFile predecessor ++ timestampFile response

/-- The manifest of the view of a segment. -/
def viewManifest (ledgerId : String) (number : UInt64) (artifact : Bytes)
    (predecessor response : Option Bytes) (status : String) : Manifest :=
  anchorManifest ledgerId number commitmentProfileId (sha256Hex artifact)
    (predecessorFile predecessor)
    (timestampFile response) status

section

variable {ledgerId : String} {number : UInt64} {artifact manifestBytes : Bytes}
variable {predecessor response : Option Bytes} {status : String}

omit [Sha256] in
theorem mem_viewFiles {file : String × Bytes} :
    file ∈ viewFiles artifact predecessor response
      ↔ file = ("segment.cbor", artifact)
        ∨ (∃ bytes, predecessor = some bytes ∧ file = ("predecessor.cbor", bytes))
        ∨ ∃ bytes, response = some bytes ∧ file = ("timestamp.tsr", bytes) := by
  cases predecessor <;> cases response <;> simp [viewFiles, predecessorFile, timestampFile]

omit [Sha256] in
/-- The paths of a view with its manifest are different. -/
theorem nodup_viewFiles :
    ((viewFiles artifact predecessor response ++ [(manifestName, manifestBytes)]).map
      Prod.fst).Nodup := by
  have hsublist : ((viewFiles artifact predecessor response ++ [(manifestName, manifestBytes)]).map
      Prod.fst).Sublist ["segment.cbor", "predecessor.cbor", "timestamp.tsr", manifestName] := by
    cases predecessor <;> cases response <;> exact by
      simp only [viewFiles, predecessorFile, timestampFile, Option.map_none, Option.map_some,
        Option.toList_none, Option.toList_some, List.append_nil, List.map_append, List.map_cons,
        List.map_nil]
      decide
  exact List.Nodup.sublist hsublist (by decide)

omit [Sha256] in
theorem validatePortablePath_viewFiles {file : String × Bytes}
    (h : file ∈ viewFiles artifact predecessor response ++ [(manifestName, manifestBytes)]) :
    validatePortablePath file.1 = .ok () := by
  have hsegment : validatePortablePath "segment.cbor" = .ok () := by decide +kernel
  have hpredecessor : validatePortablePath "predecessor.cbor" = .ok () := by decide +kernel
  have htimestamp : validatePortablePath "timestamp.tsr" = .ok () := by decide +kernel
  have hmanifest : validatePortablePath manifestName = .ok () := by decide +kernel
  rcases List.mem_append.mp h with hfile | hlast
  · rcases mem_viewFiles.mp hfile with rfl | ⟨_, -, rfl⟩ | ⟨_, -, rfl⟩
    · exact hsegment
    · exact hpredecessor
    · exact htimestamp
  · obtain rfl := List.mem_singleton.mp hlast
    exact hmanifest

/-- The manifest refers to every file of the view, in this order. -/
theorem references_viewManifest (extensions : Bool) :
    (viewManifest ledgerId number artifact predecessor response status).artifacts.references
      extensions
      = (viewFiles artifact predecessor response).map fun file => artifactRef file.1 file.2 := by
  cases predecessor <;> cases response <;> cases extensions <;> rfl

theorem validate_viewManifest (hledger : validHex ledgerId 32 = true)
    (hstamped : Stamped status response) :
    (viewManifest ledgerId number artifact predecessor response status).validate = .ok () := by
  have hlexical : (viewManifest ledgerId number artifact predecessor response status).lexical
    = true := by
    have hnumber : Evidence.parseUint64 (toString number) = some number :=
      Evidence.parseUint64_toString number
    simp only [Manifest.lexical, viewManifest, anchorManifest, hnumber, Bool.and_eq_true]
    refine ⟨⟨⟨⟨hledger, rfl⟩, by decide⟩, by decide⟩, ?_⟩
    cases hstamped <;> decide
  simp only [Manifest.validate, Except.bind_eq_ok, Except.require_eq_ok]
  refine ⟨(), rfl, (), hlexical, (), rfl, (), ?_, ?_⟩
  · rw [Except.forM_eq_ok]
    intro reference hreference
    rw [references_viewManifest] at hreference
    obtain ⟨file, hfile, rfl⟩ := List.mem_map.mp hreference
    exact validate_artifactRef _
      (validatePortablePath_viewFiles (@List.mem_append_left _ _ _ [(manifestName, [])] hfile))
  · cases hstamped <;> rfl

/-! ## The verdict -/

/-- The verifier's answer to a view, by the state of its timestamp. -/
inductive AnchorVerdict (env : Environment) (dir : Directory) (policy : VerifyPolicy)
    (artifact : Bytes) : String → Option Bytes → Prop where
  | present {response : Bytes} (h : BundleAccepted env dir policy .c artifact response) :
      AnchorVerdict env dir policy artifact "present" (some response)
  | absent {status : String} (result : Evidence.VerificationResult)
      (verified : Evidence.verifyBundleWithPolicy env dir policy = .ok result)
      (chain : result.chainStatus = some .epoch ∨ result.chainStatus = some .validated)
      (scope : result.verificationScope = .anchorOnly)
      (digest : result.artifactSha256 = sha256Hex artifact)
      (pending : status = "pending" → result.failureReasons = ∅ ∧ result.overall = .incomplete)
      (unavailable : status = "unavailable" →
        result.failureReasons = {.channelFailure} ∧ result.overall = .failure) :
      AnchorVerdict env dir policy artifact status none

variable {material : SnapshotMaterial} {segment : SegmentRecord} {env : Environment}
variable {policy : VerifyPolicy}

/-- Nothing is opened, and nothing is asked for. -/
theorem disclosureFailures_viewManifest {dir : Directory} :
    Evidence.disclosureFailures dir
      (viewManifest ledgerId number artifact predecessor response status) segment policy .anchorOnly
      = ∅ := by
  refine (Evidence.validateDisclosure_clean.mpr
    ⟨[], ⟨⟨rfl, List.nodup_nil, ?_⟩, rfl, rfl⟩, .inl rfl⟩).2
  intro number hnumber
  cases hnumber

/-- The segment of a view is checked. -/
theorem checked_view {dir : Directory} (h : Reproduces ledgerId number material segment)
    (hpredecessor : material.predecessor = none ↔ number = 0)
    (hread : ∀ bytes, material.predecessor = some bytes →
      dir.referencedArtifact (artifactRef "predecessor.cbor" bytes) = .ok bytes)
    (hscope : policy.scopeFor
      (viewManifest ledgerId number material.artifact material.predecessor response status)
        = .anchorOnly) :
    ∃ chain, (chain = .epoch ∨ chain = .validated)
      ∧ SegmentChecked dir
        (viewManifest ledgerId number material.artifact material.predecessor response status)
          segment
        policy material.artifact chain := by
  have hreference : (viewManifest ledgerId number material.artifact material.predecessor response
      status).artifacts.predecessorSegmentCbor
        = material.predecessor.map (artifactRef "predecessor.cbor") := by
    cases material.predecessor <;> rfl
  obtain ⟨chain, hchain, hlinked⟩ :=
    @Reproduces.linked _ _ _ _ _ h hpredecessor dir _ hreference hread
  obtain ⟨-, hprofile, -⟩ := SegmentRecord.validateDetailed_eq_ok h.valid
  refine ⟨chain, hchain, rfl, h.decoded, h.ledgerId_eq, ?_, hprofile, hlinked, ?_⟩
  · rw [h.segmentNumber_eq]
    rfl
  · rw [hscope]
    exact disclosureFailures_viewManifest

/-- The verifier's answer to a view and its manifest, at the scope of an anchor. -/
theorem anchorVerdict_view (h : Reproduces ledgerId number material segment)
    (hpredecessor : material.predecessor = none ↔ number = 0) (hstamped : Stamped status response)
    (hreadable : WithinMemberLimit
      (viewFiles material.artifact material.predecessor response
        ++ [(manifestName, manifestBytes)]))
    (hparsed : parseManifest env manifestBytes = .ok
      (viewManifest ledgerId number material.artifact material.predecessor response status))
    (happlicable : Applicable env policy)
    (hscope : policy.scopeFor
      (viewManifest ledgerId number material.artifact material.predecessor response status)
        = .anchorOnly) :
    AnchorVerdict env (directoryOf (viewFiles material.artifact material.predecessor response
      ++ [(manifestName, manifestBytes)])) policy material.artifact status response := by
  have hmanifest : (manifestName, manifestBytes)
      ∈ viewFiles material.artifact material.predecessor response
        ++ [(manifestName, manifestBytes)] :=
    List.mem_append_right _ List.mem_cons_self
  -- every file of the view is read back
  have hread : ∀ path bytes, (path, bytes)
    ∈ viewFiles material.artifact material.predecessor response →
      (directoryOf (viewFiles material.artifact material.predecessor response
        ++ [(manifestName, manifestBytes)])).referencedArtifact (artifactRef path bytes)
          = .ok bytes := by
    intro path bytes hfile
    have hmem := @List.mem_append_left _ _ _ [(manifestName, manifestBytes)] hfile
    have hpath := validatePortablePath_viewFiles hmem
    exact referencedArtifact_directoryOf nodup_viewFiles hmem hpath (hreadable _ hmem)
  have hfile := @List.mem_append_left _ _ _ [(manifestName, manifestBytes)]
    (mem_viewFiles.mpr (.inl rfl) : ("segment.cbor", material.artifact)
      ∈ viewFiles material.artifact material.predecessor response)
  have hpath := validatePortablePath_viewFiles hfile
  have hartifact := safeRead_directoryOf nodup_viewFiles hfile hpath (hreadable _ hfile)
  have hstored := (getElem?_directoryOf nodup_viewFiles).mpr hmanifest
  -- the chain of the view and its verdict
  obtain ⟨chain, hchain, hchecked⟩ := checked_view h hpredecessor
    (fun bytes hbytes => hread _ _ (mem_viewFiles.mpr (.inr (.inl ⟨bytes, hbytes, rfl⟩)))) hscope
  have hlinked : ∀ {status : Option ChainStatus}, status = some chain →
      status = some .epoch ∨ status = some .validated := by
    rintro _ rfl
    exact hchain.imp (congrArg some) (congrArg some)
  cases hstamped with
  | present response =>
    exact .present
      (bundleAccepted_of_checked happlicable ⟨hstored, hreadable _ hmanifest⟩ hparsed rfl
      hartifact hchecked hchain rfl hscope rfl rfl rfl
      (hread _ _ (mem_viewFiles.mpr (.inr (.inr ⟨response, rfl, rfl⟩)))))
  | pending =>
    obtain ⟨result, hresult, hstatus, hdigest, hscoped, hfailures, hoverall⟩ :=
      verifyBundleWithPolicy_of_checked happlicable ⟨hstored, hreadable _ hmanifest⟩ hparsed rfl
        hartifact hchecked hscope
    exact .absent result hresult (hlinked hstatus) (hscoped.trans hscope) hdigest
      (fun _ => ⟨hfailures, hoverall⟩) fun hother => absurd hother (by decide)
  | unavailable =>
    obtain ⟨result, hresult, hstatus, hdigest, hscoped, hfailures, hoverall⟩ :=
      verifyBundleWithPolicy_of_checked happlicable ⟨hstored, hreadable _ hmanifest⟩ hparsed rfl
        hartifact hchecked hscope
    exact .absent result hresult (hlinked hstatus) (hscoped.trans hscope) hdigest
      (fun hother => absurd hother (by decide)) fun _ => ⟨hfailures, hoverall⟩

end

/-! ## Requests -/

section

variable {store : PostgresLedgerStore} {state : ProducerState} {segments : List SealedSegment}
variable {number : UInt64} {sealed : SealedSegment} {row : SegmentRow} {job : QueueColumns}
variable {config : TimestampWorkerConfig}

/-- The view of a sealed segment, in terms of what was sealed and of its row. -/
theorem anchorView_viewed (h : Agrees store state segments) (hchained : Chained state segments)
    (hsealed : segments[number.toNat]? = some sealed)
    (hrow : store.tables.sealedSegment[number]? = some row)
    (hjob : JobInvariant config ⟨row, job⟩) :
    ∃ status, anchorState row = some status
      ∧ anchorView store state.ledgerId number
        = .ok (viewManifest state.ledgerId number sealed.artifactCbor
            (lastArtifact (segments.take number.toNat)) row.tsaResponse status,
          viewFiles sealed.artifactCbor (lastArtifact (segments.take number.toNat))
            row.tsaResponse) := by
  obtain ⟨r, hat⟩ := hchained.chain _ _ hsealed
  have hvalid :=
    (SegmentRecord.canonicalCborBytes_eq_ok.mp (decodeSegmentRecord_eq_ok.mp hat.decoded)).1
  obtain ⟨-, hprofile, -⟩ := SegmentRecord.validateDetailed_eq_ok hvalid
  obtain ⟨status, hstatus, hview⟩ := anchorView_of_agrees h hchained hsealed hrow hjob hat
  refine ⟨status, hstatus, ?_⟩
  rw [hview, hprofile, hat.artifactSha256]
  rfl

variable {ledgerId : String} {grants : List Grant} {grant : Grant} {path : String}
variable {writeJson : Manifest → Except String Bytes}

/-- An object other than the manifest: a timestamp that is not there is pending or unavailable, and
any other file that is not there is absent. -/
theorem currentObject_of_view {manifest : Manifest} {files : List (String × Bytes)}
    (hview : anchorView store ledgerId number = .ok (manifest, files))
    (hledger : validHex ledgerId 32 = true)
    (hgrant : grants.find? (fun grant => grant.ledgerId == ledgerId) = some grant)
    (hread : grant.readSegments = true) (hpath : path ≠ manifestName) :
    currentObject writeJson ledgerId store grants ledgerId (toString number) path
      = if path = "timestamp.tsr" ∧ manifest.tsaStatus = "pending" then .error .pending
        else if path = "timestamp.tsr" ∧ manifest.tsaStatus = "unavailable" then
          .error (.unavailable "timestamp")
        else (Except.ofOption .absent (files.lookup path)).map fun bytes =>
          objectResponse bytes path (basePath ledgerId number ++ "/" ++ manifestName) := by
  unfold currentObject
  rw [authorize_served hledger hgrant number, Except.ok_bind]
  dsimp only
  rw [hread, Except.require_true, Except.ok_bind, hview, Except.ok_bind]
  dsimp only
  rw [if_neg hpath]
  by_cases htimestamp : path = "timestamp.tsr"
  · subst htimestamp
    by_cases hpending : manifest.tsaStatus = "pending"
    · simp [hpending, Except.require, bind, Except.bind]
    · by_cases hunavailable : manifest.tsaStatus = "unavailable"
      · simp [hunavailable, Except.require, bind, Except.bind]
      · cases files.lookup "timestamp.tsr" <;>
          simp [hpending, hunavailable, Except.require, Except.ofOption, Except.map, bind,
            Except.bind, pure, Except.pure]
  · cases files.lookup path <;>
      simp [htimestamp, Except.require, Except.ofOption, Except.map, bind, Except.bind, pure,
        Except.pure]

/-- A file of a view, at a moment when the view has it. -/
theorem currentObject_file {artifact : Bytes} {predecessor response : Option Bytes}
    {status : String}
    {bytes : Bytes}
    (hview : anchorView store ledgerId number
      = .ok (viewManifest ledgerId number artifact predecessor response status,
        viewFiles artifact predecessor response))
    (hstamped : Stamped status response) (hledger : validHex ledgerId 32 = true)
    (hgrant : grants.find? (fun grant => grant.ledgerId == ledgerId) = some grant)
    (hread : grant.readSegments = true)
    (hfile : (path, bytes) ∈ viewFiles artifact predecessor response) :
    currentObject writeJson ledgerId store grants ledgerId (toString number) path
      = .ok (objectResponse bytes path (basePath ledgerId number ++ "/" ++ manifestName)) := by
  have hnodup : ((viewFiles artifact predecessor response).map Prod.fst).Nodup :=
    (@nodup_viewFiles artifact [] predecessor response).sublist
      ((List.sublist_append_left _ _).map _)
  have hlookup := (TreeMap.lookup_eq_some_iff_mem hnodup).mpr hfile
  have hmanifest : path ≠ manifestName := by
    rcases mem_viewFiles.mp hfile with heq | ⟨_, -, heq⟩ | ⟨_, -, heq⟩ <;>
      · rw [(Prod.mk.inj heq).1]
        decide
  have hpresent : path = "timestamp.tsr" → status = "present" := by
    rintro rfl
    rcases mem_viewFiles.mp hfile with heq | ⟨_, -, heq⟩ | ⟨_, hresponse, -⟩
    · exact absurd (Prod.mk.inj heq).1 (by decide)
    · exact absurd (Prod.mk.inj heq).1 (by decide)
    · cases hstamped with
      | present => rfl
      | pending => cases hresponse
      | unavailable => cases hresponse
  rw [currentObject_of_view hview hledger hgrant hread hmanifest, hlookup]
  rw [if_neg, if_neg]
  · rfl
  · rintro ⟨htimestamp, hunavailable⟩
    have hstatus : status = "unavailable" := hunavailable
    rw [hpresent htimestamp] at hstatus
    exact absurd hstatus (by decide)
  · rintro ⟨htimestamp, hpending⟩
    have hstatus : status = "pending" := hpending
    rw [hpresent htimestamp] at hstatus
    exact absurd hstatus (by decide)

end

/-! ## Runs -/

/-- The view of a segment in the tables, and what is left of it in any later one: only a timestamp
that was not there may be there. -/
theorem exists_view {config : TimestampWorkerConfig} {g : Gateway} {number : UInt64}
    {row : SegmentRow}
    (h : GatewayInvariant config RecordsKept g)
    (hrow : g.pipeline.store.tables.sealedSegment[number]? = some row) :
    ∃ predecessor status material segment, anchorState row = some status
      ∧ material.artifact = row.artifactCbor ∧ material.predecessor = predecessor
      ∧ (predecessor = none ↔ number = 0)
      ∧ Reproduces g.pipeline.store.ledgerId number material segment
      ∧ anchorView g.pipeline.store g.pipeline.store.ledgerId number
        = .ok (viewManifest g.pipeline.store.ledgerId number row.artifactCbor predecessor
          row.tsaResponse
            status, viewFiles row.artifactCbor predecessor row.tsaResponse)
      ∧ ∀ later, ∃ status' response', Stamped status' response'
        ∧ (row.tsaResponse = none ∨ response' = row.tsaResponse)
        ∧ anchorView (runTrace (Gateway.step config) g later).1.pipeline.store
            g.pipeline.store.ledgerId number
          = .ok (viewManifest g.pipeline.store.ledgerId number row.artifactCbor predecessor
            response'
              status', viewFiles row.artifactCbor predecessor response') := by
  obtain ⟨queueRow, hqueueRow, hjob⟩ := h.queued number row hrow
  obtain ⟨hsegmentRow, -⟩ := Pipeline.row?_eq_some.mp hqueueRow
  obtain rfl : queueRow.segment = row := Option.some.inj (hsegmentRow.symm.trans hrow)
  cases h.ledger with
  | blank htables _ =>
    have hempty : g.pipeline.store.tables = Tables.empty := htables
    rw [hempty] at hrow
    simp [Tables.empty] at hrow
  | @ledger state segments hagrees hchained hkept hsame =>
    obtain ⟨sealed, hsealed, hcbor, -⟩ := exists_sealed hagrees.sealedSegment hrow
    obtain ⟨segment, hat⟩ := hchained.chain _ _ hsealed
    have hstate : state.ledgerId = g.pipeline.store.ledgerId := hagrees.ledgerId
    obtain ⟨status, hstatus, hview⟩ := anchorView_viewed hagrees hchained hsealed hrow hjob
    rw [hstate, ← hcbor] at hview
    refine ⟨_, status, materialAt segments number sealed [], segment, hstatus, hcbor.symm, rfl,
      @predecessor_materialAt segments number sealed [] hsealed,
      hstate ▸ reproduces_materialAt hchained hkept hsealed hat, hview, fun later => ?_⟩
    obtain ⟨state', segments', hagrees', hchained', ⟨more, rfl⟩, -⟩ :=
      @Gateway.standing_later _ config g _ _ hagrees hchained hsame later
    obtain ⟨row', hrow', hcontinues⟩ := @Gateway.row?_later _ config g _ _ hqueueRow later
    have hsegmentRow' := (Pipeline.row?_eq_some.mp hrow').1
    obtain ⟨_, hqueued, hjob'⟩ := Gateway.queued_later h.queued later number _ hsegmentRow'
    obtain rfl := Option.some.inj (hqueued.symm.trans hrow')
    have hstate' : state'.ledgerId = g.pipeline.store.ledgerId :=
      hagrees'.ledgerId.trans (Gateway.ledgerId_later g later)
    have hlt := (List.getElem?_eq_some_iff.mp hsealed).1
    have hsealed' : (segments ++ more)[number.toNat]? = some sealed := by
      rw [List.getElem?_append_left hlt, hsealed]
    obtain ⟨status', hstatus', hview'⟩ :=
      anchorView_viewed hagrees' hchained' hsealed' hsegmentRow' hjob'
    rw [hstate', ← hcbor, List.take_append_of_le_length hlt.le] at hview'
    refine ⟨status', _, stamped_of_anchorState hstatus', ?_, hview'⟩
    -- a timestamp that was there is settled
    by_cases hqueued : queueRow.segment.tsaStatus = .queued
    · exact .inl (hjob.queued hqueued).1
    · exact .inr (by rw [hcontinues.settled hqueued])

omit [Sha256] in
/-- The files of a view without a timestamp are there in every later one. -/
theorem mem_viewFiles_later {artifact : Bytes} {predecessor response response' : Option Bytes}
    {file : String × Bytes} (hfile : file ∈ viewFiles artifact predecessor response)
    (hlater : response = none ∨ response' = response) :
    file ∈ viewFiles artifact predecessor response' := by
  rcases hlater with rfl | rfl
  · rcases mem_viewFiles.mp hfile with hfile | hfile | ⟨_, hresponse, -⟩
    · exact mem_viewFiles.mpr (.inl hfile)
    · exact mem_viewFiles.mpr (.inr (.inl hfile))
    · cases hresponse
  · exact hfile

/-- **A segment can be fetched while the gateway goes on.** In every interleaving of a producer and
its timestamp workers, every segment in the tables has a view, which is never an integrity failure:

* its files are a bundle of its manifest, and the state of its timestamp is that of the row;
* whatever happens next, each of these files is served with these bytes, so that they match the
  digests of the manifest at whatever later moments they are fetched, also when the timestamp
  arrives in between;
* the manifest is accepted, and the verifier answers for the files as they were: nothing but the
  timestamp is left to decide, and without one the answer is incomplete or a failure of the
  channel. -/
theorem anchored_retrieval (config : TimestampWorkerConfig) (ledgerId : String)
    (limits : CapacityLimits)
    (inputs : List GatewayInput) (writeJson : Manifest → Except String Bytes) (env : Environment)
    (number : UInt64) (row : SegmentRow)
    (hrow : (Gateway.run config ledgerId limits
      inputs).1.pipeline.store.tables.sealedSegment[number]? = some row) :
    let g := (Gateway.run config ledgerId limits inputs).1
    ∃ manifest files, anchorView g.pipeline.store ledgerId number = .ok (manifest, files)
      ∧ anchorState row = some manifest.tsaStatus ∧ ("segment.cbor", row.artifactCbor) ∈ files
      ∧ Bundled files manifest
      ∧ (∀ later grants grant path bytes,
        grants.find? (fun grant => grant.ledgerId == ledgerId) = some grant →
        grant.readSegments = true → (path, bytes) ∈ files →
        currentObject writeJson ledgerId
            (runTrace (Gateway.step config) g later).1.pipeline.store grants ledgerId
              (toString number)
            path
          = .ok (objectResponse bytes path (basePath ledgerId number ++ "/" ++ manifestName)))
      ∧ ∀ manifestBytes, env.readManifest manifestBytes = .ok manifest →
        parseManifest env manifestBytes = .ok manifest
          ∧ (WithinMemberLimit (files ++ [(manifestName, manifestBytes)]) → ∀ policy,
            Applicable env policy →
            policy.scopeFor manifest = .anchorOnly →
            AnchorVerdict env (directoryOf (files ++ [(manifestName, manifestBytes)])) policy
              row.artifactCbor manifest.tsaStatus row.tsaResponse) := by
  intro g
  have hrow : g.pipeline.store.tables.sealedSegment[number]? = some row := hrow
  have hledgerId : g.pipeline.store.ledgerId = ledgerId := Gateway.ledgerId_later _ inputs
  have hinvariant : GatewayInvariant config RecordsKept g :=
    Gateway.run_invariant recordsKept config ledgerId limits inputs
  -- the view and its files, which later timestamps only add to
  obtain ⟨predecessor, status, material, segment, hstatus, hartifact, rfl, hpredecessor,
    hreproduces, hview, hlater⟩ := exists_view hinvariant hrow
  rw [hledgerId] at hreproduces hview hlater
  have hstamped := stamped_of_anchorState hstatus
  have hvalid : validHex ledgerId 32 = true :=
    hreproduces.ledgerId_eq ▸ (SegmentRecord.validateDetailed_eq_ok hreproduces.valid).1
  refine ⟨_, _, hview, hstatus, mem_viewFiles.mpr (.inl rfl), ⟨?_, ?_, ?_⟩, ?_, ?_⟩
  -- no two files share a path
  · exact (@nodup_viewFiles _ [] _ _).sublist ((List.sublist_append_left _ _).map _)
  · intro file hfile
    exact validatePortablePath_viewFiles (@List.mem_append_left _ _ _ [(manifestName, [])] hfile)
  -- the references are those of the files
  · intro reference hreference
    rw [references_viewManifest] at hreference
    obtain ⟨file, hfile, rfl⟩ := List.mem_map.mp hreference
    exact ⟨file.2, hfile, rfl⟩
  -- a reader with the grant gets them at any later time
  · intro later grants grant path bytes hgrant hread hfile
    obtain ⟨status', response', hstamped', hresponse, hview'⟩ := hlater later
    exact currentObject_file hview' hstamped' hvalid hgrant hread
      (mem_viewFiles_later hfile hresponse)
  -- and the verifier accepts the files with a manifest that reads as this one
  · intro manifestBytes hmanifest
    have hparsed : parseManifest env manifestBytes = .ok _ :=
      Evidence.parseManifest_eq_ok.mpr ⟨hmanifest, validate_viewManifest hvalid hstamped⟩
    refine ⟨hparsed, fun hreadable policy happlicable hscope => ?_⟩
    rw [← hartifact] at hreadable hparsed ⊢
    exact anchorVerdict_view hreproduces hpredecessor hstamped hreadable hparsed happlicable hscope

omit [Sha256] in
/-- The sample is fetched before its timestamp is there. -/
theorem anchored_retrieval_sampleSealing :
    letI := Sha256.fips
    let g := (Gateway.run .default "b7a1d5e40c6f438e9a75db27c96f31aa" ⟨none, none⟩
      Gateway.sampleSealing).1
    ∃ manifest files bytes,
      anchorView g.pipeline.store "b7a1d5e40c6f438e9a75db27c96f31aa" 0 = .ok (manifest, files)
        ∧ manifest.tsaStatus = "pending"
        ∧ ∀ later, currentObject (fun _ => .error "not asked for")
          "b7a1d5e40c6f438e9a75db27c96f31aa"
            (runTrace (Gateway.step .default) g later).1.pipeline.store
            [⟨"b7a1d5e40c6f438e9a75db27c96f31aa", true, [], .all "*"⟩]
            "b7a1d5e40c6f438e9a75db27c96f31aa" (toString (0 : UInt64)) "segment.cbor"
          = .ok (objectResponse bytes "segment.cbor"
            (basePath "b7a1d5e40c6f438e9a75db27c96f31aa" 0 ++ "/" ++ manifestName)) := by
  let := Sha256.fips
  intro g
  have hsealed : ((Gateway.run .default "b7a1d5e40c6f438e9a75db27c96f31aa" ⟨none, none⟩
      Gateway.sampleSealing).1.pipeline.store.tables.sealedSegment[(0 : UInt64)]?).any
      (fun row => decide (row.tsaStatus = .queued ∧ row.tsaResponse = none)) = true := by
    decide +kernel
  obtain ⟨row, hrow, htest⟩ := (Option.any_eq_true _ _).mp hsealed
  obtain ⟨hqueued, hnone⟩ := of_decide_eq_true htest
  obtain ⟨manifest, files, hview, hstatus, hfile, -, hserved, -⟩ := anchored_retrieval .default
    "b7a1d5e40c6f438e9a75db27c96f31aa" ⟨none, none⟩ Gateway.sampleSealing
    (fun _ => .error "not asked for") ⟨fun _ => .error "", fun _ => [], fun _ _ _ => .error "",
      fun _ _ _ => .error "", fun _ => .error .enoent⟩ 0 row hrow
  refine ⟨manifest, files, row.artifactCbor, hview, ?_, fun later => ?_⟩
  · rw [anchorState, hqueued, hnone] at hstatus
    exact (Option.some.inj hstatus).symm
  · exact hserved later _ _ "segment.cbor" _ rfl rfl hfile

end TrackOne.Disclosures
