import TrackOne.Gateway.Material
import TrackOne.Gateway.DisclosureGrants

/-!
# The disclosure service of a running gateway

`generate` reads the segment in one transaction, prepares the export from a snapshot of another one
and inserts it in a third one. Between them the producer, the timestamp workers and the other
requests go on. What is stored is kept under the digest of its manifest, and its objects are
retrieved one by one.

* `generate_eq`: a request alone is these three transactions.
* `Disclosure.Stored`: the rows of an export, and `Disclosure.Prepared.unique`: its manifest decides
  which one it is, because the material does not change.
* `Service.run_invariant` and `Service.run_disclosed`: in every interleaving, every row of the
  disclosure tables is that of an export that a permitted request has asked for, and so is every
  response.
* `bundleObject_of_stored`: its files, and no other ones, are retrieved from them.
-/

namespace TrackOne.Disclosures

open Evidence (manifestName)
open CCbor (JsonValue)
open Snapshot

/-- Tables without disclosures. -/
def DisclosureTables.empty : DisclosureTables := ⟨fun _ _ => none, fun _ _ _ => none⟩

/-! ## The transactions of a request -/

/-- A request that is permitted, with the artifact that `anchor_view` has read for it. -/
structure Permitted where
  ledger : String
  segment : UInt64
  selection : Selection
  disclosureClass : DisclosureClass
  batches : Finset UInt64
  artifact : Bytes

/-- The body of the response, and whether its status is that of a new disclosure. -/
structure Generated where
  created : Bool
  ledgerId : String
  segmentNumber : String
  disclosureClass : String
  manifestSha256 : String
  artifactSha256 : String
  bundleUrl : String
deriving DecidableEq

section

variable [Sha256]

/-- `generate` up to `prepare_snapshot`. -/
def generateView (served : String) (store : PostgresLedgerStore) (grants : List Grant)
    (ledger segment : String) (selection : Selection) : Except Failure Permitted := do
  let (grant, number) ← authorize served grants ledger segment
  let (disclosureClass, batches) ← selection.parse
  Except.require .denied (grant.permits selection.disclosureClass batches)
  let files ← anchorFiles store ledger number
  let artifact ← Except.ofOption (.unavailable "integrity") (files.head?.map Prod.snd)
  let decoded ← (decodeSegmentRecord artifact).mapError fun _ => .unavailable "integrity"
  Except.require .invalid
    (!(disclosureClass = .b && (decide (decoded.batchRoots.length ≤ batches.card)
      || decide (∃ batch ∈ batches, decoded.batchRoots.length ≤ batch.toNat))))
  pure { ledger, segment := number, selection, disclosureClass, batches, artifact }

/-- `prepare_snapshot` in `generate`: the files, and the bytes of their manifest. -/
def generatePrepare (writeManifest : SnapshotManifest → Except String Bytes)
    (store : PostgresLedgerStore) (request : Permitted) :
    Except Failure (List (String × Bytes) × Bytes) := do
  let material ← (readMaterial store request.ledger request.segment).mapError .ofExportError
  let prepared ←
    (prepareExport writeManifest request.ledger request.segment request.disclosureClass
      request.batches
      material).mapError .ofExportError
  let manifest ← Except.ofOption (.unavailable "integrity") (prepared.lookup manifestName)
  pure (prepared, manifest)

/-- The last transaction of `generate`, and the response. -/
def generateRecord (tables : DisclosureTables) (request : Permitted) (files : List (String × Bytes))
    (manifest : Bytes) : Except Failure (Generated × DisclosureTables) := do
  let tables' ← tables.record request.segment files manifest
  let digest := sha256Hex manifest
  pure ({
    created := (tables.manifests request.segment digest).isNone
    ledgerId := request.ledger
    segmentNumber := toString request.segment
    disclosureClass := request.selection.disclosureClass
    manifestSha256 := digest
    artifactSha256 := sha256Hex request.artifact
    bundleUrl := basePath request.ledger request.segment ++ "/disclosures/" ++ digest ++ "/" },
      tables')

/-- A request without another one in between. -/
theorem generate_eq (writeManifest : SnapshotManifest → Except String Bytes) (served : String)
    (store : PostgresLedgerStore) (tables : DisclosureTables) (grants : List Grant)
    (ledger segment : String) (selection : Selection) :
    generate writeManifest served store tables grants ledger segment selection = (do
      let request ← generateView served store grants ledger segment selection
      let prepared ← generatePrepare writeManifest store request
      let answer ← generateRecord tables request prepared.1 prepared.2
      pure (answer.1.manifestSha256, answer.2)) := by
  simp only [generate, generateView, generatePrepare, generateRecord, bind_assoc, pure_bind]

end

/-! ## The service -/

/-- A request between its transactions. -/
inductive Job where
  | viewed (request : Permitted)
  | prepared (request : Permitted) (files : List (String × Bytes)) (manifest : Bytes)

def Job.request : Job → Permitted
  | .viewed request => request
  | .prepared request _ _ => request

structure Service where
  gateway : Gateway
  disclosures : DisclosureTables
  jobs : List Job

/-- A transaction of the producer or of a worker, a request of a credential with these grants, or
the next transaction of a request. -/
inductive ServiceInput where
  | transact (input : GatewayInput)
  | request (grants : List Grant) (ledger segment : String) (selection : Selection)
  | proceed (job : Nat)

inductive ServiceAnswer where
  | transacted (answer : GatewayAnswer)
  | started
  | generated (response : Generated)
  | failed (failure : Failure)
  | idle

namespace Service

def new (ledgerId : String) (limits : CapacityLimits) : Service :=
  ⟨.new ledgerId limits, .empty, []⟩

/-- The tables of the ledger. -/
def store (s : Service) : PostgresLedgerStore := s.gateway.pipeline.store

section

variable [Sha256]

/-- The next transaction of the `i`-th request. -/
def proceed (writeManifest : SnapshotManifest → Except String Bytes) (s : Service) (i : Nat) :
    Job → ServiceAnswer × Service
  | .viewed request =>
    match generatePrepare writeManifest s.store request with
    | .ok (files, manifest) =>
      (.started, { s with jobs := s.jobs.set i (.prepared request files manifest) })
    | .error failure => (.failed failure, { s with jobs := s.jobs.eraseIdx i })
  | .prepared request files manifest =>
    match generateRecord s.disclosures request files manifest with
    | .ok (response, disclosures) =>
      (.generated response, { s with disclosures, jobs := s.jobs.eraseIdx i })
    | .error failure => (.failed failure, { s with jobs := s.jobs.eraseIdx i })

def step (config : TimestampWorkerConfig) (writeManifest : SnapshotManifest → Except String Bytes)
    (s : Service) : ServiceInput → ServiceAnswer × Service
  | .transact input =>
    let (answer, gateway) := s.gateway.step config input
    (.transacted answer, { s with gateway })
  | .request grants ledger segment selection =>
    match generateView s.store.ledgerId s.store grants ledger segment selection with
    | .ok request => (.started, { s with jobs := s.jobs ++ [.viewed request] })
    | .error failure => (.failed failure, s)
  | .proceed i =>
    match s.jobs[i]? with
    | some job => s.proceed writeManifest i job
    | none => (.idle, s)

/-- Any number of transactions and requests, on a ledger without rows. -/
def run (config : TimestampWorkerConfig) (writeManifest : SnapshotManifest → Except String Bytes)
    (ledgerId : String) (limits : CapacityLimits) (inputs : List ServiceInput) :
    Service × List (ServiceInput × ServiceAnswer) :=
  runTrace (step config writeManifest) (new ledgerId limits) inputs

end

end Service

/-! ## Selections -/

/-- Batches are selected with class B, and only with it. -/
theorem Selection.parse_batches {selection : Selection} {disclosureClass : DisclosureClass}
    {batches : Finset UInt64} (h : selection.parse = .ok (disclosureClass, batches)) :
    disclosureClass = .b ↔ batches.Nonempty := by
  simp only [Selection.parse, Except.bind_eq_ok, Except.mapError_eq_ok, Except.require_eq_ok] at h
  obtain ⟨parsed, -, numbers, -, _, hcheck, heq⟩ := h
  obtain ⟨rfl, rfl⟩ := Prod.mk.inj (Except.ok.inj heq)
  rw [Finset.nonempty_iff_ne_empty]
  by_cases hclass : parsed = .b <;> by_cases hempty : numbers = ∅ <;> simp_all

/-- The check in `generate` is whether the segment has the selection. -/
theorem selectable_iff {disclosureClass : DisclosureClass} {batches : Finset UInt64}
    {batchCount : Nat}
    (h : disclosureClass = .b ↔ batches.Nonempty) :
    Selectable disclosureClass batches batchCount
      ↔ (!(disclosureClass = .b && (decide (batchCount ≤ batches.card)
        || decide (∃ batch ∈ batches, batchCount ≤ batch.toNat)))) = true := by
  have hcard : (batches.image UInt64.toNat).card = batches.card :=
    Finset.card_image_of_injective _ fun a b hab => UInt64.toNat_inj.mp hab
  unfold Selectable
  by_cases hclass : disclosureClass = .b
  · simp only [hclass, if_true, decide_true, Bool.true_and, Bool.not_eq_true', Bool.or_eq_false_iff,
      decide_eq_false_iff_not, not_le, not_exists, not_and]
    constructor
    · rintro ⟨-, hproper⟩
      have hlt := Finset.card_lt_card hproper
      rw [hcard, Finset.card_range] at hlt
      exact ⟨hlt, fun batch hbatch =>
        Finset.mem_range.mp (hproper.subset (Finset.mem_image_of_mem _ hbatch))⟩
    · rintro ⟨hlt, hrange⟩
      refine ⟨h.mp hclass, Finset.ssubset_iff_subset_ne.mpr ⟨?_, fun heq => ?_⟩⟩
      · intro n hn
        obtain ⟨batch, hbatch, rfl⟩ := Finset.mem_image.mp hn
        exact Finset.mem_range.mpr (hrange batch hbatch)
      · rw [heq, Finset.card_range] at hcard
        omega
  · rw [if_neg hclass, ← Finset.not_nonempty_iff_eq_empty, ← h]
    simp [hclass]

section

variable [Sha256]

/-! ## Generated disclosures -/

/-- An export of a segment, with the bytes of its manifest and its files. -/
structure Disclosure where
  number : UInt64
  disclosureClass : DisclosureClass
  batches : Finset UInt64
  material : SnapshotMaterial
  manifestBytes : Bytes
  files : List (String × Bytes)

/-- A disclosure is addressed by the digest of its manifest. -/
def Disclosure.digest (d : Disclosure) : String := sha256Hex d.manifestBytes

/-- The export was prepared from its material. -/
structure Disclosure.Prepared (writeManifest : SnapshotManifest → Except String Bytes)
    (ledgerId : String) (d : Disclosure) : Prop where
  files : prepareExport writeManifest ledgerId d.number d.disclosureClass d.batches d.material
    = .ok d.files
  manifest : d.files.lookup manifestName = some d.manifestBytes

/-- The tables have the rows of the export. -/
structure Disclosure.Stored (tables : DisclosureTables) (d : Disclosure) : Prop where
  manifest : tables.manifests d.number d.digest = some d.manifestBytes
  objects : ∀ path, path ≠ manifestName → tables.objects d.number d.digest path
    = d.files.lookup path

/-- The first file of an anchor is the artifact of its segment. -/
theorem anchorFiles_head? {store : PostgresLedgerStore} {ledger : String} {segment : UInt64}
    {files : List (String × Bytes)} (h : anchorFiles store ledger segment = .ok files) :
    ledger = store.ledgerId ∧ ∃ row, store.tables.sealedSegment[segment]? = some row
      ∧ files.head? = some ("segment.cbor", row.artifactCbor) := by
  unfold anchorFiles at h
  simp only [Except.bind_eq_ok, Except.ofOption_eq_ok] at h
  obtain ⟨row, hrow, decoded, -, -, -, predecessor, -, timestamp, -, hfiles⟩ := h
  split_ifs at hrow with hledger
  obtain rfl := Except.ok.inj hfiles
  exact ⟨hledger, row, hrow, rfl⟩

/-- What a request is that goes on after its first transaction. -/
theorem generateView_eq_ok {served : String} {store : PostgresLedgerStore} {grants : List Grant}
    {ledger segment : String} {selection : Selection} {request : Permitted}
    (h : generateView served store grants ledger segment selection = .ok request) :
    ∃ grant, authorize served grants ledger segment = .ok (grant, request.segment)
      ∧ selection.parse = .ok (request.disclosureClass, request.batches)
      ∧ grant.permits request.disclosureClass.asStr request.batches = true
      ∧ request.ledger = ledger ∧ request.selection = selection ∧ ledger = store.ledgerId
      ∧ (∃ row, store.tables.sealedSegment[request.segment]? = some row
        ∧ row.artifactCbor = request.artifact)
      ∧ ∃ sealed, decodeSegmentRecord request.artifact = .ok sealed
        ∧ Selectable request.disclosureClass request.batches sealed.batchRoots.length := by
  unfold generateView at h
  obtain ⟨⟨grant, number⟩, hauthorized, h⟩ := Except.bind_eq_ok.mp h
  obtain ⟨⟨disclosureClass, batches⟩, hparse, h⟩ := Except.bind_eq_ok.mp h
  simp only [Except.bind_eq_ok, Except.mapError_eq_ok, Except.ofOption_eq_ok, Except.require_eq_ok]
    at h
  obtain ⟨_, hpermits, files, hfiles, artifact, hartifact, decoded, hdecoded, _, hselectable,
    hrequest⟩ := h
  obtain rfl := Except.ok.inj hrequest
  obtain ⟨hledger, row, hrow, hhead⟩ := anchorFiles_head? hfiles
  rw [hhead] at hartifact
  exact ⟨grant, hauthorized, hparse, Selection.parse_class hparse ▸ hpermits, rfl, rfl, hledger,
    ⟨row, hrow, Option.some.inj hartifact⟩, decoded, hdecoded,
    (selectable_iff (Selection.parse_batches hparse)).mpr hselectable⟩

/-- What is prepared is the export of the segment's material, with its manifest. -/
theorem generatePrepare_eq_ok {writeManifest : SnapshotManifest → Except String Bytes}
    {store : PostgresLedgerStore} {request : Permitted} {files : List (String × Bytes)}
    {manifest : Bytes} (h : generatePrepare writeManifest store request = .ok (files, manifest)) :
    ∃ material, readMaterial store request.ledger request.segment = .ok material
      ∧ prepareExport writeManifest request.ledger request.segment request.disclosureClass
        request.batches material = .ok files
      ∧ files.lookup manifestName = some manifest := by
  unfold generatePrepare at h
  simp only [Except.bind_eq_ok, Except.mapError_eq_ok, Except.ofOption_eq_ok] at h
  obtain ⟨material, hmaterial, prepared, hprepared, manifest', hmanifest, hanswer⟩ := h
  obtain ⟨rfl, rfl⟩ := Prod.mk.inj (Except.ok.inj hanswer)
  exact ⟨material, hmaterial, hprepared, hmanifest⟩

/-- The response of a request, by the export it has prepared. -/
def Disclosure.response (d : Disclosure) (ledgerId : String) (created : Bool) : Generated where
  created
  ledgerId
  segmentNumber := toString d.number
  disclosureClass := d.disclosureClass.asStr
  manifestSha256 := d.digest
  artifactSha256 := sha256Hex d.material.artifact
  bundleUrl := basePath ledgerId d.number ++ "/disclosures/" ++ d.digest ++ "/"

/-- The manifest of an export of the same material says which one it is. -/
theorem Disclosure.Prepared.unique {writeManifest : SnapshotManifest → Except String Bytes}
    {readJson : Bytes → Except String JsonValue}
    (hjson : ∀ manifest bytes, writeManifest manifest = .ok bytes →
      readJson bytes = .ok (manifestValue manifest))
    {ledgerId : String} {d d' : Disclosure} (h : d.Prepared writeManifest ledgerId)
    (h' : d'.Prepared writeManifest ledgerId) (hnumber : d'.number = d.number)
    (hmaterial : d'.material = d.material) (hmanifest : d'.manifestBytes = d.manifestBytes) :
    d' = d := by
  obtain ⟨number, disclosureClass, batches, material, manifestBytes, files⟩ := d
  obtain ⟨number', disclosureClass', batches', material', manifestBytes', files'⟩ := d'
  dsimp only at hnumber hmaterial hmanifest
  subst hnumber hmaterial hmanifest
  obtain ⟨segment, disclosed, bytes, hexportable, hwrite, hfiles⟩ := prepareExport_eq_ok.mp h.files
  obtain ⟨segment', disclosed', bytes', hexportable', hwrite', hfiles'⟩ :=
    prepareExport_eq_ok.mp h'.files
  have hbytes : bytes = manifestBytes' :=
    Option.some.inj (lookup_manifestName.symm.trans (hfiles ▸ h.manifest))
  have hbytes' : bytes' = manifestBytes' :=
    Option.some.inj (lookup_manifestName.symm.trans (hfiles' ▸ h'.manifest))
  subst hbytes hbytes'
  obtain ⟨selection, hselection, -, hparse⟩ := manifestSelection_exported hexportable
  obtain ⟨selection', hselection', -, hparse'⟩ := manifestSelection_exported hexportable'
  -- both manifests are what the reader finds in the same bytes
  have hvalue := Except.ok.inj ((hjson _ _ hwrite').symm.trans (hjson _ _ hwrite))
  rw [hvalue, hselection] at hselection'
  obtain rfl := Except.ok.inj hselection'
  obtain ⟨rfl, rfl⟩ := Prod.mk.inj (Except.ok.inj (hparse'.symm.trans hparse))
  obtain rfl : files' = files := Except.ok.inj (h'.files.symm.trans h.files)
  rfl

/-! ## The disclosure tables -/

/-- Later tables have the rows of the earlier ones. -/
def DisclosureTables.Extends (tables tables' : DisclosureTables) : Prop :=
  ∀ n digest bytes, tables.manifests n digest = some bytes →
    tables'.manifests n digest = some bytes
      ∧ ∀ path, tables'.objects n digest path = tables.objects n digest path

omit [Sha256] in
/-- Tables hold what they hold. -/
theorem DisclosureTables.Extends.refl (tables : DisclosureTables) : tables.Extends tables :=
  fun _ _ _ hstored => ⟨hstored, fun _ => rfl⟩

omit [Sha256] in
/-- What was added stays when more is added. -/
theorem DisclosureTables.Extends.trans {tables tables' tables'' : DisclosureTables}
    (h : tables.Extends tables') (h' : tables'.Extends tables'') : tables.Extends tables'' := by
  intro n digest bytes hstored
  obtain ⟨hstored', hobjects⟩ := h n digest bytes hstored
  obtain ⟨hstored'', hobjects'⟩ := h' n digest bytes hstored'
  exact ⟨hstored'', fun path => (hobjects' path).trans (hobjects path)⟩

/-- A recorded manifest was there before, or it and its objects are new. -/
theorem record_eq_ok {tables tables' : DisclosureTables} {number : UInt64}
    {files : List (String × Bytes)} {manifestBytes : Bytes}
    (h : tables.record number files manifestBytes = .ok tables') :
    tables.manifests number (sha256Hex manifestBytes) = some manifestBytes ∧ tables' = tables
      ∨ tables.manifests number (sha256Hex manifestBytes) = none
        ∧ (∀ n digest, tables'.manifests n digest
          = if n = number ∧ digest = sha256Hex manifestBytes then some manifestBytes
            else tables.manifests n digest)
        ∧ ∀ n digest path, tables'.objects n digest path
          = if n = number ∧ digest = sha256Hex manifestBytes ∧ path ≠ manifestName then
              (files.lookup path).or (tables.objects n digest path)
            else tables.objects n digest path := by
  unfold DisclosureTables.record at h
  dsimp only at h
  split at h
  · next existing hexisting =>
    split_ifs at h with hsame
    exact .inl ⟨hsame ▸ hexisting, (Except.ok.inj h).symm⟩
  · next hnone =>
    obtain rfl := Except.ok.inj h
    exact .inr ⟨hnone, fun _ _ => rfl, fun _ _ _ => rfl⟩

/-- A row that is there is not changed. -/
theorem extends_record {tables tables' : DisclosureTables} {number : UInt64}
    {files : List (String × Bytes)} {manifestBytes : Bytes}
    (h : tables.record number files manifestBytes = .ok tables') : tables.Extends tables' := by
  intro n digest bytes hstored
  rcases record_eq_ok h with ⟨-, rfl⟩ | ⟨hnone, hmanifests, hobjects⟩
  · exact ⟨hstored, fun _ => rfl⟩
  · have hother : ¬(n = number ∧ digest = sha256Hex manifestBytes) := by
      rintro ⟨rfl, rfl⟩
      rw [hnone] at hstored
      cases hstored
    refine ⟨by rw [hmanifests, if_neg hother, hstored], fun path => ?_⟩
    rw [hobjects, if_neg fun hsame => hother ⟨hsame.1, hsame.2.1⟩]

/-- A stored disclosure stays stored. -/
theorem Disclosure.Stored.extends {tables tables' : DisclosureTables} {d : Disclosure}
    (h : d.Stored tables) (hextends : tables.Extends tables') : d.Stored tables' := by
  obtain ⟨hstored, hobjects⟩ := hextends _ _ _ h.manifest
  exact ⟨hstored, fun path hpath => (hobjects path).trans (h.objects path hpath)⟩

/-! ## Retrieval -/

/-- The link of the objects to their manifest. -/
def Disclosure.link (d : Disclosure) (ledgerId : String) : String :=
  basePath ledgerId d.number ++ "/disclosures/" ++ d.digest ++ "/" ++ manifestName

/-- A file of the disclosure, as it is retrieved. -/
def Disclosure.retrieved (d : Disclosure) (ledgerId path : String) :
    Except Failure ObjectResponse :=
  (Except.ofOption .absent (d.files.lookup path)).map fun bytes =>
    objectResponse bytes path (d.link ledgerId)

/-- The file of a disclosure, from its rows. -/
theorem bundleFile_of_stored {writeManifest : SnapshotManifest → Except String Bytes}
    {ledgerId : String} {d : Disclosure} {tables : DisclosureTables}
    (hprepared : d.Prepared writeManifest ledgerId) (hstored : d.Stored tables) :
    ∃ disclosed sealed,
      Exportable ledgerId d.number d.disclosureClass d.batches d.material sealed disclosed
      ∧ writeManifest (exportedManifest ledgerId d.number d.disclosureClass d.material sealed
        (exportedBatches sealed d.material disclosed)) = .ok d.manifestBytes
      ∧ ∀ path, bundleFile tables ledgerId d.number d.digest path d.manifestBytes
        (manifestValue (exportedManifest ledgerId d.number d.disclosureClass d.material sealed
          (exportedBatches sealed d.material disclosed)))
        = d.retrieved ledgerId path := by
  obtain ⟨sealed, disclosed, manifestBytes, hexportable, hwrite, hfiles⟩ :=
    prepareExport_eq_ok.mp hprepared.files
  have hbytes : manifestBytes = d.manifestBytes :=
    Option.some.inj (lookup_manifestName.symm.trans (hfiles ▸ hprepared.manifest))
  subst hbytes
  refine ⟨disclosed, sealed, hexportable, hwrite, fun path => ?_⟩
  obtain ⟨hreferred, hnone⟩ := referenceDigest_exported hexportable
  unfold bundleFile Disclosure.retrieved
  dsimp only
  -- the manifest is not among the stored objects
  by_cases hmanifest : path = manifestName
  · rw [if_pos hmanifest, hmanifest, hprepared.manifest]
    rfl
  -- any other path is an object that the manifest refers to, or nothing is there
  · have hlookup : d.files.lookup path
        = (exportedFiles d.material (exportedBatches sealed d.material disclosed)).lookup path := by
      have hnone : List.lookup path [(manifestName, d.manifestBytes)] = none :=
        List.lookup_eq_none_iff.mpr (by simpa using hmanifest)
      rw [hfiles, List.lookup_append, hnone, Option.or_none]
    rw [if_neg hmanifest, hstored.objects path hmanifest, member_artifacts]
    cases hfound : d.files.lookup path with
    | some bytes =>
      rw [hlookup] at hfound
      obtain ⟨before, after, hmem, -⟩ := List.lookup_eq_some_iff.mp hfound
      rw [hreferred path bytes (by simp [hmem])]
      simp [Except.ofOption, Except.require, Except.map, bind, Except.bind, pure, Except.pure,
        Disclosure.link]
    | none =>
      rw [hlookup, List.lookup_eq_none_iff] at hfound
      rw [hnone path fun hmem => ?_]
      · rfl
      · obtain ⟨file, hfile, rfl⟩ := List.mem_map.mp hmem
        simpa using hfound file hfile

/-- **Retrieval.** A credential whose grant permits a stored disclosure gets its files, and no other
ones; any other credential gets nothing. -/
theorem bundleObject_of_stored {writeManifest : SnapshotManifest → Except String Bytes}
    {readJson : Bytes → Except String JsonValue}
    (hjson : ∀ manifest bytes, writeManifest manifest = .ok bytes →
      readJson bytes = .ok (manifestValue manifest))
    {ledgerId : String} {d : Disclosure} {tables : DisclosureTables} {grants : List Grant}
    {grant : Grant} {segment : String} (hprepared : d.Prepared writeManifest ledgerId)
    (hstored : d.Stored tables)
    (hauthorized : authorize ledgerId grants ledgerId segment = .ok (grant, d.number))
    (path : String) :
    bundleObject readJson ledgerId tables grants ledgerId segment d.digest path
      = if grant.permits d.disclosureClass.asStr d.batches = true then d.retrieved ledgerId path
        else .error .denied := by
  obtain ⟨disclosed, sealed, hexportable, hwrite, hfile⟩ := bundleFile_of_stored hprepared hstored
  have hread := hjson _ _ hwrite
  split_ifs with hpermits
  · obtain ⟨selection, hselection, hclass, hparse⟩ := manifestSelection_exported hexportable
    have hclasses : grant.classes.isEmpty = false := by
      rw [Grant.permits, Bool.and_eq_true] at hpermits
      rw [List.isEmpty_eq_false_iff]
      intro hnone
      simp [hnone] at hpermits
    have hledger : (exportedManifest ledgerId d.number d.disclosureClass d.material sealed
        (exportedBatches sealed d.material disclosed)).ledgerId = ledgerId := rfl
    have hnumber : (exportedManifest ledgerId d.number d.disclosureClass d.material sealed
        (exportedBatches sealed d.material disclosed)).segmentNumber = toString d.number := rfl
    have hdigest : validHex d.digest 64 = true := validHex_sha256Hex d.manifestBytes
    have hsame : (sha256Hex d.manifestBytes == d.digest) = true := beq_self_eq_true d.digest
    rw [← hfile path]
    simp only [bundleObject, hauthorized, Except.ok_bind, hclasses, hdigest,
      hstored.manifest, hsame, hread, hselection, hparse, hclass, hpermits, member_ledgerId,
      member_segmentNumber, hledger, hnumber, asStr, Option.bind_some, number_toString,
      Except.ofOption, Except.mapError, beq_self_eq_true, Bool.and_self, Bool.not_false,
      Except.require_true]
  · exact (bundleObject_denied hexportable hread hauthorized hstored.manifest).mpr
      (Bool.eq_false_iff.mpr hpermits)

/-- An export of what the tables of the ledger have. -/
structure Service.Reads (writeManifest : SnapshotManifest → Except String Bytes) (s : Service)
    (d : Disclosure) : Prop where
  material : readMaterial s.store s.store.ledgerId d.number = .ok d.material
  prepared : d.Prepared writeManifest s.store.ledgerId

/-- A disclosure of what the tables of the ledger have is stored. -/
structure Service.Holds (writeManifest : SnapshotManifest → Except String Bytes) (s : Service)
    (d : Disclosure) : Prop extends s.Reads writeManifest d where
  stored : d.Stored s.disclosures

/-- A request has read the artifact of its segment. -/
structure Service.Viewed (s : Service) (request : Permitted) : Prop where
  ledger : request.ledger = s.store.ledgerId
  parsed : request.selection.parse = .ok (request.disclosureClass, request.batches)
  artifact : ∃ row, s.store.tables.sealedSegment[request.segment]? = some row
    ∧ row.artifactCbor = request.artifact
  selectable : ∃ sealed, decodeSegmentRecord request.artifact = .ok sealed
    ∧ Selectable request.disclosureClass request.batches sealed.batchRoots.length

/-- The export is the one that the request asks for. -/
structure Permitted.Of (request : Permitted) (d : Disclosure) : Prop where
  segment : request.segment = d.number
  disclosureClass : request.disclosureClass = d.disclosureClass
  batches : request.batches = d.batches

def Service.JobReads (writeManifest : SnapshotManifest → Except String Bytes) (s : Service) :
    Job → Prop
  | .viewed request => s.Viewed request
  | .prepared request files manifest => s.Viewed request
    ∧ ∃ d, s.Reads writeManifest d ∧ request.Of d ∧ d.files = files ∧ d.manifestBytes = manifest

/-- A credential whose grant permits the class and the batches has asked for them. -/
def Asked (trace : List (ServiceInput × ServiceAnswer)) (ledgerId : String) (number : UInt64)
    (disclosureClass : DisclosureClass) (batches : Finset UInt64) : Prop :=
  ∃ grants segment selection grant,
    (ServiceInput.request grants ledgerId segment selection, ServiceAnswer.started) ∈ trace
      ∧ authorize ledgerId grants ledgerId segment = .ok (grant, number)
      ∧ selection.parse = .ok (disclosureClass, batches)
      ∧ grant.permits disclosureClass.asStr batches = true

/-- Somebody was permitted to ask for what is disclosed. -/
def Disclosure.Asked (trace : List (ServiceInput × ServiceAnswer)) (ledgerId : String)
    (d : Disclosure) : Prop :=
  Disclosures.Asked trace ledgerId d.number d.disclosureClass d.batches

/-- The gateway is in order, and every request has read what it goes on with. -/
structure ServiceInvariant (config : TimestampWorkerConfig)
    (writeManifest : SnapshotManifest → Except String Bytes) (s : Service)
    (trace : List (ServiceInput × ServiceAnswer)) : Prop where
  gateway : GatewayInvariant config RecordsKept s.gateway
  jobs : ∀ job ∈ s.jobs, s.JobReads writeManifest job
    ∧ Asked trace s.store.ledgerId job.request.segment job.request.disclosureClass
      job.request.batches
  addressed : ∀ number digest bytes, s.disclosures.manifests number digest = some bytes →
    sha256Hex bytes = digest
  absent : ∀ number digest, s.disclosures.manifests number digest = none →
    ∀ path, s.disclosures.objects number digest path = none

/-- Every row of the disclosure tables and every response is that of an export that was asked
for. -/
structure DisclosureInvariant (writeManifest : SnapshotManifest → Except String Bytes) (s : Service)
    (trace : List (ServiceInput × ServiceAnswer)) : Prop where
  stored : ∀ number digest bytes, s.disclosures.manifests number digest = some bytes →
    ∃ d : Disclosure, s.Holds writeManifest d ∧ d.Asked trace s.store.ledgerId
      ∧ d.number = number ∧ d.digest = digest ∧ d.manifestBytes = bytes
  answered : ∀ input response, (input, ServiceAnswer.generated response) ∈ trace →
    ∃ d : Disclosure, s.Holds writeManifest d ∧ d.Asked trace s.store.ledgerId
      ∧ response = d.response s.store.ledgerId response.created

/-- What a step can do. -/
inductive Service.Steps (config : TimestampWorkerConfig)
    (writeManifest : SnapshotManifest → Except String Bytes) (s : Service) :
    ServiceInput → ServiceAnswer → Service → Prop where
  | transacted (input : GatewayInput) : Steps config writeManifest s (.transact input)
      (.transacted (s.gateway.step config input).1)
      { s with gateway := (s.gateway.step config input).2 }
  | viewed (grants : List Grant) (ledger segment : String) (selection : Selection)
      (request : Permitted)
      (hview : generateView s.store.ledgerId s.store grants ledger segment selection
        = .ok request) :
      Steps config writeManifest s (.request grants ledger segment selection) .started
        { s with jobs := s.jobs ++ [.viewed request] }
  | prepared (i : Nat) (request : Permitted) (files : List (String × Bytes)) (manifest : Bytes)
      (hjob : .viewed request ∈ s.jobs)
      (hprepare : generatePrepare writeManifest s.store request = .ok (files, manifest)) :
      Steps config writeManifest s (.proceed i) .started
        { s with jobs := s.jobs.set i (.prepared request files manifest) }
  | recorded (i : Nat) (request : Permitted) (files : List (String × Bytes)) (manifest : Bytes)
      (response : Generated) (disclosures : DisclosureTables)
      (hjob : .prepared request files manifest ∈ s.jobs)
      (hrecord : generateRecord s.disclosures request files manifest
        = .ok (response, disclosures)) :
      Steps config writeManifest s (.proceed i) (.generated response)
        { s with disclosures, jobs := s.jobs.eraseIdx i }
  | refused (input : ServiceInput) (answer : ServiceAnswer) (jobs : List Job)
    (hjobs : jobs ⊆ s.jobs)
      (hanswer : ∀ response, answer ≠ .generated response) :
      Steps config writeManifest s input answer { s with jobs }

namespace Service

variable {config : TimestampWorkerConfig} {writeManifest : SnapshotManifest → Except String Bytes}
variable {s : Service} {trace : List (ServiceInput × ServiceAnswer)}

/-- Each input does one of the steps, or is refused with no other effect than a job ended. -/
theorem step_spec (s : Service) (input : ServiceInput) :
    Steps config writeManifest s input (s.step config writeManifest input).1
      (s.step config writeManifest input).2 := by
  cases input with
  | transact input => exact .transacted input
  | request grants ledger segment selection =>
    unfold step
    dsimp only
    -- a request for an export is a job, or it is refused
    cases hview : generateView s.store.ledgerId s.store grants ledger segment selection with
    | ok request => exact .viewed grants ledger segment selection request hview
    | error failure =>
      exact .refused _ _ s.jobs (List.Subset.refl _) fun response heq =>
        ServiceAnswer.noConfusion heq
  | proceed i =>
    unfold step
    dsimp only
    -- the job that proceeds is one of those waiting
    cases hget : s.jobs[i]? with
    | none =>
      exact .refused _ _ s.jobs (List.Subset.refl _) fun response heq =>
        ServiceAnswer.noConfusion heq
    | some job =>
      have hjob : job ∈ s.jobs := List.mem_of_getElem? hget
      have hsubset : s.jobs.eraseIdx i ⊆ s.jobs := List.eraseIdx_subset
      cases job with
      | viewed request =>
        unfold proceed
        dsimp only
        cases hprepare : generatePrepare writeManifest s.store request with
        | ok prepared => exact .prepared i request prepared.1 prepared.2 hjob hprepare
        | error failure =>
          exact .refused _ _ _ hsubset fun response heq => ServiceAnswer.noConfusion heq
      | prepared request files manifest =>
        unfold proceed
        dsimp only
        cases hrecord : generateRecord s.disclosures request files manifest with
        | ok answer => exact .recorded i request files manifest answer.1 answer.2 hjob hrecord
        | error failure =>
          exact .refused _ _ _ hsubset fun response heq => ServiceAnswer.noConfusion heq

/-- What stays. -/
structure Later (writeManifest : SnapshotManifest → Except String Bytes) (s s' : Service) :
    Prop where
  ledgerId : s'.store.ledgerId = s.store.ledgerId
  reads : ∀ d, s.Reads writeManifest d → s'.Reads writeManifest d
  viewed : ∀ request, s.Viewed request → s'.Viewed request
  disclosures : s.disclosures.Extends s'.disclosures

/-- What a request does is not seen in the tables of the ledger. -/
theorem later_of_gateway {s' : Service} (hgateway : s'.gateway = s.gateway)
    (hdisclosures : s.disclosures.Extends s'.disclosures) : Later writeManifest s s' := by
  have hstore : s'.store = s.store := congrArg (fun g : Gateway => g.pipeline.store) hgateway
  refine ⟨congrArg PostgresLedgerStore.ledgerId hstore, fun d hreads => ⟨?_, ?_⟩,
    fun request hviewed => ⟨?_, hviewed.parsed, ?_, hviewed.selectable⟩, hdisclosures⟩
  · rw [hstore]
    exact hreads.material
  · rw [hstore]
    exact hreads.prepared
  · rw [hstore]
    exact hviewed.ledger
  · rw [hstore]
    exact hviewed.artifact

/-- What is later than later is later. -/
theorem Later.trans {s' s'' : Service} (h : Later writeManifest s s')
    (h' : Later writeManifest s' s'') :
    Later writeManifest s s'' where
  ledgerId := h'.ledgerId.trans h.ledgerId
  reads d hreads := h'.reads d (h.reads d hreads)
  viewed request hviewed := h'.viewed request (h.viewed request hviewed)
  disclosures := h.disclosures.trans h'.disclosures

/-- A disclosure that the service holds it holds later. -/
theorem Later.holds {s' : Service} (h : Later writeManifest s s') {d : Disclosure}
    (hholds : s.Holds writeManifest d) : s'.Holds writeManifest d :=
  ⟨h.reads d hholds.toReads, hholds.stored.extends h.disclosures⟩

/-- What a job was given to read it can read later. -/
theorem Later.jobReads {s' : Service} (h : Later writeManifest s s') {job : Job}
    (hjob : s.JobReads writeManifest job) : s'.JobReads writeManifest job := by
  cases job with
  | viewed request => exact h.viewed request hjob
  | prepared request files manifest =>
    obtain ⟨hviewed, d, hreads, hd⟩ := hjob
    exact ⟨h.viewed request hviewed, d, h.reads d hreads, hd⟩

/-- A step of the gateway. -/
theorem later_transact (h : GatewayInvariant config RecordsKept s.gateway) (input : GatewayInput) :
    Later writeManifest s { s with gateway := (s.gateway.step config input).2 } := by
  have hledgerId : (s.gateway.step config input).2.pipeline.store.ledgerId
      = s.gateway.pipeline.store.ledgerId := @Gateway.ledgerId_later _ config s.gateway [input]
  refine ⟨hledgerId, fun d hreads => ⟨?_, ?_⟩, fun request hviewed =>
    ⟨?_, hviewed.parsed, ?_, hviewed.selectable⟩, ?_⟩
  · show readMaterial _ (s.gateway.step config input).2.pipeline.store.ledgerId _ = _
    rw [hledgerId]
    exact readMaterial_later h hreads.material [input]
  · show d.Prepared writeManifest (s.gateway.step config input).2.pipeline.store.ledgerId
    rw [hledgerId]
    exact hreads.prepared
  · exact hviewed.ledger.trans hledgerId.symm
  · obtain ⟨row, hrow, hcbor⟩ := hviewed.artifact
    obtain ⟨row', hrow', hcbor'⟩ := artifactCbor_later h hrow [input]
    exact ⟨row', hrow', hcbor'.trans hcbor⟩
  · exact DisclosureTables.Extends.refl s.disclosures

/-- What is recorded is the disclosure that was asked for. -/
theorem generateRecord_eq_ok {tables disclosures : DisclosureTables} {request : Permitted}
    {files : List (String × Bytes)} {manifest : Bytes} {response : Generated}
    (h : generateRecord tables request files manifest = .ok (response, disclosures)) :
    tables.record request.segment files manifest = .ok disclosures
      ∧ ∀ d : Disclosure, request.Of d → d.manifestBytes = manifest →
        request.selection.parse = .ok (request.disclosureClass, request.batches) →
        request.artifact = d.material.artifact →
        response = d.response request.ledger response.created := by
  obtain ⟨tables', hrecord, hanswer⟩ := Except.bind_eq_ok.mp h
  obtain ⟨rfl, rfl⟩ := Prod.mk.inj (Except.ok.inj hanswer)
  refine ⟨hrecord, fun d hof hmanifest hparse hartifact => ?_⟩
  simp only [Disclosure.response, Disclosure.digest, hmanifest, ← hartifact, ← hof.segment,
    ← hof.disclosureClass, Selection.parse_class hparse]

/-- Every step keeps what is there. -/
theorem Steps.later {input : ServiceInput} {answer : ServiceAnswer} {s' : Service}
    (hstep : Steps config writeManifest s input answer s')
    (h : GatewayInvariant config RecordsKept s.gateway) : Later writeManifest s s' := by
  have hrefl : s.disclosures.Extends s.disclosures := DisclosureTables.Extends.refl s.disclosures
  cases hstep with
  | transacted input => exact later_transact h input
  | viewed => exact later_of_gateway rfl hrefl
  | prepared => exact later_of_gateway rfl hrefl
  | recorded _ _ _ _ _ _ _ hrecord =>
    exact later_of_gateway rfl (extends_record (generateRecord_eq_ok hrecord).1)
  | refused => exact later_of_gateway rfl hrefl

/-! ### The invariant -/

/-- A request that goes on has read its export. -/
theorem reads_prepare {request : Permitted} {files : List (String × Bytes)} {manifest : Bytes}
    (hviewed : s.Viewed request)
    (hprepare : generatePrepare writeManifest s.store request = .ok (files, manifest)) :
    ∃ d, s.Reads writeManifest d ∧ request.Of d ∧ d.files = files ∧ d.manifestBytes = manifest := by
  obtain ⟨material, hmaterial, hfiles, hmanifest⟩ := generatePrepare_eq_ok hprepare
  rw [hviewed.ledger] at hmaterial hfiles
  exact ⟨⟨request.segment, request.disclosureClass, request.batches, material, manifest, files⟩,
    ⟨hmaterial, hfiles, hmanifest⟩, ⟨rfl, rfl, rfl⟩, rfl, rfl⟩

/-- The artifact that a request has read is that of its export. -/
theorem Viewed.artifact_eq {request : Permitted} {d : Disclosure} (hviewed : s.Viewed request)
    (hof : request.Of d) (hreads : s.Reads writeManifest d)
    (h : GatewayInvariant config RecordsKept s.gateway) :
    request.artifact = d.material.artifact := by
  obtain ⟨row, hrow, hcbor⟩ := hviewed.artifact
  obtain ⟨-, row', hrow', hverified⟩ := verified_of_readMaterial hreads.material
  obtain ⟨material, -, hartifact, -, -, -, hlater⟩ := exists_material h hrow' hverified
  obtain rfl : material = d.material := Except.ok.inj ((hlater []).symm.trans hreads.material)
  obtain rfl : row = row' := Option.some.inj (hrow.symm.trans (hof.segment ▸ hrow'))
  exact hcbor.symm.trans hartifact

/-- A disclosure that is inserted is stored. -/
theorem holds_record {readJson : Bytes → Except String JsonValue}
    (hjson : ∀ manifest bytes, writeManifest manifest = .ok bytes →
      readJson bytes = .ok (manifestValue manifest))
    (h : ServiceInvariant config writeManifest s trace)
    (hd : DisclosureInvariant writeManifest s trace)
    {d : Disclosure} {s' : Service}
    (hgateway : s'.gateway = s.gateway) (hreads : s.Reads writeManifest d)
    (hrecord : s.disclosures.record d.number d.files d.manifestBytes = .ok s'.disclosures) :
    s'.Holds writeManifest d := by
  have hlater : Later writeManifest s s' := later_of_gateway hgateway (extends_record hrecord)
  rcases record_eq_ok hrecord with ⟨hstored, -⟩ | ⟨hnone, hmanifests, hobjects⟩
  · -- the same manifest is there, so it is the same disclosure
    obtain ⟨d', hholds, -, hnumber, hdigest, hmanifest⟩ := hd.stored _ _ _ hstored
    have hmaterial : d'.material = d.material :=
      Except.ok.inj (hholds.material.symm.trans (hnumber ▸ hreads.material))
    obtain rfl := hreads.prepared.unique hjson hholds.prepared hnumber hmaterial hmanifest
    exact hlater.holds hholds
  · refine ⟨hlater.reads d hreads, ?_, ?_⟩
    · rw [hmanifests, if_pos ⟨rfl, rfl⟩]
    · intro path hpath
      have habsent : s.disclosures.objects d.number d.digest path = none := h.absent _ _ hnone path
      rw [hobjects, if_pos ⟨rfl, rfl, hpath⟩, habsent, Option.or_none]

/-- What the last transaction of a request stores and answers. -/
theorem exists_recorded {readJson : Bytes → Except String JsonValue}
    (hjson : ∀ manifest bytes, writeManifest manifest = .ok bytes →
      readJson bytes = .ok (manifestValue manifest))
    (h : ServiceInvariant config writeManifest s trace)
    (hd : DisclosureInvariant writeManifest s trace)
    {request : Permitted} {files : List (String × Bytes)} {manifest : Bytes} {response : Generated}
    {s' : Service}
    (hjob : .prepared request files manifest ∈ s.jobs)
    (hrecord : generateRecord s.disclosures request files manifest = .ok (response, s'.disclosures))
    (hgateway : s'.gateway = s.gateway) :
    ∃ d : Disclosure, s'.Holds writeManifest d ∧ d.Asked trace s.store.ledgerId
      ∧ response = d.response s.store.ledgerId response.created
      ∧ s.disclosures.record d.number d.files d.manifestBytes = .ok s'.disclosures := by
  obtain ⟨⟨hviewed, d, hreads, hof, rfl, rfl⟩, hasked⟩ := h.jobs _ hjob
  obtain ⟨hrecord, hresponse⟩ := generateRecord_eq_ok hrecord
  rw [hof.segment] at hrecord
  refine ⟨d, holds_record hjson h hd hgateway hreads hrecord, ?_, ?_, hrecord⟩
  · rw [Disclosure.Asked, ← hof.segment, ← hof.disclosureClass, ← hof.batches]
    exact hasked
  · rw [← hviewed.ledger]
    exact hresponse d hof rfl hviewed.parsed (hviewed.artifact_eq hof hreads h.gateway)

omit [Sha256] in
/-- What was asked for before was asked for. -/
theorem Asked.append {ledgerId : String} {number : UInt64} {disclosureClass : DisclosureClass}
    {batches : Finset UInt64} (h : Asked trace ledgerId number disclosureClass batches)
    (more : List (ServiceInput × ServiceAnswer)) :
    Asked (trace ++ more) ledgerId number disclosureClass batches := by
  obtain ⟨grants, segment, selection, grant, hmem, hasked⟩ := h
  exact ⟨grants, segment, selection, grant, List.mem_append_left _ hmem, hasked⟩

section

variable {input : ServiceInput} {answer : ServiceAnswer} {s' : Service}

/-- Every step keeps the invariant of the gateway. -/
theorem Steps.gateway (h : GatewayInvariant config RecordsKept s.gateway)
    (hstep : Steps config writeManifest s input answer s') :
    GatewayInvariant config RecordsKept s'.gateway := by
  cases hstep with
  | transacted input => exact Gateway.invariant_step h recordsKept input
  | viewed => exact h
  | prepared => exact h
  | recorded => exact h
  | refused => exact h

/-- After every step each job reads what the store holds, for a request that was made. -/
theorem Steps.jobs (h : ServiceInvariant config writeManifest s trace)
    (hstep : Steps config writeManifest s input answer s') :
    ∀ job ∈ s'.jobs, s'.JobReads writeManifest job
      ∧ Asked (trace ++ [(input, answer)]) s'.store.ledgerId job.request.segment
        job.request.disclosureClass job.request.batches := by
  have hlater := hstep.later h.gateway
  have hold : ∀ job ∈ s.jobs, s'.JobReads writeManifest job
      ∧ Asked (trace ++ [(input, answer)]) s'.store.ledgerId job.request.segment
        job.request.disclosureClass job.request.batches := by
    intro job hjob
    obtain ⟨hreads, hasked⟩ := h.jobs job hjob
    rw [hlater.ledgerId]
    exact ⟨hlater.jobReads hreads, Asked.append hasked _⟩
  cases hstep with
  | transacted input => exact hold
  | viewed grants ledger segment selection request hview =>
    intro job hjob
    rcases List.mem_append.mp hjob with hjob | hnew
    · exact hold job hjob
    · obtain rfl := List.mem_singleton.mp hnew
      obtain ⟨grant, hauthorized, hparse, hpermits, hrequest, rfl, rfl, hartifact,
        hselectable⟩ := generateView_eq_ok hview
      exact ⟨⟨hrequest, hparse, hartifact, hselectable⟩, grants, segment, request.selection, grant,
        List.mem_append_right _ (List.mem_singleton_self _), hauthorized, hparse, hpermits⟩
  | prepared i request files manifest hjob hprepare =>
    intro job hjob'
    rcases List.mem_or_eq_of_mem_set hjob' with hjob' | rfl
    · exact hold job hjob'
    · obtain ⟨hviewed, hasked⟩ := hold _ hjob
      exact ⟨⟨hviewed, reads_prepare hviewed hprepare⟩, hasked⟩
  | recorded i => exact fun job hjob => hold job (List.eraseIdx_subset hjob)
  | refused _ _ jobs hjobs => exact fun job hjob => hold job (hjobs hjob)

/-- A row that was not there is that of the disclosure of the last transaction of a request. -/
theorem Steps.stored {readJson : Bytes → Except String JsonValue}
    (hjson : ∀ manifest bytes, writeManifest manifest = .ok bytes →
      readJson bytes = .ok (manifestValue manifest))
    (h : ServiceInvariant config writeManifest s trace)
    (hd : DisclosureInvariant writeManifest s trace)
    (hstep : Steps config writeManifest s input answer s') {number : UInt64} {digest : String}
    {bytes : Bytes} (hstored : s'.disclosures.manifests number digest = some bytes) :
    ∃ d : Disclosure, s'.Holds writeManifest d ∧ d.Asked trace s.store.ledgerId
      ∧ d.number = number ∧ d.digest = digest ∧ d.manifestBytes = bytes := by
  have hlater := hstep.later h.gateway
  cases hbefore : s.disclosures.manifests number digest with
  | some bytes' =>
    obtain ⟨d, hholds, hrow⟩ := hd.stored number digest bytes' hbefore
    obtain rfl : bytes' = bytes :=
      Option.some.inj ((hlater.disclosures number digest bytes' hbefore).1.symm.trans hstored)
    exact ⟨d, hlater.holds hholds, hrow⟩
  | none =>
    cases hstep with
    | recorded i request files manifest response disclosures hjob hrecord =>
      obtain ⟨d, hholds, hasked, -, hrecord⟩ :=
        @exists_recorded _ config writeManifest s trace _ hjson h
        hd _ _ _ _ { s with disclosures, jobs := s.jobs.eraseIdx i } hjob hrecord rfl
      have hsame : number = d.number ∧ digest = sha256Hex d.manifestBytes := by
        by_contra hother
        rcases record_eq_ok hrecord with ⟨-, heq⟩ | ⟨-, hmanifests, -⟩
        · rw [heq, hbefore] at hstored
          cases hstored
        · rw [hmanifests, if_neg hother, hbefore] at hstored
          cases hstored
      obtain ⟨rfl, rfl⟩ := hsame
      exact ⟨d, hholds, hasked, rfl, rfl,
        Option.some.inj (hholds.stored.manifest.symm.trans hstored)⟩
    | transacted => exact absurd (hbefore.symm.trans hstored) (by simp)
    | viewed => exact absurd (hbefore.symm.trans hstored) (by simp)
    | prepared => exact absurd (hbefore.symm.trans hstored) (by simp)
    | refused => exact absurd (hbefore.symm.trans hstored) (by simp)

/-- No object is stored under a manifest that is not stored. -/
theorem Steps.absent (h : ServiceInvariant config writeManifest s trace)
    (hstep : Steps config writeManifest s input answer s') {number : UInt64} {digest : String}
    (hnone : s'.disclosures.manifests number digest = none) (path : String) :
    s'.disclosures.objects number digest path = none := by
  cases hstep with
  | recorded i request files manifest response disclosures hjob hrecord =>
    rcases record_eq_ok (generateRecord_eq_ok hrecord).1 with ⟨-, heq⟩ | ⟨-, hmanifests, hobjects⟩
    · subst heq
      exact h.absent _ _ hnone path
    · rw [hmanifests] at hnone
      split_ifs at hnone with hsame
      rw [hobjects, if_neg fun hother => hsame ⟨hother.1, hother.2.1⟩]
      exact h.absent _ _ hnone path
  | transacted => exact h.absent _ _ hnone path
  | viewed => exact h.absent _ _ hnone path
  | prepared => exact h.absent _ _ hnone path
  | refused => exact h.absent _ _ hnone path

/-- Every answer of a step is what the disclosures held say. -/
theorem Steps.answered {readJson : Bytes → Except String JsonValue}
    (hjson : ∀ manifest bytes, writeManifest manifest = .ok bytes →
      readJson bytes = .ok (manifestValue manifest))
    (h : ServiceInvariant config writeManifest s trace)
    (hd : DisclosureInvariant writeManifest s trace)
    (hstep : Steps config writeManifest s input answer s') {response : Generated}
    (hanswer : answer = .generated response) :
    ∃ d : Disclosure, s'.Holds writeManifest d ∧ d.Asked trace s.store.ledgerId
      ∧ response = d.response s.store.ledgerId response.created := by
  cases hstep with
  | recorded i request files manifest response' disclosures hjob hrecord =>
    obtain rfl := ServiceAnswer.generated.inj hanswer
    obtain ⟨d, hholds, hasked, hresponse, -⟩ :=
      @exists_recorded _ config writeManifest s trace _ hjson h
      hd _ _ _ _ { s with disclosures, jobs := s.jobs.eraseIdx i } hjob hrecord rfl
    exact ⟨d, hholds, hasked, hresponse⟩
  | refused _ _ _ _ hne => exact absurd hanswer (hne response)
  | transacted => cases hanswer
  | viewed => cases hanswer
  | prepared => cases hanswer

/-- A manifest is stored under its own digest. -/
theorem Steps.addressed (h : ServiceInvariant config writeManifest s trace)
    (hstep : Steps config writeManifest s input answer s') {number : UInt64} {digest : String}
    {bytes : Bytes} (hstored : s'.disclosures.manifests number digest = some bytes) :
    sha256Hex bytes = digest := by
  cases hstep with
  | recorded i request files manifest response disclosures hjob hrecord =>
    rcases record_eq_ok (generateRecord_eq_ok hrecord).1 with ⟨-, heq⟩ | ⟨-, hmanifests, -⟩
    · subst heq
      exact h.addressed _ _ _ hstored
    · rw [hmanifests] at hstored
      split_ifs at hstored with hsame
      · obtain rfl := Option.some.inj hstored
        exact hsame.2.symm
      · exact h.addressed _ _ _ hstored
  | transacted => exact h.addressed _ _ _ hstored
  | viewed => exact h.addressed _ _ _ hstored
  | prepared => exact h.addressed _ _ _ hstored
  | refused => exact h.addressed _ _ _ hstored

/-- Every step keeps the invariant of the service. -/
theorem Steps.invariant (h : ServiceInvariant config writeManifest s trace)
    (hstep : Steps config writeManifest s input answer s') :
    ServiceInvariant config writeManifest s' (trace ++ [(input, answer)]) :=
  ⟨hstep.gateway h.gateway, hstep.jobs h, fun _ _ _ => hstep.addressed h, fun _ _ => hstep.absent h⟩

/-- After every step each stored manifest is that of a disclosure asked for. -/
theorem Steps.disclosed {readJson : Bytes → Except String JsonValue}
    (hjson : ∀ manifest bytes, writeManifest manifest = .ok bytes →
      readJson bytes = .ok (manifestValue manifest))
    (h : ServiceInvariant config writeManifest s trace)
    (hd : DisclosureInvariant writeManifest s trace)
    (hstep : Steps config writeManifest s input answer s') :
    DisclosureInvariant writeManifest s' (trace ++ [(input, answer)]) := by
  have hlater := hstep.later h.gateway
  refine ⟨?_, ?_⟩
  · intro number digest bytes hstored
    obtain ⟨d, hholds, hasked, hrow⟩ := hstep.stored hjson h hd hstored
    exact ⟨d, hholds, hlater.ledgerId ▸ Asked.append hasked _, hrow⟩
  · intro input' response hmem
    rw [hlater.ledgerId]
    rcases List.mem_append.mp hmem with hold | hnew
    · obtain ⟨d, hholds, hasked, hresponse⟩ := hd.answered input' response hold
      exact ⟨d, hlater.holds hholds, Asked.append hasked _, hresponse⟩
    · obtain ⟨-, hanswer⟩ := Prod.mk.inj (List.mem_singleton.mp hnew)
      obtain ⟨d, hholds, hasked, hresponse⟩ := hstep.answered hjson h hd hanswer.symm
      exact ⟨d, hholds, Asked.append hasked _, hresponse⟩

end

/-- The gateway is in order after every run. -/
theorem run_invariant (config : TimestampWorkerConfig)
    (writeManifest : SnapshotManifest → Except String Bytes) (ledgerId : String)
    (limits : CapacityLimits) (inputs : List ServiceInput) :
    ServiceInvariant config writeManifest (run config writeManifest ledgerId limits inputs).1
      (run config writeManifest ledgerId limits inputs).2 := by
  refine runTrace_induction (P := fun s trace => ServiceInvariant config writeManifest s trace) ?_
    (fun s trace input h => Steps.invariant h (step_spec s input)) inputs
  refine ⟨Gateway.run_invariant recordsKept config ledgerId limits [], ?_, ?_, fun _ _ _ _ => rfl⟩
  · intro job hjob
    cases hjob
  · intro number digest bytes hstored
    cases hstored

/-- Every row and every response is that of an export that was asked for, after every run. -/
theorem run_disclosed {readJson : Bytes → Except String JsonValue}
    (hjson : ∀ manifest bytes, writeManifest manifest = .ok bytes →
      readJson bytes = .ok (manifestValue manifest)) (config : TimestampWorkerConfig)
        (ledgerId : String)
    (limits : CapacityLimits) (inputs : List ServiceInput) :
    DisclosureInvariant writeManifest (run config writeManifest ledgerId limits inputs).1
      (run config writeManifest ledgerId limits inputs).2 := by
  have hinit : DisclosureInvariant writeManifest (new ledgerId limits) [] := by
    refine ⟨?_, ?_⟩
    · intro number digest bytes hstored
      cases hstored
    · intro input response hmem
      cases hmem
  exact (runTrace_induction (P := fun s trace => ServiceInvariant config writeManifest s trace
    ∧ DisclosureInvariant writeManifest s trace)
    ⟨run_invariant config writeManifest ledgerId limits [], hinit⟩
    (fun s trace input h => ⟨Steps.invariant h.1 (step_spec s input),
      Steps.disclosed hjson h.1 h.2 (step_spec s input)⟩) inputs).2

/-- What stays, at any later moment. -/
theorem later_run (h : GatewayInvariant config RecordsKept s.gateway) (later : List ServiceInput) :
    Later writeManifest s (runTrace (step config writeManifest) s later).1 := by
  have hrefl := DisclosureTables.Extends.refl s.disclosures
  refine (runTrace_induction (P := fun s' _ => GatewayInvariant config RecordsKept s'.gateway
    ∧ Later writeManifest s s') ⟨h, later_of_gateway rfl hrefl⟩ ?_ later).2
  rintro s' _ input ⟨hgateway, hlater⟩
  have hstep := @step_spec _ config writeManifest s' input
  exact ⟨hstep.gateway hgateway, hlater.trans (hstep.later hgateway)⟩

/-- The service serves one ledger. -/
theorem ledgerId_run (config : TimestampWorkerConfig)
    (writeManifest : SnapshotManifest → Except String Bytes) (ledgerId : String)
    (limits : CapacityLimits) (inputs : List ServiceInput) :
    (run config writeManifest ledgerId limits inputs).1.store.ledgerId = ledgerId :=
  (later_run (Gateway.run_invariant recordsKept config ledgerId limits []) inputs).ledgerId

end Service

end

end TrackOne.Disclosures
