import TrackOne.Vtl.Basic
import TrackOne.Lib.Decimal
import TrackOne.Lib.TreeMap

/-!
# Bundles: manifests, portable paths and the directory they are read from

The data of `apps/trackone-evidence`: the error type (`error.rs`), the producer manifest
(`vtl/manifest.rs`), the lexical checks on numbers and paths (`vtl/paths.rs`), `parse_manifest`
(`vtl.rs`) and the bounded reads of untrusted bundle members.

* `Directory` is the tree of regular files below a bundle root. A directory exists exactly when a
  file lies below it, which is all `create_dir_all` and `fs::write` ever make; `Errno` names the
  ways in which the operating system refuses a path.
* `Environment` holds the code that is not the verifier's own: the JSON reader and writer, the
  RFC 3161 checks, and the files outside the bundle that a policy names.
* `parseManifest_eq_ok` and `safeRead_eq_ok` say what an accepted manifest and a successful read
  are; the rest of the development uses only them.
-/

namespace TrackOne.Evidence

/-! ## Errors -/

inductive EvidenceError where
  | io (message : String)
  | json (message : String)
  | ledger (message : String)
  | invalid (message : String)
  | verificationFailed (message : String)
  | git (message : String)
deriving DecidableEq, Repr

/-- `impl Display for EvidenceError`. -/
def EvidenceError.toString : EvidenceError → String
  | io message => "io error: " ++ message
  | json message => "json error: " ++ message
  | ledger message => "ledger error: " ++ message
  | invalid message => message
  | verificationFailed message => message
  | git message => message

/-- `Result<T>` of the evidence application. -/
abbrev EvidenceResult (α : Type) := Except EvidenceError α

def bad (message : String) : EvidenceError := .invalid message

/-- The errors of the operating system that a path in a bundle can meet. -/
inductive Errno where
  | enoent
  | eexist
  | enotdir
  | eisdir
deriving DecidableEq, Repr

/-- `impl Display for io::Error`. -/
def Errno.toString : Errno → String
  | enoent => "No such file or directory (os error 2)"
  | eexist => "File exists (os error 17)"
  | enotdir => "Not a directory (os error 20)"
  | eisdir => "Is a directory (os error 21)"

/-! ## Numbers and paths -/

/-- `str::parse::<u64>`: an optional plus sign, then decimal digits. -/
def parseU64 (value : String) : Option UInt64 :=
  let digits := match value.toList with
    | '+' :: rest => rest
    | chars => chars
  if digits.isEmpty || !digits.all Char.isDigit then none
  else UInt64.ofNat? (digits.foldl (fun n c => 10 * n + (c.toNat - '0'.toNat)) 0)

/-- `parse_uint64`: decimal digits without a leading zero. -/
def parseUint64 (value : String) : Option UInt64 :=
  if value.isEmpty
      || (value != "0" && (value.toList.head? == some '0' || !value.toList.all Char.isDigit)) then
    none
  else parseU64 value

/-- `std::path::Component`, for a Unix path. -/
inductive Component where
  | rootDir
  | curDir
  | parentDir
  | normal (name : List Char)
deriving DecidableEq, Repr

/-- The parts of a path between its separators, as `str::split('/')` gives them. -/
def pathParts (path : String) : List (List Char) := path.toList.splitOn '/'

/-- `Path::components`: repeated separators and inner dots are ignored. -/
def components (path : String) : List Component :=
  let parts := pathParts path
  let leading := match parts with
    | [] :: _ :: _ => [Component.rootDir]
    | ['.'] :: _ => [Component.curDir]
    | _ => []
  leading ++ (parts.filter fun part => part ≠ [] ∧ part ≠ ['.']).map fun part =>
    if part = ['.', '.'] then .parentDir else .normal part

/-- The disjunction `validate_portable_path` rejects. -/
def notPortable (path : String) : Bool :=
  path.isEmpty
    || path.toList.head? == some '/'
    || path.toList.head? == some '\\'
    || path.toList.contains '\\'
    || path.toList.contains ':'
    || path.toList.any isControl
    || (components path).any (fun part => match part with
        | .normal _ => false
        | _ => true)
    || (pathParts path).any fun part => part == [] || part == ['.'] || part == ['.', '.']

def validatePortablePath (path : String) : EvidenceResult Unit :=
  Except.require (bad "manifest path is not portable") (!notPortable path)

/-! ## The manifest -/

structure ArtifactRef where
  path : String
  sha256 : String
deriving DecidableEq, Repr

structure RecordBatchOpening where
  batchNumber : String
  records : List ArtifactRef
deriving DecidableEq, Repr

structure Artifacts where
  segmentCbor : ArtifactRef
  predecessorSegmentCbor : Option ArtifactRef
  recordBatches : Option (List RecordBatchOpening)
  tsaReq : Option ArtifactRef
  tsaTsr : Option ArtifactRef
  extensions : Std.ExtTreeMap String ArtifactRef compare

namespace Artifacts

/-- `self.record_batches.iter().flatten()`. -/
def openings (artifacts : Artifacts) : List RecordBatchOpening := artifacts.recordBatches.getD []

def references (artifacts : Artifacts) (includeExtensions : Bool) : List ArtifactRef :=
  [artifacts.segmentCbor] ++ artifacts.predecessorSegmentCbor.toList
    ++ artifacts.openings.flatMap RecordBatchOpening.records
    ++ artifacts.tsaReq.toList ++ artifacts.tsaTsr.toList
    ++ if includeExtensions then artifacts.extensions.values else []

end Artifacts

/-- `Manifest`. The verifier reads nothing from the free-form `extensions` member, and
`anchoring.tsa.status` is the only member of its object. -/
structure Manifest where
  version : UInt8
  ledgerId : String
  segmentNumber : String
  commitmentProfileId : String
  disclosureClass : String
  artifacts : Artifacts
  tsaStatus : String

def manifestName : String := "segment.verify.json"

def maxArchiveMember : Nat := 64 * 1024 * 1024

/-! ## What surrounds the verifier -/

/-- A path of the host, outside every bundle. -/
abbrev HostPath := Bytes

structure Duration where
  secs : UInt64
  subsecNanos : UInt32
deriving DecidableEq, Repr

def Duration.isZero (duration : Duration) : Bool :=
  duration.secs == 0 && duration.subsecNanos == 0

/-- The configuration `verify_timestamp` hands to `trackone_rfc3161`: the historical validation
archive, the expected policy and signer, the OpenSSL binary and the allowed skew. -/
structure TimestampPolicy where
  trustAnchorsFile : HostPath
  intermediatesFile : Option HostPath
  crlsFile : HostPath
  policyOid : String
  signerCertSha256 : Digest
  opensslBinary : HostPath
  maxFutureSkew : Duration

/-- `VerifiedTimestamp`, as far as the verifier reads it. -/
structure VerifiedTimestamp where
  nonce : Option Bytes

structure PolicyFingerprint where
  version : UInt8
  tsaCaSha256 : Option String
  tsaIntermediatesSha256 : Option String
  tsaCrlsSha256 : Option String
  tsaPolicyOid : Option String
  tsaSignerCertSha256 : Option String
  opensslBinary : Bytes
  maxFutureSkewSeconds : UInt64
  maxFutureSkewNanoseconds : UInt32
  verifierPolicyArtifactSha256 : Option String
  selectedScope : Option String
  selectedBatches : List Nat
  requireClaimedScope : Bool

/-- The code the verifier calls and does not contain. -/
structure Environment where
  /-- `serde_json`: the manifest a text without duplicate members denotes, or the error text. -/
  readManifest : Bytes → Except String Manifest
  /-- `serde_json::to_vec` of a policy fingerprint. -/
  encodeFingerprint : PolicyFingerprint → Bytes
  /-- `trackone_rfc3161::verify_response` under a policy, or the error text. -/
  verifyResponse : Bytes → Digest → TimestampPolicy → Except String VerifiedTimestamp
  /-- `trackone_rfc3161::verify_request`, or the error text. -/
  verifyRequest : Bytes → Digest → Option Bytes → Except String Unit
  /-- The regular file at a path of the host. -/
  hostFile : HostPath → Except Errno Bytes

/-- `Path::is_file` of a path of the host. -/
def Environment.isFile (env : Environment) (path : HostPath) : Bool := (env.hostFile path).isOk

/-! ## The directory of a bundle -/

/-- The regular files below a bundle root, by their paths relative to it. -/
abbrev Directory := Std.ExtTreeMap String Bytes compare

/-- The directories on the way to a path, outermost first. -/
def ancestors (path : String) : List String :=
  let chars := path.toList
  (List.range chars.length).filterMap fun i =>
    if chars[i]? = some '/' then some (String.ofList (chars.take i)) else none

namespace Directory

/-- Whether a path is a directory: a file lies below it. -/
def isDir (dir : Directory) (path : String) : Bool :=
  dir.keys.any fun file => (ancestors file).contains path

/-- `fs::create_dir_all` of the parent of a path: refused where a file stands in the way. -/
def createParents (dir : Directory) (path : String) : Except Errno Unit :=
  match (ancestors path).reverse with
  | [] => .ok ()
  | parent :: above =>
    if dir.contains parent then .error .eexist
    else if above.any fun ancestor => dir.contains ancestor then .error .enotdir
    else .ok ()

/-- `fs::write`: the old content of the path is gone. -/
def write (dir : Directory) (path : String) (bytes : Bytes) : Except Errno Directory :=
  if dir.isDir path then .error .eisdir else .ok (dir.insert path bytes)

/-- Opening a path for reading: a directory opens as well. -/
def openPath (dir : Directory) (path : String) : Except Errno (Option Bytes) :=
  match dir[path]? with
  | some bytes => .ok (some bytes)
  | none =>
    if dir.isDir path then .ok none
    else if (ancestors path).any fun ancestor => dir.contains ancestor then .error .enotdir
    else .error .enoent

end Directory

/-- `read_file_bounded_from`: what was opened, up to a limit. A directory fails on its first
read. -/
def readBounded (limit : Nat) (label : String) : Option Bytes → EvidenceResult Bytes
  | none => .error (.io Errno.eisdir.toString)
  | some bytes =>
    if limit < bytes.length then .error (bad (label ++ " exceeds the configured size limit"))
    else .ok bytes

/-- `read_file_bounded` of a file of the host. -/
def Environment.readFileBounded (env : Environment) (path : HostPath) (limit : Nat)
    (label : String) : EvidenceResult Bytes := do
  let bytes ← (env.hostFile path).mapError fun error => .io error.toString
  readBounded limit label (some bytes)

namespace Directory

/-- `read_file_bounded` of a path below the bundle root. -/
def readFileBounded (dir : Directory) (path : String) (limit : Nat) (label : String) :
    EvidenceResult Bytes := do
  let opened ← (dir.openPath path).mapError fun error => .io error.toString
  readBounded limit label opened

def safeRead (dir : Directory) (relative : String) : EvidenceResult Bytes := do
  validatePortablePath relative
  let opened ← (dir.openPath relative).mapError fun error =>
    bad ("cannot safely open artifact " ++ relative ++ ": " ++ error.toString)
  readBounded maxArchiveMember "bundle artifact" opened

def referencedArtifact [Sha256] (dir : Directory) (reference : ArtifactRef) :
    EvidenceResult Bytes := do
  Except.require (bad "artifact reference SHA-256 is not lowercase hexadecimal")
    (validHex reference.sha256 64)
  let bytes ← dir.safeRead reference.path
  Except.require (.verificationFailed "artifact reference digest mismatch")
    (sha256Hex bytes == reference.sha256)
  pure bytes

end Directory

/-! ## `parse_manifest` -/

/-- The lexical contract of the scalar members. -/
def Manifest.lexical (manifest : Manifest) : Bool :=
  validHex manifest.ledgerId 32
    && (parseUint64 manifest.segmentNumber).isSome
    && !manifest.commitmentProfileId.isEmpty
    && ["A", "B", "C"].contains manifest.disclosureClass
    && ["present", "pending", "unavailable"].contains manifest.tsaStatus

/-- `record_batches` is absent, or neither it nor an opening of it is empty and every batch number
is a `uint64`. -/
def Artifacts.openingsLexical (artifacts : Artifacts) : Bool :=
  match artifacts.recordBatches with
  | none => true
  | some openings =>
    !openings.isEmpty && openings.all fun opening =>
      !opening.records.isEmpty && (parseUint64 opening.batchNumber).isSome

/-- The check of one reference in `parse_manifest`. -/
def ArtifactRef.validate (reference : ArtifactRef) : EvidenceResult Unit := do
  validatePortablePath reference.path
  Except.require (bad "artifact reference SHA-256 is not lowercase hexadecimal")
    (validHex reference.sha256 64)

/-- The last match of `parse_manifest`: a response belongs to the state `present` alone. -/
def Manifest.validateTsaState (manifest : Manifest) : EvidenceResult Unit :=
  if manifest.tsaStatus = "present" then
    Except.require (bad "present TSA state requires tsa_tsr") manifest.artifacts.tsaTsr.isSome
  else if manifest.tsaStatus = "pending" ∨ manifest.tsaStatus = "unavailable" then
    Except.require (bad "non-present TSA state must omit tsa_tsr") manifest.artifacts.tsaTsr.isNone
  else .ok ()

/-- The checks of `parse_manifest` on what the JSON reader returned. -/
def Manifest.validate (manifest : Manifest) : EvidenceResult Unit := do
  Except.require (bad "producer manifest version must be 1") (manifest.version == 1)
  Except.require (bad "producer manifest violates its baseline lexical contract") manifest.lexical
  Except.require
    (bad "record_batches and records must be non-empty and batch_number must be a uint64")
    manifest.artifacts.openingsLexical
  (manifest.artifacts.references true).forM ArtifactRef.validate
  manifest.validateTsaState

def parseManifest (env : Environment) (bytes : Bytes) : EvidenceResult Manifest := do
  let manifest ← (env.readManifest bytes).mapError .json
  manifest.validate
  pure manifest

/-! ## Numbers and paths that are written -/

theorem parseU64_of_parseUint64 {value : String} {number : UInt64}
    (h : parseUint64 value = some number) : parseU64 value = some number := by
  unfold parseUint64 at h
  split_ifs at h
  exact h

/-- A number is parsed back from its text. -/
theorem parseUint64_toString (n : UInt64) : parseUint64 (toString n) = some n := by
  have htext : (toString n).toList = Nat.toDigits 10 n.toNat := by
    show n.toNat.repr.toList = _
    exact Nat.toList_repr
  have hdigits : (Nat.toDigits 10 n.toNat).all Char.isDigit = true :=
    List.all_eq_true.mpr fun c hc => Decimal.isDigit_of_mem hc
  have hne : Nat.toDigits 10 n.toNat ≠ [] := Nat.toDigits_ne_nil
  have hvalue : (Nat.toDigits 10 n.toNat).foldl (fun n c => 10 * n + (c.toNat - '0'.toNat)) 0
      = n.toNat := Decimal.value_toDigits n.toNat
  -- the digits are read back
  have hparse : parseU64 (toString n) = some n := by
    unfold parseU64
    rw [htext]
    dsimp only
    split
    · -- a digit is no sign
      next rest hplus =>
        rw [hplus] at hdigits
        simp at hdigits
    · rw [hdigits, hvalue, if_neg (by simp [hne]), UInt64.ofNat?_eq_some]
  unfold parseUint64
  rw [if_neg, hparse]
  rw [htext, hdigits]
  simp only [Bool.or_eq_true, Bool.and_eq_true, bne_iff_ne, beq_iff_eq, Bool.not_true,
    Bool.false_eq_true, or_false, not_or, not_and]
  -- and they have no leading zero
  refine ⟨?_, ?_⟩
  · intro hempty
    rw [String.isEmpty_iff] at hempty
    rw [hempty] at htext
    exact hne htext.symm
  · intro hzero hhead
    rcases Nat.eq_zero_or_pos n.toNat with hn | hpos
    · exact hzero (by rw [UInt64.toNat_inj.mp (hn.trans UInt64.toNat_zero.symm)]; decide)
    · exact Decimal.head?_toDigits hpos hhead

/-- A name that can stand between the separators of a portable path. -/
def portableName (name : List Char) : Bool :=
  name != [] && name != ['.'] && name != ['.', '.']
    && name.all fun c => c != '/' && c != '\\' && c != ':' && !isControl c

theorem mem_intercalate {c : Char} {names : List (List Char)}
    (h : c ∈ List.intercalate ['/'] names) : c = '/' ∨ ∃ name ∈ names, c ∈ name := by
  induction names with
  | nil => cases h
  | cons first later ih =>
    by_cases hlater : later = []
    · rw [hlater, List.intercalate_singleton] at h
      exact .inr ⟨first, List.mem_cons_self, h⟩
    · rw [List.intercalate_cons_of_ne_nil hlater, List.append_assoc, List.mem_append,
        List.mem_append, List.mem_singleton] at h
      rcases h with hfirst | hslash | hrest
      · exact .inr ⟨first, List.mem_cons_self, hfirst⟩
      · exact .inl hslash
      · obtain hslash | ⟨name, hname, hc⟩ := ih hrest
        · exact .inl hslash
        · exact .inr ⟨name, List.mem_cons_of_mem _ hname, hc⟩

/-- Portable names make a portable path. -/
theorem validatePortablePath_intercalate {path : String} {names : List (List Char)}
    (hpath : path.toList = List.intercalate ['/'] names) (hne : names ≠ [])
    (hnames : ∀ name ∈ names, portableName name = true) :
    validatePortablePath path = .ok () := by
  -- what the check of a name says
  have hname : ∀ name ∈ names, name ≠ [] ∧ name ≠ ['.'] ∧ name ≠ ['.', '.']
      ∧ ∀ c ∈ name, c ≠ '/' ∧ c ≠ '\\' ∧ c ≠ ':' ∧ isControl c = false := by
    intro name hmem
    have hportable := hnames name hmem
    simp only [portableName, Bool.and_eq_true, bne_iff_ne, List.all_eq_true,
      Bool.not_eq_eq_eq_not, Bool.not_true, and_assoc] at hportable
    exact hportable
  -- the path is split into its names
  have hparts : pathParts path = names := by
    rw [pathParts, hpath]
    exact List.splitOn_intercalate '/'
      (fun name hmem hslash => ((hname name hmem).2.2.2 _ hslash).1 rfl) hne
  have hchars : ∀ c ∈ path.toList, c ≠ '\\' ∧ c ≠ ':' ∧ isControl c = false := by
    intro c hc
    rcases mem_intercalate (hpath ▸ hc) with rfl | ⟨name, hmem, hc⟩
    · decide
    · exact ((hname name hmem).2.2.2 c hc).2
  obtain ⟨first, later, rfl⟩ := List.exists_cons_of_ne_nil hne
  obtain ⟨c, cs, rfl⟩ := List.exists_cons_of_ne_nil (hname first List.mem_cons_self).1
  -- it starts with a character of the first one, so it is not absolute
  have hhead : path.toList.head? = some c := by
    rw [hpath]
    cases later <;> rfl
  have hfirst := (hname (c :: cs) List.mem_cons_self).2.2.2 c List.mem_cons_self
  -- no part is empty, a dot or two dots, so each is a component of its own
  have hcomponents : components path = ((c :: cs) :: later).map Component.normal := by
    have hfilter : ((c :: cs) :: later).filter (fun part => part ≠ [] ∧ part ≠ ['.'])
        = (c :: cs) :: later := by
      refine List.filter_eq_self.mpr fun name hmem => ?_
      simp [(hname name hmem).1, (hname name hmem).2.1]
    unfold components
    dsimp only
    rw [hparts, hfilter]
    split
    · next heq => cases heq
    · next heq =>
      obtain ⟨hdot, -⟩ := List.cons.inj heq
      exact absurd hdot (hname _ List.mem_cons_self).2.1
    · refine List.map_congr_left fun name hmem => ?_
      rw [if_neg (hname name hmem).2.2.1]
  -- the tests of the whole path follow from those of its names
  have hempty : path.isEmpty = false := by
    rw [Bool.eq_false_iff, ne_eq, String.isEmpty_iff]
    rintro rfl
    simp at hhead
  have hparts' : ((c :: cs) :: later).any
      (fun part => part == [] || part == ['.'] || part == ['.', '.']) = false := by
    rw [List.any_eq_false]
    intro name hmem
    obtain ⟨hnil, hdot, hdots, -⟩ := hname name hmem
    simp [hnil, hdot, hdots]
  have hcontrol : path.toList.any isControl = false := by
    rw [List.any_eq_false]
    exact fun c hc => by simp [(hchars c hc).2.2]
  have hbackslash : path.toList.contains '\\' = false := by
    rw [List.contains_eq_mem, decide_eq_false_iff_not]
    exact fun hmem => (hchars _ hmem).1 rfl
  have hcolon : path.toList.contains ':' = false := by
    rw [List.contains_eq_mem, decide_eq_false_iff_not]
    exact fun hmem => (hchars _ hmem).2.1 rfl
  unfold validatePortablePath notPortable
  rw [Except.require_eq_ok, hparts, hcomponents, hhead, hempty, hparts', hcontrol, hbackslash,
    hcolon]
  simp [hfirst.1, hfirst.2.1]

/-! ## What was accepted -/

theorem openPath_eq_ok {dir : Directory} {path : String} {bytes : Bytes} :
    dir.openPath path = .ok (some bytes) ↔ dir[path]? = some bytes := by
  unfold Directory.openPath
  cases h : dir[path]? with
  | some found => simp
  | none =>
    simp only [reduceCtorEq, iff_false]
    split_ifs <;> simp

theorem readBounded_eq_ok {limit : Nat} {label : String} {opened : Option Bytes} {bytes : Bytes} :
    readBounded limit label opened = .ok bytes ↔ opened = some bytes ∧ bytes.length ≤ limit := by
  unfold readBounded
  cases opened with
  | none => simp
  | some found =>
    dsimp only
    split_ifs with h
    · simp only [Option.some.injEq, false_iff]
      rintro ⟨rfl, hle⟩
      omega
    · simp only [Except.ok.injEq, Option.some.injEq]
      constructor
      · rintro rfl
        exact ⟨rfl, Nat.not_lt.mp h⟩
      · exact And.left

namespace Directory

variable {dir : Directory} {path : String} {bytes : Bytes}

theorem readFileBounded_eq_ok {limit : Nat} {label : String} :
    dir.readFileBounded path limit label = .ok bytes
      ↔ dir[path]? = some bytes ∧ bytes.length ≤ limit := by
  unfold readFileBounded
  simp only [Except.bind_eq_ok, Except.mapError_eq_ok, readBounded_eq_ok]
  constructor
  · rintro ⟨_, hopen, rfl, hle⟩
    exact ⟨openPath_eq_ok.mp hopen, hle⟩
  · rintro ⟨hfile, hle⟩
    exact ⟨_, openPath_eq_ok.mpr hfile, rfl, hle⟩

/-- A member is read exactly when the path is portable, a file stands there and it is not too
large. -/
theorem safeRead_eq_ok :
    dir.safeRead path = .ok bytes
      ↔ validatePortablePath path = .ok () ∧ dir[path]? = some bytes
        ∧ bytes.length ≤ maxArchiveMember := by
  unfold safeRead
  simp only [Except.bind_eq_ok, Except.mapError_eq_ok, readBounded_eq_ok]
  constructor
  · rintro ⟨_, hpath, _, hopen, rfl, hle⟩
    exact ⟨hpath, openPath_eq_ok.mp hopen, hle⟩
  · rintro ⟨hpath, hfile, hle⟩
    exact ⟨(), hpath, _, openPath_eq_ok.mpr hfile, rfl, hle⟩

/-- A referenced artifact is a member with the digest of its reference. -/
theorem referencedArtifact_eq_ok [Sha256] {reference : ArtifactRef} :
    dir.referencedArtifact reference = .ok bytes
      ↔ validHex reference.sha256 64 = true ∧ dir.safeRead reference.path = .ok bytes
        ∧ sha256Hex bytes = reference.sha256 := by
  unfold referencedArtifact
  simp only [Except.bind_eq_ok, Except.require_eq_ok, beq_iff_eq]
  constructor
  · rintro ⟨_, hhex, found, hread, _, hdigest, h⟩
    cases h
    exact ⟨hhex, hread, hdigest⟩
  · rintro ⟨hhex, hread, hdigest⟩
    exact ⟨(), hhex, bytes, hread, (), hdigest, rfl⟩

end Directory

/-- An accepted manifest is what the JSON reader returned, and it passes the checks. -/
theorem parseManifest_eq_ok {env : Environment} {bytes : Bytes} {manifest : Manifest} :
    parseManifest env bytes = .ok manifest
      ↔ env.readManifest bytes = .ok manifest ∧ manifest.validate = .ok () := by
  unfold parseManifest
  simp only [Except.bind_eq_ok, Except.mapError_eq_ok]
  constructor
  · rintro ⟨read, hread, _, hvalid, h⟩
    cases h
    exact ⟨hread, hvalid⟩
  · rintro ⟨hread, hvalid⟩
    exact ⟨manifest, hread, (), hvalid, rfl⟩

end TrackOne.Evidence
