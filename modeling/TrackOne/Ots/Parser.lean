import TrackOne.Ots.Cursor
import TrackOne.Vtl.Basic

/-!
# The parser of detached OpenTimestamps proofs

`parse_detached_ots` and `verify_detached_ots_proof` of `trackone-ots/src/lib.rs`. `parse_timestamp`
and `parse_timestamp_tag` call each other over one cursor; the message travels with the calls, and
the number of nested calls that are left.

The reader of numbers is a parameter of the parser, so that it can be compared with a reader that
makes no mistake. What is found beside the proof, the artifact, is a parameter as well.

* `Reads`: a computation that returns, and leaves the cursor within the proof.
* `parseDetachedOts_returns`: every function of the parser does, and with as many steps as the proof
  has bytes none is cut off. -/

namespace TrackOne.Ots

/-! ## Constants -/

def otsHeaderMagic : Bytes :=
  [0x00, 0x4f, 0x70, 0x65, 0x6e, 0x54, 0x69, 0x6d, 0x65, 0x73, 0x74, 0x61, 0x6d, 0x70, 0x73,
    0x00, 0x00, 0x50, 0x72, 0x6f, 0x6f, 0x66, 0x00, 0xbf, 0x89, 0xe2, 0xe8, 0x84, 0xe8, 0x92, 0x94]

def otsMajorVersion : UInt64 := 1

def otsOpSha256 : UInt8 := 0x08

def otsOpAppend : UInt8 := 0xf0

def otsOpPrepend : UInt8 := 0xf1

def otsTimestampMore : UInt8 := 0xff

def otsTimestampAttestation : UInt8 := 0x00

def otsPendingAttestationTag : Bytes := [0x83, 0xdf, 0xe3, 0x0d, 0x2e, 0xf9, 0x0c, 0x8e]

def otsBitcoinBlockHeaderAttestationTag : Bytes := [0x05, 0x88, 0x96, 0x0d, 0x73, 0xd7, 0x19, 0x01]

def otsMaxOpResultLen : Nat := 4096

def otsMaxAttestationPayloadLen : Nat := 8192

def otsMaxUriLen : Nat := 1000

def otsMaxRecursionDepth : UInt16 := 256

/-! ## The parser -/

structure OtsProofSummary where
  fileDigest : Digest
  pendingUris : List String
  bitcoinHeights : List UInt64
  steps : List String
deriving DecidableEq

def OtsProofSummary.new (fileDigest : Digest) : OtsProofSummary := ⟨fileDigest, [], [], []⟩

/-- What reading the artifact next to a proof gives. -/
inductive ArtifactFile where
  | found (bytes : Bytes)
  | notFound
  | failed

/-- The bytes a pending attestation may name a calendar with. -/
def isUriByte (byte : UInt8) : Bool :=
  (0x41 ≤ byte && byte ≤ 0x5a) || (0x61 ≤ byte && byte ≤ 0x7a) || (0x30 ≤ byte && byte ≤ 0x39)
    || byte = 0x2d || byte = 0x2e || byte = 0x5f || byte = 0x2f || byte = 0x3a

section

variable (varuint : OtsCursor → Except OtsFailure (UInt64 × OtsCursor))

def readVarbytes (cursor : OtsCursor) (maxLen minLen : Nat) :
    Except OtsFailure (Bytes × OtsCursor) := do
  let (len, cursor) ← varuint cursor
  Except.require (invalid "ots-proof-parse-failed") (minLen ≤ len.toNat && len.toNat ≤ maxLen)
  cursor.readBytes len.toNat

def parsePendingAttestationUri (payload : Bytes) : Except OtsFailure String := do
  let (uri, cursor) ← readVarbytes varuint (OtsCursor.new payload) otsMaxUriLen 0
  cursor.assertEof
  Except.require (invalid "ots-pending-uri-invalid") (uri.all isUriByte)
  Except.ofOption (invalid "ots-pending-uri-invalid") (ofUtf8? uri)

def parseBitcoinBlockHeaderAttestationHeight (payload : Bytes) : Except OtsFailure UInt64 := do
  let (height, cursor) ← varuint (OtsCursor.new payload)
  cursor.assertEof
  pure height

def parseAttestation (cursor : OtsCursor) (msg : Bytes) (summary : OtsProofSummary) :
    Except OtsFailure (OtsProofSummary × OtsCursor) := do
  let (tag, cursor) ← cursor.readBytes 8
  let (payload, cursor) ← readVarbytes varuint cursor otsMaxAttestationPayloadLen 0
  if tag = otsPendingAttestationTag then do
    let uri ← parsePendingAttestationUri varuint payload
    pure ({ summary with
      steps := summary.steps ++ ["verify PendingAttestation(" ++ uri ++ ")"]
      pendingUris := summary.pendingUris ++ [uri] }, cursor)
  else if tag = otsBitcoinBlockHeaderAttestationTag then do
    Except.require (invalid "ots-bitcoin-digest-invalid") (msg.length = 32)
    let height ← parseBitcoinBlockHeaderAttestationHeight varuint payload
    pure ({ summary with
      steps := summary.steps ++ ["verify BitcoinBlockHeaderAttestation(" ++ toString height ++ ")"]
      bitcoinHeights := summary.bitcoinHeights ++ [height] }, cursor)
  else .error (.internal .fallback)

variable [Sha256]

def applyOtsOp (cursor : OtsCursor) (tag : UInt8) (msg : Bytes) :
    Except OtsFailure ((String × Bytes) × OtsCursor) := do
  Except.require (invalid "ots-proof-message-too-long") (msg.length ≤ otsMaxOpResultLen)
  if tag = otsOpAppend then do
    let (suffix, cursor) ← readVarbytes varuint cursor otsMaxOpResultLen 1
    Except.require (invalid "ots-proof-message-too-long")
      ((msg ++ suffix).length ≤ otsMaxOpResultLen)
    pure (("append " ++ hexLower suffix, msg ++ suffix), cursor)
  else if tag = otsOpPrepend then do
    let (before, cursor) ← readVarbytes varuint cursor otsMaxOpResultLen 1
    Except.require (invalid "ots-proof-message-too-long")
      ((before ++ msg).length ≤ otsMaxOpResultLen)
    pure (("prepend " ++ hexLower before, before ++ msg), cursor)
  else if tag = otsOpSha256 then
    pure (("sha256", (sha256Digest msg).bytes), cursor)
  else .error (.internal .fallback)

/-- `parse_timestamp_tag`, over the function that it calls for what follows an operation. -/
def parseTimestampTag
    (parseTimestamp : OtsCursor → Bytes → UInt16 → OtsProofSummary →
      Except OtsFailure (OtsProofSummary × OtsCursor))
    (msg : Bytes) (recursionRemaining : UInt16) (cursor : OtsCursor) (tag : UInt8)
    (summary : OtsProofSummary) : Except OtsFailure (OtsProofSummary × OtsCursor) :=
  if tag = otsTimestampAttestation then parseAttestation varuint cursor msg summary
  else do
    let ((step, result), cursor) ← applyOtsOp varuint cursor tag msg
    -- A plain subtraction: below zero it would panic.
    Except.require .panicked (1 ≤ recursionRemaining)
    parseTimestamp cursor result (recursionRemaining - 1)
      { summary with steps := summary.steps ++ [step] }

/-- The loop of `parse_timestamp` and the branch after it. -/
def parseBranches
    (parseTag : OtsCursor → UInt8 → OtsProofSummary →
      Except OtsFailure (OtsProofSummary × OtsCursor)) :
    (steps : Nat) → OtsCursor → UInt8 → OtsProofSummary →
      Except OtsFailure (OtsProofSummary × OtsCursor)
  | 0, _, _, _ => .error .outOfSteps
  | steps + 1, cursor, tag, summary =>
    if tag = otsTimestampMore then do
      let (next, cursor) ← cursor.readU8
      let (summary, cursor) ← parseTag cursor next summary
      let (tag, cursor) ← cursor.readU8
      parseBranches parseTag steps cursor tag summary
    else parseTag cursor tag summary

/-- `parse_timestamp`, for a number of nested calls and rounds. -/
def parseTimestamp : (steps : Nat) → OtsCursor → Bytes → UInt16 → OtsProofSummary →
    Except OtsFailure (OtsProofSummary × OtsCursor)
  | 0, _, _, _, _ => .error .outOfSteps
  | steps + 1, cursor, msg, recursionRemaining, summary =>
    if recursionRemaining = 0 then .error (invalid "ots-proof-recursion-limit")
    else do
      let (tag, cursor) ← cursor.readU8
      parseBranches
        (parseTimestampTag varuint (parseTimestamp steps) msg recursionRemaining) (steps + 1)
          cursor tag
        summary

/-- `expected_digest_for_ots`; no artifact when the path of the proof does not end in `.ots`. -/
def expectedDigestForOts (artifact : Option ArtifactFile) (expectedDigest : Option Digest) :
    Except OtsFailure (Option Digest) :=
  match expectedDigest, artifact with
  | some expected, _ => .ok (some expected)
  | none, none => .ok none
  | none, some (.found bytes) => .ok (some (sha256Digest bytes))
  | none, some .notFound => .ok none
  | none, some .failed => .error (invalid "ots-artifact-read-failed")

def parseDetachedOtsWith (steps : Nat) (raw : Bytes) (artifact : Option ArtifactFile)
    (expectedDigest : Option Digest) : Except OtsFailure OtsProofSummary := do
  Except.require (.internal .fallback) (otsHeaderMagic.isPrefixOf raw)
  let cursor ← (OtsCursor.new raw).assertMagic otsHeaderMagic
  let (major, cursor) ← varuint cursor
  Except.require (invalid "ots-unsupported-version") (major = otsMajorVersion)
  let (fileHashOp, cursor) ← cursor.readU8
  Except.require (.internal .fallback) (fileHashOp = otsOpSha256)
  let (bytes, cursor) ← cursor.readBytes 32
  let fileDigest ← Except.ofOption (invalid "ots-proof-parse-failed") (Digest.ofBytes? bytes)
  let expected ← expectedDigestForOts artifact expectedDigest
  Except.require (invalid "ots-proof-artifact-hash-mismatch") (expected.all (fileDigest = ·))
  let (summary, cursor) ← parseTimestamp varuint steps cursor fileDigest.bytes otsMaxRecursionDepth
    (.new fileDigest)
  cursor.assertEof
  pure summary

/-- `parse_detached_ots`; a proof of `n` bytes takes fewer than `n + 1` steps. -/
def parseDetachedOts (raw : Bytes) (artifact : Option ArtifactFile)
    (expectedDigest : Option Digest) : Except OtsFailure OtsProofSummary :=
  parseDetachedOtsWith OtsCursor.readVaruint (raw.length + 1) raw artifact expectedDigest

end

/-! ## Staying within the proof -/

/-- What is computed at a cursor returns, and leaves the cursor further on in the same input. -/
def Reads {α : Type} (before input : Bytes) (result : Except OtsFailure (α × OtsCursor)) : Prop :=
  Returns result ∧ ∀ value next, result = .ok (value, next) →
    ∃ part rest, input = part ++ rest ∧ next = cursorAt (before ++ part) rest

/-- Nothing is read for a value at hand. -/
theorem Reads.pure {α : Type} (before input : Bytes) (value : α) :
    Reads before input (.ok (value, cursorAt before input)) := by
  refine ⟨Returns.ok _, fun value' next h => ?_⟩
  cases h
  exact ⟨[], input, rfl, by rw [List.append_nil]⟩

/-- An error of the parser is no panic. -/
theorem Reads.internal {α : Type} (before input : Bytes) (error : OtsInternalError) :
    Reads before input (.error (.internal error) : Except OtsFailure (α × OtsCursor)) := by
  refine ⟨Returns.internal error, fun value next h => ?_⟩
  cases h

/-- A step that reads a part, and then one that reads of the rest. -/
theorem Reads.bind {α β : Type} {before input : Bytes} {result : Except OtsFailure (α × OtsCursor)}
    {f : α × OtsCursor → Except OtsFailure (β × OtsCursor)} (hresult : Reads before input result)
    (hf : ∀ value part rest, input = part ++ rest →
      result = .ok (value, cursorAt (before ++ part) rest) →
        Reads (before ++ part) rest (f (value, cursorAt (before ++ part) rest))) :
    Reads before input (result >>= f) := by
  constructor
  · refine hresult.1.bind fun pair hpair => ?_
    obtain ⟨value, next⟩ := pair
    obtain ⟨part, rest, hinput, rfl⟩ := hresult.2 value next hpair
    exact (hf value part rest hinput hpair).1
  · intro value next h
    rw [Except.bind_eq_ok] at h
    obtain ⟨⟨middle, cursor⟩, hpair, h⟩ := h
    obtain ⟨part, rest, rfl, rfl⟩ := hresult.2 middle cursor hpair
    obtain ⟨more, last, rfl, rfl⟩ := (hf middle part rest rfl hpair).2 value next h
    exact ⟨part ++ more, last, by rw [List.append_assoc], by rw [List.append_assoc]⟩

/-- A step that reads a part, and then one that returns. -/
theorem Reads.bind_returns {α β : Type} {before input : Bytes}
    {result : Except OtsFailure (α × OtsCursor)} {f : α × OtsCursor → Except OtsFailure β}
    (hresult : Reads before input result)
    (hf : ∀ value part rest, input = part ++ rest →
      Returns (f (value, cursorAt (before ++ part) rest))) :
    Returns (result >>= f) := by
  refine hresult.1.bind fun pair hpair => ?_
  obtain ⟨value, next⟩ := pair
  obtain ⟨part, rest, hinput, rfl⟩ := hresult.2 value next hpair
  exact hf value part rest hinput

/-- A step that does not move the cursor. -/
theorem Reads.bind_plain {α β : Type} {before input : Bytes} {result : Except OtsFailure α}
    {f : α → Except OtsFailure (β × OtsCursor)} (hresult : Returns result)
    (hf : ∀ value, result = .ok value → Reads before input (f value)) :
    Reads before input (result >>= f) := by
  constructor
  · exact hresult.bind fun value hvalue => (hf value hvalue).1
  · intro value next h
    rw [Except.bind_eq_ok] at h
    obtain ⟨middle, hmiddle, h⟩ := h
    exact (hf middle hmiddle).2 value next h

/-- Bytes are read off the front. -/
theorem readBytes_reads {before input : Bytes} (hraw : (before ++ input).length < 2 ^ 63)
    (len : Nat) :
    Reads before input ((cursorAt before input).readBytes len) := by
  refine ⟨readBytes_returns len, fun bytes next h => ?_⟩
  obtain ⟨rest, hinput, -, hnext⟩ := (readBytes_eq_ok hraw).mp h
  exact ⟨bytes, rest, hinput, hnext⟩

/-- A byte off the front, and then a step on the rest. -/
theorem Reads.bind_readU8 {β : Type} {before input : Bytes}
    {f : UInt8 × OtsCursor → Except OtsFailure (β × OtsCursor)}
    (hraw : (before ++ input).length < 2 ^ 63)
    (hf : ∀ byte rest, input = byte :: rest →
      Reads (before ++ [byte]) rest (f (byte, cursorAt (before ++ [byte]) rest))) :
    Reads before input ((cursorAt before input).readU8 >>= f) := by
  have hread : Reads before input (cursorAt before input).readU8 := by
    refine ⟨readU8_returns hraw, fun byte next h => ?_⟩
    obtain ⟨rest, hinput, hnext⟩ := (readU8_eq_ok hraw).mp h
    exact ⟨[byte], rest, hinput, hnext⟩
  refine hread.bind fun byte part rest hinput hbyte => ?_
  obtain ⟨rest', hinput', hnext⟩ := (readU8_eq_ok hraw).mp hbyte
  have hsame : part = [byte] ∧ rest = rest' := by
    rw [cursorAt, cursorAt, OtsCursor.mk.injEq, List.length_append, List.length_append] at hnext
    exact List.append_inj (hinput.symm.trans hinput') (Nat.add_left_cancel hnext.2)
  obtain ⟨rfl, rfl⟩ := hsame
  exact hf byte rest hinput'

/-- A number is read off the front. -/
theorem readVaruint_reads {before input : Bytes} (hraw : (before ++ input).length < 2 ^ 63) :
    Reads before input (cursorAt before input).readVaruint := by
  refine ⟨readVaruint_returns hraw, fun read next h => ?_⟩
  obtain ⟨numeral, rest, hinput, -, -, -, hnext⟩ := (readVaruint_eq_ok hraw).mp h
  exact ⟨numeral, rest, hinput, hnext⟩

/-- A length, and as many bytes after it. -/
theorem readVarbytes_eq_ok {before input bytes : Bytes} {maxLen minLen : Nat} {next : OtsCursor}
    (hraw : (before ++ input).length < 2 ^ 63) :
    readVarbytes OtsCursor.readVaruint (cursorAt before input) maxLen minLen = .ok (bytes, next)
      ↔ ∃ numeral rest, input = numeral ++ bytes ++ rest ∧ IsNumeral numeral ∧ numeral.length ≤ 10
        ∧ bytes.length = groupsValue numeral % 2 ^ 64 ∧ minLen ≤ bytes.length
          ∧ bytes.length ≤ maxLen
        ∧ next = cursorAt (before ++ (numeral ++ bytes)) rest := by
  simp only [readVarbytes, Except.bind_eq_ok, Except.require_eq_ok, Bool.and_eq_true,
    decide_eq_true_eq]
  constructor
  · rintro ⟨⟨len, cursor⟩, hlen, -, ⟨hmin, hmax⟩, hread⟩
    obtain ⟨numeral, rest, rfl, hnumeral, hten, hvalue, rfl⟩ := (readVaruint_eq_ok hraw).mp hlen
    rw [← List.append_assoc] at hraw
    obtain ⟨rest, rfl, hlength, rfl⟩ := (readBytes_eq_ok hraw).mp hread
    refine ⟨numeral, rest, by rw [List.append_assoc], hnumeral, hten, by rw [hlength, hvalue],
      by rw [hlength]; exact hmin, by rw [hlength]; exact hmax, by rw [List.append_assoc]⟩
  · rintro ⟨numeral, rest, rfl, hnumeral, hten, hvalue, hmin, hmax, rfl⟩
    have hlen : (UInt64.ofNat bytes.length).toNat = bytes.length := by
      rw [UInt64.toNat_ofNat', hvalue, Nat.mod_mod]
    rw [List.append_assoc] at hraw ⊢
    refine ⟨(UInt64.ofNat bytes.length, cursorAt (before ++ numeral) (bytes ++ rest)), ?_,
      (), ?_, ?_⟩
    · rw [readVaruint_eq_ok hraw]
      exact ⟨numeral, bytes ++ rest, rfl, hnumeral, hten, by rw [hlen, hvalue], rfl⟩
    · rw [hlen]
      exact ⟨hmin, hmax⟩
    · rw [← List.append_assoc] at hraw
      rw [readBytes_eq_ok hraw, hlen, ← List.append_assoc]
      exact ⟨rest, rfl, rfl, rfl⟩

/-- Bytes behind their length are read off the front. -/
theorem readVarbytes_reads {before input : Bytes} (hraw : (before ++ input).length < 2 ^ 63)
    (maxLen minLen : Nat) :
    Reads before input
      (readVarbytes OtsCursor.readVaruint (cursorAt before input) maxLen minLen) := by
  refine (readVaruint_reads hraw).bind fun len part rest hinput _ => ?_
  subst hinput
  refine Reads.bind_plain (Returns.require _ _) fun _ _ => ?_
  rw [← List.append_assoc] at hraw
  exact readBytes_reads hraw _

/-- The magic is passed exactly where it stands in front. -/
theorem assertMagic_eq_ok {before input magic : Bytes} {next : OtsCursor}
    (hraw : (before ++ input).length < 2 ^ 63) :
    (cursorAt before input).assertMagic magic = .ok next
      ↔ ∃ rest, input = magic ++ rest ∧ next = cursorAt (before ++ magic) rest := by
  simp only [OtsCursor.assertMagic, Except.bind_eq_ok, Except.require_eq_ok, decide_eq_true_eq]
  constructor
  · rintro ⟨⟨actual, cursor⟩, hread, -, rfl, h⟩
    cases h
    obtain ⟨rest, rfl, -, rfl⟩ := (readBytes_eq_ok hraw).mp hread
    exact ⟨rest, rfl, rfl⟩
  · rintro ⟨rest, rfl, rfl⟩
    exact ⟨(magic, _), (readBytes_eq_ok hraw).mpr ⟨rest, rfl, rfl, rfl⟩, (), rfl, rfl⟩

/-- Another magic is an error, no panic. -/
theorem assertMagic_returns {before input : Bytes} (magic : Bytes) :
    Returns ((cursorAt before input).assertMagic magic) :=
  (readBytes_returns _).bind fun _ _ => (Returns.require _ _).bind fun _ _ => Returns.ok _

/-- Bytes left over are an error, no panic. -/
theorem assertEof_returns (cursor : OtsCursor) : Returns cursor.assertEof :=
  Returns.require _ _

/-- A missing value is an error, no panic. -/
theorem Returns.ofOption {α : Type} (error : OtsInternalError) (value : Option α) :
    Returns (Except.ofOption (.internal error) value) := by
  cases value with
  | none => exact Returns.internal error
  | some value => exact Returns.ok value

/-- A new cursor stands before all bytes. -/
theorem new_eq_cursorAt (raw : Bytes) : OtsCursor.new raw = cursorAt [] raw := rfl

/-- The URI of a calendar is parsed, or refused, with no panic. -/
theorem parsePendingAttestationUri_returns {payload : Bytes} (h : payload.length < 2 ^ 63) :
    Returns (parsePendingAttestationUri OtsCursor.readVaruint payload) := by
  refine (@readVarbytes_reads [] payload h _ _).1.bind fun result _ => ?_
  refine (assertEof_returns _).bind fun _ _ => ?_
  exact (Returns.require _ _).bind fun _ _ => Returns.ofOption _ _

/-- The height of a block is parsed, or refused, with no panic. -/
theorem parseBitcoinBlockHeaderAttestationHeight_returns {payload : Bytes}
    (h : payload.length < 2 ^ 63) :
    Returns (parseBitcoinBlockHeaderAttestationHeight OtsCursor.readVaruint payload) := by
  refine (@readVaruint_reads [] payload h).1.bind fun result _ => ?_
  exact (assertEof_returns _).bind fun _ _ => Returns.ok _

/-- An attestation is read off the front. -/
theorem parseAttestation_reads {before input : Bytes} (hraw : (before ++ input).length < 2 ^ 63)
    (msg : Bytes) (summary : OtsProofSummary) :
    Reads before input
      (parseAttestation OtsCursor.readVaruint (cursorAt before input) msg summary) := by
  refine (readBytes_reads hraw 8).bind fun tag part rest hinput _ => ?_
  subst hinput
  rw [← List.append_assoc] at hraw
  refine (readVarbytes_reads hraw _ _).bind fun payload part' rest' hinput hpayload => ?_
  subst hinput
  have hlength : payload.length < 2 ^ 63 := by
    obtain ⟨_, _, _, _, _, _, _, hmax, _⟩ := (readVarbytes_eq_ok hraw).mp hpayload
    exact Nat.lt_of_le_of_lt hmax (by decide)
  dsimp only
  split_ifs
  · exact Reads.bind_plain (parsePendingAttestationUri_returns hlength) fun _ _ => Reads.pure _ _ _
  · refine Reads.bind_plain (Returns.require _ _) fun _ _ => ?_
    exact Reads.bind_plain (parseBitcoinBlockHeaderAttestationHeight_returns hlength)
      fun _ _ => Reads.pure _ _ _
  · exact Reads.internal _ _ _

/-- The branches of a fork are read off the front. Induction on the bytes that are left. -/
theorem parseBranches_reads {parseTag : OtsCursor → UInt8 → OtsProofSummary →
      Except OtsFailure (OtsProofSummary × OtsCursor)}
    {steps : Nat} {before input : Bytes} (tag : UInt8) (summary : OtsProofSummary)
    (hraw : (before ++ input).length < 2 ^ 63) (hsteps : input.length < steps)
    (hparse : ∀ part rest tag summary, input = part ++ rest →
      Reads (before ++ part) rest (parseTag (cursorAt (before ++ part) rest) tag summary)) :
    Reads before input (parseBranches parseTag steps (cursorAt before input) tag summary) := by
  induction steps generalizing before input tag summary with
  | zero => omega
  | succ steps ih =>
    rw [parseBranches]
    split_ifs
    · refine Reads.bind_readU8 hraw fun next rest hinput => ?_
      subst hinput
      refine (hparse [next] rest next summary rfl).bind fun summary' part rest' hinput _ => ?_
      subst hinput
      rw [List.append_cons, ← List.append_assoc] at hraw
      refine Reads.bind_readU8 hraw fun tag' rest hinput => ?_
      subst hinput
      rw [List.append_cons] at hraw
      rw [List.length_cons, List.length_append, List.length_cons] at hsteps
      refine ih tag' summary' hraw (by omega) fun more rest' tag summary hinput => ?_
      have hcall := hparse (next :: part ++ tag' :: more) rest' tag summary
        (by simp [hinput])
      simpa using hcall
    · have := hparse [] input tag summary rfl
      rwa [List.append_nil] at this

section

variable [Sha256]

/-- The argument of an operation is read off the front. -/
theorem applyOtsOp_reads {before input : Bytes} (hraw : (before ++ input).length < 2 ^ 63)
    (tag : UInt8) (msg : Bytes) :
    Reads before input (applyOtsOp OtsCursor.readVaruint (cursorAt before input) tag msg) := by
  refine Reads.bind_plain (Returns.require _ _) fun _ _ => ?_
  split_ifs
  · refine (readVarbytes_reads hraw _ _).bind fun suffix part rest _ _ => ?_
    exact Reads.bind_plain (Returns.require _ _) fun _ _ => Reads.pure _ _ _
  · refine (readVarbytes_reads hraw _ _).bind fun front part rest _ _ => ?_
    exact Reads.bind_plain (Returns.require _ _) fun _ _ => Reads.pure _ _ _
  · exact Reads.pure _ _ _
  · exact Reads.internal _ _ _

/-- The calls that are left are counted down from a number above zero. -/
theorem parseTimestampTag_reads {parse : OtsCursor → Bytes → UInt16 → OtsProofSummary →
      Except OtsFailure (OtsProofSummary × OtsCursor)}
    {before input : Bytes} {recursionRemaining : UInt16} (msg : Bytes) (tag : UInt8)
    (summary : OtsProofSummary) (hraw : (before ++ input).length < 2 ^ 63)
    (hleft : recursionRemaining ≠ 0)
    (hparse : ∀ part rest msg summary, input = part ++ rest →
      Reads (before ++ part) rest
        (parse (cursorAt (before ++ part) rest) msg (recursionRemaining - 1) summary)) :
    Reads before input (parseTimestampTag OtsCursor.readVaruint parse msg recursionRemaining
      (cursorAt before input) tag summary) := by
  rw [parseTimestampTag]
  split_ifs
  · exact parseAttestation_reads hraw msg summary
  · refine (applyOtsOp_reads hraw tag msg).bind fun applied part rest hinput _ => ?_
    obtain ⟨step, result⟩ := applied
    have hcall : 1 ≤ recursionRemaining := by
      rw [UInt16.le_iff_toNat_le]
      rw [Ne, ← UInt16.toNat_inj] at hleft
      exact Nat.one_le_iff_ne_zero.mpr hleft
    dsimp only
    rw [decide_eq_true hcall]
    exact hparse part rest result _ hinput

/-- Each nested call has read a byte before it. -/
theorem parseTimestamp_reads {steps : Nat} {before input : Bytes} (msg : Bytes)
    (recursionRemaining : UInt16) (summary : OtsProofSummary)
    (hraw : (before ++ input).length < 2 ^ 63) (hsteps : input.length < steps) :
    Reads before input (parseTimestamp OtsCursor.readVaruint steps (cursorAt before input) msg
      recursionRemaining summary) := by
  induction steps generalizing before input msg recursionRemaining summary with
  | zero => omega
  | succ steps ih =>
    rw [parseTimestamp]
    split_ifs with hleft
    · exact Reads.internal _ _ _
    · refine Reads.bind_readU8 hraw fun tag rest hinput => ?_
      subst hinput
      rw [List.length_cons] at hsteps
      rw [List.append_cons] at hraw
      refine parseBranches_reads tag summary hraw (by omega) fun part rest' tag summary hinput => ?_
      subst hinput
      rw [List.length_append] at hsteps
      rw [← List.append_assoc] at hraw
      refine parseTimestampTag_reads msg tag summary hraw hleft fun more rest msg summary hinput =>
        ?_
      subst hinput
      rw [← List.append_assoc] at hraw
      rw [List.length_append] at hsteps
      exact ih msg _ summary hraw (by omega)

/-- The expected digest is found, or missing, with no panic. -/
theorem expectedDigestForOts_returns (artifact : Option ArtifactFile) (expected : Option Digest) :
    Returns (expectedDigestForOts artifact expected) := by
  rcases expected with _ | expected
  · rcases artifact with _ | bytes | _ | _
    · exact Returns.ok _
    · exact Returns.ok _
    · exact Returns.ok _
    · exact Returns.internal _
  · exact Returns.ok _

/-- On every byte string the parser returns: it does not panic, and it is not cut off. -/
theorem parseDetachedOts_returns {raw : Bytes} (artifact : Option ArtifactFile)
    (expectedDigest : Option Digest) (hraw : raw.length < 2 ^ 63) :
    Returns (parseDetachedOts raw artifact expectedDigest) := by
  unfold parseDetachedOts parseDetachedOtsWith
  refine (Returns.require _ _).bind fun _ _ => ?_
  rw [new_eq_cursorAt]
  refine (assertMagic_returns _).bind fun cursor hmagic => ?_
  obtain ⟨rest, hproof, rfl⟩ := (assertMagic_eq_ok (by simpa using hraw)).mp hmagic
  rw [hproof, ← List.nil_append (_ ++ rest), ← List.append_assoc] at hraw
  refine (readVaruint_reads hraw).bind_returns fun major part rest hinput => ?_
  subst hinput
  refine (Returns.require _ _).bind fun _ _ => ?_
  rw [← List.append_assoc] at hraw
  refine Returns.bind (readU8_returns hraw) fun result hop => ?_
  obtain ⟨fileHashOp, cursor⟩ := result
  obtain ⟨rest, rfl, rfl⟩ := (readU8_eq_ok hraw).mp hop
  refine (Returns.require _ _).bind fun _ _ => ?_
  rw [List.append_cons] at hraw
  refine (readBytes_reads hraw 32).bind_returns fun bytes part rest hinput => ?_
  subst hinput
  refine (Returns.ofOption _ _).bind fun fileDigest _ => ?_
  refine (expectedDigestForOts_returns artifact expectedDigest).bind fun expected _ => ?_
  refine (Returns.require _ _).bind fun _ _ => ?_
  rw [← List.append_assoc] at hraw
  have hsteps : rest.length < raw.length + 1 := by
    rw [hproof]
    simp only [List.length_append, List.length_cons]
    omega
  refine (parseTimestamp_reads _ _ _ hraw hsteps).bind_returns fun summary part rest _ => ?_
  exact (assertEof_returns _).bind fun _ _ => Returns.ok _

end

/-! ## Verification -/

inductive OtsStatus where
  | verified
  | pending
  | failed
  | missing
  | skipped
deriving DecidableEq, Repr

structure OtsVerifyResult where
  ok : Bool
  status : OtsStatus
  reason : String
  bitcoinAttestationHeights : List UInt64
deriving DecidableEq, Repr

def OtsVerifyResult.success (status : OtsStatus) (reason : String) : OtsVerifyResult :=
  ⟨true, status, reason, []⟩

def verifyDetachedOtsProof [Sha256] (raw : Bytes) (artifact : Option ArtifactFile)
    (expectedDigest : Option Digest) : Except OtsFailure OtsVerifyResult := do
  let summary ← parseDetachedOts raw artifact expectedDigest
  if summary.bitcoinHeights ≠ [] then .error (.internal .fallback)
  else if summary.pendingUris ≠ [] then .ok (.success .pending "ots-pending-attestation")
  else .error (.internal .fallback)

end TrackOne.Ots
