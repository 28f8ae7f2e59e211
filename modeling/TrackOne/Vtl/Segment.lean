import TrackOne.Vtl.Cbor
import TrackOne.Vtl.Merkle

/-!
# Segment records

`SegmentRecord` of `trackone-ledger/src/vtl.rs`: the authoritative artifact of a closed interval,
the cross-field invariants a decoded or constructed record must meet, and its canonical bytes.

`canonicalCborBytes` writes the fixed key sequence of the source. `canonicalCborBytes_eq_ok` says
what the decoder below needs to know of it: a valid record is written as the deterministic item
`SegmentRecord.toValue` stands for, and nothing else is.
-/

namespace TrackOne

open DetCbor

def commitmentProfileId : String := "c08ade4e-1785-4eb6-9648-b7003d76288d"

structure SegmentRecord where
  commitmentProfileId : String
  ledgerId : String
  segmentNumber : UInt64
  closurePolicy : ClosurePolicy
  closeReason : String
  prevSegmentSha256 : Digest
  recordCount : UInt64
  batchRoots : List Digest
  segmentRoot : Digest
deriving DecidableEq

inductive SegmentInvariantError where
  | segmentHexField
  | segmentIdentityOrClosurePolicy
  | epochPredecessorNotZero
  | emptySegment
  | batchRootCardinality
  | segmentRootMismatch
deriving DecidableEq, Repr

namespace SegmentInvariantError

/-- `impl Display for SegmentInvariantError`. -/
def toString : SegmentInvariantError → String
  | segmentHexField => "segment hex field is invalid"
  | segmentIdentityOrClosurePolicy => "segment identity or closure policy is invalid"
  | epochPredecessorNotZero => "epoch segment must use zero predecessor"
  | emptySegment => "empty segment is invalid"
  | batchRootCardinality => "batch root cardinality is invalid"
  | segmentRootMismatch => "segment root does not match composed batch roots"

end SegmentInvariantError

def validCloseReason (value : String) : Bool :=
  value ∈ ["interval", "reconfigure", "record_limit", "size_limit", "shutdown", "recovery",
    "manual"]

/-! ## Items of the segment schema -/

def cborText (value : String) : Bytes :=
  putHead 3 (UInt64.ofNat (utf8Bytes value).length) ++ utf8Bytes value

def cborUint (value : UInt64) : Bytes := putHead 0 value

def cborBytes (value : Bytes) : Bytes := putHead 2 (UInt64.ofNat value.length) ++ value

def cborNull : Bytes := [0xf6]

def cborMap (len : UInt64) (body : Bytes) : Bytes := putHead 5 len ++ body

def cborArray (len : UInt64) (body : Bytes) : Bytes := putHead 4 len ++ body

def key (name : String) : Bytes := cborText name

/-- An optional limit: the number, or null. -/
def cborOptionalUint : Option UInt64 → Bytes
  | some v => cborUint v
  | none => cborNull

def encodePolicy (policy : ClosurePolicy) : Bytes :=
  cborMap 6
    (key "version" ++ cborUint 1
      ++ (key "empty_mode" ++ cborText policy.emptyMode.asStr)
      ++ (key "interval_ms" ++ cborUint policy.intervalMs)
      ++ (key "record_limit" ++ cborOptionalUint policy.recordLimit)
      ++ (key "size_limit_bytes" ++ cborOptionalUint policy.sizeLimitBytes)
      ++ (key "batch_record_limit" ++ cborUint policy.batchRecordLimit))

namespace SegmentRecord

section Validate

variable [Sha256]

def validateDetailed (r : SegmentRecord) : Except SegmentInvariantError Unit :=
  if ¬ validHex r.ledgerId 32 then .error .segmentHexField
  else if r.commitmentProfileId ≠ TrackOne.commitmentProfileId
      ∨ r.closurePolicy.validate ≠ .ok () ∨ ¬ validCloseReason r.closeReason then
    .error .segmentIdentityOrClosurePolicy
  else if r.segmentNumber = 0 ∧ r.prevSegmentSha256 ≠ Digest.zero then
    .error .epochPredecessorNotZero
  else if r.recordCount = 0 then
    if r.batchRoots ≠ [] ∨ r.segmentRoot ≠ sha256Digest []
        ∨ (r.closurePolicy.emptyMode ≠ .emit
          ∧ ¬ (r.closeReason = "shutdown" ∨ r.closeReason = "recovery")) then
      .error .emptySegment
    else .ok ()
  else
    let expectedRoots := 1 + (r.recordCount - 1) / r.closurePolicy.batchRecordLimit
    if UInt64.ofNat? r.batchRoots.length ≠ some expectedRoots then .error .batchRootCardinality
    else if composeBatchRoots r.batchRoots r.recordCount r.closurePolicy.batchRecordLimit
        ≠ some r.segmentRoot then
      .error .segmentRootMismatch
    else .ok ()

def validate (r : SegmentRecord) : Except String Unit :=
  r.validateDetailed.mapError SegmentInvariantError.toString

/-- The bytes `canonical_cbor_bytes` writes after validation. -/
def cborBody (r : SegmentRecord) : Bytes :=
  cborMap 10
    (key "version" ++ cborUint 1
      ++ (key "ledger_id" ++ cborText r.ledgerId)
      ++ (key "batch_roots"
        ++ cborArray (UInt64.ofNat r.batchRoots.length)
          (r.batchRoots.flatMap fun root => cborBytes root.bytes))
      ++ (key "close_reason" ++ cborText r.closeReason)
      ++ (key "record_count" ++ cborUint r.recordCount)
      ++ (key "segment_root" ++ cborBytes r.segmentRoot.bytes)
      ++ (key "closure_policy" ++ encodePolicy r.closurePolicy)
      ++ (key "segment_number" ++ cborUint r.segmentNumber)
      ++ (key "prev_segment_sha256" ++ cborBytes r.prevSegmentSha256.bytes)
      ++ (key "commitment_profile_id" ++ cborText r.commitmentProfileId))

def canonicalCborBytes (r : SegmentRecord) : Except String Bytes := do
  r.validate
  pure r.cborBody

theorem canonicalCborBytes_eq_ok {r : SegmentRecord} {b : Bytes} :
    r.canonicalCborBytes = .ok b ↔ r.validateDetailed = .ok () ∧ r.cborBody = b := by
  unfold canonicalCborBytes validate
  simp only [Except.bind_eq_ok, Except.mapError_eq_ok]
  constructor
  · rintro ⟨u, hvalid, h⟩
    exact ⟨hvalid, Except.ok.inj h⟩
  · rintro ⟨hvalid, rfl⟩
    exact ⟨(), hvalid, rfl⟩

/-- What a valid record promises: an exact ledger id and profile, a valid policy, and a number of
batch roots that is one machine word. -/
theorem validateDetailed_eq_ok {r : SegmentRecord} (h : r.validateDetailed = .ok ()) :
    validHex r.ledgerId 32 ∧ r.commitmentProfileId = TrackOne.commitmentProfileId
      ∧ r.closurePolicy.validate = .ok () ∧ validCloseReason r.closeReason
      ∧ r.batchRoots.length < 2 ^ 64 := by
  simp only [validateDetailed] at h
  split_ifs at h with hhex hid hepoch hcount hempty hroots hcompose
  · simp only [not_or, not_not, ne_eq, not_and] at hid hempty hhex
    refine ⟨hhex, hid.1, hid.2.1, hid.2.2, ?_⟩
    simp [hempty.1]
  · simp only [not_or, not_not, ne_eq] at hid hroots hhex
    refine ⟨hhex, hid.1, hid.2.1, hid.2.2, ?_⟩
    rw [← UInt64.ofNat?_eq_some.mp hroots]
    exact UInt64.toNat_lt _

/-- What a valid record promises about its roots. -/
theorem roots_of_validateDetailed {r : SegmentRecord} (h : r.validateDetailed = .ok ()) :
    (r.recordCount = 0 ∧ r.batchRoots = [] ∧ r.segmentRoot = sha256Digest [])
      ∨ (r.recordCount ≠ 0
        ∧ r.batchRoots.length
          = 1 + (r.recordCount.toNat - 1) / r.closurePolicy.batchRecordLimit.toNat
        ∧ composeBatchRoots r.batchRoots r.recordCount r.closurePolicy.batchRecordLimit
          = some r.segmentRoot) := by
  simp only [validateDetailed] at h
  split_ifs at h with hhex hid hepoch hcount hempty hroots hcompose
  · simp only [not_or, not_not, ne_eq, not_and] at hempty
    exact .inl ⟨hcount, hempty.1, hempty.2.1⟩
  · rw [ne_eq, not_not] at hroots hcompose
    refine .inr ⟨hcount, ?_, hcompose⟩
    rw [← toNat_expectedRoots hcount, UInt64.ofNat?_eq_some.mp hroots]

end Validate

end SegmentRecord

end TrackOne
