import TrackOne.Checker.Decoder
import TrackOne.Vtl.SegmentDecode

/-!
# Records and segments in the independent checker

`tree`, `validate_record` and `validate_segment` of
`toolset/independent-verifier/verify_https_bundle.py`, and their agreement with the ledger.

The checker materialises a value and looks at its type afterwards, the ledger checks types while it
parses and re-encodes at the end. Both end at one deterministic item:

* `validateRecord_eq_ok` and `validateCanonicalRecord_eq_ok` describe the same items, up to the
  checker's limit on their number;
* `validateSegment_ofItem`: a value the checker accepts as a segment is the value of the item the
  ledger writes for a valid record;
* `composeBatchRoots_eq_tree`: the plain tree over the batch roots is the ledger's composition,
  which cuts at the split points of the records.
-/

namespace TrackOne.Checker

open BinaryFloat DetCbor

def profileId : String := "c08ade4e-1785-4eb6-9648-b7003d76288d"

def maxUint64 : Nat := 2 ^ 64 - 1

def maxBatchRecordLimit : Nat := 2 ^ 63

/-! ## Types of values -/

namespace PyValue

/-- The number of a value of type `int`; a `bool` is of another type. -/
def int? : PyValue → Option Int
  | .int n => some n
  | _ => Option.none

def bytes? : PyValue → Option Bytes
  | .bytes b => some b
  | _ => Option.none

def list? : PyValue → Option (List PyValue)
  | .list items => some items
  | _ => Option.none

def dict? : PyValue → Option (List (String × PyValue))
  | .dict entries => some entries
  | _ => Option.none

/-- `value is None`. -/
def isNone : PyValue → Bool
  | .none => true
  | _ => false

end PyValue

def uint64 (value : PyValue) (label : String) (positive : Bool) : CheckResult Nat := do
  let number ← Except.ofOption ⟨label ++ " is not a valid uint64"⟩ value.int?
  Except.require ⟨label ++ " is not a valid uint64"⟩
    ((if positive then 1 else 0) ≤ number ∧ number ≤ maxUint64)
  pure number.toNat

/-- The two places where a number may be `None`: `if value is not None: uint64(value, ...)`. -/
def optionalUint64 (value : PyValue) (label : String) (positive : Bool) : CheckResult Unit :=
  if value.isNone then .ok ()
  else do
    let _ ← uint64 value label positive
    pure ()

/-- `sha256_bytes`; the 32 octets are a digest. -/
def sha256Bytes (value : PyValue) (label : String) : CheckResult Digest :=
  Except.ofOption ⟨label ++ " is not a 32-octet SHA-256 value"⟩ (value.bytes?.bind Digest.ofBytes?)

/-- `fullmatch` of `[0-9a-f]` repeated the given number of times. -/
def hexMatch (length : Nat) (value : String) : Bool :=
  decide (value.toList.length = length)
    && value.toList.all fun c => ('0' ≤ c && c ≤ '9') || ('a' ≤ c && c ≤ 'f')

/-! ## `tree` -/

/-- `int.bit_length`. -/
def bitLength (n : Nat) : Nat := if n = 0 then 0 else Nat.log2 n + 1

/-- The split of `tree`. -/
def splitOf (count : Nat) : Nat := 1 <<< (bitLength (count - 1) - 1)

/-- The checker splits where the split tree does. -/
theorem splitOf_eq_splitPoint {n : Nat} (h : 2 ≤ n) :
    splitOf n = SplitTree.splitPoint n := by
  unfold splitOf bitLength SplitTree.splitPoint
  rw [if_neg (by omega), Nat.add_sub_cancel, Nat.one_shiftLeft]

section Tree

variable [Sha256]

def tree (leaves : List Digest) : Digest :=
  match leaves with
  | [] => sha256Digest []
  | [leaf] => leaf
  | first :: second :: others =>
    let leaves := first :: second :: others
    let split := splitOf leaves.length
    sha256Digest (1 :: ((tree (leaves.take split)).bytes ++ (tree (leaves.drop split)).bytes))
termination_by leaves.length
decreasing_by
  · have hsplit := splitOf_eq_splitPoint (n := (first :: second :: others).length) (by simp)
    have hlt := SplitTree.splitPoint_lt (n := (first :: second :: others).length) (by simp)
    simp only [List.length_take]
    omega
  · have hsplit := splitOf_eq_splitPoint (n := (first :: second :: others).length) (by simp)
    have hpos := SplitTree.splitPoint_pos (first :: second :: others).length
    have hlen : 0 < (first :: second :: others).length := by simp
    simp only [List.length_drop]
    omega

end Tree

/-! ## `validate_record` -/

/-- The levels a member of the record has: the decoder is made with one level more than the limit,
and the members are at depth one. -/
def memberLevels : Nat := maxCborNestingDepth + 1

def notVersionOne : CheckError := ⟨"record opening is not a version-one canonical record"⟩

def validateRecord (data : Bytes) : CheckResult Unit :=
  match data with
  | [] => .error ⟨"truncated CBOR"⟩
  | initial :: data => do
    Except.require notVersionOne (initial >>> 5 = 4)
    let (count, data) ← argument (initial &&& 31) data
    Except.require notVersionOne (count = 7)
    -- the outer array is counted, not materialized
    let (version, items, data) ← item maxCborItems memberLevels true 1 data
    Except.require notVersionOne (version.int? = some 1)
    let (deviceId, items, data) ← item maxCborItems memberLevels true items data
    Except.require ⟨"canonical record device identifier is not eight octets"⟩
      (deviceId.bytes?.map List.length = some 8)
    let (fc, items, data) ← item maxCborItems memberLevels true items data
    let _ ← uint64 fc "canonical record fc" false
    let (ingestTime, items, data) ← item maxCborItems memberLevels true items data
    let _ ← uint64 ingestTime "canonical record ingest_time" false
    let (deviceTime, items, data) ← item maxCborItems memberLevels true items data
    optionalUint64 deviceTime "canonical record device_time" false
    let (kind, items, data) ← item maxCborItems memberLevels true items data
    let _ ← uint64 kind "canonical record kind" false
    let (_, _, data) ← item maxCborItems memberLevels false items data
    Except.require ⟨"trailing CBOR bytes"⟩ (data = [])

/-! ## `validate_segment` -/

/-- `set(value) == names`. -/
def hasFields (fields : List (String × PyValue)) (names : List String) : Bool :=
  (fields.map Prod.fst).all (names.contains ·) && names.all ((fields.map Prod.fst).contains ·)

/-- A member of a dictionary whose field set has been checked. -/
def member (fields : List (String × PyValue)) (name : String) : PyValue :=
  (fields.lookup name).getD .none

def segmentFields : List String :=
  ["version", "commitment_profile_id", "ledger_id", "segment_number", "closure_policy",
    "close_reason", "prev_segment_sha256", "record_count", "batch_roots", "segment_root"]

def policyFields : List String :=
  ["version", "interval_ms", "batch_record_limit", "record_limit", "size_limit_bytes", "empty_mode"]

def closeReasons : List String :=
  ["interval", "reconfigure", "record_limit", "size_limit", "shutdown", "recovery", "manual"]

/-- The checks on `closure_policy`: the batch limit and the mode for empty segments are used
further down. -/
def validatePolicy (value : PyValue) : CheckResult (Nat × String) := do
  let policy ← Except.ofOption ⟨"segment closure_policy field set is invalid"⟩ value.dict?
  Except.require ⟨"segment closure_policy field set is invalid"⟩ (hasFields policy policyFields)
  Except.require ⟨"segment closure_policy version is invalid"⟩
    ((member policy "version").int? = some 1)
  let _ ← uint64 (member policy "interval_ms") "closure_policy.interval_ms" true
  let batchLimit ← uint64 (member policy "batch_record_limit") "closure_policy.batch_record_limit"
    true
  Except.require ⟨"segment batch limit is not a valid power of two"⟩
    (batchLimit ≤ maxBatchRecordLimit ∧ batchLimit &&& (batchLimit - 1) = 0)
  optionalUint64 (member policy "record_limit") "closure_policy.record_limit" true
  optionalUint64 (member policy "size_limit_bytes") "closure_policy.size_limit_bytes" true
  let emptyMode ← Except.ofOption ⟨"segment closure_policy.empty_mode is invalid"⟩
    (member policy "empty_mode").str?
  Except.require ⟨"segment closure_policy.empty_mode is invalid"⟩
    (["emit", "suppress"].contains emptyMode)
  pure (batchLimit, emptyMode)

def validateSegment [Sha256] (segment : PyValue) : CheckResult (Nat × Nat × List Digest) := do
  let fields ← Except.ofOption ⟨"segment artifact field set is invalid"⟩ segment.dict?
  Except.require ⟨"segment artifact field set is invalid"⟩ (hasFields fields segmentFields)
  Except.require ⟨"segment artifact version is invalid"⟩
    ((member fields "version").int? = some 1)
  Except.require ⟨"segment artifact commitment profile is invalid"⟩
    ((member fields "commitment_profile_id").str? = some profileId)
  Except.require ⟨"segment artifact ledger identifier is invalid"⟩
    ((member fields "ledger_id").str?.any (hexMatch 32))
  let number ← uint64 (member fields "segment_number") "segment_number" false
  let prev ← sha256Bytes (member fields "prev_segment_sha256") "prev_segment_sha256"
  let closeReason ← Except.ofOption ⟨"segment close_reason is invalid"⟩
    (member fields "close_reason").str?
  Except.require ⟨"segment close_reason is invalid"⟩ (closeReasons.contains closeReason)
  let (batchLimit, emptyMode) ← validatePolicy (member fields "closure_policy")
  let count ← uint64 (member fields "record_count") "record_count" false
  let roots ← Except.ofOption ⟨"segment batch_roots is not an array"⟩
    (member fields "batch_roots").list?
  let roots ← roots.mapM fun root => sha256Bytes root "batch root"
  let segmentRoot ← sha256Bytes (member fields "segment_root") "segment_root"
  let expectedRoots := if count = 0 then 0 else 1 + (count - 1) / batchLimit
  Except.require ⟨"segment batch-root cardinality is invalid"⟩ (roots.length = expectedRoots)
  Except.require ⟨"empty segment closure policy is invalid"⟩
    (!(count = 0 && emptyMode != "emit" && !(["shutdown", "recovery"].contains closeReason)))
  Except.require ⟨"batch-root composition does not reproduce segment_root"⟩
    (tree roots = segmentRoot)
  Except.require ⟨"epoch predecessor marker is nonzero"⟩ (!(number = 0 && prev ≠ Digest.zero))
  pure (count, batchLimit, roots)

/-! ## The tree -/

section Tree

variable [Sha256]

/-- The checker's tree of two leaves or more is a node over its halves. -/
theorem tree_of_two_le {leaves : List Digest} (h : 2 ≤ leaves.length) :
    tree leaves = nodeHash (tree (leaves.take (SplitTree.splitPoint leaves.length)))
      (tree (leaves.drop (SplitTree.splitPoint leaves.length))) := by
  cases leaves with
  | nil => simp at h
  | cons first others =>
    cases others with
    | nil => simp at h
    | cons second others =>
      rw [tree, splitOf_eq_splitPoint h]
      rfl

/-- The checker's tree is the ledger's. -/
theorem tree_eq_mth (leaves : List Digest) : tree leaves = mth leaves := by
  generalize hn : leaves.length = n
  induction n using Nat.strongRecOn generalizing leaves with
  | _ n ih =>
    by_cases hlen : 2 ≤ leaves.length
    · have hlt := SplitTree.splitPoint_lt hlen
      have hpos := SplitTree.splitPoint_pos leaves.length
      rw [tree_of_two_le hlen, mth, SplitTree.fold_of_two_le _ _ hlen]
      rw [ih _ (by simp; omega) _ rfl, ih _ (by simp; omega) _ rfl]
      rfl
    · cases leaves with
      | nil => rw [tree, mth, SplitTree.fold_nil]
      | cons leaf others =>
        cases others with
        | nil => rw [tree, mth, SplitTree.fold_singleton]
        | cons second others => simp at hlen

/-- For a segment with records the ledger composes the batch roots to their tree. -/
theorem composeBatchRoots_eq_tree {roots : List Digest} {count limit : UInt64}
    (hcount : count ≠ 0) (hlimit : ClosurePolicy.validateBatchRecordLimit limit = .ok ())
    (hlen : roots.length = 1 + (count.toNat - 1) / limit.toNat) :
    composeBatchRoots roots count limit = some (tree roots) := by
  obtain ⟨j, -, hpow⟩ := ClosurePolicy.validateBatchRecordLimit_eq_ok.mp hlimit
  have hpos : 0 < count.toNat := Nat.pos_of_ne_zero fun h => hcount (UInt64.toNat_inj.mp h)
  have hcard : UInt64.ofNat? roots.length = some (1 + (count - 1) / limit) :=
    UInt64.ofNat?_eq_some.mpr (by rw [toNat_expectedRoots hcount, hlen])
  unfold composeBatchRoots
  simp only [hcount, if_false, hlimit, hcard, ne_eq, not_true_eq_false]
  rw [composeBatchRange_eq_compose, tree_eq_mth]
  exact SplitTree.compose_eq_fold (sha256Digest []) nodeHash _ hpow _ roots hpos hlen

end Tree

/-! ## Types of decoded values -/

/-- The checker takes an unsigned item for a number, and where it must be positive no zero. -/
theorem uint64_ofItem {read : Item} {label : String} {positive : Bool} {n : Nat} :
    uint64 (PyValue.ofItem read) label positive = .ok n
      ↔ ∃ w : UInt64, read = .uint w ∧ n = w.toNat ∧ (positive = true → w ≠ 0) := by
  simp only [uint64, Except.bind_eq_ok, Except.ofOption_eq_ok, Except.require_eq_ok,
    decide_eq_true_eq, pure, Except.pure, Except.ok.injEq]
  constructor
  · rintro ⟨number, hnumber, u, ⟨hlow, hhigh⟩, rfl⟩
    have hnonneg : 0 ≤ number := le_trans (by split <;> decide) hlow
    cases read with
    | uint w =>
      cases hnumber
      refine ⟨w, rfl, by simp, ?_⟩
      rintro rfl rfl
      simp at hlow
    | nint w =>
      -- a negative number is an `int`, and out of range
      cases hnumber
      omega
    | bytes | text | array | map | bool | null | float => cases hnumber
  · rintro ⟨w, rfl, rfl, hpositive⟩
    have hlt := w.toNat_lt
    refine ⟨w.toNat, rfl, (), ⟨?_, ?_⟩, by simp⟩
    · cases positive with
      | false => simp
      | true =>
        have hne : w.toNat ≠ 0 := fun h => hpositive rfl (UInt64.toNat_inj.mp h)
        simp only [if_true]
        omega
    · rw [maxUint64]
      omega

/-- Python's `1` is read from the item `1` alone. `True` is another value. -/
theorem int?_ofItem_one {read : Item} :
    (PyValue.ofItem read).int? = some 1 ↔ read = .uint 1 := by
  cases read with
  | uint w =>
    simp only [PyValue.ofItem, PyValue.int?, Option.some.injEq, Item.uint.injEq]
    rw [← UInt64.toNat_inj]
    simp only [UInt64.toNat_one]
    omega
  | nint w =>
    simp only [PyValue.ofItem, PyValue.int?, Option.some.injEq, reduceCtorEq, iff_false]
    omega
  | bytes | text | array | map | bool | null | float => simp [PyValue.ofItem, PyValue.int?]

/-- Bytes are read from a byte item alone. -/
theorem bytes?_ofItem {read : Item} {b : Bytes} :
    (PyValue.ofItem read).bytes? = some b ↔ read = .bytes b := by
  cases read <;> simp [PyValue.ofItem, PyValue.bytes?]

/-- `None` is read from null alone. -/
theorem isNone_ofItem {read : Item} : (PyValue.ofItem read).isNone = true ↔ read = .null := by
  cases read <;> simp [PyValue.ofItem, PyValue.isNone]

/-- The checker takes null or an unsigned item for an optional number. -/
theorem optionalUint64_ofItem {read : Item} {label : String} {positive : Bool} {u : Unit} :
    optionalUint64 (PyValue.ofItem read) label positive = .ok u
      ↔ ∃ limit : Option UInt64, read = deviceTimeItem limit
        ∧ (positive = true → limit ≠ some 0) := by
  unfold optionalUint64
  split_ifs with hnone
  · refine iff_of_true rfl ⟨none, isNone_ofItem.mp hnone, by simp⟩
  · simp only [Except.bind_eq_ok, uint64_ofItem]
    constructor
    · rintro ⟨n, ⟨w, rfl, rfl, hpositive⟩, -⟩
      exact ⟨some w, rfl, by simpa using hpositive⟩
    · rintro ⟨limit, rfl, hpositive⟩
      cases limit with
      | none => exact absurd rfl hnone
      | some w => exact ⟨_, ⟨w, rfl, rfl, by simpa using hpositive⟩, rfl⟩

/-! ## Records -/

/-- A record counts seven items and those of its payload. -/
theorem count_recordItem (m : CanonicalRecordMetadataV1) (payload : Item) :
    (recordItem m payload).count = 7 + payload.count := by
  have htime : (deviceTimeItem m.deviceTime).count = 1 := by cases m.deviceTime <;> rfl
  simp only [recordItem, Item.count, countItems, htime]
  omega

/-- The checker accepts exactly the deterministic encodings of records whose payload is nested at
most 32 levels below its root and that have no more items than the limit. -/
theorem validateRecord_eq_ok {b : Bytes} :
    validateRecord b = .ok ()
      ↔ ∃ (m : CanonicalRecordMetadataV1) (payload : Item), m.version = 1
        ∧ payload.Deterministic maxCborNestingDepth ∧ b = (recordItem m payload).encode
        ∧ (recordItem m payload).count ≤ maxCborItems := by
  have hexact := item_readsExactly maxCborItems memberLevels (by decide)
  constructor
  · intro h
    cases b with
    | nil => cases h
    | cons initial data =>
      -- the checks of the source, in their order, with the place each of them reads
      simp only [validateRecord, Except.bind_eq_ok, Except.require_eq_ok, decide_eq_true_eq,
        Option.map_eq_some_iff] at h
      obtain ⟨u₀, hmajor, ⟨count, rest⟩, hargument, u₁, rfl, ⟨version, items₁, rest₁⟩, hread₁, u₂,
        hversion, ⟨deviceId, items₂, rest₂⟩, hread₂, u₃, ⟨device, hdevice, hlen⟩,
        ⟨fc, items₃, rest₃⟩, hread₃, n₃, hfc, ⟨ingestTime, items₄, rest₄⟩, hread₄, n₄, hingest,
        ⟨deviceTime, items₅, rest₅⟩, hread₅, u₅, htime, ⟨kind, items₆, rest₆⟩, hread₆, n₆, hkind,
        ⟨shown, items₇, rest₇⟩, hread₇, rfl⟩ := h
      -- each read is an item, and its value says which
      obtain ⟨w, hw, hhead⟩ := head_of_argument hmajor hargument
      obtain rfl : w = 7 := UInt64.toNat_inj.mp hw.symm
      obtain ⟨read₁, -, rfl, rfl, -, rfl⟩ := (hexact _ _ _ _ _ _).mp hread₁
      obtain rfl := int?_ofItem_one.mp hversion
      obtain ⟨read₂, -, hrest₁, rfl, -, rfl⟩ := (hexact _ _ _ _ _ _).mp hread₂
      obtain rfl := bytes?_ofItem.mp hdevice
      obtain ⟨read₃, -, hrest₂, rfl, -, rfl⟩ := (hexact _ _ _ _ _ _).mp hread₃
      obtain ⟨fcWord, rfl, rfl, -⟩ := uint64_ofItem.mp hfc
      obtain ⟨read₄, -, hrest₃, rfl, -, rfl⟩ := (hexact _ _ _ _ _ _).mp hread₄
      obtain ⟨ingestWord, rfl, rfl, -⟩ := uint64_ofItem.mp hingest
      obtain ⟨read₅, -, hrest₄, rfl, -, rfl⟩ := (hexact _ _ _ _ _ _).mp hread₅
      obtain ⟨time, rfl, -⟩ := optionalUint64_ofItem.mp htime
      obtain ⟨read₆, -, hrest₅, rfl, -, rfl⟩ := (hexact _ _ _ _ _ _).mp hread₆
      obtain ⟨kindWord, rfl, rfl, -⟩ := uint64_ofItem.mp hkind
      obtain ⟨payload, hpayload, hrest₆, hcount, hle, -⟩ := (hexact _ _ _ _ _ _).mp hread₇
      dsimp only at hrest₁ hrest₂ hrest₃ hrest₄ hrest₅ hrest₆ hcount hle
      refine ⟨⟨1, ⟨device, hlen⟩, fcWord, ingestWord, time, kindWord⟩, payload, rfl, hpayload, ?_,
        ?_⟩
      · rw [encode_recordItem, hhead, hrest₁, hrest₂, hrest₃, hrest₄, hrest₅, hrest₆]
      · have htimeCount : (deviceTimeItem time).count = 1 := by cases time <;> rfl
        simp only [Item.count, htimeCount] at hcount
        rw [count_recordItem]
        omega
  · rintro ⟨m, payload, hversion, hpayload, rfl, hcount⟩
    rw [count_recordItem] at hcount
    have hpos := payload.count_pos
    -- the six members before the payload are one item each
    have hmember : ∀ {read : Item} (items : Nat) (rest : Bytes), WithinLevels memberLevels read →
        read.count = 1 → items + 1 ≤ maxCborItems →
        item maxCborItems memberLevels true items (read.encode ++ rest)
          = .ok (PyValue.ofItem read, items + 1, rest) := by
      intro read items rest hwithin hone hle
      exact (hexact _ _ _ _ _ _).mpr ⟨read, hwithin, rfl, by rw [hone], hle, rfl⟩
    have hdeviceLen : m.deviceId.1.length < 2 ^ 64 := by
      rw [m.deviceId.2]
      decide
    have htimeWithin : WithinLevels memberLevels (deviceTimeItem m.deviceTime) := by
      cases m.deviceTime <;> trivial
    have htimeCount : (deviceTimeItem m.deviceTime).count = 1 := by cases m.deviceTime <;> rfl
    -- the seven members are read one after the other
    rw [encode_recordItem, show DetCbor.head 4 7 = [0x87] from rfl]
    simp only [List.cons_append, List.nil_append, validateRecord, Except.bind_eq_ok,
      Except.require_eq_ok, decide_eq_true_eq]
    refine ⟨(), by decide, (7, _), rfl, (), rfl,
      (_, 2, _), hmember 1 _ trivial rfl (by omega), (), rfl,
      (_, 3, _), hmember 2 _ hdeviceLen rfl (by omega), (), ?_,
      (_, 4, _), hmember 3 _ trivial rfl (by omega), _, uint64_ofItem.mpr ⟨m.fc, rfl, rfl, by simp⟩,
      (_, 5, _), hmember 4 _ trivial rfl (by omega), _,
      uint64_ofItem.mpr ⟨m.ingestTime, rfl, rfl, by simp⟩,
      (_, 6, _), hmember 5 _ htimeWithin htimeCount (by omega), (),
      optionalUint64_ofItem.mpr ⟨m.deviceTime, rfl, by simp⟩,
      (_, 7, _), hmember 6 _ trivial rfl (by omega), _,
      uint64_ofItem.mpr ⟨m.kind, rfl, rfl, by simp⟩,
      (_, 7 + payload.count, []), (hexact _ _ _ _ _ _).mpr
        ⟨payload, hpayload, rfl, rfl, hcount, rfl⟩, rfl⟩
    simp [PyValue.ofItem, PyValue.bytes?, m.deviceId.2]

/-! ## Segments -/

/-- The number of a hexadecimal digit, of a byte or of a character. -/
def HexCode (n : Nat) : Prop := (0x30 ≤ n ∧ n ≤ 0x39) ∨ (0x61 ≤ n ∧ n ≤ 0x66)

/-- The verifier's test of a byte, as a range of codes. -/
theorem hexByte_iff {b : UInt8} :
    ((0x30 ≤ b && b ≤ 0x39) || (0x61 ≤ b && b ≤ 0x66)) = true ↔ HexCode b.toNat := by
  simp [HexCode, UInt8.le_iff_toNat_le]

/-- The checker's test of a character, as a range of codes. -/
theorem hexChar_iff {c : Char} :
    (('0' ≤ c && c ≤ '9') || ('a' ≤ c && c ≤ 'f')) = true ↔ HexCode c.val.toNat := by
  simp [HexCode, Char.le_def, UInt32.le_iff_toNat_le]

/-- The bytes of a character are digits exactly when the character is one, and then there is one:
the first byte of a longer encoding is past the ASCII range. -/
theorem utf8EncodeChar_hex (c : Char) :
    (∀ b ∈ String.utf8EncodeChar c, HexCode b.toNat)
      ↔ HexCode c.val.toNat ∧ (String.utf8EncodeChar c).length = 1 := by
  have hfirst : ∀ n : Nat, 0xc0 ≤ n → n < 256 → ¬ HexCode (UInt8.ofNat n).toNat := by
    intro n hge hlt
    rw [UInt8.toNat_ofNat_of_lt' (by simpa using hlt), HexCode]
    omega
  unfold String.utf8EncodeChar
  dsimp only
  split_ifs with h1 h2 h3
  · simp only [List.mem_singleton, forall_eq, List.length_singleton, and_true]
    rw [UInt8.toNat_ofNat_of_lt' (show c.val.toNat < 256 by omega)]
  · refine iff_of_false (fun hall => ?_) (by simp)
    exact hfirst _ (by omega) (by omega) (hall _ List.mem_cons_self)
  · refine iff_of_false (fun hall => ?_) (by simp)
    exact hfirst _ (by omega) (by omega) (hall _ List.mem_cons_self)
  · refine iff_of_false (fun hall => ?_) (by simp)
    exact hfirst _ (by omega) (by omega) (hall _ List.mem_cons_self)

/-- A hexadecimal digit is one byte. -/
theorem utf8EncodeChar_length_of_hex {c : Char} (h : HexCode c.val.toNat) :
    (String.utf8EncodeChar c).length = 1 := by
  unfold HexCode at h
  unfold String.utf8EncodeChar
  rw [if_pos (show c.val.toNat ≤ 0x7f by omega)]
  rfl

/-- The pattern of the checker and the byte test of the ledger accept the same identifiers. -/
theorem hexMatch_eq_validHex (length : Nat) (value : String) :
    hexMatch length value = validHex value length := by
  have hbytes : utf8Bytes value = value.toList.flatMap String.utf8EncodeChar := by
    conv_lhs => rw [← String.ofList_toList (s := value)]
    exact utf8Bytes_ofList _
  have hlen : ∀ cs : List Char, (∀ c ∈ cs, (String.utf8EncodeChar c).length = 1) →
      (cs.flatMap String.utf8EncodeChar).length = cs.length := by
    intro cs hcs
    induction cs with
    | nil => rfl
    | cons c cs ih =>
      obtain ⟨hc, hcs⟩ := List.forall_mem_cons.mp hcs
      rw [List.flatMap_cons, List.length_append, hc, ih hcs, List.length_cons]
      omega
  rw [Bool.eq_iff_iff]
  simp only [hexMatch, validHex, hbytes, Bool.and_eq_true, decide_eq_true_eq, List.all_eq_true,
    hexByte_iff, hexChar_iff]
  constructor
  · rintro ⟨hcount, hchars⟩
    have hsingle : ∀ c ∈ value.toList, (String.utf8EncodeChar c).length = 1
        ∧ ∀ b ∈ String.utf8EncodeChar c, HexCode b.toNat := by
      intro c hc
      have hone := utf8EncodeChar_length_of_hex (hchars c hc)
      exact ⟨hone, (utf8EncodeChar_hex c).mpr ⟨hchars c hc, hone⟩⟩
    rw [hlen _ fun c hc => (hsingle c hc).1]
    refine ⟨hcount, fun b hb => ?_⟩
    obtain ⟨c, hc, hb⟩ := List.mem_flatMap.mp hb
    exact (hsingle c hc).2 b hb
  · rintro ⟨hcount, hall⟩
    have hchars : ∀ c ∈ value.toList,
        HexCode c.val.toNat ∧ (String.utf8EncodeChar c).length = 1 := by
      intro c hc
      exact (utf8EncodeChar_hex c).mp fun b hb => hall b (List.mem_flatMap.mpr ⟨c, hc, hb⟩)
    rw [hlen _ fun c hc => (hchars c hc).2] at hcount
    exact ⟨hcount, fun c hc => (hchars c hc).1⟩

/-- A map in key order has exactly the given fields when its keys are those, sorted. -/
theorem keys_eq_of_hasFields {entries : List (String × Item)} {names sorted : List String}
    (hentries : (entries.map Prod.fst).Pairwise KeyLt) (hsorted : sorted.Pairwise KeyLt)
    (hnames : sorted.Perm names) :
    hasFields (ofEntries entries) names = true ↔ entries.map Prod.fst = sorted := by
  have hkeys : (ofEntries entries).map Prod.fst = entries.map Prod.fst := by
    simp [ofEntries_eq_map, Function.comp_def]
  have hnodup : ∀ {keys : List String}, keys.Pairwise KeyLt → keys.Nodup := by
    intro keys h
    refine h.imp ?_
    rintro a b hlt rfl
    exact KeyLt.irrefl _ hlt
  simp only [hasFields, hkeys, Bool.and_eq_true, List.all_eq_true, List.contains_iff_mem]
  constructor
  · rintro ⟨hsub, hsup⟩
    refine List.Perm.eq_of_pairwise
      (fun a b _ _ hab hba => absurd (hab.trans hba) (KeyLt.irrefl a)) hentries hsorted ?_
    rw [List.perm_ext_iff_of_nodup (hnodup hentries) (hnodup hsorted)]
    exact fun name => ⟨fun hmem => hnames.mem_iff.mpr (hsub name hmem),
      fun hmem => hsup name (hnames.mem_iff.mp hmem)⟩
  · intro heq
    rw [heq]
    exact ⟨fun name => hnames.mem_iff.mp, fun name => hnames.mem_iff.mpr⟩

/-- A dictionary is read from a map alone. -/
theorem dict?_ofItem {read : Item} {members : List (String × PyValue)} :
    (PyValue.ofItem read).dict? = some members
      ↔ ∃ entries, read = .map entries ∧ members = ofEntries entries := by
  cases read <;> simp [PyValue.ofItem, PyValue.dict?, eq_comm]

/-- A list is read from an array alone. -/
theorem list?_ofItem {read : Item} {values : List PyValue} :
    (PyValue.ofItem read).list? = some values
      ↔ ∃ reads, read = .array reads ∧ values = ofItems reads := by
  cases read <;> simp [PyValue.ofItem, PyValue.list?, eq_comm]

/-- A digest is read from thirty-two bytes alone. -/
theorem sha256Bytes_ofItem {read : Item} {label : String} {digest : Digest} :
    sha256Bytes (PyValue.ofItem read) label = .ok digest ↔ read = .bytes digest.bytes := by
  simp only [sha256Bytes, Except.ofOption_eq_ok, Option.bind_eq_some_iff, bytes?_ofItem]
  constructor
  · rintro ⟨b, rfl, hdigest⟩
    unfold Digest.ofBytes? at hdigest
    split_ifs at hdigest with hlen
    cases hdigest
    rfl
  · rintro rfl
    exact ⟨_, rfl, by simp⟩

/-- Digests are read from an array of digests alone. -/
theorem mapM_sha256Bytes {reads : List Item} {label : String} {digests : List Digest} :
    (ofItems reads).mapM (fun root => sha256Bytes root label) = .ok digests
      ↔ reads = digests.map fun digest => .bytes digest.bytes := by
  induction reads generalizing digests with
  | nil =>
    simp only [ofItems, List.mapM_nil, pure, Except.pure, Except.ok.injEq]
    rw [eq_comm, eq_comm (a := []), List.map_eq_nil_iff]
  | cons read reads ih =>
    simp only [ofItems, List.mapM_cons, Except.bind_eq_ok, sha256Bytes_ofItem, ih, pure,
      Except.pure, Except.ok.injEq]
    constructor
    · rintro ⟨first, rfl, others, rfl, rfl⟩
      rfl
    · intro h
      cases digests with
      | nil => cases h
      | cons first others =>
        simp only [List.map_cons, List.cons.injEq] at h
        exact ⟨first, h.1, others, h.2, rfl⟩

/-- The key sequence the ledger writes for a policy. -/
def policyKeys : List String :=
  ["version", "empty_mode", "interval_ms", "record_limit", "size_limit_bytes", "batch_record_limit"]

/-- The key sequence the ledger writes for a segment. -/
def segmentKeys : List String :=
  ["version", "ledger_id", "batch_roots", "close_reason", "record_count", "segment_root",
    "closure_policy", "segment_number", "prev_segment_sha256", "commitment_profile_id"]

/-- The checker's bit test for a batch limit is the verifier's test for a power of two. -/
theorem batchLimit_iff {limit : UInt64} :
    (limit ≠ 0 ∧ limit.toNat ≤ maxBatchRecordLimit ∧ limit.toNat &&& (limit.toNat - 1) = 0)
      ↔ ClosurePolicy.validateBatchRecordLimit limit = .ok () := by
  rw [ClosurePolicy.validateBatchRecordLimit_eq_ok, maxBatchRecordLimit]
  have hlt := limit.toNat_lt
  constructor
  · rintro ⟨hne, -, hand⟩
    have hne' : limit.toNat ≠ 0 := fun h => hne (UInt64.toNat_inj.mp h)
    obtain ⟨j, hj⟩ := (Nat.and_sub_one_eq_zero_iff_isPowerOfTwo hne').mp hand
    refine ⟨j, ?_, hj⟩
    by_contra hge
    have hle : 2 ^ 64 ≤ 2 ^ j := Nat.pow_le_pow_right (by omega) (by omega)
    omega
  · rintro ⟨j, hj, hpow⟩
    have hpos := Nat.two_pow_pos j
    have hle : 2 ^ j ≤ 2 ^ 63 := Nat.pow_le_pow_right (by omega) (by omega)
    refine ⟨?_, by omega, ?_⟩
    · rintro rfl
      simp at hpow
      omega
    · exact (Nat.and_sub_one_eq_zero_iff_isPowerOfTwo (by omega)).mpr ⟨j, hpow⟩

/-- A value of a deterministic map is deterministic. -/
theorem exists_deterministic_of_mem {n : Nat} {entries : List (String × Item)}
    {entry : String × Item} (h : (Item.map entries).Deterministic n) (hmem : entry ∈ entries) :
    ∃ k, entry.2.Deterministic k := by
  have hwithin := ((children_of_map h).2.2 entry hmem).2
  cases n with
  | zero => exact hwithin.elim
  | succ n => exact ⟨n, hwithin⟩

/-- The keys of a policy, in their deterministic order. -/
theorem hasFields_policyFields {n : Nat} {entries : List (String × Item)}
    (h : (Item.map entries).Deterministic n) :
    hasFields (ofEntries entries) policyFields = true ↔ entries.map Prod.fst = policyKeys :=
  keys_eq_of_hasFields (List.isChain_iff_pairwise.mp (children_of_map h).2.1) (by decide)
    (by decide)

/-- The keys of a segment, in their deterministic order. -/
theorem hasFields_segmentFields {n : Nat} {entries : List (String × Item)}
    (h : (Item.map entries).Deterministic n) :
    hasFields (ofEntries entries) segmentFields = true ↔ entries.map Prod.fst = segmentKeys :=
  keys_eq_of_hasFields (List.isChain_iff_pairwise.mp (children_of_map h).2.1) (by decide)
    (by decide)

/-- The checker knows the modes of the verifier. -/
theorem emptyMode_iff {mode : String} :
    ["emit", "suppress"].contains mode = true ↔ ∃ m : EmptyMode, mode = m.asStr := by
  simp only [List.contains_iff_mem, List.mem_cons, List.not_mem_nil, or_false]
  constructor
  · rintro (rfl | rfl)
    · exact ⟨.emit, rfl⟩
    · exact ⟨.suppress, rfl⟩
  · rintro ⟨m, rfl⟩
    cases m
    · exact .inl rfl
    · exact .inr rfl

/-- An optional limit has the item of an optional number. -/
theorem toItem_optionalValue (limit : Option UInt64) :
    (optionalValue limit).toItem = deviceTimeItem limit := by
  cases limit <;> rfl

/-- The value of a policy is accepted exactly when it is the one the ledger writes for a valid
policy. -/
theorem validatePolicy_ofItem {n : Nat} {read : Item} (hread : read.Deterministic n)
    {batchLimit : Nat} {emptyMode : String} :
    validatePolicy (PyValue.ofItem read) = .ok (batchLimit, emptyMode)
      ↔ ∃ policy : ClosurePolicy, policy.validate = .ok () ∧ read = policy.toValue.toItem
        ∧ batchLimit = policy.batchRecordLimit.toNat ∧ emptyMode = policy.emptyMode.asStr := by
  simp only [validatePolicy, Except.bind_eq_ok, Except.ofOption_eq_ok, Except.require_eq_ok,
    decide_eq_true_eq, dict?_ofItem]
  constructor
  · rintro ⟨members, ⟨entries, rfl, rfl⟩, u₀, hfields, u₁, hversion, interval, hinterval, limit,
      hlimit, u₂, hpower, u₃, hrecord, u₄, hsize, mode, hmode, u₅, hmodes, h⟩
    cases h
    -- the keys are the ones the ledger writes, in its order
    rw [hasFields_policyFields hread] at hfields
    simp only [policyKeys, List.map_eq_cons_iff, List.map_eq_nil_iff] at hfields
    obtain ⟨⟨_, version⟩, _, rfl, rfl, ⟨_, modeItem⟩, _, rfl, rfl, ⟨_, intervalItem⟩, _, rfl, rfl,
      ⟨_, recordItem⟩, _, rfl, rfl, ⟨_, sizeItem⟩, _, rfl, rfl, ⟨_, limitItem⟩, _, rfl, rfl,
      rfl⟩ := hfields
    obtain rfl := int?_ofItem_one.mp hversion
    obtain ⟨intervalMs, rfl, rfl, hintervalPos⟩ := uint64_ofItem.mp hinterval
    obtain ⟨batchRecordLimit, rfl, rfl, hlimitPos⟩ := uint64_ofItem.mp hlimit
    obtain ⟨recordLimit, rfl, hrecordPos⟩ := optionalUint64_ofItem.mp hrecord
    obtain ⟨sizeLimitBytes, rfl, hsizePos⟩ := optionalUint64_ofItem.mp hsize
    obtain rfl := str?_ofItem.mp hmode
    obtain ⟨mode, rfl⟩ := emptyMode_iff.mp hmodes
    refine ⟨⟨intervalMs, batchRecordLimit, recordLimit, sizeLimitBytes, mode⟩, ?_, ?_, rfl, rfl⟩
    · exact ClosurePolicy.validate_eq_ok.mpr ⟨hintervalPos rfl,
        batchLimit_iff.mp ⟨hlimitPos rfl, hpower⟩, hrecordPos rfl, hsizePos rfl⟩
    · simp [ClosurePolicy.toValue, CborValue.toItem, toEntries, toItem_optionalValue]
  · rintro ⟨policy, hvalid, rfl, rfl, rfl⟩
    obtain ⟨hinterval, hlimit, hrecord, hsize⟩ := ClosurePolicy.validate_eq_ok.mp hvalid
    obtain ⟨hlimitPos, hpower⟩ := batchLimit_iff.mpr hlimit
    refine ⟨_, ⟨_, rfl, rfl⟩, (), (hasFields_policyFields hread).mpr rfl, (), rfl,
      _, uint64_ofItem.mpr ⟨policy.intervalMs, rfl, rfl, fun _ => hinterval⟩,
      _, uint64_ofItem.mpr ⟨policy.batchRecordLimit, rfl, rfl, fun _ => hlimitPos⟩, (), hpower,
      (), ?_, (), ?_, _, rfl, (), emptyMode_iff.mpr ⟨policy.emptyMode, rfl⟩, rfl⟩
    · exact optionalUint64_ofItem.mpr
        ⟨policy.recordLimit, toItem_optionalValue _, fun _ => hrecord⟩
    · exact optionalUint64_ofItem.mpr
        ⟨policy.sizeLimitBytes, toItem_optionalValue _, fun _ => hsize⟩

section Segment

variable [Sha256]

/-- The checks on the roots of a segment, in the words of the checker. -/
structure RootsChecked (r : SegmentRecord) : Prop where
  cardinality : r.batchRoots.length
    = if r.recordCount.toNat = 0 then 0
      else 1 + (r.recordCount.toNat - 1) / r.closurePolicy.batchRecordLimit.toNat
  empty : r.recordCount.toNat = 0 →
    r.closurePolicy.emptyMode = .emit ∨ r.closeReason = "shutdown" ∨ r.closeReason = "recovery"
  root : tree r.batchRoots = r.segmentRoot

/-- A valid empty segment was allowed by its mode or by its reason. -/
theorem emptyAllowed_of_validateDetailed {r : SegmentRecord} (h : r.validateDetailed = .ok ())
    (hcount : r.recordCount = 0) :
    r.closurePolicy.emptyMode = .emit ∨ r.closeReason = "shutdown"
      ∨ r.closeReason = "recovery" := by
  simp only [SegmentRecord.validateDetailed] at h
  split_ifs at h with hhex hid hepoch hempty
  simp only [not_or, ne_eq, not_and, not_not] at hempty
  exact or_iff_not_imp_left.mpr fun hmode => or_iff_not_imp_left.mpr (hempty.2.2 hmode)

/-- A record is valid exactly when the checks of the checker pass. -/
theorem validateDetailed_iff_checked {r : SegmentRecord} :
    r.validateDetailed = .ok ()
      ↔ validHex r.ledgerId 32 = true ∧ r.commitmentProfileId = commitmentProfileId
        ∧ r.closurePolicy.validate = .ok () ∧ validCloseReason r.closeReason = true
        ∧ (r.segmentNumber = 0 → r.prevSegmentSha256 = Digest.zero) ∧ RootsChecked r := by
  constructor
  -- from the validation to the conditions of the checker
  · intro h
    obtain ⟨hhex, hprofile, hpolicy, hreason, -⟩ := SegmentRecord.validateDetailed_eq_ok h
    refine ⟨hhex, hprofile, hpolicy, hreason, ?_, ?_⟩
    · intro hzero
      by_contra hne
      simp [SegmentRecord.validateDetailed, hhex, hprofile, hpolicy, hreason, hzero, hne] at h
    · rcases SegmentRecord.roots_of_validateDetailed h with
        ⟨hcount, hroots, hroot⟩ | ⟨hcount, hlen, hcompose⟩
      · refine ⟨by simp [hcount, hroots], fun _ => ?_, ?_⟩
        · exact emptyAllowed_of_validateDetailed h hcount
        · rw [hroots, hroot, tree]
      · have hne : r.recordCount.toNat ≠ 0 := fun h => hcount (UInt64.toNat_inj.mp h)
        refine ⟨by rw [if_neg hne, hlen], fun h => absurd h hne, ?_⟩
        have hlimit := (ClosurePolicy.validate_eq_ok.mp hpolicy).2.1
        rw [composeBatchRoots_eq_tree hcount hlimit hlen] at hcompose
        exact Option.some.inj hcompose
  -- and back: every test of the source passes
  · rintro ⟨hhex, hprofile, hpolicy, hreason, hepoch, hlen, hempty, hroot⟩
    have hepoch' : ¬ (r.segmentNumber = 0 ∧ r.prevSegmentSha256 ≠ Digest.zero) :=
      fun h => h.2 (hepoch h.1)
    unfold SegmentRecord.validateDetailed
    rw [if_neg (by simp [hhex]), if_neg (by simp [hprofile, hpolicy, hreason]), if_neg hepoch']
    by_cases hcount : r.recordCount = 0
    · have hzero : r.recordCount.toNat = 0 := by simp [hcount]
      rw [if_pos hzero, List.length_eq_zero_iff] at hlen
      rw [hlen, tree] at hroot
      have hempty := hempty hzero
      rw [if_pos hcount, if_neg]
      simp only [hlen, ← hroot, ne_eq, not_true_eq_false, false_or, not_and, not_not]
      tauto
    · have hne : r.recordCount.toNat ≠ 0 := fun h => hcount (UInt64.toNat_inj.mp h)
      rw [if_neg hne] at hlen
      have hcard : UInt64.ofNat? r.batchRoots.length
          = some (1 + (r.recordCount - 1) / r.closurePolicy.batchRecordLimit) :=
        UInt64.ofNat?_eq_some.mpr (by rw [toNat_expectedRoots hcount, hlen])
      have hlimit := (ClosurePolicy.validate_eq_ok.mp hpolicy).2.1
      rw [if_neg hcount]
      simp only [hcard, ne_eq, not_true_eq_false, if_false,
        composeBatchRoots_eq_tree hcount hlimit hlen, hroot]

/-- The dictionary the checker builds for a segment. -/
def segmentDict (r : SegmentRecord) : PyValue :=
  .dict [("version", .int 1), ("ledger_id", .str r.ledgerId),
    ("batch_roots", .list (r.batchRoots.map fun root => .bytes root.bytes)),
    ("close_reason", .str r.closeReason), ("record_count", .int r.recordCount.toNat),
    ("segment_root", .bytes r.segmentRoot.bytes),
    ("closure_policy", .dict [("version", .int 1),
      ("empty_mode", .str r.closurePolicy.emptyMode.asStr),
      ("interval_ms", .int r.closurePolicy.intervalMs.toNat),
      ("record_limit", optionalInt r.closurePolicy.recordLimit),
      ("size_limit_bytes", optionalInt r.closurePolicy.sizeLimitBytes),
      ("batch_record_limit", .int r.closurePolicy.batchRecordLimit.toNat)]),
    ("segment_number", .int r.segmentNumber.toNat),
    ("prev_segment_sha256", .bytes r.prevSegmentSha256.bytes),
    ("commitment_profile_id", .str r.commitmentProfileId)]
where
  optionalInt : Option UInt64 → PyValue
    | some limit => .int limit.toNat
    | none => .none

omit [Sha256] in
/-- The value of a record, as the checker sees it. -/
theorem ofItem_toValue (r : SegmentRecord) : PyValue.ofItem r.toValue.toItem = segmentDict r := by
  have hlimit : ∀ limit : Option UInt64,
      PyValue.ofItem (optionalValue limit).toItem = segmentDict.optionalInt limit := by
    intro limit
    cases limit <;> rfl
  have hroots : ofItems (toItems (r.batchRoots.map fun root => CborValue.bytes root.bytes))
      = r.batchRoots.map fun root => PyValue.bytes root.bytes := by
    simp [ofItems_eq_map, toItems_eq_map, Function.comp_def, CborValue.toItem, PyValue.ofItem]
  simp only [SegmentRecord.toValue, ClosurePolicy.toValue, CborValue.toItem, toEntries,
    PyValue.ofItem, ofEntries, hlimit, hroots]
  rfl

/-- What `validate_segment` returns for a segment: its record count, batch limit and roots. -/
def segmentResult (r : SegmentRecord) : Nat × Nat × List Digest :=
  (r.recordCount.toNat, r.closurePolicy.batchRecordLimit.toNat, r.batchRoots)

omit [Sha256] in
/-- The checker knows the close reasons of the verifier. -/
theorem closeReasons_contains (reason : String) :
    closeReasons.contains reason = validCloseReason reason := by
  rw [Bool.eq_iff_iff]
  simp [closeReasons, validCloseReason]

omit [Sha256] in
/-- The checker's test of the first predecessor. -/
theorem epochCheck_iff {number : UInt64} {prev : Digest} :
    (!(decide (number.toNat = 0) && decide (prev ≠ Digest.zero))) = true
      ↔ (number = 0 → prev = Digest.zero) := by
  have hzero : number.toNat = 0 ↔ number = 0 :=
    ⟨fun h => UInt64.toNat_inj.mp h, fun h => by simp [h]⟩
  simp only [hzero, ne_eq, Bool.not_eq_true', Bool.and_eq_false_iff, decide_eq_false_iff_not,
    not_not]
  exact imp_iff_not_or.symm

omit [Sha256] in
/-- The checker's test of an empty segment. -/
theorem emptyCheck_iff {count : Nat} {mode : EmptyMode} {reason : String} :
    (!(decide (count = 0) && mode.asStr != "emit"
        && !(["shutdown", "recovery"].contains reason))) = true
      ↔ (count = 0 → mode = .emit ∨ reason = "shutdown" ∨ reason = "recovery") := by
  have hmode : mode.asStr = "emit" ↔ mode = .emit := by cases mode <;> decide
  have hreason : ["shutdown", "recovery"].contains reason = true
      ↔ reason = "shutdown" ∨ reason = "recovery" := by simp
  rw [← hmode, ← hreason]
  by_cases hcount : count = 0
  · simp [hcount, or_iff_not_imp_left]
  · simp [hcount]

/-- The value of an item is accepted as a segment exactly when the item is the one the ledger
writes for a valid record. -/
theorem validateSegment_ofItem {n : Nat} {read : Item} (hread : read.Deterministic n)
    {result : Nat × Nat × List Digest} :
    validateSegment (PyValue.ofItem read) = .ok result
      ↔ ∃ r : SegmentRecord, r.validateDetailed = .ok () ∧ read = r.toValue.toItem
        ∧ result = segmentResult r := by
  simp only [validateSegment, Except.bind_eq_ok, Except.ofOption_eq_ok, Except.require_eq_ok,
    decide_eq_true_eq, dict?_ofItem]
  constructor
  -- the checks of the source, in their order
  · rintro ⟨members, ⟨entries, rfl, rfl⟩, u₀, hfields, u₁, hversion, u₂, hprofile, u₃, hledger,
      number, hnumber, prev, hprev, reason, hreason, u₄, hreasons, ⟨limit, mode⟩, hpolicy, count,
      hcount, values, hvalues, roots, hroots, segmentRoot, hroot, u₅, hcard, u₆, hempty, u₇,
      htree, u₈, hepoch, h⟩
    cases h
    -- the ten fields, in key order
    rw [hasFields_segmentFields hread] at hfields
    simp only [segmentKeys, List.map_eq_cons_iff, List.map_eq_nil_iff] at hfields
    obtain ⟨⟨_, version⟩, _, rfl, rfl, ⟨_, ledgerItem⟩, _, rfl, rfl, ⟨_, rootsItem⟩, _, rfl, rfl,
      ⟨_, reasonItem⟩, _, rfl, rfl, ⟨_, countItem⟩, _, rfl, rfl, ⟨_, rootItem⟩, _, rfl, rfl,
      ⟨_, policyItem⟩, _, rfl, rfl, ⟨_, numberItem⟩, _, rfl, rfl, ⟨_, prevItem⟩, _, rfl, rfl,
      ⟨_, profileItem⟩, _, rfl, rfl, rfl⟩ := hfields
    -- each field is an item of its kind
    obtain rfl := int?_ofItem_one.mp hversion
    obtain rfl := str?_ofItem.mp hprofile
    obtain ⟨ledgerId, hledgerId, hledgerHex⟩ := (Option.any_eq_true _ _).mp hledger
    obtain rfl := str?_ofItem.mp hledgerId
    obtain ⟨segmentNumber, rfl, rfl, -⟩ := uint64_ofItem.mp hnumber
    obtain rfl := sha256Bytes_ofItem.mp hprev
    obtain rfl := str?_ofItem.mp hreason
    obtain ⟨k, hpolicyRead⟩ : ∃ k, policyItem.Deterministic k :=
      exists_deterministic_of_mem hread
        (List.mem_of_getElem? (i := 6) (a := ("closure_policy", policyItem)) rfl)
    obtain ⟨closurePolicy, hvalidPolicy, rfl, rfl, rfl⟩ :=
      (validatePolicy_ofItem hpolicyRead).mp hpolicy
    obtain ⟨recordCount, rfl, rfl, -⟩ := uint64_ofItem.mp hcount
    obtain ⟨reads, rfl, rfl⟩ := list?_ofItem.mp hvalues
    obtain rfl := mapM_sha256Bytes.mp hroots
    obtain rfl := sha256Bytes_ofItem.mp hroot
    refine ⟨⟨profileId, ledgerId, segmentNumber, closurePolicy, reason, prev, recordCount, roots,
      segmentRoot⟩, ?_, ?_, rfl⟩
    -- the remaining checks are those of a valid segment
    · refine validateDetailed_iff_checked.mpr ⟨?_, rfl, hvalidPolicy, ?_, ?_, hcard, ?_, htree⟩
      · rw [← hexMatch_eq_validHex]
        exact hledgerHex
      · rw [← closeReasons_contains]
        exact hreasons
      · exact epochCheck_iff.mp hepoch
      · exact emptyCheck_iff.mp hempty
    · simp [SegmentRecord.toValue, CborValue.toItem, toEntries, toItems_eq_map, Function.comp_def]
  -- the fields of a valid segment pass them all
  · rintro ⟨r, hvalid, rfl, rfl⟩
    obtain ⟨hhex, hprofile, hpolicy, hreason, hepoch, hcard, hempty, htree⟩ :=
      validateDetailed_iff_checked.mp hvalid
    have hledger : (some r.ledgerId).any (hexMatch 32) = true := by
      rw [Option.any_some, hexMatch_eq_validHex]
      exact hhex
    refine ⟨_, ⟨_, rfl, rfl⟩, (), (hasFields_segmentFields hread).mpr rfl, (), rfl, (),
      congrArg some hprofile, (), hledger,
      _, uint64_ofItem.mpr ⟨r.segmentNumber, rfl, rfl, by simp⟩,
      _, sha256Bytes_ofItem.mpr rfl, _, rfl, (), ?_,
      _, (validatePolicy_ofItem (deterministic_policy r.closurePolicy)).mpr
        ⟨r.closurePolicy, hpolicy, rfl, rfl, rfl⟩,
      _, uint64_ofItem.mpr ⟨r.recordCount, rfl, rfl, by simp⟩, _, list?_ofItem.mpr ⟨_, rfl, rfl⟩,
      r.batchRoots, mapM_sha256Bytes.mpr ?_, _, sha256Bytes_ofItem.mpr rfl, (), hcard, (),
      emptyCheck_iff.mpr hempty, (), htree, (), epochCheck_iff.mpr hepoch, rfl⟩
    · rw [closeReasons_contains]
      exact hreason
    · simp [toItems_eq_map, Function.comp_def, CborValue.toItem]

/-- `CborDecoder(b).decode()` followed by `validate_segment`. -/
def decodeSegment (b : Bytes) : CheckResult (PyValue × Nat × Nat × List Digest) := do
  let segment ← decode b
  let result ← validateSegment segment
  pure (segment, result)

/-- **The segment.** The checker accepts the bytes that the verifier decodes, up to its item guard,
and reads the same record. -/
theorem decodeSegment_eq_ok {b : Bytes} {segment : PyValue} {result : Nat × Nat × List Digest} :
    decodeSegment b = .ok (segment, result)
      ↔ ∃ r : SegmentRecord, decodeSegmentRecord b = .ok r ∧ r.toValue.toItem.count ≤ maxCborItems
        ∧ segment = segmentDict r ∧ result = segmentResult r := by
  simp only [decodeSegment, Except.bind_eq_ok, decode_eq_ok, pure, Except.pure, Except.ok.injEq,
    Prod.mk.injEq, decodeSegmentRecord_eq_ok, SegmentRecord.canonicalCborBytes_eq_ok,
    ← encode_toValue, ← ofItem_toValue]
  constructor
  · rintro ⟨value, ⟨read, hread, rfl, hcount, rfl⟩, found, hsegment, rfl, rfl⟩
    obtain ⟨r, hvalid, rfl, rfl⟩ := (validateSegment_ofItem hread).mp hsegment
    exact ⟨r, ⟨hvalid, rfl⟩, hcount, rfl, rfl⟩
  · rintro ⟨r, ⟨hvalid, rfl⟩, hcount, rfl, rfl⟩
    have hread : r.toValue.toItem.Deterministic maxCborNestingDepth :=
      (deterministic_toValue hvalid).mono (by decide)
    exact ⟨_, ⟨_, hread, rfl, hcount, rfl⟩, _,
      (validateSegment_ofItem hread).mpr ⟨r, hvalid, rfl, rfl⟩, rfl, rfl⟩

/-- **The two programs accept the same artifacts.** On bytes of at most a million items, keys
counted, the checker accepts a record exactly when the ledger does, and a segment exactly when the
ledger decodes it, with the same field values. The tree over the batch roots of a valid segment is
its root, and it is the composition of the roots where the segment has records. Where it has none,
there are no roots, the tree is the hash of the empty string and nothing is composed. -/
theorem artifacts_agree (b : Bytes)
    (hitems : ∀ item : Item, item.encode = b → item.count ≤ maxCborItems) :
    (validateRecord b = .ok () ↔ ∃ m, validateCanonicalRecord b = .ok m)
      ∧ (∀ segment result, decodeSegment b = .ok (segment, result)
          ↔ ∃ r, decodeSegmentRecord b = .ok r ∧ segment = segmentDict r
            ∧ result = segmentResult r)
      ∧ ∀ r : SegmentRecord, r.validateDetailed = .ok () →
          tree r.batchRoots = r.segmentRoot
            ∧ (r.recordCount ≠ 0 →
              composeBatchRoots r.batchRoots r.recordCount r.closurePolicy.batchRecordLimit
                = some (tree r.batchRoots))
            ∧ (r.recordCount = 0 → r.batchRoots = [] ∧ tree r.batchRoots = sha256Digest []
              ∧ composeBatchRoots r.batchRoots r.recordCount r.closurePolicy.batchRecordLimit
                = none) := by
  refine ⟨?_, fun segment result => ?_, fun r hvalid => ?_⟩
  · rw [validateRecord_eq_ok]
    constructor
    · rintro ⟨m, payload, hversion, hpayload, hb, -⟩
      exact ⟨m, validateCanonicalRecord_eq_ok.mpr ⟨hversion, payload, hpayload, hb⟩⟩
    · rintro ⟨m, hvalid⟩
      obtain ⟨hversion, payload, hpayload, hb⟩ := validateCanonicalRecord_eq_ok.mp hvalid
      exact ⟨m, payload, hversion, hpayload, hb, hitems _ hb.symm⟩
  · rw [decodeSegment_eq_ok]
    constructor
    · rintro ⟨r, hdecode, -, hsegment, hresult⟩
      exact ⟨r, hdecode, hsegment, hresult⟩
    · rintro ⟨r, hdecode, hsegment, hresult⟩
      have hbody := (SegmentRecord.canonicalCborBytes_eq_ok.mp
        (decodeSegmentRecord_eq_ok.mp hdecode)).2
      rw [← encode_toValue] at hbody
      exact ⟨r, hdecode, hitems _ hbody, hsegment, hresult⟩
  · obtain ⟨-, -, -, -, -, hchecked⟩ := validateDetailed_iff_checked.mp hvalid
    refine ⟨hchecked.root, fun hcount => ?_, fun hzero => ?_⟩
    · rcases SegmentRecord.roots_of_validateDetailed hvalid with ⟨hzero, -⟩ | ⟨-, -, hcompose⟩
      · exact absurd hzero hcount
      · rw [hcompose, hchecked.root]
    · rcases SegmentRecord.roots_of_validateDetailed hvalid with ⟨-, hroots, -⟩ | ⟨hcount, -⟩
      · rw [hzero, hroots]
        exact ⟨rfl, by rw [tree], rfl⟩
      · exact absurd hzero hcount

omit [Sha256] in
/-- The empty record of a first segment: the checker takes its tree, which is the hash of the empty
string, and the ledger composes nothing. -/
theorem composeBatchRoots_empty :
    letI := Sha256.fips
    let r := SegmentRecord.atPosition ⟨"b7a1d5e40c6f438e9a75db27c96f31aa", 0, Digest.zero⟩
      { intervalMs := 100, batchRecordLimit := 2, recordLimit := none, sizeLimitBytes := none
        emptyMode := .emit } "interval" 0 [] (sha256Digest [])
    r.validateDetailed = .ok ()
      ∧ composeBatchRoots r.batchRoots r.recordCount r.closurePolicy.batchRecordLimit = none
      ∧ composeBatchRoots r.batchRoots r.recordCount r.closurePolicy.batchRecordLimit
        ≠ some (tree r.batchRoots) := by
  let := Sha256.fips
  refine ⟨by decide +kernel, rfl, ?_⟩
  rw [show composeBatchRoots _ _ _ = none from rfl]
  exact Option.some_ne_none _ |>.symm

omit [Sha256] in
/-- Three records of a first segment in batches of two. -/
def sampleArtifact : SegmentRecord :=
  letI := Sha256.fips
  let roots := [sha256Digest [0], sha256Digest [1]]
  SegmentRecord.atPosition ⟨"b7a1d5e40c6f438e9a75db27c96f31aa", 0, Digest.zero⟩
    { intervalMs := 100, batchRecordLimit := 2, recordLimit := none, sizeLimitBytes := none
      emptyMode := .suppress } "manual" 3 roots (tree roots)

omit [Sha256] in
/-- An encoding of a million bytes or less has as few items. -/
theorem count_le_of_encode {b : Bytes} (hb : b.length ≤ maxCborItems) (item : Item)
    (hencode : item.encode = b) : item.count ≤ maxCborItems := by
  have hle := item.count_le_length
  rw [hencode] at hle
  exact Nat.le_trans hle hb

omit [Sha256] in
/-- The smallest record, eleven bytes of metadata around a null payload; and a segment of two
batches, whose roots are composed. -/
theorem artifacts_agree_sample :
    letI := Sha256.fips
    let record : Bytes := [0x87, 0x01, 0x48, 1, 2, 3, 4, 5, 6, 7, 8, 0x00, 0x00, 0xf6, 0x00, 0xf6]
    let segment := sampleArtifact.cborBody
    (validateRecord record = .ok () ∧ ∃ m, validateCanonicalRecord record = .ok m)
      ∧ decodeSegment segment = .ok (segmentDict sampleArtifact, segmentResult sampleArtifact)
      ∧ decodeSegmentRecord segment = .ok sampleArtifact
      ∧ composeBatchRoots sampleArtifact.batchRoots 3 2
        = some (tree sampleArtifact.batchRoots) := by
  let := Sha256.fips
  intro record segment
  obtain ⟨hrecord, -⟩ := artifacts_agree record (count_le_of_encode (by decide))
  have hchecked : validateRecord record = .ok () := by decide +kernel
  refine ⟨⟨hchecked, hrecord.mp hchecked⟩, ?_⟩
  obtain ⟨-, hsegment, hroots⟩ := artifacts_agree segment
    (count_le_of_encode (by decide +kernel))
  have hvalid : sampleArtifact.validateDetailed = .ok () := by decide +kernel
  have hdecode : decodeSegmentRecord segment = .ok sampleArtifact :=
    decodeSegmentRecord_eq_ok.mpr
      (SegmentRecord.canonicalCborBytes_eq_ok.mpr ⟨hvalid, rfl⟩)
  exact ⟨(hsegment _ _).mpr ⟨_, hdecode, rfl, rfl⟩, hdecode,
    (hroots _ hvalid).2.1 (by decide)⟩

end Segment

end TrackOne.Checker
