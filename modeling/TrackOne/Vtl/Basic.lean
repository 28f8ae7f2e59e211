import TrackOne.Lib.Words
import TrackOne.Lib.Sha256
import Mathlib.Data.List.Sort

/-!
# Digests and closure policies

The data both ends of the ledger share (`trackone-ledger/src/lib.rs` and the head of
`trackone-ledger/src/vtl.rs`): 32-byte digests with their lexicographic order, the SHA-256
function as a parameter of the whole development, the lexical checks on text, and the closure policy
with its validation.
-/

namespace TrackOne

/-! ## Digests -/

/-- A `[u8; 32]`: a digest or a Merkle root. -/
structure Digest where
  bytes : Bytes
  length_eq : bytes.length = 32
deriving DecidableEq

namespace Digest

@[ext] theorem ext {a b : Digest} (h : a.bytes = b.bytes) : a = b := by
  cases a; cases b; cases h; rfl

/-- `value.try_into()` of a byte vector into a `[u8; 32]`. -/
def ofBytes? (bytes : Bytes) : Option Digest :=
  if h : bytes.length = 32 then some ⟨bytes, h⟩ else none

@[simp] theorem ofBytes?_bytes (d : Digest) : ofBytes? d.bytes = some d := by
  simp [ofBytes?, d.length_eq]

/-- `ZERO_SHA256`. -/
def zero : Digest := ⟨List.replicate 32 0, by simp⟩

/-- The comparison `sort_unstable` uses on `[u8; 32]`: lexicographic on the bytes. -/
def ble (a b : Digest) : Bool := decide (a.bytes ≤ b.bytes)

theorem ble_trans (a b c : Digest) (hab : a.ble b) (hbc : b.ble c) : a.ble c := by
  simp only [ble, decide_eq_true_eq] at *
  exact List.le_trans hab hbc

theorem ble_total (a b : Digest) : (a.ble b || b.ble a) = true := by
  simp only [ble, Bool.or_eq_true, decide_eq_true_eq]
  exact List.le_total a.bytes b.bytes

theorem ble_antisymm {a b : Digest} (hab : a.ble b) (hba : b.ble a) : a = b := by
  simp only [ble, decide_eq_true_eq] at *
  exact Digest.ext (List.le_antisymm hab hba)

end Digest

/-! ## SHA-256 -/

/-- The SHA-256 function. Every result below holds for an arbitrary one; the statements that
speak of binding name the collision explicitly. -/
class Sha256 where
  digest : Bytes → Digest

/-- The standard's own function, for evaluation on concrete inputs. -/
@[reducible] def Sha256.fips : Sha256 :=
  ⟨fun data => ⟨Fips180.sha256 data, Fips180.length_sha256 data⟩⟩

def sha256Digest [Sha256] (data : Bytes) : Digest := Sha256.digest data

/-- One digit of `hex_lower`. -/
def hexDigit (n : UInt8) : Char :=
  if n < 10 then Char.ofNat ('0'.toNat + n.toNat) else Char.ofNat ('a'.toNat + (n.toNat - 10))

def hexLower (bytes : Bytes) : String :=
  String.ofList (bytes.flatMap fun (b : UInt8) => [hexDigit (b >>> 4), hexDigit (b &&& 0x0f)])

def sha256Hex [Sha256] (data : Bytes) : String := hexLower (sha256Digest data).bytes

/-- The digit of a hexadecimal character. -/
def unhexDigit (c : Char) : Nat :=
  if c.toNat < 'a'.toNat then c.toNat - '0'.toNat else c.toNat - 'a'.toNat + 10

theorem unhexDigit_hexDigit {n : UInt8} (h : n < 16) : unhexDigit (hexDigit n) = n.toNat := by
  have hall : ∀ k : Fin 16, unhexDigit (hexDigit (UInt8.ofNat k)) = k := by decide
  have hlt : n.toNat < 16 := UInt8.lt_iff_toNat_lt.mp h
  simpa using hall ⟨n.toNat, hlt⟩

/-- Both digits of a byte determine it. -/
theorem byte_of_digits (b : UInt8) :
    b.toNat = 16 * unhexDigit (hexDigit (b >>> 4)) + unhexDigit (hexDigit (b &&& 0x0f)) := by
  have hhigh : (b >>> 4).toNat = b.toNat / 16 := by
    rw [UInt8.toNat_shiftRight]
    exact Nat.shiftRight_eq_div_pow b.toNat 4
  have hlow : (b &&& 0x0f).toNat = b.toNat % 16 := by
    rw [UInt8.toNat_and]
    exact Nat.and_two_pow_sub_one_eq_mod b.toNat 4
  have hb := b.toNat_lt
  rw [unhexDigit_hexDigit (UInt8.lt_iff_toNat_lt.mpr (by rw [hhigh]; show _ < 16; omega)),
    unhexDigit_hexDigit (UInt8.lt_iff_toNat_lt.mpr (by rw [hlow]; show _ < 16; omega)), hhigh, hlow]
  omega

theorem hexLower_injective : Function.Injective hexLower := by
  intro a b h
  have hchars := String.ofList_injective h
  clear h
  induction a generalizing b with
  | nil =>
    cases b with
    | nil => rfl
    | cons y b => simp at hchars
  | cons x a ih =>
    cases b with
    | nil => simp at hchars
    | cons y b =>
      simp only [List.flatMap_cons, List.cons_append, List.nil_append, List.cons.injEq] at hchars
      obtain ⟨hhigh, hlow, hrest⟩ := hchars
      have hxy : x = y := by
        apply UInt8.toNat_inj.mp
        rw [byte_of_digits x, byte_of_digits y, hhigh, hlow]
      rw [hxy, ih hrest]

theorem sha256Hex_inj [Sha256] {a b : Bytes} :
    sha256Hex a = sha256Hex b ↔ sha256Digest a = sha256Digest b := by
  constructor
  · intro h
    exact Digest.ext (hexLower_injective h)
  · intro h
    rw [sha256Hex, sha256Hex, h]

/-! ## Lexical checks -/

/-- `valid_hex`: exactly `len` bytes, all of them lowercase hexadecimal digits. -/
def validHex (value : String) (len : Nat) : Bool :=
  decide ((utf8Bytes value).length = len)
    && (utf8Bytes value).all fun b => (0x30 ≤ b && b ≤ 0x39) || (0x61 ≤ b && b ≤ 0x66)

/-- A digit of `hex_lower` is one byte that `valid_hex` accepts. -/
theorem utf8EncodeChar_hexDigit {n : UInt8} (h : n < 16) :
    ∃ byte : UInt8, String.utf8EncodeChar (hexDigit n) = [byte]
      ∧ ((0x30 ≤ byte && byte ≤ 0x39) || (0x61 ≤ byte && byte ≤ 0x66)) = true := by
  have hall : ∀ k : Fin 16, ∃ byte : UInt8,
      String.utf8EncodeChar (hexDigit (UInt8.ofNat k)) = [byte]
        ∧ ((0x30 ≤ byte && byte ≤ 0x39) || (0x61 ≤ byte && byte ≤ 0x66)) = true := by
    intro k
    refine ⟨(String.utf8EncodeChar (hexDigit (UInt8.ofNat k))).head!, ?_⟩
    revert k
    decide
  have hlt : n.toNat < 16 := UInt8.lt_iff_toNat_lt.mp h
  simpa using hall ⟨n.toNat, hlt⟩

theorem hexDigits_lt (b : UInt8) : b >>> 4 < 16 ∧ b &&& 0x0f < 16 := by
  have hall : ∀ k < 256, UInt8.ofNat k >>> 4 < 16 ∧ UInt8.ofNat k &&& 0x0f < 16 := by
    decide +kernel
  simpa using hall b.toNat b.toNat_lt

/-- What `hex_lower` writes is valid. -/
theorem validHex_hexLower (bytes : Bytes) :
    validHex (hexLower bytes) (2 * bytes.length) = true := by
  rw [validHex, hexLower, utf8Bytes_ofList, List.flatMap_assoc, Bool.and_eq_true,
    decide_eq_true_eq]
  induction bytes with
  | nil => exact ⟨rfl, rfl⟩
  | cons b bytes ih =>
    obtain ⟨hhigh, hlow⟩ := hexDigits_lt b
    obtain ⟨high, hhigh, hhighValid⟩ := utf8EncodeChar_hexDigit hhigh
    obtain ⟨low, hlow, hlowValid⟩ := utf8EncodeChar_hexDigit hlow
    rw [List.flatMap_cons, List.flatMap_cons, List.flatMap_cons, List.flatMap_nil, hhigh, hlow,
      List.append_nil]
    constructor
    · simp only [List.length_append, List.length_cons, List.length_nil, ih.1]
      omega
    · rw [List.all_append, ih.2, Bool.and_true]
      simp only [List.cons_append, List.nil_append, List.all_cons, List.all_nil, hhighValid,
        hlowValid, Bool.and_true]

theorem validHex_sha256Hex [Sha256] (data : Bytes) : validHex (sha256Hex data) 64 = true := by
  have h := validHex_hexLower (sha256Digest data).bytes
  rwa [(sha256Digest data).length_eq] at h

/-- `char::is_control`: the Unicode category `Cc`. -/
def isControl (c : Char) : Bool :=
  decide (c.toNat ≤ 0x1f) || (decide (0x7f ≤ c.toNat) && decide (c.toNat ≤ 0x9f))

/-! ## Closure policies -/

/-- `EmptyMode`: whether an empty interval consumes a segment. -/
inductive EmptyMode where
  | emit
  | suppress
deriving DecidableEq, Repr

namespace EmptyMode

def asStr : EmptyMode → String
  | emit => "emit"
  | suppress => "suppress"

end EmptyMode

structure ClosurePolicy where
  intervalMs : UInt64
  batchRecordLimit : UInt64
  recordLimit : Option UInt64
  sizeLimitBytes : Option UInt64
  emptyMode : EmptyMode
deriving DecidableEq, Repr

inductive ClosurePolicyError where
  | interval
  | batchRecordLimit
  | recordLimit
  | sizeLimitBytes
deriving DecidableEq, Repr

namespace ClosurePolicyError

def asStr : ClosurePolicyError → String
  | interval => "interval_ms must be positive"
  | batchRecordLimit => "batch_record_limit must be a power of two no greater than 2^63"
  | recordLimit => "record_limit must be positive"
  | sizeLimitBytes => "size_limit_bytes must be positive"

end ClosurePolicyError

namespace ClosurePolicy

def isPowerOfTwo (n : UInt64) : Bool := decide (n.toNat = 2 ^ Nat.log2 n.toNat)

def maxBatchRecordLimit : UInt64 := (1 : UInt64) <<< (63 : UInt64)

def validateBatchRecordLimit (limit : UInt64) : Except ClosurePolicyError Unit :=
  if limit = 0 ∨ limit > maxBatchRecordLimit ∨ ¬ isPowerOfTwo limit then
    .error .batchRecordLimit
  else .ok ()

def validate (policy : ClosurePolicy) : Except ClosurePolicyError Unit := do
  if policy.intervalMs = 0 then
    throw .interval
  validateBatchRecordLimit policy.batchRecordLimit
  if policy.recordLimit = some 0 then
    throw .recordLimit
  if policy.sizeLimitBytes = some 0 then
    throw .sizeLimitBytes

/-- An accepted batch limit is a power of two with an exponent below 64. -/
theorem validateBatchRecordLimit_eq_ok {limit : UInt64} :
    validateBatchRecordLimit limit = .ok () ↔ ∃ j, j < 64 ∧ limit.toNat = 2 ^ j := by
  unfold validateBatchRecordLimit isPowerOfTwo
  have hlt := limit.toNat_lt
  constructor
  · intro h
    split at h
    · cases h
    · next hc =>
      simp only [not_or, decide_eq_true_eq, not_not] at hc
      refine ⟨Nat.log2 limit.toNat, ?_, hc.2.2⟩
      by_contra hge
      have hle : 2 ^ 64 ≤ 2 ^ Nat.log2 limit.toNat := Nat.pow_le_pow_right (by omega) (by omega)
      omega
  · rintro ⟨j, hj, hlimit⟩
    have hmax : maxBatchRecordLimit.toNat = 2 ^ 63 := by decide
    have hle : 2 ^ j ≤ 2 ^ 63 := Nat.pow_le_pow_right (by omega) (by omega)
    have hpos := Nat.two_pow_pos j
    rw [if_neg]
    simp only [not_or, decide_eq_true_eq, not_not]
    refine ⟨?_, ?_, ?_⟩
    · intro h0
      rw [h0] at hlimit
      simp at hlimit
      omega
    · rw [gt_iff_lt, UInt64.lt_iff_toNat_lt]
      omega
    · rw [hlimit, Nat.log2_two_pow]

theorem validate_eq_ok {policy : ClosurePolicy} :
    policy.validate = .ok () ↔
      policy.intervalMs ≠ 0 ∧ validateBatchRecordLimit policy.batchRecordLimit = .ok ()
        ∧ policy.recordLimit ≠ some 0 ∧ policy.sizeLimitBytes ≠ some 0 := by
  unfold validate
  by_cases h1 : policy.intervalMs = 0
  · simp [h1, throw, throwThe, MonadExceptOf.throw, bind, Except.bind]
  · cases h2 : validateBatchRecordLimit policy.batchRecordLimit with
    | error e => simp [h1, bind, Except.bind]
    | ok u =>
      by_cases h3 : policy.recordLimit = some 0 <;> by_cases h4 : policy.sizeLimitBytes = some 0 <;>
        simp [h1, h3, h4, throw, throwThe, MonadExceptOf.throw, bind, Except.bind, pure,
          Except.pure]

/-- A validated policy has a positive interval: the interval loop makes progress. -/
theorem intervalMs_pos {policy : ClosurePolicy} (h : policy.validate = .ok ()) :
    0 < policy.intervalMs.toNat := by
  have hne := (validate_eq_ok.mp h).1
  by_contra hle
  exact hne (UInt64.toNat_inj.mp (by simpa using hle))

end ClosurePolicy

end TrackOne
