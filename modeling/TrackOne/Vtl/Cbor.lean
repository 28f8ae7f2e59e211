import TrackOne.Lib.DetCbor
import TrackOne.Vtl.Basic

/-!
# Reading CBOR heads

The part of `trackone-ledger/src/vtl.rs` that the segment decoder and the record validator share:
the decode errors, the shortest-form argument reader, the item budget and the collection check.

The source reads a slice at a position it advances. Here the slice from that position on is passed
instead, so a reader returns what it read together with the rest of the input.

* `readCborArgument_eq_ok` is the one fact about heads: an argument is read exactly when the input
  starts with the shortest argument bytes.
* `ensureCollectionFits_eq_ok` and `keyOutOfOrder_encodeText` do the same for the two checks on
  collections.
-/

namespace TrackOne

open DetCbor

inductive SegmentDecodeError where
  | malformed (message : String)
  | nonCanonical (message : String)
  | resourceLimit (message : String)
  | missingField (message : String)
  | unexpectedField (field : String)
  | invalidField (message : String)
  | invariant (message : String)
deriving DecidableEq, Repr

/-- `impl Display for SegmentDecodeError`. -/
def SegmentDecodeError.toString : SegmentDecodeError → String
  | malformed message => message
  | nonCanonical message => message
  | resourceLimit message => message
  | missingField message => message
  | unexpectedField field => "unexpected segment field: " ++ field
  | invalidField message => message
  | invariant message => message

/-- `DecodeResult<T>`. -/
abbrev DecodeResult (α : Type) := Except SegmentDecodeError α

def maxCborNestingDepth : Nat := 32

/-- The number of levels a root value may use: depths `0` to `MAX_CBOR_NESTING_DEPTH`. -/
def rootLevels : Nat := maxCborNestingDepth + 1

/-- `DecodeBudget::consume_item`, on the number of remaining items. -/
def consumeItem : Nat → DecodeResult Nat
  | 0 => .error (.resourceLimit "CBOR item budget exceeded")
  | remaining + 1 => .ok remaining

/-- `put_head`, as the bytes it appends. -/
def putHead (major : UInt8) (n : UInt64) : Bytes := DetCbor.head major n

/-! ## Arguments -/

/-- The next `width` bytes of the input, or the given truncation error. -/
def takeBytes (message : String) (width : Nat) (input : Bytes) : DecodeResult (Bytes × Bytes) :=
  if width ≤ input.length then .ok (input.take width, input.drop width)
  else .error (.malformed message)

theorem takeBytes_eq_ok {message : String} {width : Nat} {input part rest : Bytes} :
    takeBytes message width input = .ok (part, rest)
      ↔ part.length = width ∧ input = part ++ rest := by
  unfold takeBytes
  constructor
  · intro h
    split at h
    · next hle =>
      cases h
      exact ⟨by simp [hle], (List.take_append_drop width input).symm⟩
    · cases h
  · rintro ⟨rfl, rfl⟩
    simp

/-- An argument of the given width that does not fit a shorter one, as the four multi-byte arms
of `read_cbor_argument` read it. -/
def readWideArgument (width shorterMax : Nat) (input : Bytes) : DecodeResult (UInt64 × Bytes) := do
  let (part, rest) ← takeBytes "truncated CBOR argument" width input
  let value := ofBeBytes part
  if value ≤ shorterMax then
    throw (.nonCanonical "CBOR argument is not shortest")
  pure (UInt64.ofNat value, rest)

def readCborArgument (input : Bytes) (ai : UInt8) : DecodeResult (UInt64 × Bytes) :=
  if ai ≤ 23 then .ok (ai.toUInt64, input)
  else if ai = 24 then readWideArgument 1 23 input
  else if ai = 25 then readWideArgument 2 0xff input
  else if ai = 26 then readWideArgument 4 0xffff input
  else if ai = 27 then readWideArgument 8 0xffffffff input
  else .error (.nonCanonical "indefinite or reserved CBOR argument")

def readTypedArgument (input : Bytes) : DecodeResult (UInt8 × UInt64 × Bytes) :=
  match input with
  | [] => .error (.malformed "truncated CBOR item")
  | initial :: rest => do
    let (argument, rest) ← readCborArgument rest (initial &&& 0x1f)
    pure (initial >>> 5, argument, rest)

theorem readWideArgument_eq_ok {width shorterMax : Nat} {input rest : Bytes} {n : UInt64}
    (hwidth : width ≤ 8) :
    readWideArgument width shorterMax input = .ok (n, rest)
      ↔ shorterMax < n.toNat ∧ n.toNat < 256 ^ width
        ∧ input = beBytes width n.toNat ++ rest := by
  have hfit : ∀ part : Bytes, part.length = width → ofBeBytes part < 2 ^ 64 := by
    intro part hlen
    calc ofBeBytes part < 256 ^ part.length := ofBeBytes_lt part
      _ ≤ 256 ^ 8 := Nat.pow_le_pow_right (by omega) (by omega)
      _ = 2 ^ 64 := by decide
  unfold readWideArgument
  simp only [Except.bind_eq_ok]
  constructor
  · rintro ⟨⟨part, rest'⟩, htake, h⟩
    obtain ⟨hlen, hinput⟩ := takeBytes_eq_ok.mp htake
    have hlt := hfit part hlen
    split at h
    · cases h
    · next hgt =>
      cases h
      rw [Nat.not_le] at hgt
      rw [UInt64.toNat_ofNat_of_lt64 hlt, hinput, ← hlen, beBytes_ofBeBytes]
      exact ⟨hgt, ofBeBytes_lt part, rfl⟩
  · rintro ⟨hgt, hlt, rfl⟩
    refine ⟨(beBytes width n.toNat, rest), takeBytes_eq_ok.mpr ⟨by simp, rfl⟩, ?_⟩
    rw [ofBeBytes_beBytes, Nat.mod_eq_of_lt hlt, if_neg (by omega), UInt64.ofNat_toNat]
    rfl

/-- An argument is read exactly when the input starts with its shortest form. -/
theorem readCborArgument_eq_ok {input rest : Bytes} {ai : UInt8} {n : UInt64} :
    readCborArgument input ai = .ok (n, rest)
      ↔ ai = shortestInfo n ∧ input = shortestArgument n ++ rest := by
  have hn := n.toNat_lt
  constructor
  -- each width is read back only where no narrower one would hold the number
  · intro h
    unfold readCborArgument at h
    unfold shortestInfo shortestArgument
    simp only [UInt64.le_iff_toNat_le, UInt64.reduceToNat]
    split_ifs at h with h23 h24 h25 h26 h27
    · cases h
      have hle : ai.toUInt64.toNat ≤ 23 := by
        rw [UInt8.toNat_toUInt64]
        exact UInt8.le_iff_toNat_le.mp h23
      simp only [if_pos hle]
      exact ⟨by simp, rfl⟩
    · obtain ⟨hgt, hlt, hinput⟩ := (readWideArgument_eq_ok (by omega)).mp h
      simp only [if_neg (show ¬ n.toNat ≤ 23 by omega), if_pos (show n.toNat ≤ 255 by omega)]
      exact ⟨h24, hinput⟩
    · obtain ⟨hgt, hlt, hinput⟩ := (readWideArgument_eq_ok (by omega)).mp h
      simp only [if_neg (show ¬ n.toNat ≤ 23 by omega), if_neg (show ¬ n.toNat ≤ 255 by omega),
        if_pos (show n.toNat ≤ 65535 by omega)]
      exact ⟨h25, hinput⟩
    · obtain ⟨hgt, hlt, hinput⟩ := (readWideArgument_eq_ok (by omega)).mp h
      simp only [if_neg (show ¬ n.toNat ≤ 23 by omega), if_neg (show ¬ n.toNat ≤ 255 by omega),
        if_neg (show ¬ n.toNat ≤ 65535 by omega), if_pos (show n.toNat ≤ 4294967295 by omega)]
      exact ⟨h26, hinput⟩
    · obtain ⟨hgt, hlt, hinput⟩ := (readWideArgument_eq_ok (by omega)).mp h
      simp only [if_neg (show ¬ n.toNat ≤ 23 by omega), if_neg (show ¬ n.toNat ≤ 255 by omega),
        if_neg (show ¬ n.toNat ≤ 65535 by omega), if_neg (show ¬ n.toNat ≤ 4294967295 by omega)]
      exact ⟨h27, hinput⟩
  -- and the shortest form is read at its width
  · rintro ⟨rfl, rfl⟩
    unfold shortestInfo shortestArgument
    simp only [UInt64.le_iff_toNat_le, UInt64.reduceToNat]
    split_ifs with h23 h255 h65535 h32
    · have hai : n.toUInt8 ≤ 23 := by
        rw [UInt8.le_iff_toNat_le, UInt64.toNat_toUInt8]
        simp only [UInt8.reduceToNat]
        omega
      have hback : n.toUInt8.toUInt64 = n := by
        rw [← UInt64.toNat_inj, UInt8.toNat_toUInt64, UInt64.toNat_toUInt8]
        omega
      simp [readCborArgument, hai, hback]
    · exact (readWideArgument_eq_ok (by omega)).mpr ⟨by omega, by omega, rfl⟩
    · exact (readWideArgument_eq_ok (by omega)).mpr ⟨by omega, by omega, rfl⟩
    · exact (readWideArgument_eq_ok (by omega)).mpr ⟨by omega, by omega, rfl⟩
    · exact (readWideArgument_eq_ok (by omega)).mpr ⟨by omega, by omega, rfl⟩

/-- A typed argument is read exactly when the input starts with a shortest head. -/
theorem readTypedArgument_eq_ok {input rest : Bytes} {major : UInt8} {n : UInt64} :
    readTypedArgument input = .ok (major, n, rest)
      ↔ major < 8 ∧ input = DetCbor.head major n ++ rest := by
  rw [head_eq_cons]
  cases input with
  | nil => simp [readTypedArgument]
  | cons initial input =>
    simp only [readTypedArgument, Except.bind_eq_ok, List.cons_append, List.cons.injEq]
    constructor
    · rintro ⟨⟨n', rest'⟩, hread, h⟩
      cases h
      obtain ⟨hinfo, hinput⟩ := readCborArgument_eq_ok.mp hread
      refine ⟨shiftRight_five_lt initial, ?_, hinput⟩
      rw [← hinfo, initial_of_fields]
    · rintro ⟨hmajor, rfl, rfl⟩
      have hfields := initial_fields hmajor
        (UInt8.lt_trans (shortestInfo_lt n) (by decide))
      refine ⟨(n, rest), readCborArgument_eq_ok.mpr ⟨hfields.2, rfl⟩, ?_⟩
      rw [hfields.1]
      rfl

/-! ## Collections -/

/-- `ensure_collection_fits`, with a 64-bit `usize`; the source's count is the length itself. -/
def ensureCollectionFits (input : Bytes) (len : UInt64) (minimumItemsPerEntry : Nat) :
    DecodeResult Nat :=
  let count := len.toNat
  let minimumBytes := count * minimumItemsPerEntry
  if 2 ^ 64 ≤ minimumBytes then
    .error (.resourceLimit "CBOR collection size overflows platform")
  else if input.length < minimumBytes then
    .error (.malformed "CBOR collection length exceeds remaining input")
  else .ok count

theorem ensureCollectionFits_eq_ok {input : Bytes} {len : UInt64} {k count : Nat} :
    ensureCollectionFits input len k = .ok count
      ↔ count = len.toNat ∧ count * k < 2 ^ 64 ∧ count * k ≤ input.length := by
  simp only [ensureCollectionFits]
  split_ifs with h1 h2
  · simp only [false_iff]
    rintro ⟨rfl, h, -⟩
    omega
  · simp only [false_iff]
    rintro ⟨rfl, -, h⟩
    omega
  · simp only [Except.ok.injEq]
    constructor
    · rintro rfl
      exact ⟨rfl, by omega, by omega⟩
    · rintro ⟨rfl, -, -⟩
      rfl

/-- The test both map readers make on the raw bytes of a key and of the key before it. -/
def keyOutOfOrder (previous : Option Bytes) (rawKey : Bytes) : Bool :=
  match previous with
  | none => false
  | some previous =>
    decide (previous.length > rawKey.length)
      || (decide (previous.length = rawKey.length) && decide (rawKey ≤ previous))

theorem keyOutOfOrder_encodeText {a b : String} :
    keyOutOfOrder (some (encodeText a)) (encodeText b) = false ↔ KeyLt a b := by
  simp only [keyOutOfOrder, KeyLt, Bool.or_eq_false_iff, Bool.and_eq_false_iff,
    decide_eq_false_iff_not, List.not_le]
  constructor
  · rintro ⟨hle, hlt⟩
    by_cases hlen : (encodeText a).length = (encodeText b).length
    · exact Or.inr ⟨hlen, hlt.resolve_left (not_not.mpr hlen)⟩
    · exact Or.inl (by omega)
  · rintro (hlt | ⟨hlen, hlt⟩)
    · exact ⟨by omega, Or.inl (by omega)⟩
    · exact ⟨by omega, Or.inr hlt⟩

end TrackOne
