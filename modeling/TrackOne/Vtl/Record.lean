import TrackOne.Vtl.Cbor
import TrackOne.Vtl.Float

/-!
# Canonical records

`validate_canonical_record` of `trackone-ledger/src/vtl.rs`: the gate every telemetry record passes
before it is committed. It reads a seven-element array, keeps the metadata and checks that the
payload is a deterministic CBOR item of at most 32 nested levels.

## Architecture
* `validateCommitmentValue` recurses on the levels that are left; `validateItems` and
  `validateEntries` are its loops.
* Soundness (`validateCommitmentValue_sound`): what is consumed is the encoding of a deterministic
  item. One case per major type, by induction on the levels.
* Completeness (`validateCommitmentValue_accepts`): the encoding of a deterministic item is
  consumed, whatever follows, when the budget covers the remaining bytes.
* `validateCanonicalRecord_eq_ok` joins the two with the seven fields of the array.
-/

namespace TrackOne

open BinaryFloat DetCbor

/-- `[u8; 8]`: a device id. -/
abbrev DeviceId := { bytes : Bytes // bytes.length = 8 }

structure CanonicalRecordMetadataV1 where
  version : UInt8
  deviceId : DeviceId
  fc : UInt64
  ingestTime : UInt64
  deviceTime : Option UInt64
  kind : UInt64
deriving DecidableEq

/-! ## The payload -/

/-- `core::str::from_utf8`, for its error only. -/
def ensureUtf8 (message : String) (part : Bytes) : DecodeResult Unit :=
  Except.require (.malformed message) (ofUtf8? part).isSome

/-- `validate_float_encoding`, on the bytes of the item. -/
def validateFloatEncoding (raw : Bytes) (value : Nat) : DecodeResult Unit := do
  let canonical ← (canonicalFloatBytes value).mapError fun _ =>
    SegmentDecodeError.invalidField "non-finite CBOR float"
  Except.require (.nonCanonical "CBOR float is not encoded at its shortest exact width")
    (canonical = raw)

def readFixed (n : Nat) (input : Bytes) : DecodeResult (Bytes × Bytes) :=
  takeBytes "truncated CBOR float" n input

/-- `validate_simple_or_float`; `initial` is the byte at `start`. -/
def validateSimpleOrFloat (initial ai : UInt8) (input : Bytes) : DecodeResult Bytes :=
  if 20 ≤ ai ∧ ai ≤ 22 then .ok input
  else if ai = 25 then do
    let (bits, rest) ← readFixed 2 input
    validateFloatEncoding (initial :: bits) (decodeF16 (UInt16.ofNat (ofBeBytes bits)))
    pure rest
  else if ai = 26 then do
    let (bits, rest) ← readFixed 4 input
    validateFloatEncoding (initial :: bits) (widen single (ofBeBytes bits))
    pure rest
  else if ai = 27 then do
    let (bits, rest) ← readFixed 8 input
    validateFloatEncoding (initial :: bits) (ofBeBytes bits)
    pure rest
  else .error (.invalidField "unsupported CBOR simple value")

/-- The loop over the items of an array. -/
def validateItems (validate : Nat → Bytes → DecodeResult (Nat × Bytes)) :
    Nat → Nat → Bytes → DecodeResult (Nat × Bytes)
  | 0, budget, input => .ok (budget, input)
  | count + 1, budget, input => do
    let (budget, input) ← validate budget input
    validateItems validate count budget input

/-- The key at the head of an entry in `validate_commitment_map`. -/
def readMapKey (input : Bytes) : DecodeResult (Bytes × Bytes) :=
  match input with
  | [] => .error (.malformed "truncated CBOR map key")
  | initial :: rest => do
    Except.require (.invalidField "commitment map keys must be text") (initial >>> 5 = 3)
    let (keyLen, rest) ← readCborArgument rest (initial &&& 0x1f)
    let (part, rest) ← takeBytes "truncated CBOR map key" keyLen.toNat rest
    ensureUtf8 "CBOR map key is not UTF-8" part
    pure (input.take (input.length - rest.length), rest)

/-- The loop over the entries of a map, with the raw bytes of the key before. -/
def validateEntries (validate : Nat → Bytes → DecodeResult (Nat × Bytes)) :
    Nat → Option Bytes → Nat → Bytes → DecodeResult (Nat × Bytes)
  | 0, _, budget, input => .ok (budget, input)
  | count + 1, previousKey, budget, input => do
    let (rawKey, rest) ← readMapKey input
    Except.require (.nonCanonical "CBOR map keys are not in deterministic order")
      (!keyOutOfOrder previousKey rawKey)
    let (budget, rest) ← validate budget rest
    validateEntries validate count (some rawKey) budget rest

def validateCommitmentMap (validate : Nat → Bytes → DecodeResult (Nat × Bytes)) (len : UInt64)
    (budget : Nat) (input : Bytes) : DecodeResult (Nat × Bytes) := do
  let count ← ensureCollectionFits input len 2
  validateEntries validate count none budget input

/-- The match of `validate_commitment_value` on the major type, after the head; `validate` is the
validator one level down. -/
def validateContent (validate : Nat → Bytes → DecodeResult (Nat × Bytes)) (major : UInt8)
    (len : UInt64) (budget : Nat) (rest : Bytes) : DecodeResult (Nat × Bytes) :=
  match major with
  | 0 => pure (budget, rest)
  | 1 => pure (budget, rest)
  | 2 => do
    let (_, rest) ← takeBytes "truncated CBOR string" len.toNat rest
    pure (budget, rest)
  | 3 => do
    let (part, rest) ← takeBytes "truncated CBOR string" len.toNat rest
    ensureUtf8 "CBOR text is not UTF-8" part
    pure (budget, rest)
  | 4 => do
    let count ← ensureCollectionFits rest len 1
    validateItems validate count budget rest
  | 5 => validateCommitmentMap validate len budget rest
  | 6 => throw (.invalidField "CBOR tags are not permitted in commitment bytes")
  | _ => throw (.malformed "invalid CBOR major type")

/-- `validate_commitment_value`, on the levels left: `MAX_CBOR_NESTING_DEPTH + 1 - depth`. -/
def validateCommitmentValue : Nat → Nat → Bytes → DecodeResult (Nat × Bytes)
  | 0, _, _ => .error (.resourceLimit "CBOR nesting depth exceeds the supported limit")
  | levels + 1, budget, input => do
    let budget ← consumeItem budget
    match input with
    | [] => throw (.malformed "truncated CBOR payload item")
    | initial :: rest =>
      if initial >>> 5 = 7 then do
        let rest ← validateSimpleOrFloat initial (initial &&& 0x1f) rest
        pure (budget, rest)
      else do
        let (len, rest) ← readCborArgument rest (initial &&& 0x1f)
        validateContent (validateCommitmentValue levels) (initial >>> 5) len budget rest

/-! ## The record -/

def readUintItem (input : Bytes) (field : String) : DecodeResult (UInt64 × Bytes) := do
  let (major, value, rest) ← readTypedArgument input
  Except.require (.invalidField field) (major = 0)
  pure (value, rest)

def readDeviceId (input : Bytes) : DecodeResult (DeviceId × Bytes) := do
  let (major, len, rest) ← readTypedArgument input
  Except.require (.invalidField "device_id must be an eight-byte string") (major = 2 ∧ len = 8)
  if h : 8 ≤ rest.length then
    pure (⟨rest.take 8, by simp [h]⟩, rest.drop 8)
  else throw (.malformed "truncated device_id")

/-- The optional `device_time` of a record: null, or a number. -/
def readDeviceTime (input : Bytes) : DecodeResult (Option UInt64 × Bytes) :=
  if input.head? = some 0xf6 then .ok (none, input.tail)
  else do
    let (value, rest) ← readUintItem input "device_time"
    pure (some value, rest)

def validateCanonicalRecord (bytes : Bytes) : DecodeResult CanonicalRecordMetadataV1 := do
  let (major, len, rest) ← readTypedArgument bytes
  Except.require (.invalidField "canonical record must be a seven-element array")
    (major = 4 ∧ len = 7)
  let (version, rest) ← readUintItem rest "record version"
  Except.require (.invalidField "record version must be 1") (version = 1)
  let (deviceId, rest) ← readDeviceId rest
  let (fc, rest) ← readUintItem rest "fc"
  let (ingestTime, rest) ← readUintItem rest "ingest_time"
  let (deviceTime, rest) ← readDeviceTime rest
  let (kind, rest) ← readUintItem rest "kind"
  let (_, rest) ← validateCommitmentValue rootLevels bytes.length rest
  Except.require (.malformed "canonical record has trailing bytes") (rest = [])
  pure { version := 1, deviceId, fc, ingestTime, deviceTime, kind }

/-! ## Readers -/

/-- A text is accepted when it is the encoding of some string. -/
theorem ensureUtf8_eq_ok {message : String} {part : Bytes} {u : Unit} :
    ensureUtf8 message part = .ok u ↔ ∃ s, utf8Bytes s = part := by
  simp only [ensureUtf8, Except.require_eq_ok, Option.isSome_iff_exists]
  constructor
  · rintro ⟨s, hs⟩
    exact ⟨s, utf8Bytes_of_ofUtf8? hs⟩
  · rintro ⟨s, rfl⟩
    exact ⟨s, ofUtf8?_utf8Bytes s⟩

/-- The part in front of the rest. -/
theorem take_append_sub (a b : Bytes) : (a ++ b).take ((a ++ b).length - b.length) = a := by
  simp

/-- A key is read exactly when the input starts with an encoded text. -/
theorem readMapKey_eq_ok {input rawKey rest : Bytes} :
    readMapKey input = .ok (rawKey, rest)
      ↔ ∃ key, (utf8Bytes key).length < 2 ^ 64 ∧ rawKey = encodeText key
        ∧ input = encodeText key ++ rest := by
  constructor
  · intro h
    cases input with
    | nil => cases h
    | cons initial input =>
      simp only [readMapKey, Except.bind_eq_ok, Except.require_eq_ok, decide_eq_true_eq] at h
      obtain ⟨u, hmajor, ⟨n, rest₁⟩, hread, ⟨part, rest₂⟩, htake, u', hutf8, h⟩ := h
      obtain ⟨hinfo, hrest₁⟩ := readCborArgument_eq_ok.mp hread
      obtain ⟨hlen, hrest₂⟩ := takeBytes_eq_ok.mp htake
      obtain ⟨key, hkey⟩ := ensureUtf8_eq_ok.mp hutf8
      -- the key is a text in its shortest form, and the raw key is its bytes
      simp only at hrest₁ hlen hrest₂ hkey h
      have hlt : (utf8Bytes key).length < 2 ^ 64 := by
        rw [hkey, hlen]
        exact n.toNat_lt
      have hinitial : initial = ((3 : UInt8) <<< 5) ||| shortestInfo n := by
        rw [← hinfo, ← hmajor, initial_of_fields]
      have hinput : initial :: input = encodeText key ++ rest₂ := by
        rw [encodeText, lengthHead, hkey, hlen, UInt64.ofNat_toNat, head_eq_cons, ← hinitial,
          hrest₁, hrest₂]
        simp
      rw [hinput, take_append_sub] at h
      cases h
      exact ⟨key, hlt, rfl, hinput⟩
  · rintro ⟨key, hlt, rfl, rfl⟩
    -- the head of a text is read back
    have hhead : encodeText key ++ rest
        = (((3 : UInt8) <<< 5) ||| shortestInfo (UInt64.ofNat (utf8Bytes key).length))
          :: (shortestArgument (UInt64.ofNat (utf8Bytes key).length)
            ++ (utf8Bytes key ++ rest)) := by
      simp [encodeText, lengthHead, head_eq_cons]
    obtain ⟨hmajor, hinfo⟩ := initial_fields (by decide : (3 : UInt8) < 8)
      (UInt8.lt_trans (shortestInfo_lt (UInt64.ofNat (utf8Bytes key).length)) (by decide))
    have htake := take_append_sub (encodeText key) rest
    rw [hhead] at htake ⊢
    simp only [readMapKey, Except.bind_eq_ok, Except.require_eq_ok, decide_eq_true_eq]
    refine ⟨(), hmajor, _, readCborArgument_eq_ok.mpr ⟨hinfo, rfl⟩, (utf8Bytes key, rest),
      takeBytes_eq_ok.mpr ⟨(UInt64.toNat_ofNat_of_lt64 hlt).symm, rfl⟩, (),
      ensureUtf8_eq_ok.mpr ⟨key, rfl⟩, ?_⟩
    rw [htake]
    rfl

/-! ## Simple values and floats -/

/-- A float is accepted when no shorter one has its value. -/
theorem validateFloatEncoding_eq_ok {f : FloatLit} {u : Unit} :
    validateFloatEncoding f.encode f.value = .ok u ↔ f.Shortest := by
  simp only [validateFloatEncoding, Except.bind_eq_ok, Except.mapError_eq_ok,
    Except.require_eq_ok, decide_eq_true_eq]
  constructor
  · rintro ⟨canonical, hbytes, rfl⟩
    exact shortest_of_canonicalFloatBytes hbytes
  · intro h
    exact ⟨f.encode, canonicalFloatBytes_of_shortest h, rfl⟩

/-- The items of major type 7 the profile admits. -/
inductive IsSimple : Item → Prop where
  | bool (b : Bool) : IsSimple (.bool b)
  | null : IsSimple .null
  | float {f : FloatLit} (h : f.Shortest) : IsSimple (.float f)

/-- A simple item is deterministic at any level. -/
theorem IsSimple.deterministic {item : Item} (h : IsSimple item) (n : Nat) :
    item.Deterministic n := by
  cases h with
  | bool b => cases n <;> trivial
  | null => cases n <;> trivial
  | float h => cases n <;> exact h

/-- The float of the given bytes is written as those bytes. -/
theorem encode_half {bits : Bytes} (hlen : bits.length = 2) :
    (FloatLit.half (UInt16.ofNat (ofBeBytes bits))).encode = 0xf9 :: bits
      ∧ (FloatLit.half (UInt16.ofNat (ofBeBytes bits))).value
        = decodeF16 (UInt16.ofNat (ofBeBytes bits)) := by
  have hlt : ofBeBytes bits < 2 ^ 16 := by
    simpa [hlen] using ofBeBytes_lt bits
  rw [decodeF16_eq_widen, FloatLit.encode, FloatLit.value, UInt16.toNat_ofNat_of_lt' hlt, ← hlen,
    beBytes_ofBeBytes]
  exact ⟨rfl, rfl⟩

/-- Four bytes are those of the single they are read as. -/
theorem encode_single {bits : Bytes} (hlen : bits.length = 4) :
    (FloatLit.single (UInt32.ofNat (ofBeBytes bits))).encode = 0xfa :: bits
      ∧ (FloatLit.single (UInt32.ofNat (ofBeBytes bits))).value
        = widen single (ofBeBytes bits) := by
  have hlt : ofBeBytes bits < 2 ^ 32 := by
    simpa [hlen] using ofBeBytes_lt bits
  rw [FloatLit.encode, FloatLit.value, UInt32.toNat_ofNat_of_lt' hlt, ← hlen, beBytes_ofBeBytes]
  exact ⟨rfl, rfl⟩

/-- Eight bytes are those of the double they are read as. -/
theorem encode_double {bits : Bytes} (hlen : bits.length = 8) :
    (FloatLit.double (UInt64.ofNat (ofBeBytes bits))).encode = 0xfb :: bits
      ∧ (FloatLit.double (UInt64.ofNat (ofBeBytes bits))).value = ofBeBytes bits := by
  have hlt : ofBeBytes bits < 2 ^ 64 := by
    simpa [hlen] using ofBeBytes_lt bits
  rw [FloatLit.encode, FloatLit.value, UInt64.toNat_ofNat_of_lt64 hlt, ← hlen, beBytes_ofBeBytes]
  exact ⟨rfl, rfl⟩

/-- A float that is read and passes the check is the shortest one for its value. -/
theorem float_sound {f : FloatLit} {initial : UInt8} {n value : Nat} {input bits rest : Bytes}
    {u : Unit} (hread : readFixed n input = .ok (bits, rest))
    (hencode : f.encode = initial :: bits) (hvalue : f.value = value)
    (hvalid : validateFloatEncoding (initial :: bits) value = .ok u) :
    ∃ item, IsSimple item ∧ initial :: input = item.encode ++ rest := by
  obtain ⟨-, hinput⟩ := takeBytes_eq_ok.mp hread
  rw [← hencode, ← hvalue] at hvalid
  refine ⟨.float f, .float (validateFloatEncoding_eq_ok.mp hvalid), ?_⟩
  rw [Item.encode, hencode, hinput]
  rfl

/-- The bytes of the simple values. -/
theorem simple_initial {initial : UInt8} (hmajor : initial >>> 5 = 7)
    (hai : 20 ≤ initial &&& 0x1f ∧ initial &&& 0x1f ≤ 22) :
    initial = 0xf4 ∨ initial = 0xf5 ∨ initial = 0xf6 := by
  have hall : ∀ i < 256, UInt8.ofNat i >>> 5 = 7 →
      20 ≤ UInt8.ofNat i &&& 0x1f ∧ UInt8.ofNat i &&& 0x1f ≤ 22 →
      UInt8.ofNat i = 0xf4 ∨ UInt8.ofNat i = 0xf5 ∨ UInt8.ofNat i = 0xf6 := by decide +kernel
  have h := hall initial.toNat initial.toNat_lt
  rw [UInt8.ofNat_toNat] at h
  exact h hmajor hai

/-- What is validated past a head of major type seven is a simple item. -/
theorem validateSimpleOrFloat_sound {initial : UInt8} {input rest : Bytes}
    (hmajor : initial >>> 5 = 7)
    (h : validateSimpleOrFloat initial (initial &&& 0x1f) input = .ok rest) :
    ∃ item, IsSimple item ∧ initial :: input = item.encode ++ rest := by
  have hinitial := initial_of_fields initial
  rw [hmajor] at hinitial
  simp only [validateSimpleOrFloat] at h
  split_ifs at h with hsimple hhalf hsingle hdouble
  · cases h
    rcases simple_initial hmajor hsimple with rfl | rfl | rfl
    · exact ⟨.bool false, .bool false, rfl⟩
    · exact ⟨.bool true, .bool true, rfl⟩
    · exact ⟨.null, .null, rfl⟩
  · simp only [Except.bind_eq_ok] at h
    obtain ⟨⟨bits, rest'⟩, hread, u, hvalid, h⟩ := h
    cases h
    obtain ⟨hencode, hvalue⟩ := encode_half (takeBytes_eq_ok.mp hread).1
    rw [show (0xf9 : UInt8) = initial by rw [← hinitial, hhalf]; rfl] at hencode
    exact float_sound hread hencode hvalue hvalid
  · simp only [Except.bind_eq_ok] at h
    obtain ⟨⟨bits, rest'⟩, hread, u, hvalid, h⟩ := h
    cases h
    obtain ⟨hencode, hvalue⟩ := encode_single (takeBytes_eq_ok.mp hread).1
    rw [show (0xfa : UInt8) = initial by rw [← hinitial, hsingle]; rfl] at hencode
    exact float_sound hread hencode hvalue hvalid
  · simp only [Except.bind_eq_ok] at h
    obtain ⟨⟨bits, rest'⟩, hread, u, hvalid, h⟩ := h
    cases h
    obtain ⟨hencode, hvalue⟩ := encode_double (takeBytes_eq_ok.mp hread).1
    rw [show (0xfb : UInt8) = initial by rw [← hinitial, hdouble]; rfl] at hencode
    exact float_sound hread hencode hvalue hvalid

/-- A float is read back and checked against the bytes it was written as. -/
theorem validateSimpleOrFloat_encode (f : FloatLit) (rest : Bytes) :
    ∃ initial bits, f.encode = initial :: bits ∧ initial >>> 5 = 7
      ∧ validateSimpleOrFloat initial (initial &&& 0x1f) (bits ++ rest)
        = (validateFloatEncoding f.encode f.value).map fun _ => rest := by
  have hread : ∀ (n : Nat) (bits : Bytes), bits.length = n →
      readFixed n (bits ++ rest) = .ok (bits, rest) :=
    fun n bits hlen => takeBytes_eq_ok.mpr ⟨hlen, rfl⟩
  cases f with
  | half bits =>
    have hback : ofBeBytes (beBytes 2 bits.toNat) = bits.toNat := by
      rw [ofBeBytes_beBytes]
      exact Nat.mod_eq_of_lt bits.toNat_lt
    refine ⟨0xf9, beBytes 2 bits.toNat, rfl, by decide, ?_⟩
    simp only [validateSimpleOrFloat]
    rw [if_neg (by decide), if_pos (by decide), hread 2 _ (by simp), Except.ok_bind, hback,
      UInt16.ofNat_toNat, decodeF16_eq_widen]
    rfl
  | single bits =>
    have hback : ofBeBytes (beBytes 4 bits.toNat) = bits.toNat := by
      rw [ofBeBytes_beBytes]
      exact Nat.mod_eq_of_lt bits.toNat_lt
    refine ⟨0xfa, beBytes 4 bits.toNat, rfl, by decide, ?_⟩
    simp only [validateSimpleOrFloat]
    rw [if_neg (by decide), if_neg (by decide), if_pos (by decide), hread 4 _ (by simp),
      Except.ok_bind, hback]
    rfl
  | double bits =>
    have hback : ofBeBytes (beBytes 8 bits.toNat) = bits.toNat := by
      rw [ofBeBytes_beBytes]
      exact Nat.mod_eq_of_lt bits.toNat_lt
    refine ⟨0xfb, beBytes 8 bits.toNat, rfl, by decide, ?_⟩
    simp only [validateSimpleOrFloat]
    rw [if_neg (by decide), if_neg (by decide), if_neg (by decide), if_pos (by decide),
      hread 8 _ (by simp), Except.ok_bind, hback]
    rfl

/-- Every simple item is validated. -/
theorem validateSimpleOrFloat_complete {item : Item} (h : IsSimple item) (rest : Bytes) :
    ∃ initial input, item.encode ++ rest = initial :: input ∧ initial >>> 5 = 7
      ∧ validateSimpleOrFloat initial (initial &&& 0x1f) input = .ok rest := by
  cases h with
  | bool b => cases b <;> exact ⟨_, rest, rfl, by decide, rfl⟩
  | null => exact ⟨_, rest, rfl, by decide, rfl⟩
  | @float f h =>
    obtain ⟨initial, bits, hencode, hmajor, hvalid⟩ := validateSimpleOrFloat_encode f rest
    refine ⟨initial, bits ++ rest, ?_, hmajor, ?_⟩
    · rw [Item.encode, hencode, List.cons_append]
    · rw [hvalid, (validateFloatEncoding_eq_ok (u := ())).mpr h]
      rfl

/-! ## Soundness of the payload check -/

/-- What the validator with the given levels accepts: nothing without a level. -/
def WithinLevels : Nat → Item → Prop
  | 0, _ => False
  | levels + 1, item => item.Deterministic levels

/-- The validator only consumes encodings of items within the given levels. -/
def Consumes (validate : Nat → Bytes → DecodeResult (Nat × Bytes)) (levels : Nat) : Prop :=
  ∀ budget input budget' rest, validate budget input = .ok (budget', rest) →
    ∃ item, WithinLevels levels item ∧ input = item.encode ++ rest

section Sound

variable {validate : Nat → Bytes → DecodeResult (Nat × Bytes)} {levels : Nat}

/-- What is validated as the items of an array is that many items. -/
theorem validateItems_sound (hvalidate : Consumes validate levels) {count budget budget' : Nat}
    {input rest : Bytes} (h : validateItems validate count budget input = .ok (budget', rest)) :
    ∃ items : List Item, items.length = count ∧ (∀ item ∈ items, WithinLevels levels item)
      ∧ input = encodeItems items ++ rest := by
  induction count generalizing budget input with
  | zero =>
    cases h
    exact ⟨[], rfl, by simp, rfl⟩
  | succ count ih =>
    simp only [validateItems, Except.bind_eq_ok] at h
    obtain ⟨⟨budget₁, rest₁⟩, hitem, h⟩ := h
    obtain ⟨item, hwithin, rfl⟩ := hvalidate _ _ _ _ hitem
    obtain ⟨items, rfl, hitems, rfl⟩ := ih h
    exact ⟨item :: items, rfl, List.forall_mem_cons.mpr ⟨hwithin, hitems⟩, by simp [encodeItems]⟩

/-- What is validated as the entries of a map is that many entries, their keys in order. -/
theorem validateEntries_sound (hvalidate : Consumes validate levels) {count budget budget' : Nat}
    (previous : Option String) {input rest : Bytes}
    (h : validateEntries validate count (previous.map encodeText) budget input
      = .ok (budget', rest)) :
    ∃ entries : List (String × Item), entries.length = count
      ∧ (previous.toList ++ entries.map Prod.fst).IsChain KeyLt
      ∧ (∀ entry ∈ entries, (utf8Bytes entry.1).length < 2 ^ 64 ∧ WithinLevels levels entry.2)
      ∧ input = encodeEntries entries ++ rest := by
  induction count generalizing budget input previous with
  | zero =>
    cases h
    refine ⟨[], rfl, ?_, by simp, rfl⟩
    cases previous <;> simp
  | succ count ih =>
    simp only [validateEntries, Except.bind_eq_ok, Except.require_eq_ok, Bool.not_eq_true'] at h
    obtain ⟨⟨rawKey, rest₁⟩, hkey, u, horder, ⟨budget₂, rest₂⟩, hitem, h⟩ := h
    obtain ⟨key, hlen, rfl, rfl⟩ := readMapKey_eq_ok.mp hkey
    obtain ⟨item, hwithin, rfl⟩ := hvalidate _ _ _ _ hitem
    obtain ⟨entries, rfl, hchain, hentries, rfl⟩ := ih (some key) h
    refine ⟨(key, item) :: entries, rfl, ?_,
      List.forall_mem_cons.mpr ⟨⟨hlen, hwithin⟩, hentries⟩, by simp [encodeEntries]⟩
    cases previous with
    | none => exact hchain
    | some p => exact List.isChain_cons_cons.mpr ⟨keyOutOfOrder_encodeText.mp horder, hchain⟩

end Sound

/-- An array of items within the levels is deterministic one level up. -/
theorem deterministic_array {levels : Nat} {items : List Item} (hlen : items.length < 2 ^ 64)
    (h : ∀ item ∈ items, WithinLevels levels item) : (Item.array items).Deterministic levels := by
  cases levels with
  | zero =>
    rw [Item.Deterministic, List.eq_nil_iff_forall_not_mem]
    exact h
  | succ levels => exact ⟨hlen, h⟩

/-- A map of entries within the levels is deterministic one level up. -/
theorem deterministic_map {levels : Nat} {entries : List (String × Item)}
    (hlen : entries.length < 2 ^ 63) (hkeys : (entries.map Prod.fst).IsChain KeyLt)
    (h : ∀ entry ∈ entries, (utf8Bytes entry.1).length < 2 ^ 64 ∧ WithinLevels levels entry.2) :
    (Item.map entries).Deterministic levels := by
  cases levels with
  | zero =>
    rw [Item.Deterministic, List.eq_nil_iff_forall_not_mem]
    exact fun entry hentry => (h entry hentry).2
  | succ levels => exact ⟨hlen, List.isChain_iff_pairwise.mp hkeys, h⟩

/-- What follows a head is the content of a deterministic item. -/
theorem validateContent_sound {validate : Nat → Bytes → DecodeResult (Nat × Bytes)} {levels : Nat}
    (hvalidate : Consumes validate levels) {major : UInt8} {n : UInt64} {budget budget' : Nat}
    {input rest : Bytes} (h : validateContent validate major n budget input = .ok (budget', rest)) :
    ∃ item : Item, item.Deterministic levels
      ∧ DetCbor.head major n ++ input = item.encode ++ rest := by
  unfold validateContent at h
  -- one case for each major type: two integers, two strings, two containers, and the rest
  split at h
  · cases h
    exact ⟨.uint n, by cases levels <;> trivial, rfl⟩
  · cases h
    exact ⟨.nint n, by cases levels <;> trivial, rfl⟩
  · simp only [Except.bind_eq_ok] at h
    obtain ⟨⟨part, rest'⟩, htake, h⟩ := h
    cases h
    obtain ⟨hlen, rfl⟩ := takeBytes_eq_ok.mp htake
    have hlt : part.length < 2 ^ 64 := hlen ▸ n.toNat_lt
    refine ⟨.bytes part, by cases levels <;> exact hlt, ?_⟩
    rw [Item.encode, lengthHead, hlen, UInt64.ofNat_toNat, List.append_assoc]
  · simp only [Except.bind_eq_ok] at h
    obtain ⟨⟨part, rest'⟩, htake, u, hutf8, h⟩ := h
    cases h
    obtain ⟨hlen, rfl⟩ := takeBytes_eq_ok.mp htake
    obtain ⟨s, rfl⟩ := ensureUtf8_eq_ok.mp hutf8
    have hlt : (utf8Bytes s).length < 2 ^ 64 := hlen ▸ n.toNat_lt
    refine ⟨.text s, by cases levels <;> exact hlt, ?_⟩
    rw [Item.encode, encodeText, lengthHead, hlen, UInt64.ofNat_toNat, List.append_assoc]
  · simp only [Except.bind_eq_ok] at h
    obtain ⟨count, hfits, h⟩ := h
    obtain ⟨rfl, -, -⟩ := ensureCollectionFits_eq_ok.mp hfits
    obtain ⟨items, hlen, hitems, rfl⟩ := validateItems_sound hvalidate h
    have hlt : items.length < 2 ^ 64 := hlen ▸ n.toNat_lt
    refine ⟨.array items, deterministic_array hlt hitems, ?_⟩
    rw [Item.encode, lengthHead, hlen, UInt64.ofNat_toNat, List.append_assoc]
  · simp only [validateCommitmentMap, Except.bind_eq_ok] at h
    obtain ⟨count, hfits, h⟩ := h
    obtain ⟨rfl, hsize, -⟩ := ensureCollectionFits_eq_ok.mp hfits
    obtain ⟨entries, hlen, hchain, hentries, rfl⟩ :=
      validateEntries_sound hvalidate none h
    refine ⟨.map entries, deterministic_map (by omega) hchain hentries, ?_⟩
    rw [Item.encode, lengthHead, hlen, UInt64.ofNat_toNat, List.append_assoc]
  · cases h
  · cases h

/-- An accepted value is the encoding of a deterministic item within the levels. -/
theorem validateCommitmentValue_sound (levels : Nat) :
    Consumes (validateCommitmentValue levels) levels := by
  induction levels with
  | zero =>
    intro budget input budget' rest h
    cases h
  | succ levels ih =>
    intro budget input budget' rest h
    simp only [validateCommitmentValue, Except.bind_eq_ok] at h
    obtain ⟨budget₁, -, h⟩ := h
    cases input with
    | nil => cases h
    | cons initial input =>
      simp only at h
      split at h
      · next hmajor =>
        simp only [Except.bind_eq_ok] at h
        obtain ⟨rest', hsimple, h⟩ := h
        cases h
        obtain ⟨item, hitem, heq⟩ := validateSimpleOrFloat_sound hmajor hsimple
        exact ⟨item, hitem.deterministic levels, heq⟩
      · simp only [Except.bind_eq_ok] at h
        obtain ⟨⟨n, rest'⟩, hread, h⟩ := h
        obtain ⟨hinfo, rfl⟩ := readCborArgument_eq_ok.mp hread
        obtain ⟨item, hdet, heq⟩ := validateContent_sound ih h
        refine ⟨item, hdet, ?_⟩
        rw [← heq, head_eq_cons, ← hinfo, initial_of_fields]
        rfl

/-! ## Completeness of the payload check -/

/-- The validator consumes the item, whatever follows it, as long as the budget covers the bytes
that are left; and it leaves a budget that covers the bytes that are left then. -/
def Accepts (validate : Nat → Bytes → DecodeResult (Nat × Bytes)) (item : Item) : Prop :=
  ∀ budget rest, (item.encode ++ rest).length ≤ budget →
    ∃ budget', rest.length ≤ budget'
      ∧ validate budget (item.encode ++ rest) = .ok (budget', rest)

section Complete

variable {validate : Nat → Bytes → DecodeResult (Nat × Bytes)}

/-- Items that are accepted are accepted in an array. -/
theorem validateItems_complete {items : List Item} (h : ∀ item ∈ items, Accepts validate item) :
    ∀ budget rest, (encodeItems items ++ rest).length ≤ budget →
      ∃ budget', rest.length ≤ budget'
        ∧ validateItems validate items.length budget (encodeItems items ++ rest)
          = .ok (budget', rest) := by
  induction items with
  | nil => exact fun budget rest hbudget => ⟨budget, hbudget, rfl⟩
  | cons item items ih =>
    intro budget rest hbudget
    obtain ⟨hitem, hitems⟩ := List.forall_mem_cons.mp h
    simp only [encodeItems, List.append_assoc] at hbudget ⊢
    obtain ⟨budget₁, h₁, hvalid⟩ := hitem budget _ hbudget
    obtain ⟨budget₂, h₂, hrest⟩ := ih hitems budget₁ rest h₁
    refine ⟨budget₂, h₂, ?_⟩
    simp only [List.length_cons, validateItems, hvalid, bind, Except.bind]
    exact hrest

/-- Entries that are accepted are accepted in a map. -/
theorem validateEntries_complete {entries : List (String × Item)} (previous : Option String)
    (hkeys : (previous.toList ++ entries.map Prod.fst).IsChain KeyLt)
    (h : ∀ entry ∈ entries, (utf8Bytes entry.1).length < 2 ^ 64 ∧ Accepts validate entry.2) :
    ∀ budget rest, (encodeEntries entries ++ rest).length ≤ budget →
      ∃ budget', rest.length ≤ budget'
        ∧ validateEntries validate entries.length (previous.map encodeText) budget
            (encodeEntries entries ++ rest) = .ok (budget', rest) := by
  induction entries generalizing previous with
  | nil => exact fun budget rest hbudget => ⟨budget, hbudget, rfl⟩
  | cons entry entries ih =>
    intro budget rest hbudget
    obtain ⟨key, item⟩ := entry
    obtain ⟨⟨hlen, hitem⟩, hentries⟩ := List.forall_mem_cons.mp h
    simp only [encodeEntries, List.append_assoc] at hbudget ⊢
    have hkey : readMapKey (encodeText key ++ (item.encode ++ (encodeEntries entries ++ rest)))
        = .ok (encodeText key, item.encode ++ (encodeEntries entries ++ rest)) :=
      readMapKey_eq_ok.mpr ⟨key, hlen, rfl, rfl⟩
    have horder : keyOutOfOrder (previous.map encodeText) (encodeText key) = false := by
      cases previous with
      | none => rfl
      | some p => exact keyOutOfOrder_encodeText.mpr (List.isChain_cons_cons.mp hkeys).1
    have hchain : ((some key).toList ++ entries.map Prod.fst).IsChain KeyLt := by
      cases previous with
      | none => exact hkeys
      | some p => exact (List.isChain_cons_cons.mp hkeys).2
    have hbudget' : (item.encode ++ (encodeEntries entries ++ rest)).length ≤ budget := by
      rw [List.length_append] at hbudget
      omega
    obtain ⟨budget₁, h₁, hvalid⟩ := hitem budget _ hbudget'
    obtain ⟨budget₂, h₂, hrest⟩ := ih (some key) hchain hentries budget₁ rest h₁
    refine ⟨budget₂, h₂, ?_⟩
    simp only [List.length_cons, validateEntries, hkey, horder, hvalid, Except.require, bind,
      Except.bind, Bool.not_false, if_true]
    exact hrest

end Complete

/-- Past a shortest head of another major type the validator goes on with the content. -/
theorem validateCommitmentValue_head {levels budget : Nat} {major : UInt8} {n : UInt64}
    {rest : Bytes} (hmajor : major < 7) :
    validateCommitmentValue (levels + 1) (budget + 1) (DetCbor.head major n ++ rest)
      = validateContent (validateCommitmentValue levels) major n budget rest := by
  obtain ⟨hfield, hinfo⟩ := initial_fields (UInt8.lt_trans hmajor (by decide))
    (UInt8.lt_trans (shortestInfo_lt n) (by decide : (28 : UInt8) < 32))
  have hread : readCborArgument (shortestArgument n ++ rest) (shortestInfo n) = .ok (n, rest) :=
    readCborArgument_eq_ok.mpr ⟨rfl, rfl⟩
  have hne : major ≠ 7 := UInt8.ne_of_lt hmajor
  rw [head_eq_cons, List.cons_append]
  simp only [validateCommitmentValue, consumeItem, hfield, hinfo, hne, if_false]
  simp only [bind, Except.bind, hread]

/-- An item is accepted when the content past its head is. -/
theorem accepts_of_content {levels : Nat} {item : Item} (major : UInt8) (n : UInt64)
    (body : Bytes) (hmajor : major < 7) (hencode : item.encode = DetCbor.head major n ++ body)
    (hcontent : ∀ budget rest, (body ++ rest).length ≤ budget →
      ∃ budget', rest.length ≤ budget'
        ∧ validateContent (validateCommitmentValue levels) major n budget (body ++ rest)
          = .ok (budget', rest)) :
    Accepts (validateCommitmentValue (levels + 1)) item := by
  intro budget rest h
  have hpos : 0 < (DetCbor.head major n).length := by simp [head_eq_cons]
  rw [hencode, List.append_assoc] at h ⊢
  rw [List.length_append] at h
  obtain ⟨budget, rfl⟩ : ∃ b, budget = b + 1 := ⟨budget - 1, by omega⟩
  rw [validateCommitmentValue_head hmajor]
  exact hcontent budget rest (by omega)

/-- A simple item is accepted. -/
theorem accepts_simple (levels : Nat) {item : Item} (h : IsSimple item) :
    Accepts (validateCommitmentValue (levels + 1)) item := by
  intro budget rest hbudget
  obtain ⟨initial, input, heq, hmajor, hvalid⟩ := validateSimpleOrFloat_complete h rest
  have hpos := List.length_pos_of_ne_nil item.encode_ne_nil
  rw [List.length_append] at hbudget
  obtain ⟨budget, rfl⟩ : ∃ b, budget = b + 1 := ⟨budget - 1, by omega⟩
  refine ⟨budget, by omega, ?_⟩
  rw [heq]
  simp only [validateCommitmentValue, consumeItem, hmajor, hvalid, if_true, bind, Except.bind, pure,
    Except.pure]

/-- A byte string is accepted. -/
theorem accepts_bytes (levels : Nat) {b : Bytes} (hlen : b.length < 2 ^ 64) :
    Accepts (validateCommitmentValue (levels + 1)) (.bytes b) := by
  refine accepts_of_content 2 (UInt64.ofNat b.length) b (by decide) rfl ?_
  intro budget rest h
  have htake : takeBytes "truncated CBOR string" b.length (b ++ rest) = .ok (b, rest) :=
    takeBytes_eq_ok.mpr ⟨rfl, rfl⟩
  rw [List.length_append] at h
  refine ⟨budget, by omega, ?_⟩
  simp only [validateContent, UInt64.toNat_ofNat_of_lt64 hlen, htake, bind, Except.bind, pure,
    Except.pure]

/-- A text is accepted. -/
theorem accepts_text (levels : Nat) {s : String} (hlen : (utf8Bytes s).length < 2 ^ 64) :
    Accepts (validateCommitmentValue (levels + 1)) (.text s) := by
  refine accepts_of_content 3 (UInt64.ofNat (utf8Bytes s).length) (utf8Bytes s) (by decide) rfl ?_
  intro budget rest h
  have htake : takeBytes "truncated CBOR string" (utf8Bytes s).length (utf8Bytes s ++ rest)
      = .ok (utf8Bytes s, rest) := takeBytes_eq_ok.mpr ⟨rfl, rfl⟩
  have hutf8 : ensureUtf8 "CBOR text is not UTF-8" (utf8Bytes s) = .ok () :=
    ensureUtf8_eq_ok.mpr ⟨s, rfl⟩
  rw [List.length_append] at h
  refine ⟨budget, by omega, ?_⟩
  simp only [validateContent, UInt64.toNat_ofNat_of_lt64 hlen, htake, hutf8, bind, Except.bind,
    pure, Except.pure]

/-- An array is accepted where its items are, one level down. -/
theorem accepts_array {levels : Nat} {items : List Item} (hlen : items.length < 2 ^ 64)
    (hitems : ∀ item ∈ items, Accepts (validateCommitmentValue levels) item) :
    Accepts (validateCommitmentValue (levels + 1)) (.array items) := by
  refine accepts_of_content 4 (UInt64.ofNat items.length) (encodeItems items) (by decide) rfl ?_
  intro budget rest h
  obtain ⟨budget', h', hvalid⟩ := validateItems_complete hitems budget rest h
  refine ⟨budget', h', ?_⟩
  have hge := length_encodeItems_ge items
  have hfits : ensureCollectionFits (encodeItems items ++ rest) (UInt64.ofNat items.length) 1
      = .ok items.length := by
    refine ensureCollectionFits_eq_ok.mpr ⟨(UInt64.toNat_ofNat_of_lt64 hlen).symm, by omega, ?_⟩
    rw [List.length_append]
    omega
  simp only [validateContent, hfits, bind, Except.bind]
  exact hvalid

/-- A map is accepted where its entries are, one level down. -/
theorem accepts_map {levels : Nat} {entries : List (String × Item)}
    (hlen : entries.length < 2 ^ 63) (hkeys : (entries.map Prod.fst).Pairwise KeyLt)
    (hentries : ∀ entry ∈ entries, (utf8Bytes entry.1).length < 2 ^ 64
      ∧ Accepts (validateCommitmentValue levels) entry.2) :
    Accepts (validateCommitmentValue (levels + 1)) (.map entries) := by
  refine accepts_of_content 5 (UInt64.ofNat entries.length) (encodeEntries entries) (by decide)
    rfl ?_
  intro budget rest h
  obtain ⟨budget', h', hvalid⟩ := validateEntries_complete none
    (List.isChain_iff_pairwise.mpr hkeys) hentries budget rest h
  refine ⟨budget', h', ?_⟩
  have hge := length_encodeEntries_ge entries
  have hfits : ensureCollectionFits (encodeEntries entries ++ rest) (UInt64.ofNat entries.length) 2
      = .ok entries.length := by
    refine ensureCollectionFits_eq_ok.mpr
      ⟨(UInt64.toNat_ofNat_of_lt64 (by omega)).symm, by omega, ?_⟩
    rw [List.length_append]
    omega
  simp only [validateContent, validateCommitmentMap, hfits, bind, Except.bind]
  exact hvalid

/-- An item at one level, given that its children are accepted one level down. -/
theorem accepts_of_children {levels : Nat} {item : Item} (hdet : item.Deterministic levels)
    (hchildren : ∀ child, WithinLevels levels child →
      Accepts (validateCommitmentValue levels) child) :
    Accepts (validateCommitmentValue (levels + 1)) item := by
  cases item with
  | uint n =>
    refine accepts_of_content 0 n [] (by decide) (by simp [Item.encode]) ?_
    exact fun budget rest h => ⟨budget, h, rfl⟩
  | nint n =>
    refine accepts_of_content 1 n [] (by decide) (by simp [Item.encode]) ?_
    exact fun budget rest h => ⟨budget, h, rfl⟩
  | bytes b => exact accepts_bytes levels (by cases levels <;> exact hdet)
  | text s => exact accepts_text levels (by cases levels <;> exact hdet)
  | array items =>
    cases levels with
    | zero =>
      rw [show items = [] from hdet]
      exact accepts_array (by simp) (by simp)
    | succ levels => exact accepts_array hdet.1 fun item hitem => hchildren item (hdet.2 item hitem)
  | map entries =>
    cases levels with
    | zero =>
      rw [show entries = [] from hdet]
      exact accepts_map (by simp) (by simp) (by simp)
    | succ levels =>
      obtain ⟨hlen, hkeys, hentries⟩ := hdet
      exact accepts_map hlen hkeys fun entry hentry =>
        ⟨(hentries entry hentry).1, hchildren entry.2 (hentries entry hentry).2⟩
  | bool b => exact accepts_simple levels (.bool b)
  | null => exact accepts_simple levels .null
  | float f => exact accepts_simple levels (.float (by cases levels <;> exact hdet))

/-- The encoding of a deterministic item within the levels is accepted. -/
theorem validateCommitmentValue_accepts {levels : Nat} {item : Item}
    (h : WithinLevels levels item) : Accepts (validateCommitmentValue levels) item := by
  induction levels generalizing item with
  | zero => exact h.elim
  | succ levels ih => exact accepts_of_children h fun child => ih

/-! ## The seven fields -/

/-- A number of the record is read from an unsigned item alone. -/
theorem readUintItem_eq_ok {input rest : Bytes} {field : String} {n : UInt64} :
    readUintItem input field = .ok (n, rest) ↔ input = (Item.uint n).encode ++ rest := by
  simp only [readUintItem, Except.bind_eq_ok, Except.require_eq_ok, decide_eq_true_eq]
  constructor
  · rintro ⟨⟨major, n', rest'⟩, hread, u, rfl, h⟩
    cases h
    exact (readTypedArgument_eq_ok.mp hread).2
  · rintro rfl
    exact ⟨(0, n, rest), readTypedArgument_eq_ok.mpr ⟨by decide, rfl⟩, (), rfl, rfl⟩

/-- The device is read from eight bytes alone. -/
theorem readDeviceId_eq_ok {input rest : Bytes} {deviceId : DeviceId} :
    readDeviceId input = .ok (deviceId, rest)
      ↔ input = (Item.bytes deviceId.1).encode ++ rest := by
  simp only [readDeviceId, Except.bind_eq_ok, Except.require_eq_ok, decide_eq_true_eq]
  constructor
  · rintro ⟨⟨major, n, rest'⟩, hread, u, ⟨rfl, rfl⟩, h⟩
    obtain ⟨-, rfl⟩ := readTypedArgument_eq_ok.mp hread
    split at h
    · next hlen =>
      cases h
      have htake : (rest'.take 8).length = 8 := by simpa using hlen
      rw [Item.encode, lengthHead, htake, List.append_assoc, List.take_append_drop]
      rfl
    · cases h
  · rintro rfl
    obtain ⟨bytes, hlen⟩ := deviceId
    refine ⟨(2, 8, bytes ++ rest), readTypedArgument_eq_ok.mpr ⟨by decide, ?_⟩, (), ⟨rfl, rfl⟩, ?_⟩
    · rw [Item.encode, lengthHead, hlen, List.append_assoc]
      rfl
    · rw [dif_pos (by simp [hlen])]
      simp only [List.take_left' hlen, List.drop_left' hlen]
      rfl

/-- The item of an optional device time. -/
def deviceTimeItem : Option UInt64 → Item
  | none => .null
  | some t => .uint t

/-- The device time is read from null or an unsigned item alone. -/
theorem readDeviceTime_eq_ok {input rest : Bytes} {deviceTime : Option UInt64} :
    readDeviceTime input = .ok (deviceTime, rest)
      ↔ input = (deviceTimeItem deviceTime).encode ++ rest := by
  -- the head of a number is not the null byte
  have hne : ∀ n : UInt64, ((DetCbor.head 0 n).head? = some 0xf6) = False := by
    intro n
    have hlt := UInt8.lt_iff_toNat_lt.mp (shortestInfo_lt n)
    have hzero : ((0 : UInt8) <<< 5) ||| shortestInfo n = shortestInfo n := by simp
    rw [head_eq_cons, hzero]
    simp only [List.head?_cons, Option.some.injEq, eq_iff_iff, iff_false]
    rintro h
    rw [h] at hlt
    simp at hlt
  unfold readDeviceTime
  split
  -- a null byte: no device time
  · next hnull =>
    obtain ⟨tail, rfl⟩ : ∃ tail, input = 0xf6 :: tail := by
      cases input with
      | nil => simp at hnull
      | cons b tail => exact ⟨tail, by simpa using hnull⟩
    cases deviceTime with
    | none =>
      simp only [List.tail_cons, Except.ok.injEq, Prod.mk.injEq, true_and, deviceTimeItem,
        Item.encode, List.cons_append, List.nil_append, List.cons.injEq]
    | some t =>
      simp only [List.tail_cons, Except.ok.injEq, Prod.mk.injEq, reduceCtorEq, false_and,
        deviceTimeItem, Item.encode, false_iff]
      intro h
      have hhead := congrArg List.head? h
      rw [List.head?_append_of_ne_nil _ (by simp [head_eq_cons])] at hhead
      have := hne t
      simp_all
  -- anything else is read as a number
  · next hnull =>
    simp only [Except.bind_eq_ok]
    constructor
    · rintro ⟨⟨n, rest'⟩, hread, h⟩
      cases h
      exact readUintItem_eq_ok.mp hread
    · rintro rfl
      cases deviceTime with
      | none => simp [deviceTimeItem, Item.encode] at hnull
      | some t => exact ⟨(t, rest), readUintItem_eq_ok.mpr rfl, rfl⟩

/-- The array a canonical record is the encoding of. -/
def recordItem (m : CanonicalRecordMetadataV1) (payload : Item) : Item :=
  .array [.uint 1, .bytes m.deviceId.1, .uint m.fc, .uint m.ingestTime,
    deviceTimeItem m.deviceTime, .uint m.kind, payload]

/-- The encoding of a record, field by field. -/
theorem encode_recordItem (m : CanonicalRecordMetadataV1) (payload : Item) :
    (recordItem m payload).encode
      = DetCbor.head 4 7 ++ ((Item.uint 1).encode ++ ((Item.bytes m.deviceId.1).encode
        ++ ((Item.uint m.fc).encode ++ ((Item.uint m.ingestTime).encode
        ++ ((deviceTimeItem m.deviceTime).encode ++ ((Item.uint m.kind).encode
        ++ (payload.encode ++ []))))))) := by
  simp only [recordItem, Item.encode, encodeItems, lengthHead, List.length_cons, List.length_nil]
  rfl

/-- The record validator accepts exactly the deterministic encodings of records whose payload is
nested at most 32 levels below its root. -/
theorem validateCanonicalRecord_eq_ok {b : Bytes} {m : CanonicalRecordMetadataV1} :
    validateCanonicalRecord b = .ok m
      ↔ m.version = 1 ∧ ∃ payload : Item, payload.Deterministic maxCborNestingDepth
          ∧ b = (recordItem m payload).encode := by
  simp only [validateCanonicalRecord, Except.bind_eq_ok, Except.require_eq_ok, decide_eq_true_eq,
    encode_recordItem]
  constructor
  · rintro ⟨⟨major, len, rest⟩, hhead, u, ⟨rfl, rfl⟩, ⟨version, rest₁⟩, hversion, u₁, rfl,
      ⟨deviceId, rest₂⟩, hdevice, ⟨fc, rest₃⟩, hfc, ⟨ingestTime, rest₄⟩, hingest,
      ⟨deviceTime, rest₅⟩, htime, ⟨kind, rest₆⟩, hkind, ⟨budget, rest₇⟩, hpayload, u₂, rfl, h⟩
    cases h
    obtain ⟨payload, hwithin, hrest₆⟩ := validateCommitmentValue_sound _ _ _ _ _ hpayload
    refine ⟨rfl, payload, hwithin, ?_⟩
    dsimp only at hversion hdevice hfc hingest htime hkind hrest₆ ⊢
    rw [(readTypedArgument_eq_ok.mp hhead).2, readUintItem_eq_ok.mp hversion,
      readDeviceId_eq_ok.mp hdevice, readUintItem_eq_ok.mp hfc, readUintItem_eq_ok.mp hingest,
      readDeviceTime_eq_ok.mp htime, readUintItem_eq_ok.mp hkind, hrest₆]
  · rintro ⟨hversion, payload, hdet, hb⟩
    have hwithin : WithinLevels rootLevels payload := hdet
    obtain ⟨budget, -, hpayload⟩ := validateCommitmentValue_accepts hwithin b.length []
      (by rw [hb]; simp only [List.length_append]; omega)
    refine ⟨(4, 7, _), readTypedArgument_eq_ok.mpr ⟨by decide, hb⟩, (), ⟨rfl, rfl⟩,
      (1, _), readUintItem_eq_ok.mpr rfl, (), rfl, (m.deviceId, _), readDeviceId_eq_ok.mpr rfl,
      (m.fc, _), readUintItem_eq_ok.mpr rfl, (m.ingestTime, _), readUintItem_eq_ok.mpr rfl,
      (m.deviceTime, _), readDeviceTime_eq_ok.mpr rfl, (m.kind, _), readUintItem_eq_ok.mpr rfl,
      (budget, []), hpayload, (), rfl, ?_⟩
    obtain ⟨version, deviceId, fc, ingestTime, deviceTime, kind⟩ := m
    cases hversion
    rfl

/-- The record validator is the definition of a canonical record: it accepts the deterministic
encodings and no other bytes, it returns their metadata, and a record has one accepted encoding,
however the entries of its maps were ordered and its floats were written. -/
theorem canonicalRecord_exact :
    (∀ (b : Bytes) (m : CanonicalRecordMetadataV1),
        validateCanonicalRecord b = .ok m
          ↔ m.version = 1 ∧ ∃ payload : Item, payload.Deterministic maxCborNestingDepth
              ∧ b = (recordItem m payload).encode)
      ∧ ∀ (b b' : Bytes) (m : CanonicalRecordMetadataV1) (payload payload' : Item),
          payload.Deterministic maxCborNestingDepth → b = (recordItem m payload).encode →
          payload'.Deterministic maxCborNestingDepth → b' = (recordItem m payload').encode →
          Item.Same payload payload' → b = b' := by
  refine ⟨fun b m => validateCanonicalRecord_eq_ok, ?_⟩
  intro b b' m payload payload' hdet hb hdet' hb' hsame
  rw [hb, hb', hdet.eq_of_same hdet' hsame]

end TrackOne
