import TrackOne.Lib.TreeMap
import TrackOne.Vtl.Segment

/-!
# Decoding segment records

The decoder of `trackone-ledger/src/vtl.rs`: the recursive parser for the CBOR subset of the
segment schema, the layer that takes fields out of a map, and `decodeSegmentRecord`, followed by
the constructors that extend a chain from the bytes of a predecessor.

## Architecture
* `parseCborValue` recurses on the levels that are left, so the source's depth check is the empty
  number of levels; the loops over collections are `parseItems` and `parseEntries`.
* `Reads` says that a parser reads one value back whatever follows it. `parseCborValue_reads`
  proves it of every deterministic value, with the remaining length as the bound on the budget:
  an item takes one byte or more, so the budget never runs out on encoder output.
* `segmentFromFields_toValue` evaluates the field layer on the encoder's key sequence.
* `decodeSegmentRecord_eq_ok` puts the two together.
-/

namespace TrackOne

open DetCbor TreeMap

inductive CborValue where
  | uint (n : UInt64)
  | bytes (b : Bytes)
  | text (s : String)
  | array (items : List CborValue)
  | map (entries : List (String × CborValue))
  | null

/-! ## The parser -/

/-- The loop over the items of an array. -/
def parseItems (parse : Nat → Bytes → DecodeResult (CborValue × Nat × Bytes)) :
    Nat → Nat → Bytes → DecodeResult (List CborValue × Nat × Bytes)
  | 0, budget, input => .ok ([], budget, input)
  | count + 1, budget, input => do
    let (item, budget, input) ← parse budget input
    let (items, budget, input) ← parseItems parse count budget input
    pure (item :: items, budget, input)

/-- The loop over the entries of a map, with the raw bytes of the key before. -/
def parseEntries (parse : Nat → Bytes → DecodeResult (CborValue × Nat × Bytes)) :
    Nat → Option Bytes → Nat → Bytes →
      DecodeResult (List (String × CborValue) × Nat × Bytes)
  | 0, _, budget, input => .ok ([], budget, input)
  | count + 1, previousKey, budget, input => do
    let (key, budget, rest) ← parse budget input
    let rawKey := input.take (input.length - rest.length)
    if keyOutOfOrder previousKey rawKey then
      throw (.nonCanonical "CBOR map keys are not in deterministic order")
    let .text key := key
      | throw (.invalidField "segment map keys must be text")
    let (value, budget, rest) ← parse budget rest
    let (entries, budget, rest) ← parseEntries parse count (some rawKey) budget rest
    pure ((key, value) :: entries, budget, rest)

/-- The match of `parse_cbor_value` on the major type, after the head; `parse` is the parser one
level down. -/
def parseContent (parse : Nat → Bytes → DecodeResult (CborValue × Nat × Bytes))
    (major ai : UInt8) (len : UInt64) (budget : Nat) (rest : Bytes) :
    DecodeResult (CborValue × Nat × Bytes) :=
  match major with
  | 0 => pure (.uint len, budget, rest)
  | 2 => do
    let (value, rest) ← takeBytes "truncated CBOR byte string" len.toNat rest
    pure (.bytes value, budget, rest)
  | 3 => do
    let (raw, rest) ← takeBytes "truncated CBOR text" len.toNat rest
    let text ← Except.ofOption (.malformed "CBOR text is not UTF-8") (ofUtf8? raw)
    pure (.text text, budget, rest)
  | 4 => do
    let count ← ensureCollectionFits rest len 1
    let (items, budget, rest) ← parseItems parse count budget rest
    pure (.array items, budget, rest)
  | 5 => do
    let count ← ensureCollectionFits rest len 2
    let (entries, budget, rest) ← parseEntries parse count none budget rest
    pure (.map entries, budget, rest)
  | 7 =>
    if ai = 22 then pure (.null, budget, rest)
    else throw (.invalidField "unsupported CBOR value in segment artifact")
  | 1 => throw (.invalidField "unsupported CBOR value in segment artifact")
  | 6 => throw (.invalidField "unsupported CBOR value in segment artifact")
  | _ => throw (.malformed "invalid CBOR major type")

/-- `parse_cbor_value`, on the levels left: `MAX_CBOR_NESTING_DEPTH + 1 - depth`. -/
def parseCborValue : Nat → Nat → Bytes → DecodeResult (CborValue × Nat × Bytes)
  | 0, _, _ => .error (.resourceLimit "CBOR nesting depth exceeds the supported limit")
  | levels + 1, budget, input => do
    let budget ← consumeItem budget
    match input with
    | [] => throw (.malformed "truncated CBOR item")
    | initial :: rest =>
      let (len, rest) ← readCborArgument rest (initial &&& 0x1f)
      parseContent (parseCborValue levels) (initial >>> 5) (initial &&& 0x1f) len budget rest

/-! ## Taking fields -/

/-- The `BTreeMap<String, CborValue>` the fields are taken from. -/
abbrev Fields := Std.ExtTreeMap String CborValue compare

def intoMap : CborValue → DecodeResult Fields
  | .map entries => .ok (Std.ExtTreeMap.ofList entries compare)
  | _ => .error (.invalidField "segment artifact must be a CBOR map")

def take (fields : Fields) (name : String) : DecodeResult (CborValue × Fields) := do
  let value ← Except.ofOption (.missingField name) fields[name]?
  pure (value, fields.erase name)

def takeText (fields : Fields) (name : String) : DecodeResult (String × Fields) := do
  match ← take fields name with
  | (.text value, fields) => pure (value, fields)
  | _ => throw (.invalidField name)

def takeUint (fields : Fields) (name : String) : DecodeResult (UInt64 × Fields) := do
  match ← take fields name with
  | (.uint value, fields) => pure (value, fields)
  | _ => throw (.invalidField name)

/-- A byte string of 32 bytes, in `take_sha256` and `take_sha256_array`. -/
def sha256Value (name : String) : CborValue → DecodeResult Digest
  | .bytes value => Except.ofOption (.invalidField name) (Digest.ofBytes? value)
  | _ => .error (.invalidField name)

def takeSha256 (fields : Fields) (name : String) : DecodeResult (Digest × Fields) := do
  let (value, fields) ← take fields name
  let digest ← sha256Value name value
  pure (digest, fields)

def takeSha256Array (fields : Fields) (name : String) : DecodeResult (List Digest × Fields) := do
  match ← take fields name with
  | (.array items, fields) =>
    let digests ← items.mapM (sha256Value name)
    pure (digests, fields)
  | _ => throw (.invalidField name)

def optionalUint (fields : Fields) (name : String) : DecodeResult (Option UInt64 × Fields) := do
  match ← take fields name with
  | (.null, fields) => pure (none, fields)
  | (.uint value, fields) => pure (some value, fields)
  | _ => throw (.invalidField name)

/-- The check that no field is left: the first one in key order is reported. -/
def noFieldsLeft (fields : Fields) : DecodeResult Unit :=
  match fields.keys with
  | [] => .ok ()
  | field :: _ => .error (.unexpectedField field)

/-- The message `decode_policy` gives for an invalid policy. -/
def policyFieldMessage : ClosurePolicyError → String
  | .interval => "closure policy limits must be positive"
  | .batchRecordLimit => "closure policy limits must be positive"
  | .recordLimit => "record_limit"
  | .sizeLimitBytes => "size_limit_bytes"

/-- The `empty_mode` member of a policy. -/
def emptyModeOfText (text : String) : DecodeResult EmptyMode :=
  if text = "emit" then .ok .emit
  else if text = "suppress" then .ok .suppress
  else .error (.invalidField "invalid empty_mode")

def decodePolicy (value : CborValue) : DecodeResult ClosurePolicy := do
  let fields ← intoMap value
  let (version, fields) ← takeUint fields "version"
  Except.require (.invalidField "closure policy version must be 1") (version = 1)
  let (intervalMs, fields) ← takeUint fields "interval_ms"
  let (batchRecordLimit, fields) ← takeUint fields "batch_record_limit"
  let (recordLimit, fields) ← optionalUint fields "record_limit"
  let (sizeLimitBytes, fields) ← optionalUint fields "size_limit_bytes"
  let (mode, fields) ← takeText fields "empty_mode"
  let emptyMode ← emptyModeOfText mode
  noFieldsLeft fields
  let policy : ClosurePolicy :=
    { intervalMs, batchRecordLimit, recordLimit, sizeLimitBytes, emptyMode }
  policy.validate.mapError fun error => .invalidField (policyFieldMessage error)
  pure policy

/-- The part of `decode_segment_record` between the parser and the final checks. -/
def segmentFromFields (value : CborValue) : DecodeResult SegmentRecord := do
  let fields ← intoMap value
  let (version, fields) ← takeUint fields "version"
  Except.require (.invalidField "segment version must be 1") (version = 1)
  let (profile, fields) ← takeText fields "commitment_profile_id"
  Except.require (.invalidField "unsupported commitment profile") (profile = commitmentProfileId)
  let (ledgerId, fields) ← takeText fields "ledger_id"
  let (segmentNumber, fields) ← takeUint fields "segment_number"
  let (policyValue, fields) ← take fields "closure_policy"
  let closurePolicy ← decodePolicy policyValue
  let (closeReason, fields) ← takeText fields "close_reason"
  let (prevSegmentSha256, fields) ← takeSha256 fields "prev_segment_sha256"
  let (recordCount, fields) ← takeUint fields "record_count"
  let (batchRoots, fields) ← takeSha256Array fields "batch_roots"
  let (segmentRoot, fields) ← takeSha256 fields "segment_root"
  noFieldsLeft fields
  pure {
    commitmentProfileId := profile, ledgerId, segmentNumber, closurePolicy, closeReason,
    prevSegmentSha256, recordCount, batchRoots, segmentRoot }

def decodeSegmentRecord [Sha256] (bytes : Bytes) : DecodeResult SegmentRecord := do
  let (value, _, rest) ← parseCborValue rootLevels bytes.length bytes
  Except.require (.malformed "segment CBOR has trailing bytes") (rest = [])
  let record ← segmentFromFields value
  record.validateDetailed.mapError fun error => .invariant error.toString
  let canonical ← record.canonicalCborBytes.mapError .invariant
  Except.require (.nonCanonical "segment CBOR does not round-trip canonically")
    (canonical = bytes)
  pure record

/-! ## Encoder output is read back -/

mutual

/-- The deterministic item a parsed value stands for. -/
def CborValue.toItem : CborValue → Item
  | .uint n => .uint n
  | .bytes b => .bytes b
  | .text s => .text s
  | .array items => .array (toItems items)
  | .map entries => .map (toEntries entries)
  | .null => .null

def toItems : List CborValue → List Item
  | [] => []
  | value :: values => value.toItem :: toItems values

def toEntries : List (String × CborValue) → List (String × Item)
  | [] => []
  | (key, value) :: entries => (key, value.toItem) :: toEntries entries

end

/-- The items of an array, one by one. -/
theorem toItems_eq_map (values : List CborValue) :
    toItems values = values.map CborValue.toItem := by
  induction values with
  | nil => rfl
  | cons value values ih => simp [toItems, ih]

/-- The entries of a map, one by one. -/
theorem toEntries_eq_map (entries : List (String × CborValue)) :
    toEntries entries = entries.map fun entry => (entry.1, entry.2.toItem) := by
  induction entries with
  | nil => rfl
  | cons entry entries ih => simp [toEntries, ih]

/-- The parser reads the value back, whatever follows it, as long as the budget covers the bytes
that are left; and it leaves a budget that covers the bytes that are left then. -/
def Reads (parse : Nat → Bytes → DecodeResult (CborValue × Nat × Bytes)) (value : CborValue) :
    Prop :=
  ∀ budget rest, (value.toItem.encode ++ rest).length ≤ budget →
    ∃ budget', rest.length ≤ budget'
      ∧ parse budget (value.toItem.encode ++ rest) = .ok (value, budget', rest)

/-- Past a shortest head the parser goes on with the content. -/
theorem parseCborValue_head {levels budget : Nat} {major : UInt8} {n : UInt64} {rest : Bytes}
    (hmajor : major < 8) :
    parseCborValue (levels + 1) (budget + 1) (DetCbor.head major n ++ rest)
      = parseContent (parseCborValue levels) major (shortestInfo n) n budget rest := by
  obtain ⟨hfield, hinfo⟩ := initial_fields hmajor
    (UInt8.lt_trans (shortestInfo_lt n) (by decide : (28 : UInt8) < 32))
  have hread : readCborArgument (shortestArgument n ++ rest) (shortestInfo n) = .ok (n, rest) :=
    readCborArgument_eq_ok.mpr ⟨rfl, rfl⟩
  rw [head_eq_cons, List.cons_append]
  simp only [parseCborValue, consumeItem, hfield, hinfo]
  simp only [bind, Except.bind, hread]

/-- A parser that reads each item back reads the array back. -/
theorem parseItems_reads {parse : Nat → Bytes → DecodeResult (CborValue × Nat × Bytes)}
    {items : List CborValue} (hparse : ∀ item ∈ items, Reads parse item) :
    ∀ budget rest, (encodeItems (toItems items) ++ rest).length ≤ budget →
      ∃ budget', rest.length ≤ budget'
        ∧ parseItems parse items.length budget (encodeItems (toItems items) ++ rest)
          = .ok (items, budget', rest) := by
  induction items with
  | nil => exact fun budget rest h => ⟨budget, h, rfl⟩
  | cons item items ih =>
    intro budget rest h
    simp only [toItems, encodeItems, List.append_assoc] at h ⊢
    obtain ⟨budget₁, h₁, hitem⟩ := hparse item List.mem_cons_self budget _ h
    obtain ⟨budget₂, h₂, hitems⟩ :=
      ih (fun item' hmem => hparse item' (List.mem_cons_of_mem _ hmem)) budget₁ rest h₁
    refine ⟨budget₂, h₂, ?_⟩
    simp only [List.length_cons, parseItems, hitem, hitems, bind, Except.bind, pure, Except.pure]

/-- A parser that reads each key and value back reads the map back, its keys in order. -/
theorem parseEntries_reads {parse : Nat → Bytes → DecodeResult (CborValue × Nat × Bytes)}
    {entries : List (String × CborValue)} (previous : Option String)
    (hsorted : (previous.toList ++ entries.map Prod.fst).IsChain KeyLt)
    (hkey : ∀ entry ∈ entries, Reads parse (.text entry.1))
    (hvalue : ∀ entry ∈ entries, Reads parse entry.2) :
    ∀ budget rest, (encodeEntries (toEntries entries) ++ rest).length ≤ budget →
      ∃ budget', rest.length ≤ budget'
        ∧ parseEntries parse entries.length (previous.map encodeText) budget
            (encodeEntries (toEntries entries) ++ rest)
          = .ok (entries, budget', rest) := by
  induction entries generalizing previous with
  | nil => exact fun budget rest h => ⟨budget, h, rfl⟩
  | cons entry entries ih =>
    intro budget rest h
    obtain ⟨key, value⟩ := entry
    simp only [toEntries, encodeEntries, List.append_assoc] at h ⊢
    have hkeyReads : Reads parse (.text key) := hkey (key, value) List.mem_cons_self
    have hvalueReads : Reads parse value := hvalue (key, value) List.mem_cons_self
    obtain ⟨budget₁, h₁, hkeyRead⟩ := hkeyReads budget _ h
    obtain ⟨budget₂, h₂, hvalueRead⟩ := hvalueReads budget₁ _ h₁
    simp only [CborValue.toItem, Item.encode] at hkeyRead
    -- the raw key is what the key parser consumed
    have hraw : ∀ tail : Bytes,
        (encodeText key ++ tail).take ((encodeText key ++ tail).length - tail.length)
          = encodeText key := by
      intro tail
      simp
    -- the keys are in order: the raw key is above the previous one
    have horder : keyOutOfOrder (previous.map encodeText) (encodeText key) = false := by
      cases previous with
      | none => rfl
      | some p =>
        refine keyOutOfOrder_encodeText.mpr ?_
        simp only [Option.toList_some, List.map_cons, List.cons_append, List.nil_append,
          List.isChain_cons_cons] at hsorted
        exact hsorted.1
    have hchain : ((some key).toList ++ entries.map Prod.fst).IsChain KeyLt := by
      cases previous with
      | none => simpa using hsorted
      | some p =>
        simp only [Option.toList_some, List.map_cons, List.cons_append, List.nil_append,
          List.isChain_cons_cons] at hsorted
        exact hsorted.2
    -- the rest of the entries, after this key
    obtain ⟨budget₃, h₃, hentries⟩ := ih (some key) hchain
      (fun e he => hkey e (List.mem_cons_of_mem _ he))
      (fun e he => hvalue e (List.mem_cons_of_mem _ he)) budget₂ rest h₂
    refine ⟨budget₃, h₃, ?_⟩
    simp only [Option.map_some] at hentries
    simp only [List.length_cons, parseEntries, hkeyRead, hraw, horder, hvalueRead, hentries, bind,
      Except.bind, pure, Except.pure, Bool.false_eq_true, if_false]

/-- A value with a head: the head takes one item of the budget and a byte or more, so the budget
covers what is left for the content. -/
theorem reads_of_content {levels : Nat} {value : CborValue} (major : UInt8) (n : UInt64)
    (body : Bytes) (hmajor : major < 8)
    (hencode : value.toItem.encode = DetCbor.head major n ++ body)
    (hcontent : ∀ budget rest, (body ++ rest).length ≤ budget →
      ∃ budget', rest.length ≤ budget'
        ∧ parseContent (parseCborValue levels) major (shortestInfo n) n budget (body ++ rest)
          = .ok (value, budget', rest)) :
    Reads (parseCborValue (levels + 1)) value := by
  intro budget rest h
  have hpos : 0 < (DetCbor.head major n).length := by simp [head_eq_cons]
  rw [hencode, List.append_assoc] at h ⊢
  rw [List.length_append] at h
  obtain ⟨budget, rfl⟩ : ∃ b, budget = b + 1 := ⟨budget - 1, by omega⟩
  rw [parseCborValue_head hmajor]
  exact hcontent budget rest (by omega)

/-- An unsigned integer is read back. -/
theorem reads_uint (levels : Nat) (n : UInt64) :
    Reads (parseCborValue (levels + 1)) (.uint n) := by
  refine reads_of_content 0 n [] (by decide) ?_ ?_
  · simp [CborValue.toItem, Item.encode]
  · exact fun budget rest h => ⟨budget, h, rfl⟩

/-- A byte string is read back. -/
theorem reads_bytes (levels : Nat) {b : Bytes} (hlen : b.length < 2 ^ 64) :
    Reads (parseCborValue (levels + 1)) (.bytes b) := by
  refine reads_of_content 2 (UInt64.ofNat b.length) b (by decide) rfl ?_
  intro budget rest h
  have htake : takeBytes "truncated CBOR byte string" b.length (b ++ rest) = .ok (b, rest) :=
    takeBytes_eq_ok.mpr ⟨rfl, rfl⟩
  rw [List.length_append] at h
  refine ⟨budget, by omega, ?_⟩
  simp only [parseContent, UInt64.toNat_ofNat_of_lt64 hlen, htake, bind, Except.bind, pure,
    Except.pure]

/-- A text is read back. -/
theorem reads_text (levels : Nat) {s : String} (hlen : (utf8Bytes s).length < 2 ^ 64) :
    Reads (parseCborValue (levels + 1)) (.text s) := by
  refine reads_of_content 3 (UInt64.ofNat (utf8Bytes s).length) (utf8Bytes s) (by decide) rfl ?_
  intro budget rest h
  have htake : takeBytes "truncated CBOR text" (utf8Bytes s).length (utf8Bytes s ++ rest)
      = .ok (utf8Bytes s, rest) := takeBytes_eq_ok.mpr ⟨rfl, rfl⟩
  rw [List.length_append] at h
  refine ⟨budget, by omega, ?_⟩
  simp only [parseContent, UInt64.toNat_ofNat_of_lt64 hlen, htake, ofUtf8?_utf8Bytes,
    Except.ofOption, bind, Except.bind, pure, Except.pure]

/-- Null is read back. -/
theorem reads_null (levels : Nat) : Reads (parseCborValue (levels + 1)) .null := by
  refine reads_of_content 7 22 [] (by decide) (by decide) ?_
  exact fun budget rest h => ⟨budget, h, rfl⟩

/-- An array is read back where its items are, one level down. -/
theorem reads_array {levels : Nat} {items : List CborValue} (hlen : items.length < 2 ^ 64)
    (hitems : ∀ item ∈ items, Reads (parseCborValue levels) item) :
    Reads (parseCborValue (levels + 1)) (.array items) := by
  have hlength : (toItems items).length = items.length := by simp [toItems_eq_map]
  refine reads_of_content 4 (UInt64.ofNat items.length) (encodeItems (toItems items))
    (by decide) ?_ ?_
  · simp [CborValue.toItem, Item.encode, lengthHead, hlength]
  · intro budget rest h
    obtain ⟨budget', h', hparse⟩ := parseItems_reads hitems budget rest h
    refine ⟨budget', h', ?_⟩
    have hge := length_encodeItems_ge (toItems items)
    have hfits : ensureCollectionFits (encodeItems (toItems items) ++ rest)
        (UInt64.ofNat items.length) 1 = .ok items.length := by
      refine ensureCollectionFits_eq_ok.mpr ⟨(UInt64.toNat_ofNat_of_lt64 hlen).symm, by omega, ?_⟩
      rw [List.length_append]
      omega
    simp only [parseContent, hfits, hparse, bind, Except.bind, pure, Except.pure]

/-- A map with its keys in order is read back where its entries are, one level down. -/
theorem reads_map {levels : Nat} {entries : List (String × CborValue)}
    (hlen : entries.length < 2 ^ 63) (hsorted : (entries.map Prod.fst).Pairwise KeyLt)
    (hkey : ∀ entry ∈ entries, Reads (parseCborValue levels) (.text entry.1))
    (hvalue : ∀ entry ∈ entries, Reads (parseCborValue levels) entry.2) :
    Reads (parseCborValue (levels + 1)) (.map entries) := by
  have hlength : (toEntries entries).length = entries.length := by simp [toEntries_eq_map]
  refine reads_of_content 5 (UInt64.ofNat entries.length) (encodeEntries (toEntries entries))
    (by decide) ?_ ?_
  · simp [CborValue.toItem, Item.encode, lengthHead, hlength]
  · intro budget rest h
    obtain ⟨budget', h', hparse⟩ := parseEntries_reads none
      (List.isChain_iff_pairwise.mpr hsorted) hkey hvalue budget rest h
    refine ⟨budget', h', ?_⟩
    have hge := length_encodeEntries_ge (toEntries entries)
    have hfits : ensureCollectionFits (encodeEntries (toEntries entries) ++ rest)
        (UInt64.ofNat entries.length) 2 = .ok entries.length := by
      refine ensureCollectionFits_eq_ok.mpr
        ⟨(UInt64.toNat_ofNat_of_lt64 (by omega)).symm, by omega, ?_⟩
      rw [List.length_append]
      omega
    simp only [Option.map_none] at hparse
    simp only [parseContent, hfits, hparse, bind, Except.bind, pure, Except.pure]

/-- The parser reads back every deterministic value that is nested within its levels. -/
theorem parseCborValue_reads {n levels : Nat} {value : CborValue} (hlevels : n < levels)
    (hdet : value.toItem.Deterministic n) : Reads (parseCborValue levels) value := by
  induction n generalizing levels value with
  -- no container is left: an array or a map is empty
  | zero =>
    obtain ⟨levels, rfl⟩ : ∃ l, levels = l + 1 := ⟨levels - 1, by omega⟩
    cases value with
    | uint n => exact reads_uint levels n
    | bytes b => exact reads_bytes levels hdet
    | text s => exact reads_text levels hdet
    | array items =>
      have hnil : items = [] := by
        simpa [CborValue.toItem, Item.Deterministic, toItems_eq_map] using hdet
      subst hnil
      exact reads_array (by simp) (by simp)
    | map entries =>
      have hnil : entries = [] := by
        simpa [CborValue.toItem, Item.Deterministic, toEntries_eq_map] using hdet
      subst hnil
      exact reads_map (by simp) (by simp) (by simp) (by simp)
    | null => exact reads_null levels
  -- the items and the members are one level further in
  | succ n ih =>
    obtain ⟨levels, rfl⟩ : ∃ l, levels = l + 1 := ⟨levels - 1, by omega⟩
    cases value with
    | uint n => exact reads_uint levels n
    | bytes b => exact reads_bytes levels hdet
    | text s => exact reads_text levels hdet
    | array items =>
      simp only [CborValue.toItem, Item.Deterministic, toItems_eq_map, List.length_map,
        List.forall_mem_map] at hdet
      exact reads_array hdet.1 fun item hitem => ih (by omega) (hdet.2 item hitem)
    | map entries =>
      simp only [CborValue.toItem, Item.Deterministic, toEntries_eq_map, List.length_map,
        List.map_map, List.forall_mem_map] at hdet
      obtain ⟨hlen, hsorted, hentries⟩ := hdet
      refine reads_map hlen hsorted (fun entry hentry => ?_) (fun entry hentry => ?_)
      · obtain ⟨l, rfl⟩ : ∃ l, levels = l + 1 := ⟨levels - 1, by omega⟩
        exact reads_text l (hentries entry hentry).1
      · exact ih (by omega) (hentries entry hentry).2
    | null => exact reads_null levels

/-! ## The field layer on encoder output -/

/-- An optional limit as a parsed value. -/
def optionalValue : Option UInt64 → CborValue
  | some v => .uint v
  | none => .null

/-- The value `encode_policy` writes. -/
def ClosurePolicy.toValue (policy : ClosurePolicy) : CborValue :=
  .map [("version", .uint 1), ("empty_mode", .text policy.emptyMode.asStr),
    ("interval_ms", .uint policy.intervalMs), ("record_limit", optionalValue policy.recordLimit),
    ("size_limit_bytes", optionalValue policy.sizeLimitBytes),
    ("batch_record_limit", .uint policy.batchRecordLimit)]

/-- The value `canonical_cbor_bytes` writes. -/
def SegmentRecord.toValue (r : SegmentRecord) : CborValue :=
  .map [("version", .uint 1), ("ledger_id", .text r.ledgerId),
    ("batch_roots", .array (r.batchRoots.map fun root => .bytes root.bytes)),
    ("close_reason", .text r.closeReason), ("record_count", .uint r.recordCount),
    ("segment_root", .bytes r.segmentRoot.bytes), ("closure_policy", r.closurePolicy.toValue),
    ("segment_number", .uint r.segmentNumber),
    ("prev_segment_sha256", .bytes r.prevSegmentSha256.bytes),
    ("commitment_profile_id", .text r.commitmentProfileId)]

/-- An optional number is written as the encoder writes it. -/
theorem encode_optionalValue (o : Option UInt64) :
    (optionalValue o).toItem.encode = cborOptionalUint o := by
  cases o <;> rfl

/-- The value of a policy is written as the encoder writes the policy. -/
theorem encode_policy_toValue (policy : ClosurePolicy) :
    policy.toValue.toItem.encode = encodePolicy policy := by
  simp only [ClosurePolicy.toValue, CborValue.toItem, toEntries, Item.encode, encodeEntries,
    encode_optionalValue, encodePolicy, cborMap, key, cborText, cborUint, putHead, encodeText,
    lengthHead, List.length_cons, List.length_nil, List.append_assoc, List.append_nil]
  rfl

/-- The value of the batch roots is written as the encoder writes them. -/
theorem encode_batchRoots (roots : List Digest) :
    encodeItems (toItems (roots.map fun root => CborValue.bytes root.bytes))
      = roots.flatMap fun root => cborBytes root.bytes := by
  induction roots with
  | nil => rfl
  | cons root roots ih =>
    rw [List.map_cons, toItems, encodeItems, ih, List.flatMap_cons]
    rfl

/-- The value of a record is written as the encoder writes the record. -/
theorem encode_toValue (r : SegmentRecord) : r.toValue.toItem.encode = r.cborBody := by
  have hlen : (toItems (r.batchRoots.map fun root => CborValue.bytes root.bytes)).length
      = r.batchRoots.length := by simp [toItems_eq_map]
  simp only [SegmentRecord.toValue, CborValue.toItem, toEntries, Item.encode, encodeEntries,
    encode_policy_toValue, encode_batchRoots, hlen, SegmentRecord.cborBody, cborMap, cborArray,
    key, cborText, cborUint, cborBytes, putHead, encodeText, lengthHead, List.length_cons,
    List.length_nil, List.append_assoc, List.append_nil]
  rfl

/-- An optional number has one encoding. -/
theorem deterministic_optionalValue (n : Nat) (o : Option UInt64) :
    (optionalValue o).toItem.Deterministic n := by
  cases o <;> cases n <;> trivial

/-- The name of a mode is short. -/
theorem length_asStr_lt (mode : EmptyMode) : (utf8Bytes mode.asStr).length < 2 ^ 64 := by
  cases mode <;> decide

/-- The value of a policy has one encoding. -/
theorem deterministic_policy (policy : ClosurePolicy) :
    policy.toValue.toItem.Deterministic 1 := by
  have hsorted : ["version", "empty_mode", "interval_ms", "record_limit", "size_limit_bytes",
      "batch_record_limit"].Pairwise KeyLt := by decide
  refine ⟨by simp [toEntries], hsorted, ?_⟩
  simp only [toEntries, List.forall_mem_cons, List.not_mem_nil, false_imp_iff, implies_true]
  refine ⟨⟨by decide, trivial⟩, ⟨by decide, length_asStr_lt _⟩, ⟨by decide, trivial⟩,
    ⟨by decide, deterministic_optionalValue 0 _⟩, ⟨by decide, deterministic_optionalValue 0 _⟩,
    ⟨by decide, trivial⟩, trivial⟩

/-- A ledger id is short. -/
theorem length_lt_of_validHex {value : String} (h : validHex value 32) :
    (utf8Bytes value).length < 2 ^ 64 := by
  simp only [validHex, Bool.and_eq_true, decide_eq_true_eq] at h
  rw [h.1]
  decide

/-- A close reason is short. -/
theorem length_lt_of_validCloseReason {value : String} (h : validCloseReason value) :
    (utf8Bytes value).length < 2 ^ 64 := by
  simp only [validCloseReason, List.mem_cons, List.not_mem_nil, or_false, decide_eq_true_eq] at h
  rcases h with rfl | rfl | rfl | rfl | rfl | rfl | rfl <;> decide

/-- A digest has one encoding. -/
theorem deterministic_bytes (n : Nat) (digest : Digest) :
    (CborValue.bytes digest.bytes).toItem.Deterministic n := by
  have hlen : digest.bytes.length < 2 ^ 64 := by
    rw [digest.length_eq]
    decide
  cases n <;> exact hlen

/-- A valid record is written as a deterministic item, nested two levels below the root. -/
theorem deterministic_toValue [Sha256] {r : SegmentRecord} (h : r.validateDetailed = .ok ()) :
    r.toValue.toItem.Deterministic 2 := by
  obtain ⟨hledger, hprofile, -, hreason, hroots⟩ := SegmentRecord.validateDetailed_eq_ok h
  have hsorted : ["version", "ledger_id", "batch_roots", "close_reason", "record_count",
      "segment_root", "closure_policy", "segment_number", "prev_segment_sha256",
      "commitment_profile_id"].Pairwise KeyLt := by decide
  refine ⟨by simp [toEntries], hsorted, ?_⟩
  simp only [toEntries, List.forall_mem_cons, List.not_mem_nil, false_imp_iff, implies_true]
  refine ⟨⟨by decide, trivial⟩, ⟨by decide, length_lt_of_validHex hledger⟩, ⟨by decide, ?_⟩,
    ⟨by decide, length_lt_of_validCloseReason hreason⟩, ⟨by decide, trivial⟩,
    ⟨by decide, deterministic_bytes 1 _⟩, ⟨by decide, deterministic_policy _⟩,
    ⟨by decide, trivial⟩, ⟨by decide, deterministic_bytes 1 _⟩, ⟨by decide, ?_⟩, trivial⟩
  · refine ⟨by simpa [toItems_eq_map] using hroots, ?_⟩
    simp only [toItems_eq_map, List.map_map, List.forall_mem_map]
    exact fun root _ => deterministic_bytes 0 root
  · rw [hprofile]
    show (utf8Bytes commitmentProfileId).length < 2 ^ 64
    decide

/-- Digests are read back one by one. -/
theorem mapM_sha256Value (name : String) (digests : List Digest) :
    (digests.map fun digest => CborValue.bytes digest.bytes).mapM (sha256Value name)
      = .ok digests := by
  induction digests with
  | nil => rfl
  | cons digest digests ih =>
    rw [List.map_cons, List.mapM_cons, ih]
    simp [sha256Value, Except.ofOption, bind, Except.bind, pure, Except.pure]

section Take

variable {entries : List (String × CborValue)} {taken : List String} {name : String}

/-- Taking a field that has not been taken, as an operation on the entries of the map. -/
theorem take_remaining {value : CborValue} (hnodup : (entries.map Prod.fst).Nodup)
    (hname : name ∉ taken) (hvalue : entries.lookup name = some value) :
    take (remaining compare entries taken) name
      = .ok (value, remaining compare entries (name :: taken)) := by
  unfold take
  rw [getElem?_remaining hnodup, erase_remaining hnodup, if_neg hname, hvalue]
  rfl

/-- Taking a number leaves the fields that are neither it nor taken before. -/
theorem takeUint_remaining {n : UInt64} (hnodup : (entries.map Prod.fst).Nodup)
    (hname : name ∉ taken) (hvalue : entries.lookup name = some (.uint n)) :
    takeUint (remaining compare entries taken) name
      = .ok (n, remaining compare entries (name :: taken)) := by
  rw [takeUint, take_remaining hnodup hname hvalue]
  rfl

/-- Taking a text leaves the fields that are neither it nor taken before. -/
theorem takeText_remaining {s : String} (hnodup : (entries.map Prod.fst).Nodup)
    (hname : name ∉ taken) (hvalue : entries.lookup name = some (.text s)) :
    takeText (remaining compare entries taken) name
      = .ok (s, remaining compare entries (name :: taken)) := by
  rw [takeText, take_remaining hnodup hname hvalue]
  rfl

/-- Taking an optional number leaves the fields that are neither it nor taken before. -/
theorem optionalUint_remaining {o : Option UInt64} (hnodup : (entries.map Prod.fst).Nodup)
    (hname : name ∉ taken) (hvalue : entries.lookup name = some (optionalValue o)) :
    optionalUint (remaining compare entries taken) name
      = .ok (o, remaining compare entries (name :: taken)) := by
  rw [optionalUint, take_remaining hnodup hname hvalue]
  cases o <;> rfl

/-- Taking a digest leaves the fields that are neither it nor taken before. -/
theorem takeSha256_remaining {digest : Digest} (hnodup : (entries.map Prod.fst).Nodup)
    (hname : name ∉ taken) (hvalue : entries.lookup name = some (.bytes digest.bytes)) :
    takeSha256 (remaining compare entries taken) name
      = .ok (digest, remaining compare entries (name :: taken)) := by
  rw [takeSha256, take_remaining hnodup hname hvalue]
  simp [sha256Value, Except.ofOption, bind, Except.bind, pure, Except.pure]

/-- Taking digests leaves the fields that are neither them nor taken before. -/
theorem takeSha256Array_remaining {digests : List Digest} (hnodup : (entries.map Prod.fst).Nodup)
    (hname : name ∉ taken)
    (hvalue : entries.lookup name
      = some (.array (digests.map fun digest => .bytes digest.bytes))) :
    takeSha256Array (remaining compare entries taken) name
      = .ok (digests, remaining compare entries (name :: taken)) := by
  rw [takeSha256Array, take_remaining hnodup hname hvalue]
  simp only [bind, Except.bind, mapM_sha256Value]
  rfl

/-- Once every field is taken none is left. -/
theorem noFieldsLeft_remaining (h : ∀ entry ∈ entries, entry.1 ∈ taken) :
    noFieldsLeft (remaining compare entries taken) = .ok () := by
  rw [remaining_eq_empty h]
  rfl

end Take

/-- A valid policy is decoded from its value. -/
theorem decodePolicy_toValue {policy : ClosurePolicy} (h : policy.validate = .ok ()) :
    decodePolicy policy.toValue = .ok policy := by
  have hkeys : ["version", "empty_mode", "interval_ms", "record_limit", "size_limit_bytes",
      "batch_record_limit"].Nodup := by decide
  have hmode : emptyModeOfText policy.emptyMode.asStr = .ok policy.emptyMode := by
    cases policy.emptyMode <;> rfl
  simp only [decodePolicy, Except.bind_eq_ok, Except.require_eq_ok, decide_eq_true_eq,
    Except.mapError_eq_ok, ClosurePolicy.toValue, intoMap, ← remaining_nil]
  refine ⟨_, rfl, _, takeUint_remaining hkeys (by decide) rfl, (), rfl,
    _, takeUint_remaining hkeys (by decide) rfl, _, takeUint_remaining hkeys (by decide) rfl,
    _, optionalUint_remaining hkeys (by decide) rfl,
    _, optionalUint_remaining hkeys (by decide) rfl,
    _, takeText_remaining hkeys (by decide) rfl, _, hmode, (), noFieldsLeft_remaining (by simp),
    (), h, rfl⟩

/-- A record of this profile with a valid policy is decoded from its value. -/
theorem segmentFromFields_toValue {r : SegmentRecord}
    (hprofile : r.commitmentProfileId = commitmentProfileId)
    (hpolicy : r.closurePolicy.validate = .ok ()) :
    segmentFromFields r.toValue = .ok r := by
  have hkeys : ["version", "ledger_id", "batch_roots", "close_reason", "record_count",
      "segment_root", "closure_policy", "segment_number", "prev_segment_sha256",
      "commitment_profile_id"].Nodup := by decide
  simp only [segmentFromFields, Except.bind_eq_ok, Except.require_eq_ok, decide_eq_true_eq,
    SegmentRecord.toValue, intoMap, ← remaining_nil]
  refine ⟨_, rfl, _, takeUint_remaining hkeys (by decide) rfl, (), rfl,
    _, takeText_remaining hkeys (by decide) rfl, (), hprofile,
    _, takeText_remaining hkeys (by decide) rfl, _, takeUint_remaining hkeys (by decide) rfl,
    _, take_remaining hkeys (by decide) rfl, _, decodePolicy_toValue hpolicy,
    _, takeText_remaining hkeys (by decide) rfl, _, takeSha256_remaining hkeys (by decide) rfl,
    _, takeUint_remaining hkeys (by decide) rfl, _, takeSha256Array_remaining hkeys (by decide) rfl,
    _, takeSha256_remaining hkeys (by decide) rfl, (), noFieldsLeft_remaining (by simp), rfl⟩

/-! ## The codec -/

section Codec

variable [Sha256]

/-- The decoder returns a record exactly when the bytes are its canonical ones: the final check
gives one direction, and no check before it rejects encoder output. -/
theorem decodeSegmentRecord_eq_ok {b : Bytes} {r : SegmentRecord} :
    decodeSegmentRecord b = .ok r ↔ r.canonicalCborBytes = .ok b := by
  unfold decodeSegmentRecord
  simp only [Except.bind_eq_ok, Except.require_eq_ok, decide_eq_true_eq, Except.mapError_eq_ok]
  constructor
  · rintro ⟨⟨value, budget, rest⟩, -, -, -, r', -, -, -, canonical, hcanonical, -, rfl, h⟩
    cases h
    exact hcanonical
  · intro hcanonical
    obtain ⟨hvalid, hbody⟩ := SegmentRecord.canonicalCborBytes_eq_ok.mp hcanonical
    obtain ⟨-, hprofile, hpolicy, -, -⟩ := SegmentRecord.validateDetailed_eq_ok hvalid
    have hreads : Reads (parseCborValue rootLevels) r.toValue :=
      parseCborValue_reads (by decide) (deterministic_toValue hvalid)
    rw [← encode_toValue] at hbody
    obtain ⟨budget, -, hparse⟩ := hreads b.length [] (by simp [hbody])
    rw [List.append_nil, hbody] at hparse
    exact ⟨(r.toValue, budget, []), hparse, (), rfl, r, segmentFromFields_toValue hprofile hpolicy,
      (), hvalid, b, hcanonical, (), rfl, rfl⟩

/-- The bytes of a valid record are read back. -/
theorem decodeSegmentRecord_cborBody {r : SegmentRecord} (h : r.validateDetailed = .ok ()) :
    decodeSegmentRecord r.cborBody = .ok r :=
  decodeSegmentRecord_eq_ok.mpr (SegmentRecord.canonicalCborBytes_eq_ok.mpr ⟨h, rfl⟩)

/-! ## Extending a chain -/

inductive SegmentConstructionError where
  | invalidPredecessor (error : SegmentDecodeError)
  | segmentNumberExhausted
  | invariant (error : SegmentInvariantError)
deriving DecidableEq, Repr

omit [Sha256] in
/-- `impl Display for SegmentConstructionError`. -/
def SegmentConstructionError.toString : SegmentConstructionError → String
  | invalidPredecessor error => "invalid predecessor segment: " ++ error.toString
  | segmentNumberExhausted => "segment number is exhausted"
  | invariant error => error.toString

structure SegmentChainPosition where
  ledgerId : String
  segmentNumber : UInt64
  predecessorSha256 : Digest

namespace SegmentRecord

omit [Sha256] in
/-- The segment `new_at_position` builds and validates. -/
def atPosition (position : SegmentChainPosition) (closurePolicy : ClosurePolicy)
    (closeReason : String) (recordCount : UInt64) (batchRoots : List Digest)
    (segmentRoot : Digest) : SegmentRecord where
  commitmentProfileId := TrackOne.commitmentProfileId
  ledgerId := position.ledgerId
  segmentNumber := position.segmentNumber
  closurePolicy := closurePolicy
  closeReason := closeReason
  prevSegmentSha256 := position.predecessorSha256
  recordCount := recordCount
  batchRoots := batchRoots
  segmentRoot := segmentRoot

def newAtPosition (position : SegmentChainPosition) (closurePolicy : ClosurePolicy)
    (closeReason : String) (recordCount : UInt64) (batchRoots : List Digest)
    (segmentRoot : Digest) : Except SegmentConstructionError SegmentRecord := do
  let segment :=
    atPosition position closurePolicy closeReason recordCount batchRoots segmentRoot
  segment.validateDetailed.mapError .invariant
  pure segment

def newEpoch (ledgerId : String) (closurePolicy : ClosurePolicy) (closeReason : String)
    (recordCount : UInt64) (batchRoots : List Digest) (segmentRoot : Digest) :
    Except SegmentConstructionError SegmentRecord :=
  newAtPosition { ledgerId, segmentNumber := 0, predecessorSha256 := Digest.zero }
    closurePolicy closeReason recordCount batchRoots segmentRoot

def newSuccessor (predecessorBytes : Bytes) (closurePolicy : ClosurePolicy) (closeReason : String)
    (recordCount : UInt64) (batchRoots : List Digest) (segmentRoot : Digest) :
    Except SegmentConstructionError SegmentRecord := do
  let predecessor ← (decodeSegmentRecord predecessorBytes).mapError .invalidPredecessor
  let segmentNumber ← Except.ofOption .segmentNumberExhausted
    (predecessor.segmentNumber.checkedAdd 1)
  newAtPosition
    { ledgerId := predecessor.ledgerId, segmentNumber
      predecessorSha256 := sha256Digest predecessorBytes }
    closurePolicy closeReason recordCount batchRoots segmentRoot

variable {closurePolicy : ClosurePolicy} {closeReason : String} {recordCount : UInt64}
  {batchRoots : List Digest} {segmentRoot : Digest} {segment : SegmentRecord}

/-- A constructed record is the one at its position, and valid. -/
theorem newAtPosition_eq_ok {position : SegmentChainPosition}
    (h : newAtPosition position closurePolicy closeReason recordCount batchRoots segmentRoot
      = .ok segment) :
    segment = atPosition position closurePolicy closeReason recordCount batchRoots segmentRoot
      ∧ segment.validateDetailed = .ok () := by
  simp only [newAtPosition, Except.bind_eq_ok, Except.mapError_eq_ok] at h
  obtain ⟨u, hvalid, h⟩ := h
  cases h
  exact ⟨rfl, hvalid⟩

/-- On the canonical bytes of a record the successor continues its chain. -/
theorem newSuccessor_eq_newAtPosition {r : SegmentRecord} {b : Bytes}
    (hb : r.canonicalCborBytes = .ok b) :
    newSuccessor b closurePolicy closeReason recordCount batchRoots segmentRoot = (do
      let segmentNumber ← Except.ofOption .segmentNumberExhausted (r.segmentNumber.checkedAdd 1)
      newAtPosition { ledgerId := r.ledgerId, segmentNumber, predecessorSha256 := sha256Digest b }
        closurePolicy closeReason recordCount batchRoots segmentRoot) := by
  unfold newSuccessor
  rw [decodeSegmentRecord_eq_ok.mpr hb]
  rfl

/-- No construction fails with `InvalidPredecessor`: the position holds a digest, not an artifact to
decode. -/
theorem newAtPosition_ne_invalidPredecessor {position : SegmentChainPosition}
    (error : SegmentDecodeError) :
    newAtPosition position closurePolicy closeReason recordCount batchRoots segmentRoot
      ≠ .error (.invalidPredecessor error) := by
  simp only [newAtPosition]
  cases SegmentRecord.validateDetailed _ <;>
    simp [Except.mapError, bind, Except.bind, pure, Except.pure]

end SegmentRecord

/-- The segment codec is a bijection between the valid records and the accepted bytes. Every valid
record has canonical bytes and is decoded from them, so bytes the encoder produced are never an
invalid predecessor. -/
theorem segmentCodec_exact :
    (∀ (b : Bytes) (r : SegmentRecord),
        decodeSegmentRecord b = .ok r ↔ r.canonicalCborBytes = .ok b)
      ∧ (∀ r : SegmentRecord, r.validateDetailed = .ok () →
          ∃ b, r.canonicalCborBytes = .ok b ∧ decodeSegmentRecord b = .ok r)
      ∧ ∀ (r : SegmentRecord) (b : Bytes), r.canonicalCborBytes = .ok b →
          ∀ closurePolicy closeReason recordCount batchRoots segmentRoot error,
            SegmentRecord.newSuccessor b closurePolicy closeReason recordCount batchRoots
              segmentRoot ≠ .error (.invalidPredecessor error) := by
  refine ⟨fun b r => decodeSegmentRecord_eq_ok, fun r hvalid => ?_, fun r b hb => ?_⟩
  · exact ⟨r.cborBody, SegmentRecord.canonicalCborBytes_eq_ok.mpr ⟨hvalid, rfl⟩,
      decodeSegmentRecord_cborBody hvalid⟩
  · intro closurePolicy closeReason recordCount batchRoots segmentRoot error
    rw [SegmentRecord.newSuccessor_eq_newAtPosition hb]
    cases r.segmentNumber.checkedAdd 1 with
    | none => simp [Except.ofOption, bind, Except.bind]
    | some n => exact SegmentRecord.newAtPosition_ne_invalidPredecessor error

end Codec

end TrackOne
