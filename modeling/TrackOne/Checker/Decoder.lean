import TrackOne.Vtl.Record

/-!
# The decoder of the independent checker

`CborDecoder` of `toolset/independent-verifier/verify_https_bundle.py`. The checker shares no code
with the ledger: it reads any deterministic CBOR item into a Python value, counts the items it has
read, map keys included, and leaves the schema to the functions that use the value.

The source advances `self.offset` and `self.items`. Here the data from the offset on and the number
of items are passed instead, so that a reader returns what it read, the new number and the rest.

* `argument_eq_ok` and `float_eq_ok` are the facts about heads and floats. The second one is where
  rounding to nearest comes in: a double survives the trip through a shorter format exactly when it
  is a value of that format.
* `item_readsExactly` says what is read without an error: the encodings of the deterministic items
  of the shared syntax, within the levels and the number of items left. `decode_eq_ok` is the same
  of a whole artifact. -/

namespace TrackOne.Checker

open BinaryFloat DetCbor

/-- `CheckError`, with its message. -/
structure CheckError where
  message : String
deriving DecidableEq, Repr

/-- The outcome of a function that may raise `CheckError`. -/
abbrev CheckResult (α : Type) := Except CheckError α

def maxCborNestingDepth : Nat := 32

def maxCborItems : Nat := 1000000

/-- The Python values the decoder builds. A float is the bit pattern of a double; the members of a
dictionary are in the order of insertion. -/
inductive PyValue where
  | int (n : Int)
  | bytes (b : Bytes)
  | str (s : String)
  | list (items : List PyValue)
  | dict (entries : List (String × PyValue))
  | bool (b : Bool)
  | none
  | float (bits : Nat)

/-- The string of a value that is an instance of `str`. -/
def PyValue.str? : PyValue → Option String
  | .str s => some s
  | _ => Option.none

/-! ## Heads -/

def take (length : Nat) (data : Bytes) : CheckResult (Bytes × Bytes) :=
  if data.length < length then .error ⟨"truncated CBOR"⟩
  else .ok (data.take length, data.drop length)

def advance (length : Nat) (data : Bytes) : CheckResult Bytes :=
  if data.length < length then .error ⟨"truncated CBOR"⟩ else .ok (data.drop length)

/-- The two tables of `argument`: the width of an argument and the least value it is used for. -/
def argumentWidth (additional : UInt8) : Option (Nat × Nat) :=
  if additional = 24 then some (1, 24)
  else if additional = 25 then some (2, 256)
  else if additional = 26 then some (4, 65536)
  else if additional = 27 then some (8, 4294967296)
  else none

/-- The end of `argument`, for an argument of the given width. -/
def wideArgument (width least : Nat) (data : Bytes) : CheckResult (Nat × Bytes) := do
  let (encoded, data) ← take width data
  let value := ofBeBytes encoded
  Except.require ⟨"non-shortest CBOR argument"⟩ (least ≤ value)
  pure (value, data)

def argument (additional : UInt8) (data : Bytes) : CheckResult (Nat × Bytes) :=
  if additional < 24 then .ok (additional.toNat, data)
  else match argumentWidth additional with
    | none => .error ⟨"indefinite or reserved CBOR argument"⟩
    | some (width, least) => wideArgument width least data

/-! ## Floats -/

/-- `struct.pack` of a finite double in a shorter format: to nearest, or `OverflowError`. -/
def pack (F : Format) (value : Nat) : Option Nat :=
  let candidate := narrow F value
  if F.Finite candidate then some candidate else none

/-- Whether packing and unpacking in a shorter format gives the double back. -/
def survives (value : Nat) (F : Format) : Bool :=
  match pack F value with
  | none => false
  | some candidate => widen F candidate == value

/-- The checks on an unpacked float, with the formats shorter than its own. -/
def float (value : Nat) (shorter : List Format) : CheckResult PyValue := do
  Except.require ⟨"non-finite CBOR float"⟩ (double.Finite value)
  Except.require ⟨"CBOR float is not encoded at its shortest exact width"⟩
    (!shorter.any (survives value))
  pure (.float value)

/-- The items of major type 7. -/
def simpleOrFloat (additional : UInt8) (data : Bytes) : CheckResult (PyValue × Bytes) :=
  if additional = 20 then .ok (.bool false, data)
  else if additional = 21 then .ok (.bool true, data)
  else if additional = 22 then .ok (.none, data)
  else if additional = 25 then do
    let (encoded, data) ← take 2 data
    let value ← float (widen half (ofBeBytes encoded)) []
    pure (value, data)
  else if additional = 26 then do
    let (encoded, data) ← take 4 data
    let value ← float (widen single (ofBeBytes encoded)) [half]
    pure (value, data)
  else if additional = 27 then do
    let (encoded, data) ← take 8 data
    let value ← float (ofBeBytes encoded) [half, single]
    pure (value, data)
  else .error ⟨"unsupported CBOR value"⟩

/-! ## Items -/

/-- A reader of one item, from the number of items read so far. -/
abbrev Reader := Nat → Bytes → CheckResult (PyValue × Nat × Bytes)

/-- The loop over the items of an array. -/
def arrayItems (item : Reader) : Nat → Nat → Bytes → CheckResult (List PyValue × Nat × Bytes)
  | 0, items, data => .ok ([], items, data)
  | count + 1, items, data => do
    let (value, items, data) ← item items data
    let (values, items, data) ← arrayItems item count items data
    pure (value :: values, items, data)

/-- `ordering <= previous`, on the encoded keys: tuples of a length and bytes. -/
def orderingLe (ordering previous : Bytes) : Bool :=
  decide (ordering.length < previous.length)
    || (decide (ordering.length = previous.length) && decide (ordering ≤ previous))

/-- `mapping`, from the encoded key before and the members so far. Without `materialize` no member
is kept, so that no key is ever found among them. -/
def mapping (item : Bool → Reader) (materialize : Bool) :
    Nat → Option Bytes → List (String × PyValue) → Nat → Bytes →
      CheckResult (List (String × PyValue) × Nat × Bytes)
  | 0, _, result, items, data => .ok (result, items, data)
  | count + 1, previous, result, items, data => do
    let (key, items, rest) ← item true items data
    let encoded := data.take (data.length - rest.length)
    let key ← Except.ofOption ⟨"non-text, duplicate, or non-deterministic CBOR map key"⟩ key.str?
    Except.require ⟨"non-text, duplicate, or non-deterministic CBOR map key"⟩
      (!previous.any (orderingLe encoded))
    Except.require ⟨"duplicate CBOR map key"⟩ (!(result.map Prod.fst).contains key)
    let (value, items, rest) ← item materialize items rest
    let result := if materialize then result ++ [(key, value)] else result
    mapping item materialize count (some encoded) result items rest

/-- The match of `item` on the major type; `item` here is the reader one level down. -/
def content (maxItems : Nat) (item : Bool → Reader) (materialize : Bool)
    (major additional : UInt8) (items : Nat) (data : Bytes) :
    CheckResult (PyValue × Nat × Bytes) :=
  match major with
  | 0 => do
    let (n, data) ← argument additional data
    pure (.int n, items, data)
  | 1 => do
    let (n, data) ← argument additional data
    pure (.int (-1 - n), items, data)
  | 2 => do
    let (length, data) ← argument additional data
    if materialize then
      let (value, data) ← take length data
      pure (.bytes value, items, data)
    else
      let data ← advance length data
      pure (.none, items, data)
  | 3 => do
    let (length, data) ← argument additional data
    let (encoded, data) ← take length data
    let text ← Except.ofOption ⟨"invalid UTF-8 CBOR text"⟩ (ofUtf8? encoded)
    pure (.str text, items, data)
  | 4 => do
    let (count, data) ← argument additional data
    Except.require ⟨"CBOR array length exceeds remaining input"⟩ (count ≤ data.length)
    Except.require ⟨"CBOR item count exceeds the supported limit"⟩ (count ≤ maxItems - items)
    let (values, items, data) ← arrayItems (item materialize) count items data
    pure (if materialize then .list values else .none, items, data)
  | 5 => do
    let (count, data) ← argument additional data
    Except.require ⟨"CBOR map length exceeds remaining input"⟩ (count ≤ data.length / 2)
    Except.require ⟨"CBOR item count exceeds the supported limit"⟩
      (count ≤ (maxItems - items) / 2)
    let (entries, items, data) ← mapping item materialize count none [] items data
    pure (if materialize then .dict entries else .none, items, data)
  | 6 => throw ⟨"CBOR tags are not permitted"⟩
  | 7 => do
    let (value, data) ← simpleOrFloat additional data
    pure (value, items, data)
  | _ => throw ⟨"unsupported CBOR value"⟩

/-- `CborDecoder.item`, on the levels left: `max_depth + 1 - depth`. -/
def item (maxItems : Nat) : Nat → Bool → Reader
  | 0, _, _, _ => .error ⟨"CBOR nesting depth exceeds the supported limit"⟩
  | levels + 1, materialize, items, data => do
    let items := items + 1
    Except.require ⟨"CBOR item count exceeds the supported limit"⟩ (items ≤ maxItems)
    match data with
    | [] => throw ⟨"truncated CBOR"⟩
    | initial :: data =>
      content maxItems (item maxItems levels) materialize (initial >>> 5) (initial &&& 31) items
        data

/-- `CborDecoder(data).decode()`. -/
def decode (data : Bytes) : CheckResult PyValue := do
  let (value, _, rest) ← item maxCborItems (maxCborNestingDepth + 1) true 0 data
  Except.require ⟨"trailing CBOR bytes"⟩ (rest = [])
  pure value

/-! ## Arguments are shortest -/

/-- Taking cuts bytes off the front. -/
theorem take_eq_ok {length : Nat} {data part rest : Bytes} :
    take length data = .ok (part, rest) ↔ part.length = length ∧ data = part ++ rest := by
  unfold take
  constructor
  · intro h
    split at h
    · cases h
    · next hle =>
      cases h
      exact ⟨by simp; omega, (List.take_append_drop length data).symm⟩
  · rintro ⟨rfl, rfl⟩
    simp

/-- Advancing drops bytes off the front. -/
theorem advance_eq_ok {length : Nat} {data rest : Bytes} :
    advance length data = .ok rest ↔ ∃ part :
    Bytes, part.length = length ∧ data = part ++ rest := by
  unfold advance
  constructor
  · intro h
    split at h
    · cases h
    · next hle =>
      cases h
      exact ⟨data.take length, by simp; omega, (List.take_append_drop length data).symm⟩
  · rintro ⟨part, rfl, rfl⟩
    simp

/-- A wide argument is the verifier's: the checker names the least value of the width, the verifier
the greatest of the one before. -/
theorem wideArgument_iff_readWideArgument {width least : Nat} {data rest : Bytes} {n : Nat}
    (hwidth : width ≤ 8) (hleast : 0 < least) :
    wideArgument width least data = .ok (n, rest)
      ↔ ∃ w : UInt64, n = w.toNat
        ∧ readWideArgument width (least - 1) data = .ok (w, rest) := by
  simp only [wideArgument, Except.bind_eq_ok, Except.require_eq_ok, decide_eq_true_eq,
    readWideArgument_eq_ok hwidth]
  constructor
  · rintro ⟨⟨encoded, rest'⟩, htake, u, hle, h⟩
    obtain ⟨rfl, rfl⟩ := take_eq_ok.mp htake
    cases h
    dsimp only at hle
    have hlt := ofBeBytes_lt encoded
    have h64 : ofBeBytes encoded < 2 ^ 64 := by
      calc ofBeBytes encoded < 256 ^ encoded.length := hlt
        _ ≤ 256 ^ 8 := Nat.pow_le_pow_right (by omega) hwidth
        _ = 2 ^ 64 := by decide
    refine ⟨UInt64.ofNat (ofBeBytes encoded), (UInt64.toNat_ofNat_of_lt64 h64).symm, ?_⟩
    rw [UInt64.toNat_ofNat_of_lt64 h64, beBytes_ofBeBytes]
    exact ⟨by omega, hlt, rfl⟩
  · rintro ⟨w, rfl, hgt, hlt, rfl⟩
    have hback : ofBeBytes (beBytes width w.toNat) = w.toNat := by
      rw [ofBeBytes_beBytes, Nat.mod_eq_of_lt hlt]
    refine ⟨(beBytes width w.toNat, rest), take_eq_ok.mpr ⟨by simp, rfl⟩, (), ?_, ?_⟩
    · dsimp only
      omega
    · rw [hback]
      rfl

/-- The two programs read the same arguments: the checker compares with the least value of a width,
the ledger with the greatest one of the width before. -/
theorem argument_iff_readCborArgument {additional : UInt8} {data rest : Bytes} {n : Nat} :
    argument additional data = .ok (n, rest)
      ↔ ∃ w : UInt64, n = w.toNat ∧ readCborArgument data additional = .ok (w, rest) := by
  unfold argument readCborArgument argumentWidth
  by_cases hsmall : additional < 24
  · have hle : additional ≤ 23 := by
      rw [UInt8.lt_iff_toNat_lt] at hsmall
      rw [UInt8.le_iff_toNat_le]
      simp only [UInt8.reduceToNat] at hsmall ⊢
      omega
    simp only [if_pos hsmall, if_pos hle, Except.ok.injEq, Prod.mk.injEq]
    constructor
    · rintro ⟨rfl, rfl⟩
      exact ⟨additional.toUInt64, by simp, rfl, rfl⟩
    · rintro ⟨w, rfl, rfl, rfl⟩
      exact ⟨by simp, rfl⟩
  · have hgt : ¬ additional ≤ 23 := by
      rw [UInt8.lt_iff_toNat_lt] at hsmall
      rw [UInt8.le_iff_toNat_le]
      simp only [UInt8.reduceToNat] at hsmall ⊢
      omega
    rw [if_neg hsmall, if_neg hgt]
    split_ifs
    · exact wideArgument_iff_readWideArgument (by decide) (by decide)
    · exact wideArgument_iff_readWideArgument (by decide) (by decide)
    · exact wideArgument_iff_readWideArgument (by decide) (by decide)
    · exact wideArgument_iff_readWideArgument (by decide) (by decide)
    · simp

/-- An argument is read exactly when the data starts with its shortest form. -/
theorem argument_eq_ok {additional : UInt8} {data rest : Bytes} {n : Nat} :
    argument additional data = .ok (n, rest)
      ↔ ∃ w : UInt64, n = w.toNat ∧ additional = shortestInfo w
        ∧ data = shortestArgument w ++ rest := by
  simp only [argument_iff_readCborArgument, readCborArgument_eq_ok]

/-! ## Floats are shortest -/

/-- Rounding to nearest finds a value of a shorter format whenever there is one. -/
theorem survives_iff {F : Format} (hF : Widens F) {value : Nat} :
    survives value F = true ↔ ∃ bits, F.Finite bits ∧ widen F bits = value := by
  unfold survives pack
  constructor
  · intro h
    split at h
    · cases h
    · next candidate hpack =>
      dsimp only at hpack
      split_ifs at hpack with hfinite
      cases hpack
      exact ⟨_, hfinite, beq_iff_eq.mp h⟩
  · rintro ⟨bits, hfinite, rfl⟩
    dsimp only
    rw [narrow_widen hF hfinite, if_pos hfinite]
    exact beq_self_eq_true _

/-- The formats shorter than the one a float is written in. -/
def shorterFormats : FloatLit → List Format
  | .half _ => []
  | .single _ => [half]
  | .double _ => [half, single]

/-- A value does not survive half precision when no finite half has it. -/
theorem not_survives_half {value : Nat} (hvalue : value < 2 ^ 64) :
    survives value half = false
      ↔ ∀ h : UInt16, half.Finite h.toNat → widen half h.toNat ≠ value := by
  rw [← Bool.not_eq_true, survives_iff widens_half]
  constructor
  · exact fun hnone h hfinite heq => hnone ⟨h.toNat, hfinite, heq⟩
  · rintro hall ⟨bits, hfinite, rfl⟩
    have hlt : bits < 2 ^ 16 := lt_of_widen_lt widens_half hfinite hvalue
    have hback : (UInt16.ofNat bits).toNat = bits := UInt16.toNat_ofNat_of_lt' hlt
    exact hall (UInt16.ofNat bits) (hback.symm ▸ hfinite) (by rw [hback])

/-- A value does not survive single precision when no finite single has it. -/
theorem not_survives_single {value : Nat} (hvalue : value < 2 ^ 64) :
    survives value single = false
      ↔ ∀ s : UInt32, single.Finite s.toNat → widen single s.toNat ≠ value := by
  rw [← Bool.not_eq_true, survives_iff widens_single]
  constructor
  · exact fun hnone s hfinite heq => hnone ⟨s.toNat, hfinite, heq⟩
  · rintro hall ⟨bits, hfinite, rfl⟩
    have hlt : bits < 2 ^ 32 := lt_of_widen_lt widens_single hfinite hvalue
    have hback : (UInt32.ofNat bits).toNat = bits := UInt32.toNat_ofNat_of_lt' hlt
    exact hall (UInt32.ofNat bits) (hback.symm ▸ hfinite) (by rw [hback])

/-- The checks on a float pass exactly when it is finite and of the shortest exact width. -/
theorem float_eq_ok {f : FloatLit} {value : PyValue} :
    float f.value (shorterFormats f) = .ok value ↔ f.Shortest ∧ value = .float f.value := by
  have hfloat : float f.value (shorterFormats f) = .ok value
      ↔ (double.Finite f.value ∧ ∀ F ∈ shorterFormats f, survives f.value F = false)
        ∧ value = .float f.value := by
    simp only [float, Except.bind_eq_ok, Except.require_eq_ok, decide_eq_true_eq,
      Bool.not_eq_true', List.any_eq_false, Bool.not_eq_true, pure, Except.pure, Except.ok.injEq]
    constructor
    · rintro ⟨u, hfinite, u', hnone, rfl⟩
      exact ⟨⟨hfinite, hnone⟩, rfl⟩
    · rintro ⟨⟨hfinite, hnone⟩, rfl⟩
      exact ⟨(), hfinite, (), hnone, rfl⟩
  rw [hfloat]
  refine and_congr ?_ Iff.rfl
  -- a wider float is kept when no narrower one holds it
  cases f with
  | half bits =>
    simp only [shorterFormats, List.not_mem_nil, false_imp_iff, implies_true, and_true]
    exact ⟨finite_of_finite_widen, finite_widen widens_half⟩
  | single bits =>
    simp only [shorterFormats, List.mem_singleton, forall_eq]
    have hiff : double.Finite (widen single bits.toNat) ↔ single.Finite bits.toNat :=
      ⟨finite_of_finite_widen, finite_widen widens_single⟩
    show double.Finite (widen single bits.toNat) ∧ survives (widen single bits.toNat) half = false
      ↔ _
    rw [hiff]
    refine and_congr_right fun hfinite => ?_
    exact not_survives_half (widen_lt widens_single hfinite bits.toNat_lt)
  | double bits =>
    simp only [shorterFormats, List.mem_cons, List.not_mem_nil, or_false, forall_eq_or_imp,
      forall_eq]
    exact and_congr Iff.rfl (and_congr (not_survives_half bits.toNat_lt)
      (not_survives_single bits.toNat_lt))

/-! ## What a value is read from -/

mutual

/-- The Python value of an item. -/
def PyValue.ofItem : Item → PyValue
  | .uint n => .int n.toNat
  | .nint n => .int (-1 - n.toNat)
  | .bytes b => .bytes b
  | .text s => .str s
  | .array items => .list (ofItems items)
  | .map entries => .dict (ofEntries entries)
  | .bool b => .bool b
  | .null => .none
  | .float f => .float f.value

def ofItems : List Item → List PyValue
  | [] => []
  | item :: items => PyValue.ofItem item :: ofItems items

def ofEntries : List (String × Item) → List (String × PyValue)
  | [] => []
  | (key, item) :: entries => (key, PyValue.ofItem item) :: ofEntries entries

end

/-- The values of an array, one by one. -/
theorem ofItems_eq_map (items : List Item) : ofItems items = items.map PyValue.ofItem := by
  induction items with
  | nil => rfl
  | cons item items ih => simp [ofItems, ih]

/-- The members of a map, one by one. -/
theorem ofEntries_eq_map (entries : List (String × Item)) :
    ofEntries entries = entries.map fun entry => (entry.1, PyValue.ofItem entry.2) := by
  induction entries with
  | nil => rfl
  | cons entry entries ih => simp [ofEntries, ih]

/-- What `item` returns for an item: strings of bytes and collections only if they are to be
materialized. -/
def PyValue.shown (materialize : Bool) (item : Item) : PyValue :=
  if materialize then .ofItem item
  else match item with
    | .bytes _ => .none
    | .array _ => .none
    | .map _ => .none
    | item => .ofItem item

/-- A simple item is shown whether or not it is materialised. -/
theorem shown_of_isSimple {item : Item} (h : IsSimple item) (materialize : Bool) :
    PyValue.shown materialize item = .ofItem item := by
  cases h <;> cases materialize <;> rfl

/-- A key is a string exactly when it was read from a text. -/
theorem str?_ofItem {item : Item} {key : String} :
    (PyValue.ofItem item).str? = some key ↔ item = .text key := by
  cases item <;> simp [PyValue.ofItem, PyValue.str?]

/-! ## Simple values -/

/-- The initial byte of the items of major type 7, with the given additional information. -/
theorem initial_eq {initial additional : UInt8} (hmajor : initial >>> 5 = 7)
    (hadditional : initial &&& 31 = additional) : initial = 0xe0 ||| additional := by
  have h := initial_of_fields initial
  rw [hmajor, hadditional] at h
  exact h.symm

/-- A float of any width is read when it is the shortest of its value. -/
theorem float_read {f : FloatLit} {initial : UInt8} {encoded data rest : Bytes} {width bits : Nat}
    {value : PyValue} (htake : take width data = .ok (encoded, rest))
    (hencode : f.encode = initial :: encoded) (hvalue : f.value = bits)
    (hfloat : float bits (shorterFormats f) = .ok value) :
    ∃ item, IsSimple item ∧ initial :: data = item.encode ++ rest
      ∧ value = PyValue.ofItem item := by
  obtain ⟨-, rfl⟩ := take_eq_ok.mp htake
  rw [← hvalue] at hfloat
  obtain ⟨hshortest, rfl⟩ := float_eq_ok.mp hfloat
  refine ⟨.float f, .float hshortest, ?_, rfl⟩
  rw [Item.encode, hencode]
  rfl

/-- What is read past a head of major type seven is a simple item. -/
theorem simpleOrFloat_sound {initial : UInt8} {data rest : Bytes} {value : PyValue}
    (hmajor : initial >>> 5 = 7)
    (h : simpleOrFloat (initial &&& 31) data = .ok (value, rest)) :
    ∃ item, IsSimple item ∧ initial :: data = item.encode ++ rest
      ∧ value = PyValue.ofItem item := by
  unfold simpleOrFloat at h
  split_ifs at h with hfalse htrue hnull hhalf hsingle hdouble
  · cases h
    rw [initial_eq hmajor hfalse]
    exact ⟨.bool false, .bool false, rfl, rfl⟩
  · cases h
    rw [initial_eq hmajor htrue]
    exact ⟨.bool true, .bool true, rfl, rfl⟩
  · cases h
    rw [initial_eq hmajor hnull]
    exact ⟨.null, .null, rfl, rfl⟩
  -- the three widths of floats
  · simp only [Except.bind_eq_ok] at h
    obtain ⟨⟨encoded, rest'⟩, htake, value', hfloat, h⟩ := h
    cases h
    have hlen := (take_eq_ok.mp htake).1
    obtain ⟨hencode, hvalue⟩ := encode_half hlen
    have hback : (UInt16.ofNat (ofBeBytes encoded)).toNat = ofBeBytes encoded :=
      UInt16.toNat_ofNat_of_lt' (by simpa [hlen] using ofBeBytes_lt encoded)
    rw [decodeF16_eq_widen, hback] at hvalue
    rw [initial_eq hmajor hhalf]
    exact float_read htake hencode hvalue hfloat
  · simp only [Except.bind_eq_ok] at h
    obtain ⟨⟨encoded, rest'⟩, htake, value', hfloat, h⟩ := h
    cases h
    obtain ⟨hencode, hvalue⟩ := encode_single (take_eq_ok.mp htake).1
    rw [initial_eq hmajor hsingle]
    exact float_read htake hencode hvalue hfloat
  · simp only [Except.bind_eq_ok] at h
    obtain ⟨⟨encoded, rest'⟩, htake, value', hfloat, h⟩ := h
    cases h
    obtain ⟨hencode, hvalue⟩ := encode_double (take_eq_ok.mp htake).1
    rw [initial_eq hmajor hdouble]
    exact float_read htake hencode hvalue hfloat

/-- Every simple item is read. -/
theorem simpleOrFloat_complete {item : Item} (h : IsSimple item) (rest : Bytes) :
    ∃ initial data, item.encode ++ rest = initial :: data ∧ initial >>> 5 = 7
      ∧ simpleOrFloat (initial &&& 31) data = .ok (PyValue.ofItem item, rest) := by
  have htake : ∀ width bits : Nat,
      take width (beBytes width bits ++ rest) = .ok (beBytes width bits, rest) :=
    fun width bits => take_eq_ok.mpr ⟨by simp, rfl⟩
  have hback : ∀ width bits : Nat, bits < 256 ^ width →
      ofBeBytes (beBytes width bits) = bits := by
    intro width bits hlt
    rw [ofBeBytes_beBytes, Nat.mod_eq_of_lt hlt]
  cases h with
  -- the simple values are one byte
  | bool b => cases b <;> exact ⟨_, rest, rfl, by decide, rfl⟩
  | null => exact ⟨_, rest, rfl, by decide, rfl⟩
  -- a float is read at its width and kept if no shorter one holds it
  | @float f h =>
    have hfloat : float f.value (shorterFormats f) = .ok (.float f.value) :=
      float_eq_ok.mpr ⟨h, rfl⟩
    cases f with
    | half bits =>
      refine ⟨0xf9, beBytes 2 bits.toNat ++ rest, rfl, by decide, ?_⟩
      show (do
        let (encoded, data) ← take 2 (beBytes 2 bits.toNat ++ rest)
        let value ← float (widen half (ofBeBytes encoded)) []
        pure (value, data) : CheckResult (PyValue × Bytes)) = _
      rw [htake, Except.ok_bind]
      dsimp only
      rw [hback 2 _ bits.toNat_lt]
      exact congrArg (fun x => x >>= fun value => pure (value, rest)) hfloat
    | single bits =>
      refine ⟨0xfa, beBytes 4 bits.toNat ++ rest, rfl, by decide, ?_⟩
      show (do
        let (encoded, data) ← take 4 (beBytes 4 bits.toNat ++ rest)
        let value ← float (widen single (ofBeBytes encoded)) [BinaryFloat.half]
        pure (value, data) : CheckResult (PyValue × Bytes)) = _
      rw [htake, Except.ok_bind]
      dsimp only
      rw [hback 4 _ bits.toNat_lt]
      exact congrArg (fun x => x >>= fun value => pure (value, rest)) hfloat
    | double bits =>
      refine ⟨0xfb, beBytes 8 bits.toNat ++ rest, rfl, by decide, ?_⟩
      show (do
        let (encoded, data) ← take 8 (beBytes 8 bits.toNat ++ rest)
        let value ← float (ofBeBytes encoded) [BinaryFloat.half, BinaryFloat.single]
        pure (value, data) : CheckResult (PyValue × Bytes)) = _
      rw [htake, Except.ok_bind]
      dsimp only
      rw [hback 8 _ bits.toNat_lt]
      exact congrArg (fun x => x >>= fun value => pure (value, rest)) hfloat

/-! ## The loops -/

/-- The reader reads exactly the deterministic items within the levels, as long as their number
stays within the limit. -/
def ReadsExactly (maxItems levels : Nat) (item : Bool → Reader) : Prop :=
  ∀ materialize items data value items' rest,
    item materialize items data = .ok (value, items', rest)
      ↔ ∃ read : Item, WithinLevels levels read ∧ data = read.encode ++ rest
        ∧ items' = items + read.count ∧ items' ≤ maxItems
        ∧ value = PyValue.shown materialize read

section Loops

variable {maxItems levels : Nat} {item : Bool → Reader}

/-- The items of an array are read one by one, and counted. -/
theorem arrayItems_eq_ok (hitem : ReadsExactly maxItems levels item) {materialize : Bool}
    {count items items' : Nat} {data rest : Bytes} {values : List PyValue}
    (hitems : items ≤ maxItems) :
    arrayItems (item materialize) count items data = .ok (values, items', rest)
      ↔ ∃ reads : List Item, reads.length = count ∧ (∀ read ∈ reads, WithinLevels levels read)
        ∧ data = encodeItems reads ++ rest ∧ items' = items + countItems reads
        ∧ items' ≤ maxItems ∧ values = reads.map (PyValue.shown materialize) := by
  induction count generalizing items data values with
  | zero =>
    simp only [arrayItems, Except.ok.injEq, Prod.mk.injEq, List.length_eq_zero_iff]
    constructor
    · rintro ⟨rfl, rfl, rfl⟩
      exact ⟨[], rfl, by simp, rfl, rfl, hitems, rfl⟩
    · rintro ⟨reads, rfl, -, rfl, rfl, -, rfl⟩
      exact ⟨rfl, rfl, rfl⟩
  | succ count ih =>
    simp only [arrayItems, Except.bind_eq_ok, pure, Except.pure, Except.ok.injEq, Prod.mk.injEq]
    constructor
    · rintro ⟨⟨value, items₁, rest₁⟩, hfirst, ⟨values, items₂, rest₂⟩, hrest, rfl, rfl, rfl⟩
      obtain ⟨read, hwithin, rfl, rfl, hle, rfl⟩ := (hitem _ _ _ _ _ _).mp hfirst
      obtain ⟨reads, rfl, hreads, rfl, rfl, hle', rfl⟩ := (ih hle).mp hrest
      refine ⟨read :: reads, rfl, List.forall_mem_cons.mpr ⟨hwithin, hreads⟩, ?_, ?_, hle', rfl⟩
      · simp [encodeItems]
      · simp only [countItems]
        omega
    -- each item is counted before the rest is read
    · rintro ⟨reads, hlen, hreads, rfl, hcount, hle, rfl⟩
      cases reads with
      | nil => simp at hlen
      | cons read reads =>
        simp only [countItems] at hcount
        obtain ⟨hwithin, hreads⟩ := List.forall_mem_cons.mp hreads
        have hfirst : items + read.count ≤ maxItems := by omega
        refine ⟨(_, items + read.count, encodeItems reads ++ rest),
          (hitem _ _ _ _ _ _).mpr ⟨read, hwithin, ?_, rfl, hfirst, rfl⟩, (_, items', rest),
          (ih hfirst).mpr ⟨reads, by simpa using hlen, hreads, rfl, by omega, hle, rfl⟩,
          rfl, rfl, rfl⟩
        simp [encodeItems]

/-- The order of the encoded keys is the order of the keys. -/
theorem any_orderingLe_encodeText {previous : Option String} {key : String} :
    (previous.map encodeText).any (orderingLe (encodeText key)) = false
      ↔ ∀ p ∈ previous, KeyLt p key := by
  cases previous with
  | none => simp
  | some p =>
    simp only [Option.map_some, Option.any_some, Option.mem_some_iff, forall_eq', orderingLe,
      ← keyOutOfOrder_encodeText, keyOutOfOrder, gt_iff_lt,
      eq_comm (a := (encodeText key).length)]

/-- A key in order, and the keys after it. -/
theorem isChain_previous {previous : Option String} {key : String} {keys : List String} :
    (previous.toList ++ key :: keys).IsChain KeyLt
      ↔ (∀ p ∈ previous, KeyLt p key) ∧ ((some key).toList ++ keys).IsChain KeyLt := by
  cases previous with
  | none => simp
  | some p => simp

/-- The keys so far are at most the one before. -/
def KeysUpTo (previous : Option String) (keys : List String) : Prop :=
  ∀ key ∈ keys, ∃ p ∈ previous, key = p ∨ KeyLt key p

/-- Before the first key there is none. -/
theorem keysUpTo_nil : KeysUpTo none (([] : List (String × PyValue)).map Prod.fst) := by
  simp [KeysUpTo]

/-- A key in order is new. -/
theorem KeysUpTo.not_mem {previous : Option String} {keys : List String} {key : String}
    (h : KeysUpTo previous keys) (hkey : ∀ p ∈ previous, KeyLt p key) : key ∉ keys := by
  intro hmem
  obtain ⟨p, hp, rfl | hlt⟩ := h key hmem
  · exact KeyLt.irrefl _ (hkey _ hp)
  · exact KeyLt.irrefl _ (hlt.trans (hkey p hp))

/-- A key in order becomes the previous one. -/
theorem KeysUpTo.snoc {previous : Option String} {keys : List String} {key : String}
    (h : KeysUpTo previous keys) (hkey : ∀ p ∈ previous, KeyLt p key) :
    KeysUpTo (some key) (keys ++ [key]) := by
  intro k hk
  refine ⟨key, rfl, ?_⟩
  rcases List.mem_append.mp hk with hmem | hlast
  · obtain ⟨p, hp, rfl | hlt⟩ := h k hmem
    · exact .inr (hkey _ hp)
    · exact .inr (hlt.trans (hkey p hp))
  · exact .inl (List.mem_singleton.mp hlast)

/-- The members after an entry, whether or not it is kept. -/
theorem KeysUpTo.keep {previous : Option String} {result : List (String × PyValue)} {key : String}
    {value : PyValue} (h : KeysUpTo previous (result.map Prod.fst))
    (hkey : ∀ p ∈ previous, KeyLt p key) (materialize : Bool) :
    KeysUpTo (some key)
      ((if materialize then result ++ [(key, value)] else result).map Prod.fst) := by
  have hsnoc := h.snoc hkey
  cases materialize with
  | true => simpa using hsnoc
  | false => exact fun k hk => hsnoc k (List.mem_append_left _ hk)

/-- The members `mapping` keeps of the entries it reads. -/
def keptMembers (materialize : Bool) (entries : List (String × Item)) :
    List (String × PyValue) :=
  if materialize then ofEntries entries else []

/-- A member is kept where the map is materialised. -/
theorem keptMembers_cons (materialize : Bool) (key : String) (read : Item)
    (entries : List (String × Item)) :
    keptMembers materialize ((key, read) :: entries)
      = (if materialize then [(key, PyValue.ofItem read)] else [])
        ++ keptMembers materialize entries := by
  cases materialize <;> rfl

/-- The length of a key within the levels fits its head. -/
theorem length_lt_of_withinLevels {key : String} (h : WithinLevels levels (.text key)) :
    (utf8Bytes key).length < 2 ^ 64 := by
  cases levels with
  | zero => exact h.elim
  | succ levels => cases levels <;> exact h

/-- A key is read at the level of its value. -/
theorem withinLevels_text {read : Item} {key : String} (hread : WithinLevels levels read)
    (hlen : (utf8Bytes key).length < 2 ^ 64) : WithinLevels levels (.text key) := by
  cases levels with
  | zero => exact hread.elim
  | succ levels => cases levels <;> exact hlen

/-- The members of a map are read one by one, in key order, and counted. -/
theorem mapping_eq_ok (hitem : ReadsExactly maxItems levels item) {materialize : Bool}
    {count items items' : Nat} {previous : Option String} {result result' : List (String × PyValue)}
    {data rest : Bytes} (hitems : items ≤ maxItems)
    (hresult : KeysUpTo previous (result.map Prod.fst)) :
    mapping item materialize count (previous.map encodeText) result items data
        = .ok (result', items', rest)
      ↔ ∃ entries : List (String × Item), entries.length = count
        ∧ (previous.toList ++ entries.map Prod.fst).IsChain KeyLt
        ∧ (∀ entry ∈ entries, (utf8Bytes entry.1).length < 2 ^ 64 ∧ WithinLevels levels entry.2)
        ∧ data = encodeEntries entries ++ rest ∧ items' = items + countEntries entries
        ∧ items' ≤ maxItems ∧ result' = result ++ keptMembers materialize entries := by
  induction count generalizing items data previous result with
  | zero =>
    -- no entry: nothing is read and nothing added
    simp only [mapping, Except.ok.injEq, Prod.mk.injEq, List.length_eq_zero_iff]
    constructor
    · rintro ⟨rfl, rfl, rfl⟩
      refine ⟨[], rfl, ?_, by simp, rfl, rfl, hitems, by simp [keptMembers, ofEntries]⟩
      cases previous <;> simp
    · rintro ⟨entries, rfl, -, -, rfl, rfl, -, rfl⟩
      exact ⟨by simp [keptMembers, ofEntries], rfl, rfl⟩
  | succ count ih =>
    simp only [mapping, Except.bind_eq_ok, Except.ofOption_eq_ok, Except.require_eq_ok,
      Bool.not_eq_true']
    constructor
    -- from the loop to the entries: a key, its value, and the entries of the induction
    · rintro ⟨⟨keyValue, items₁, rest₁⟩, hread, key, hkey, u, horder, u', hfresh,
        ⟨value, items₂, rest₂⟩, hvalue, h⟩
      obtain ⟨readKey, hwithinKey, rfl, rfl, hle₁, rfl⟩ := (hitem _ _ _ _ _ _).mp hread
      obtain rfl := str?_ofItem.mp hkey
      obtain ⟨read, hwithin, hdata, rfl, hle₂, rfl⟩ := (hitem _ _ _ _ _ _).mp hvalue
      dsimp only at hdata horder hfresh h
      subst hdata
      -- the encoded key is what the key was read from
      rw [Item.encode, take_append_sub] at horder h
      have hbefore := any_orderingLe_encodeText.mp horder
      obtain ⟨entries, rfl, hchain, hentries, hrest, hcount, hle, rfl⟩ :=
        (ih hle₂ (hresult.keep hbefore materialize)).mp h
      refine ⟨(key, read) :: entries, rfl, isChain_previous.mpr ⟨hbefore, hchain⟩,
        List.forall_mem_cons.mpr ⟨⟨length_lt_of_withinLevels hwithinKey, hwithin⟩, hentries⟩,
        ?_, ?_, hle, ?_⟩
      · rw [hrest, encodeEntries, Item.encode]
        simp only [List.append_assoc]
      · rw [hcount, countEntries]
        simp only [Item.count]
        omega
      · rw [keptMembers_cons]
        cases materialize <;> simp [PyValue.shown]
    -- from the entries to the loop
    · rintro ⟨entries, hlen, hchain, hentries, rfl, hcount, hle, rfl⟩
      cases entries with
      | nil => simp at hlen
      | cons entry entries =>
        obtain ⟨key, read⟩ := entry
        obtain ⟨hbefore, hchain⟩ := isChain_previous.mp hchain
        obtain ⟨⟨hkeyLen, hwithin⟩, hentries⟩ := List.forall_mem_cons.mp hentries
        simp only [countEntries] at hcount
        have hkeyItems : items + (Item.text key).count ≤ maxItems := by
          rw [Item.count]
          omega
        have hvalueItems : items + (Item.text key).count + read.count ≤ maxItems := by
          rw [Item.count]
          omega
        refine ⟨(.str key, items + (Item.text key).count,
          read.encode ++ (encodeEntries entries ++ rest)), (hitem _ _ _ _ _ _).mpr
            ⟨.text key, withinLevels_text hwithin hkeyLen, ?_, rfl, hkeyItems, rfl⟩,
          key, rfl, (), ?_, (), ?_, (_, items + (Item.text key).count + read.count,
            encodeEntries entries ++ rest),
          (hitem _ _ _ _ _ _).mpr ⟨read, hwithin, rfl, rfl, hvalueItems, rfl⟩, ?_⟩
        · simp [encodeEntries, Item.encode]
        · dsimp only
          rw [encodeEntries, List.append_assoc, List.append_assoc, take_append_sub]
          exact any_orderingLe_encodeText.mpr hbefore
        · simpa using hresult.not_mem hbefore
        · dsimp only
          rw [encodeEntries, List.append_assoc, List.append_assoc, take_append_sub]
          refine (ih hvalueItems (hresult.keep hbefore materialize)).mpr
            ⟨entries, by simpa using hlen, hchain, hentries, rfl, ?_, hle, ?_⟩
          · simp only [Item.count]
            omega
          · rw [keptMembers_cons]
            cases materialize <;> simp [PyValue.shown]

end Loops

/-! ## The decoder is exact -/

/-- A shortest head, read as its initial byte and its argument. -/
theorem head_of_argument {initial major : UInt8} {data rest : Bytes} {n : Nat}
    (hmajor : initial >>> 5 = major)
    (h : argument (initial &&& 31) data = .ok (n, rest)) :
    ∃ w : UInt64, n = w.toNat ∧ initial :: data = DetCbor.head major w ++ rest := by
  obtain ⟨w, rfl, hinfo, rfl⟩ := argument_eq_ok.mp h
  refine ⟨w, rfl, ?_⟩
  rw [head_eq_cons, ← hinfo, ← hmajor, initial_of_fields]
  rfl

/-- The shortest argument is read. -/
theorem argument_shortest (w : UInt64) (rest : Bytes) :
    argument (shortestInfo w) (shortestArgument w ++ rest) = .ok (w.toNat, rest) :=
  argument_eq_ok.mpr ⟨w, rfl, rfl, rfl⟩

section Exact

variable {maxItems levels : Nat} {item : Bool → Reader}

/-- What the content after an initial byte is read from. -/
theorem content_sound (hmax : maxItems < 2 ^ 64) (hitem : ReadsExactly maxItems levels item)
    {materialize : Bool} {initial : UInt8} {items items' : Nat} {data rest : Bytes}
    {value : PyValue} (hitems : items ≤ maxItems)
    (h : content maxItems item materialize (initial >>> 5) (initial &&& 31) items data
      = .ok (value, items', rest)) :
    ∃ read : Item, read.Deterministic levels ∧ initial :: data = read.encode ++ rest
      ∧ items' + 1 = items + read.count ∧ items' ≤ maxItems
      ∧ value = PyValue.shown materialize read := by
  unfold content at h
  -- an unsigned integer
  split at h
  · next hmajor =>
    simp only [Except.bind_eq_ok] at h
    obtain ⟨⟨n, data'⟩, hargument, h⟩ := h
    cases h
    obtain ⟨w, rfl, hdata⟩ := head_of_argument hmajor hargument
    exact ⟨.uint w, by cases levels <;> trivial, hdata, rfl, hitems, by cases materialize <;> rfl⟩
  -- a negative integer
  · next hmajor =>
    simp only [Except.bind_eq_ok] at h
    obtain ⟨⟨n, data'⟩, hargument, h⟩ := h
    cases h
    obtain ⟨w, rfl, hdata⟩ := head_of_argument hmajor hargument
    exact ⟨.nint w, by cases levels <;> trivial, hdata, rfl, hitems, by cases materialize <;> rfl⟩
  -- a byte string
  · next hmajor =>
    simp only [Except.bind_eq_ok] at h
    obtain ⟨⟨n, data'⟩, hargument, h⟩ := h
    obtain ⟨w, rfl, hdata⟩ := head_of_argument hmajor hargument
    -- the bytes are the same whether or not they are materialized
    have hpart : ∃ part : Bytes, part.length = w.toNat ∧ data' = part ++ rest ∧ items' = items
        ∧ value = PyValue.shown materialize (.bytes part) := by
      cases materialize with
      | true =>
        simp only [if_true, Except.bind_eq_ok] at h
        obtain ⟨⟨part, rest'⟩, htake, h⟩ := h
        cases h
        obtain ⟨hlen, hdata'⟩ := take_eq_ok.mp htake
        exact ⟨part, hlen, hdata', rfl, rfl⟩
      | false =>
        simp only [Bool.false_eq_true, if_false, Except.bind_eq_ok] at h
        obtain ⟨rest', hadvance, h⟩ := h
        cases h
        obtain ⟨part, hlen, hdata'⟩ := advance_eq_ok.mp hadvance
        exact ⟨part, hlen, hdata', rfl, rfl⟩
    obtain ⟨part, hlen, rfl, rfl, rfl⟩ := hpart
    have hlt : part.length < 2 ^ 64 := hlen ▸ w.toNat_lt
    refine ⟨.bytes part, by cases levels <;> exact hlt, ?_, rfl, hitems, rfl⟩
    rw [hdata, Item.encode, lengthHead, hlen, UInt64.ofNat_toNat, List.append_assoc]
  -- a text: the bytes taken are those of the string they decode to
  · next hmajor =>
    simp only [Except.bind_eq_ok, Except.ofOption_eq_ok] at h
    obtain ⟨⟨n, data'⟩, hargument, ⟨encoded, rest'⟩, htake, text, htext, h⟩ := h
    cases h
    obtain ⟨w, rfl, hdata⟩ := head_of_argument hmajor hargument
    obtain ⟨hlen, rfl⟩ := take_eq_ok.mp htake
    obtain rfl := utf8Bytes_of_ofUtf8? htext
    have hlt : (utf8Bytes text).length < 2 ^ 64 := hlen ▸ w.toNat_lt
    refine ⟨.text text, by cases levels <;> exact hlt, ?_, rfl, hitems,
      by cases materialize <;> rfl⟩
    rw [hdata, Item.encode, encodeText, lengthHead, hlen, UInt64.ofNat_toNat, List.append_assoc]
  -- an array: the loop reads the items, each within the levels below
  · next hmajor =>
    simp only [Except.bind_eq_ok, Except.require_eq_ok, decide_eq_true_eq] at h
    obtain ⟨⟨n, data'⟩, hargument, u, -, u', -, ⟨values, items₁, rest'⟩, hloop, h⟩ := h
    cases h
    obtain ⟨w, rfl, hdata⟩ := head_of_argument hmajor hargument
    obtain ⟨reads, hlen, hreads, rfl, rfl, hle, rfl⟩ := (arrayItems_eq_ok hitem hitems).mp hloop
    have hlt : reads.length < 2 ^ 64 := hlen ▸ w.toNat_lt
    refine ⟨.array reads, deterministic_array hlt hreads, ?_, ?_, hle, ?_⟩
    · rw [hdata, Item.encode, lengthHead, hlen, UInt64.ofNat_toNat, List.append_assoc]
    · simp only [Item.count]
      omega
    · cases materialize with
      | true => simp [PyValue.shown, PyValue.ofItem, ofItems_eq_map]
      | false => rfl
  -- a map: the loop reads the entries, their keys in order
  · next hmajor =>
    simp only [Except.bind_eq_ok, Except.require_eq_ok, decide_eq_true_eq] at h
    obtain ⟨⟨n, data'⟩, hargument, u, -, u', hfits, ⟨members, items₁, rest'⟩, hloop, h⟩ := h
    cases h
    obtain ⟨w, rfl, hdata⟩ := head_of_argument hmajor hargument
    obtain ⟨entries, hlen, hchain, hentries, rfl, rfl, hle, rfl⟩ :=
      (mapping_eq_ok hitem hitems keysUpTo_nil).mp hloop
    refine ⟨.map entries, deterministic_map (by omega) hchain hentries, ?_, ?_, hle, ?_⟩
    · rw [hdata, Item.encode, lengthHead, hlen, UInt64.ofNat_toNat, List.append_assoc]
    · simp only [Item.count]
      omega
    · cases materialize <;> rfl
  -- tags are refused
  · cases h
  -- a simple value or a float
  · next hmajor =>
    simp only [Except.bind_eq_ok] at h
    obtain ⟨⟨value', rest'⟩, hsimple, h⟩ := h
    cases h
    obtain ⟨read, hread, hdata, rfl⟩ := simpleOrFloat_sound hmajor hsimple
    refine ⟨read, hread.deterministic levels, hdata, ?_, hitems, ?_⟩
    · cases hread <;> rfl
    · exact (shown_of_isSimple hread materialize).symm
  · cases h

/-- Past a shortest head the decoder goes on with the content. -/
theorem item_head {materialize : Bool} {major : UInt8} {w : UInt64} {items : Nat} {rest : Bytes}
    (hmajor : major < 8) (hitems : items + 1 ≤ maxItems) :
    Checker.item maxItems (levels + 1) materialize items (DetCbor.head major w ++ rest)
      = content maxItems (Checker.item maxItems levels) materialize major (shortestInfo w)
        (items + 1) (shortestArgument w ++ rest) := by
  obtain ⟨hfield, hinfo⟩ := initial_fields hmajor
    (UInt8.lt_trans (shortestInfo_lt w) (by decide : (28 : UInt8) < 32))
  rw [head_eq_cons, List.cons_append]
  simp only [Checker.item, hfield, hinfo, Except.require, hitems, decide_true, if_true]
  rfl

/-- A simple item is read and counted. -/
theorem item_simple {materialize : Bool} {read : Item} {items : Nat} (h : IsSimple read)
    (rest : Bytes) (hitems : items + 1 ≤ maxItems) :
    Checker.item maxItems (levels + 1) materialize items (read.encode ++ rest)
      = .ok (PyValue.shown materialize read, items + read.count, rest) := by
  obtain ⟨initial, data, hdata, hmajor, hsimple⟩ := simpleOrFloat_complete h rest
  have hcount : read.count = 1 := by cases h <;> rfl
  rw [hdata, shown_of_isSimple h, hcount]
  simp only [Checker.item, Except.require, hitems, decide_true, if_true, Except.ok_bind, hmajor,
    content, hsimple]
  rfl

/-- What a deterministic array says of its items. -/
theorem children_of_array {reads : List Item} (h : (Item.array reads).Deterministic levels) :
    reads.length < 2 ^ 64 ∧ ∀ read ∈ reads, WithinLevels levels read := by
  cases levels with
  | zero =>
    rw [show reads = [] from h]
    simp
  | succ levels => exact h

/-- What a deterministic map says of its entries. -/
theorem children_of_map {entries : List (String × Item)}
    (h : (Item.map entries).Deterministic levels) :
    entries.length < 2 ^ 63 ∧ (entries.map Prod.fst).IsChain KeyLt
      ∧ ∀ entry ∈ entries, (utf8Bytes entry.1).length < 2 ^ 64 ∧ WithinLevels levels entry.2 := by
  cases levels with
  | zero =>
    rw [show entries = [] from h]
    simp
  | succ levels => exact ⟨h.1, List.isChain_iff_pairwise.mpr h.2.1, h.2.2⟩

/-- An item within the levels and the limit is read. -/
theorem item_complete (hitem : ReadsExactly maxItems levels (Checker.item maxItems levels))
    {materialize : Bool} {read : Item} {items : Nat} (rest : Bytes)
    (hread : read.Deterministic levels) (hitems : items + read.count ≤ maxItems) :
    Checker.item maxItems (levels + 1) materialize items (read.encode ++ rest)
      = .ok (PyValue.shown materialize read, items + read.count, rest) := by
  have hpos := read.count_pos
  have hone : items + 1 ≤ maxItems := by omega
  cases read with
  -- an integer is its head
  | uint w =>
    rw [Item.encode, item_head (by decide) hone]
    simp only [content, argument_shortest, Except.ok_bind]
    cases materialize <;> rfl
  | nint w =>
    rw [Item.encode, item_head (by decide) hone]
    simp only [content, argument_shortest, Except.ok_bind]
    cases materialize <;> rfl
  -- the bytes stand behind the head, whether they are kept or not
  | bytes b =>
    have hlen : b.length < 2 ^ 64 := by cases levels <;> exact hread
    rw [Item.encode, lengthHead, List.append_assoc, item_head (by decide) hone]
    simp only [content, argument_shortest, Except.ok_bind, UInt64.toNat_ofNat_of_lt64 hlen]
    cases materialize with
    | true =>
      rw [if_pos rfl, take_eq_ok.mpr ⟨rfl, rfl⟩]
      rfl
    | false =>
      rw [if_neg (by decide), advance_eq_ok.mpr ⟨b, rfl, rfl⟩]
      rfl
  | text s =>
    have hlen : (utf8Bytes s).length < 2 ^ 64 := by cases levels <;> exact hread
    rw [Item.encode, encodeText, lengthHead, List.append_assoc, item_head (by decide) hone]
    simp only [content, argument_shortest, Except.ok_bind, UInt64.toNat_ofNat_of_lt64 hlen]
    rw [take_eq_ok.mpr ⟨rfl, rfl⟩, Except.ok_bind]
    dsimp only
    rw [ofUtf8?_utf8Bytes]
    cases materialize <;> rfl
  -- the loop reads the items: their number fits the head and the bytes that are left
  | array reads =>
    obtain ⟨hlen, hreads⟩ := children_of_array hread
    simp only [Item.count] at hitems ⊢
    have hcount := length_le_countItems reads
    have hbytes := length_encodeItems_ge reads
    have hloop : arrayItems (Checker.item maxItems levels materialize) reads.length (items + 1)
        (encodeItems reads ++ rest)
        = .ok (reads.map (PyValue.shown materialize), items + 1 + countItems reads, rest) :=
      (arrayItems_eq_ok hitem hone).mpr ⟨reads, rfl, hreads, rfl, rfl, by omega, rfl⟩
    rw [Item.encode, lengthHead, List.append_assoc, item_head (by decide) hone]
    simp only [content, argument_shortest, Except.ok_bind, UInt64.toNat_ofNat_of_lt64 hlen,
      Except.bind_eq_ok, Except.require_eq_ok, decide_eq_true_eq, List.length_append]
    refine ⟨(), by omega, (), by omega, _, hloop, ?_⟩
    cases materialize with
    | true => simp [PyValue.shown, PyValue.ofItem, ofItems_eq_map, pure, Except.pure, Nat.add_assoc]
    | false => simp [PyValue.shown, pure, Except.pure, Nat.add_assoc]
  -- the loop reads the entries, in key order
  | map entries =>
    obtain ⟨hlen, hkeys, hentries⟩ := children_of_map hread
    simp only [Item.count] at hitems ⊢
    have hcount := length_le_countEntries entries
    have hbytes := length_encodeEntries_ge entries
    have hloop : mapping (Checker.item maxItems levels) materialize entries.length none []
        (items + 1) (encodeEntries entries ++ rest)
        = .ok (keptMembers materialize entries, items + 1 + countEntries entries, rest) :=
      (mapping_eq_ok hitem hone keysUpTo_nil).mpr
        ⟨entries, rfl, hkeys, hentries, rfl, rfl, by omega, rfl⟩
    rw [Item.encode, lengthHead, List.append_assoc, item_head (by decide) hone]
    simp only [content, argument_shortest, Except.ok_bind,
      UInt64.toNat_ofNat_of_lt64 (show entries.length < 2 ^ 64 by omega),
      Except.bind_eq_ok, Except.require_eq_ok, decide_eq_true_eq, List.length_append]
    refine ⟨(), by omega, (), by omega, _, hloop, ?_⟩
    cases materialize <;> simp [PyValue.shown, PyValue.ofItem, keptMembers, pure, Except.pure,
      Nat.add_assoc]
  | bool b => exact item_simple (.bool b) rest hone
  | null => exact item_simple .null rest hone
  | float f => exact item_simple (.float (by cases levels <;> exact hread)) rest hone

variable (maxItems levels) in
/-- The decoder reads the deterministic items within its limits, and nothing else. -/
theorem item_readsExactly (hmax : maxItems < 2 ^ 64) :
    ReadsExactly maxItems levels (Checker.item maxItems levels) := by
  induction levels with
  | zero =>
    intro materialize items data value items' rest
    constructor
    · intro h
      cases h
    · rintro ⟨read, hwithin, -⟩
      exact hwithin.elim
  | succ levels ih =>
    intro materialize items data value items' rest
    constructor
    · intro h
      simp only [Checker.item, Except.bind_eq_ok, Except.require_eq_ok, decide_eq_true_eq] at h
      obtain ⟨u, hitems, h⟩ := h
      cases data with
      | nil => cases h
      | cons initial data =>
        obtain ⟨read, hread, hdata, hcount, hle, hvalue⟩ := content_sound hmax ih hitems h
        exact ⟨read, hread, hdata, by omega, hle, hvalue⟩
    · rintro ⟨read, hread, rfl, rfl, hle, rfl⟩
      exact item_complete ih rest hread hle

end Exact

/-- **The decoder.** It accepts the deterministic encodings within the depth and the item guard, and
reads their value. -/
theorem decode_eq_ok {data : Bytes} {value : PyValue} :
    decode data = .ok value
      ↔ ∃ read : Item, read.Deterministic maxCborNestingDepth ∧ data = read.encode
        ∧ read.count ≤ maxCborItems ∧ value = PyValue.ofItem read := by
  have hexact := item_readsExactly maxCborItems (maxCborNestingDepth + 1) (by decide)
  simp only [decode, Except.bind_eq_ok, Except.require_eq_ok, decide_eq_true_eq, pure, Except.pure,
    Except.ok.injEq]
  constructor
  · rintro ⟨⟨value', items, rest⟩, hitem, u, rfl, rfl⟩
    obtain ⟨read, hread, hdata, hcount, hle, hvalue⟩ := (hexact _ _ _ _ _ _).mp hitem
    exact ⟨read, hread, by simpa using hdata, by omega, hvalue⟩
  · rintro ⟨read, hread, rfl, hle, rfl⟩
    refine ⟨(.ofItem read, 0 + read.count, []), (hexact _ _ _ _ _ _).mpr
      ⟨read, hread, by simp, rfl, by omega, rfl⟩, (), rfl, rfl⟩

end TrackOne.Checker
