import TrackOne.Vtl.Record

/-!
# From JSON to canonical CBOR

`canonical_cbor_bytes` of `trackone-ledger/src/c_cbor.rs`: the encoder that turns a
`serde_json::Value` into the bytes a payload is committed by.

* `encodeValue_eq_ok`: a value is encoded exactly when its floats are finite, and then as the
  deterministic item `toItem`. The members of an object are sorted by key bytes here and by encoded
  keys in the validator; `keyLt_iff` is the agreement of the two orders.
* `canonicalCborBytes_accepted`: the record validator accepts the bytes as a payload.
* `canonicalCborBytes_commits`: the encoding is prefix-free, and equal for values that are equal up
  to the order of members, only.
-/

namespace TrackOne.CCbor

open BinaryFloat DetCbor

/-! ## JSON values -/

/-- `serde_json::Number`: an integer that is not negative, one that is, or a double, by its bits. -/
inductive JsonNumber where
  | posInt (n : UInt64)
  | negInt (n : Int64)
  | float (bits : UInt64)
deriving DecidableEq

/-- `serde_json::Value`. The members of an object stand in the order in which its map is
iterated. -/
inductive JsonValue where
  | null
  | bool (b : Bool)
  | number (n : JsonNumber)
  | string (s : String)
  | array (items : List JsonValue)
  | object (entries : List (String × JsonValue))

namespace JsonNumber

/-- What `serde_json` keeps: a negative integer is negative. -/
def Valid : JsonNumber → Prop
  | negInt n => n < 0
  | _ => True

def asU64 : JsonNumber → Option UInt64
  | posInt n => some n
  | _ => none

def asI64 : JsonNumber → Option Int64
  | posInt n => if n.toNat < 2 ^ 63 then some n.toInt64 else none
  | negInt n => some n
  | float _ => none

/-- `as_f64` of a number with `is_f64`. -/
def asF64 : JsonNumber → Option UInt64
  | float bits => some bits
  | _ => none

end JsonNumber

mutual

/-- What holds of every value in memory: strings and collections are shorter than `isize::MAX`, and
the keys of an object are distinct. -/
def JsonValue.Valid : JsonValue → Prop
  | .null => True
  | .bool _ => True
  | .number n => n.Valid
  | .string s => (utf8Bytes s).length < 2 ^ 63
  | .array items => items.length < 2 ^ 63 ∧ validItems items
  | .object entries =>
    entries.length < 2 ^ 63 ∧ (entries.map Prod.fst).Nodup ∧ validEntries entries

def validItems : List JsonValue → Prop
  | [] => True
  | item :: items => item.Valid ∧ validItems items

def validEntries : List (String × JsonValue) → Prop
  | [] => True
  | (key, value) :: entries =>
    (utf8Bytes key).length < 2 ^ 63 ∧ value.Valid ∧ validEntries entries

end

/-- A `Value` as it can be built. -/
abbrev SerdeValue := { value : JsonValue // value.Valid }

mutual

/-- The number of levels below the root at which the deepest part lies. -/
def JsonValue.depth : JsonValue → Nat
  | .array items => depthItems items
  | .object entries => depthEntries entries
  | _ => 0

def depthItems : List JsonValue → Nat
  | [] => 0
  | item :: items => max (item.depth + 1) (depthItems items)

def depthEntries : List (String × JsonValue) → Nat
  | [] => 0
  | (_, value) :: entries => max (value.depth + 1) (depthEntries entries)

end

/-! ## The encoder -/

/-- `Error` of the canonical CBOR module. -/
inductive CanonicalCborError where
  | nonFiniteFloat
  | unsupportedNumber
deriving DecidableEq, Repr

def majorU64 (major : UInt8) (n : UInt64) : Bytes :=
  if n < 24 then [(major <<< 5) ||| n.toUInt8]
  else if n.toNat < 2 ^ 8 then [(major <<< 5) ||| 24, n.toUInt8]
  else if n.toNat < 2 ^ 16 then ((major <<< 5) ||| 25) :: beBytes 2 n.toNat
  else if n.toNat < 2 ^ 32 then ((major <<< 5) ||| 26) :: beBytes 4 n.toNat
  else ((major <<< 5) ||| 27) :: beBytes 8 n.toNat

def cborUint (n : UInt64) : Bytes := majorU64 0 n

/-- `cbor_nint`: the subtraction is made in 128 bits and cut to 64. -/
def cborNint (n : Int64) : Bytes := majorU64 1 (UInt64.ofInt (-1 - n.toInt))

def cborI64 (n : Int64) : Bytes := if 0 ≤ n then cborUint n.toUInt64 else cborNint n

def cborFloat (bits : UInt64) : Except CanonicalCborError Bytes :=
  (canonicalFloatBytes bits.toNat).mapError fun _ => .nonFiniteFloat

def cborText (s : String) : Bytes :=
  majorU64 3 (UInt64.ofNat (utf8Bytes s).length) ++ utf8Bytes s

def cborArrayLen (n : Nat) : Bytes := majorU64 4 (UInt64.ofNat n)

def cborMapLen (n : Nat) : Bytes := majorU64 5 (UInt64.ofNat n)

def encodeNumber (num : JsonNumber) : Except CanonicalCborError Bytes :=
  match num.asU64 with
  | some u => .ok (cborUint u)
  | none => match num.asI64 with
    | some i => .ok (cborI64 i)
    | none => match num.asF64 with
      | some f => cborFloat f
      | none => .error .unsupportedNumber

/-- The comparator of the sort: the length of the key bytes, then the bytes. -/
def compareKeys (a b : String) : Ordering :=
  (compare (utf8Bytes a).length (utf8Bytes b).length).then
    (if utf8Bytes a < utf8Bytes b then .lt else if utf8Bytes a = utf8Bytes b then .eq else .gt)

/-- `sort_by` on the entries of a map. -/
def sortEntries {α : Type} (entries : List (String × α)) : List (String × α) :=
  entries.mergeSort fun a b => (compareKeys a.1 b.1).isLE

/-- The loop over sorted entries. -/
def writeEntries (entries : List (String × Except CanonicalCborError Bytes)) :
    Except CanonicalCborError Bytes := do
  let parts ← entries.mapM fun (key, encoded) => do
    let bytes ← encoded
    pure (cborText key ++ bytes)
  pure parts.flatten

mutual

/-- `encode_value`, as the bytes that are pushed. -/
def encodeValue : JsonValue → Except CanonicalCborError Bytes
  | .null => .ok [0xf6]
  | .bool false => .ok [0xf4]
  | .bool true => .ok [0xf5]
  | .number num => encodeNumber num
  | .string s => .ok (cborText s)
  | .array items => do
    let bytes ← encodeArray items
    pure (cborArrayLen items.length ++ bytes)
  | .object entries => do
    -- an entry is encoded when the loop over the sorted entries comes to it
    let bytes ← writeEntries (sortEntries (encodeMembers entries))
    pure (cborMapLen entries.length ++ bytes)

/-- The loop over the items of an array. -/
def encodeArray : List JsonValue → Except CanonicalCborError Bytes
  | [] => .ok []
  | item :: items => do
    let first ← encodeValue item
    let rest ← encodeArray items
    pure (first ++ rest)

/-- The encodings of the members of an object, as the map is iterated. -/
def encodeMembers : List (String × JsonValue) → List (String × Except CanonicalCborError Bytes)
  | [] => []
  | (key, value) :: entries => (key, encodeValue value) :: encodeMembers entries

end

def canonicalCborBytes (value : SerdeValue) : Except CanonicalCborError Bytes :=
  encodeValue value.1

/-! ## Values as items -/

/-- The float that the encoder chooses. -/
def shortestFloat (bits : UInt64) : FloatLit :=
  match tryEncodeAsF16 bits.toNat with
  | some f16Bits => .half (UInt16.ofNat f16Bits)
  | none =>
    if widen single (narrowSingle bits.toNat) = bits.toNat then
      .single (UInt32.ofNat (narrowSingle bits.toNat))
    else .double bits

/-- The item of a number. -/
def JsonNumber.toItem : JsonNumber → Item
  | posInt n => .uint n
  | negInt n => .nint (UInt64.ofInt (-1 - n.toInt))
  | float bits => .float (shortestFloat bits)

mutual

/-- The item of a value. -/
def JsonValue.toItem : JsonValue → Item
  | .null => .null
  | .bool b => .bool b
  | .number n => n.toItem
  | .string s => .text s
  | .array items => .array (jsonItems items)
  | .object entries => .map (sortEntries (jsonEntries entries))

def jsonItems : List JsonValue → List Item
  | [] => []
  | item :: items => item.toItem :: jsonItems items

def jsonEntries : List (String × JsonValue) → List (String × Item)
  | [] => []
  | (key, value) :: entries => (key, value.toItem) :: jsonEntries entries

end

/-- An integer, or a finite float. -/
def JsonNumber.Finite : JsonNumber → Prop
  | float bits => double.Finite bits.toNat
  | _ => True

mutual

/-- Every float in the value is finite. -/
def JsonValue.Finite : JsonValue → Prop
  | .number n => n.Finite
  | .array items => finiteItems items
  | .object entries => finiteEntries entries
  | _ => True

def finiteItems : List JsonValue → Prop
  | [] => True
  | item :: items => item.Finite ∧ finiteItems items

def finiteEntries : List (String × JsonValue) → Prop
  | [] => True
  | (_, value) :: entries => value.Finite ∧ finiteEntries entries

end

/-! ### The loops over children as maps and quantifiers -/

/-- The items of an array, one by one. -/
theorem jsonItems_eq_map (items : List JsonValue) :
    jsonItems items = items.map JsonValue.toItem := by
  induction items with
  | nil => rfl
  | cons item items ih => simp [jsonItems, ih]

/-- The entries of an object, one by one. -/
theorem jsonEntries_eq_map (entries : List (String × JsonValue)) :
    jsonEntries entries = entries.map fun entry => (entry.1, entry.2.toItem) := by
  induction entries with
  | nil => rfl
  | cons entry entries ih => simp [jsonEntries, ih]

/-- The members of an object are encoded one by one. -/
theorem encodeMembers_eq_map (entries : List (String × JsonValue)) :
    encodeMembers entries = entries.map fun entry => (entry.1, encodeValue entry.2) := by
  induction entries with
  | nil => rfl
  | cons entry entries ih => simp [encodeMembers, ih]

/-- The numbers of an array are finite when those of each item are. -/
theorem finiteItems_iff {items : List JsonValue} :
    finiteItems items ↔ ∀ item ∈ items, item.Finite := by
  induction items with
  | nil => simp [finiteItems]
  | cons item items ih => simp [finiteItems, ih]

/-- The numbers of an object are finite when those of each entry are. -/
theorem finiteEntries_iff {entries : List (String × JsonValue)} :
    finiteEntries entries ↔ ∀ entry ∈ entries, entry.2.Finite := by
  induction entries with
  | nil => simp [finiteEntries]
  | cons entry entries ih => simp [finiteEntries, ih]

/-- An array is valid when each item is. -/
theorem validItems_iff {items : List JsonValue} :
    validItems items ↔ ∀ item ∈ items, item.Valid := by
  induction items with
  | nil => simp [validItems]
  | cons item items ih => simp [validItems, ih]

/-- An object is valid when each entry is. -/
theorem validEntries_iff {entries : List (String × JsonValue)} :
    validEntries entries
      ↔ ∀ entry ∈ entries, (utf8Bytes entry.1).length < 2 ^ 63 ∧ entry.2.Valid := by
  induction entries with
  | nil => simp [validEntries]
  | cons entry entries ih =>
    rw [validEntries, ih, List.forall_mem_cons]
    tauto

/-- An array is deeper than each of its items. -/
theorem depthItems_le {items : List JsonValue} {n : Nat} :
    depthItems items ≤ n ↔ ∀ item ∈ items, item.depth < n := by
  induction items with
  | nil => simp [depthItems]
  | cons item items ih => rw [depthItems, Nat.max_le, ih, Nat.add_one_le_iff, List.forall_mem_cons]

/-- An object is deeper than each of its values. -/
theorem depthEntries_le {entries : List (String × JsonValue)} {n : Nat} :
    depthEntries entries ≤ n ↔ ∀ entry ∈ entries, entry.2.depth < n := by
  induction entries with
  | nil => simp [depthEntries]
  | cons entry entries ih =>
    rw [depthEntries, Nat.max_le, ih, Nat.add_one_le_iff, List.forall_mem_cons]

/-- Induction over a value, with the hypothesis for every item and every member. -/
theorem JsonValue.induct {P : JsonValue → Prop} (null : P .null) (bool : ∀ b, P (.bool b))
    (number : ∀ n, P (.number n)) (string : ∀ s, P (.string s))
    (array : ∀ items, (∀ item ∈ items, P item) → P (.array items))
    (object : ∀ entries, (∀ entry ∈ entries, P entry.2) → P (.object entries)) (value : JsonValue) :
    P value :=
  @JsonValue.rec P (fun items => ∀ item ∈ items, P item)
    (fun entries => ∀ entry ∈ entries, P entry.2) (fun entry => P entry.2)
    null bool number string array object (fun _ h => absurd h List.not_mem_nil)
    (fun _ _ hfirst hrest => List.forall_mem_cons.mpr ⟨hfirst, hrest⟩)
    (fun _ h => absurd h List.not_mem_nil)
    (fun _ _ hfirst hrest => List.forall_mem_cons.mpr ⟨hfirst, hrest⟩)
    (fun _ _ hvalue => hvalue) value

/-! ## What is encoded -/

/-- The encoder writes the shortest head. -/
theorem majorU64_eq_head (major : UInt8) (n : UInt64) :
    majorU64 major n = DetCbor.head major n := by
  have hlt : ∀ k : UInt64, n ≤ k ↔ n.toNat < k.toNat + 1 := by
    intro k
    rw [UInt64.le_iff_toNat_le]
    omega
  have hbyte : n.toUInt8 = UInt8.ofNat (n.toNat % 256) := by
    rw [← UInt8.toNat_inj]
    simp
  unfold majorU64 DetCbor.head
  simp only [hlt, UInt64.lt_iff_toNat_lt, UInt64.reduceToNat, Nat.reduceAdd, Nat.reducePow]
  split_ifs
  · rfl
  · simp [beBytes, hbyte]
  · rfl
  · rfl
  · rfl

/-- The encoder writes texts as items do. -/
theorem cborText_eq_encodeText (s : String) : cborText s = encodeText s := by
  rw [cborText, majorU64_eq_head]
  rfl

/-- The chosen float is the shortest one of the value, and the bytes are its encoding. -/
theorem shortestFloat_spec {bits : UInt64} (hfin : double.Finite bits.toNat) :
    (shortestFloat bits).Shortest ∧ (shortestFloat bits).value = bits.toNat
      ∧ canonicalFloatBytes bits.toNat = .ok (shortestFloat bits).encode := by
  suffices (shortestFloat bits).value = bits.toNat
      ∧ canonicalFloatBytes bits.toNat = .ok (shortestFloat bits).encode by
    obtain ⟨hvalue, hbytes⟩ := this
    exact ⟨shortest_of_canonicalFloatBytes (hvalue ▸ hbytes), hvalue, hbytes⟩
  unfold shortestFloat
  cases hhalf : tryEncodeAsF16 bits.toNat with
  | some f16Bits =>
    obtain ⟨hfinite, hwiden⟩ := tryEncodeAsF16_eq_some.mp hhalf
    have hlt := lt_of_widen_lt widens_half hfinite (hwiden ▸ bits.toNat_lt)
    have hto : (UInt16.ofNat f16Bits).toNat = f16Bits := UInt16.toNat_ofNat_of_lt' hlt
    dsimp only [FloatLit.value, FloatLit.encode]
    rw [hto]
    exact ⟨hwiden, canonicalFloatBytes_of_half hfin hhalf⟩
  | none =>
    dsimp only
    split_ifs with hsingle
    · have hfinite : single.Finite (narrowSingle bits.toNat) :=
        finite_of_finite_widen (by rwa [hsingle])
      have hlt := lt_of_widen_lt widens_single hfinite (by rw [hsingle]; exact bits.toNat_lt)
      have hto : (UInt32.ofNat (narrowSingle bits.toNat)).toNat = narrowSingle bits.toNat :=
        UInt32.toNat_ofNat_of_lt' hlt
      dsimp only [FloatLit.value, FloatLit.encode]
      rw [hto]
      exact ⟨hsingle, canonicalFloatBytes_of_single hfin hhalf hsingle⟩
    · exact ⟨rfl, canonicalFloatBytes_of_double hfin hhalf hsingle⟩

/-- A finite number is encoded, as its item. -/
theorem encodeNumber_eq_ok {n : JsonNumber} (hvalid : n.Valid) {b : Bytes} :
    encodeNumber n = .ok b ↔ n.Finite ∧ b = n.toItem.encode := by
  cases n with
  | posInt n => simp [encodeNumber, JsonNumber.asU64, JsonNumber.Finite, JsonNumber.toItem,
      Item.encode, cborUint, majorU64_eq_head, eq_comm]
  | negInt n =>
    have hneg : ¬ (0 ≤ n) := by
      have hlt : n < 0 := hvalid
      rw [Int64.le_iff_toInt_le]
      rw [Int64.lt_iff_toInt_lt] at hlt
      omega
    simp [encodeNumber, JsonNumber.asU64, JsonNumber.asI64, JsonNumber.Finite, JsonNumber.toItem,
      Item.encode, cborI64, cborNint, hneg, majorU64_eq_head, eq_comm]
  | float bits =>
    simp only [encodeNumber, JsonNumber.asU64, JsonNumber.asI64, JsonNumber.asF64, cborFloat,
      Except.mapError_eq_ok, JsonNumber.Finite, JsonNumber.toItem, Item.encode]
    constructor
    · intro h
      have hfin := finite_of_canonicalFloatBytes h
      rw [(shortestFloat_spec hfin).2.2] at h
      exact ⟨hfin, (Except.ok.inj h).symm⟩
    · rintro ⟨hfin, rfl⟩
      exact (shortestFloat_spec hfin).2.2

/-! ### The order of the keys -/

/-- A longer argument needs no shorter head. -/
theorem length_head_mono {major : UInt8} {n m : UInt64} (h : n ≤ m) :
    (DetCbor.head major n).length ≤ (DetCbor.head major m).length := by
  rw [UInt64.le_iff_toNat_le] at h
  unfold DetCbor.head
  dsimp only
  split_ifs with h₁ h₂ h₃ h₄ h₅ h₆ h₇ h₈ h₉ h₁₀ h₁₁ h₁₂ h₁₃ h₁₄ h₁₅ h₁₆ <;>
    simp only [List.length_cons, List.length_nil, length_beBytes] <;>
    simp only [UInt64.le_iff_toNat_le, UInt64.reduceToNat, not_le] at * <;>
    omega

/-- Sorting keys by the bytes of their text or by their encoded bytes is the same. -/
theorem keyLt_iff {a b : String} (ha : (utf8Bytes a).length < 2 ^ 63)
    (hb : (utf8Bytes b).length < 2 ^ 63) : KeyLt a b ↔ compareKeys a b = .lt := by
  have hlength : ∀ s : String, (encodeText s).length
      = (lengthHead 3 (utf8Bytes s).length).length + (utf8Bytes s).length := by
    intro s
    rw [encodeText, List.length_append]
  have hmono : ∀ {s t : String}, (utf8Bytes s).length < (utf8Bytes t).length →
      (utf8Bytes t).length < 2 ^ 63 → (encodeText s).length < (encodeText t).length := by
    intro s t hlt ht
    have hle : UInt64.ofNat (utf8Bytes s).length ≤ UInt64.ofNat (utf8Bytes t).length := by
      rw [UInt64.le_iff_toNat_le, UInt64.toNat_ofNat_of_lt64 (by omega),
        UInt64.toNat_ofNat_of_lt64 (by omega)]
      omega
    have hhead := @length_head_mono 3 _ _ hle
    rw [hlength, hlength, lengthHead, lengthHead]
    omega
  unfold KeyLt compareKeys
  -- the shorter key has the shorter encoding
  rcases Nat.lt_trichotomy (utf8Bytes a).length (utf8Bytes b).length with hlt | heq | hgt
  · rw [Nat.compare_eq_lt.mpr hlt]
    exact iff_of_true (.inl (hmono hlt hb)) rfl
  · -- the heads are the same, and the texts decide
    have hsame : encodeText a < encodeText b ↔ utf8Bytes a < utf8Bytes b := by
      rw [encodeText, encodeText, heq]
      constructor
      · intro h
        by_contra hnot
        exact absurd h (List.not_lt.mpr (List.append_left_le (List.not_lt.mp hnot)))
      · exact List.append_left_lt
    have hsize : (encodeText a).length = (encodeText b).length := by
      rw [hlength, hlength, heq]
    rw [heq, Nat.compare_eq_eq.mpr rfl]
    simp only [hsize, Nat.lt_irrefl, false_or, true_and, hsame, Ordering.then]
    split_ifs with h₁ h₂
    · simp [h₁]
    · simp [h₁]
    · simp [h₁]
  · rw [Nat.compare_eq_gt.mpr hgt]
    refine iff_of_false ?_ (by simp [Ordering.then])
    have hlt := hmono hgt ha
    rintro (h | ⟨h, -⟩) <;> omega

/-- Keys are compared by their length first and then byte by byte. -/
theorem isLE_compareKeys {a b : String} :
    (compareKeys a b).isLE = true
      ↔ (utf8Bytes a).length < (utf8Bytes b).length
        ∨ ((utf8Bytes a).length = (utf8Bytes b).length ∧ utf8Bytes a ≤ utf8Bytes b) := by
  unfold compareKeys
  rcases Nat.lt_trichotomy (utf8Bytes a).length (utf8Bytes b).length with hlt | heq | hgt
  · rw [Nat.compare_eq_lt.mpr hlt]
    simp [Ordering.then, hlt]
  · rw [heq, Nat.compare_eq_eq.mpr rfl]
    simp only [Ordering.then, Nat.lt_irrefl, false_or, true_and]
    split_ifs with hlt hsame
    · simp [List.le_of_lt hlt]
    · simp [hsame]
    · simp only [Ordering.isLE_gt, Bool.false_eq_true, false_iff]
      intro hle
      exact hsame (List.le_antisymm hle (List.not_lt.mp hlt))
  · rw [Nat.compare_eq_gt.mpr hgt]
    simp only [Ordering.then, Ordering.isLE_gt, Bool.false_eq_true, false_iff]
    omega

/-- Keys that compare alike are the same. -/
theorem eq_of_compareKeys {a b : String} (h : compareKeys a b = .eq) : a = b := by
  unfold compareKeys at h
  rw [Ordering.then_eq_eq] at h
  obtain ⟨-, h⟩ := h
  split_ifs at h with hlt hsame
  have htext := congrArg ofUtf8? hsame
  simpa using htext

section Sorted

variable {α : Type} {entries : List (String × α)}

/-- Sorting loses no entry. -/
theorem mem_sortEntries {entry : String × α} : entry ∈ sortEntries entries ↔ entry ∈ entries :=
  List.mem_mergeSort

/-- Sorting keeps the number of entries. -/
theorem length_sortEntries : (sortEntries entries).length = entries.length :=
  List.length_mergeSort _

/-- Only the keys are sorted by. -/
theorem sortEntries_map {β : Type} (f : α → β) :
    sortEntries (entries.map fun entry => (entry.1, f entry.2))
      = (sortEntries entries).map fun entry => (entry.1, f entry.2) := by
  rw [sortEntries, sortEntries, List.map_mergeSort]
  intro a _ b _
  rfl

/-- The keys of sorted entries are in the order the profile asks for. -/
theorem pairwise_sortEntries (hkeys : ∀ entry ∈ entries, (utf8Bytes entry.1).length < 2 ^ 63)
    (hnodup : (entries.map Prod.fst).Nodup) :
    ((sortEntries entries).map Prod.fst).Pairwise KeyLt := by
  have hsorted : (sortEntries entries).Pairwise fun a b => (compareKeys a.1 b.1).isLE = true := by
    refine List.pairwise_mergeSort (fun a b c hab hbc => ?_) (fun a b => ?_) _
    · rw [isLE_compareKeys] at hab hbc ⊢
      rcases hab with hab | ⟨hab, hle⟩ <;> rcases hbc with hbc | ⟨hbc, hle'⟩
      · exact .inl (by omega)
      · exact .inl (by omega)
      · exact .inl (by omega)
      · exact .inr ⟨by omega, List.le_trans hle hle'⟩
    · rw [Bool.or_eq_true, isLE_compareKeys, isLE_compareKeys]
      rcases Nat.lt_trichotomy (utf8Bytes a.1).length (utf8Bytes b.1).length with hlt | heq | hgt
      · exact .inl (.inl hlt)
      · exact (List.le_total (utf8Bytes a.1) (utf8Bytes b.1)).imp (fun h => .inr ⟨heq, h⟩)
          fun h => .inr ⟨heq.symm, h⟩
      · exact .inr (.inl hgt)
  have hdistinct : ((sortEntries entries).map Prod.fst).Nodup :=
    ((List.mergeSort_perm _ _).map Prod.fst).nodup_iff.mpr hnodup
  rw [List.Nodup, List.pairwise_map] at hdistinct
  rw [List.pairwise_map]
  refine (hsorted.and hdistinct).imp_of_mem ?_
  rintro a b ha hb ⟨hle, hne⟩
  rw [keyLt_iff (hkeys a (mem_sortEntries.mp ha)) (hkeys b (mem_sortEntries.mp hb))]
  cases horder : compareKeys a.1 b.1 with
  | lt => rfl
  | eq => exact absurd (eq_of_compareKeys horder) hne
  | gt => simp [horder] at hle

end Sorted

/-- The loop over sorted entries writes the entries of a map. -/
theorem writeEntries_eq_ok {entries : List (String × JsonValue)}
    (h : ∀ entry ∈ entries, ∀ b, encodeValue entry.2 = .ok b
      ↔ entry.2.Finite ∧ b = entry.2.toItem.encode) {b : Bytes} :
    writeEntries (entries.map fun entry => (entry.1, encodeValue entry.2)) = .ok b
      ↔ (∀ entry ∈ entries, entry.2.Finite)
        ∧ b = encodeEntries (entries.map fun entry => (entry.1, entry.2.toItem)) := by
  induction entries generalizing b with
  | nil =>
    show Except.ok [] = Except.ok b ↔ _
    simp [encodeEntries, eq_comm]
  | cons entry entries ih =>
    rw [List.forall_mem_cons] at h
    have ih' := fun {b} => @ih h.2 b
    simp only [writeEntries, List.map_cons, List.mapM_cons, Except.bind_eq_ok, pure, Except.pure,
      Except.ok.injEq, h.1] at ih' ⊢
    constructor
    · rintro ⟨parts, ⟨first, ⟨bytes, ⟨hfirst, rfl⟩, rfl⟩, others, hothers, rfl⟩, rfl⟩
      obtain ⟨hall, hbytes⟩ := ih'.mp ⟨others, hothers, rfl⟩
      refine ⟨List.forall_mem_cons.mpr ⟨hfirst, hall⟩, ?_⟩
      rw [List.flatten_cons, hbytes, encodeEntries, cborText_eq_encodeText]
    · rintro ⟨hall, rfl⟩
      obtain ⟨hfirst, hothers⟩ := List.forall_mem_cons.mp hall
      obtain ⟨others, hparts, hflatten⟩ := ih'.mpr ⟨hothers, rfl⟩
      refine ⟨_, ⟨_, ⟨_, ⟨hfirst, rfl⟩, rfl⟩, others, hparts, rfl⟩, ?_⟩
      rw [List.flatten_cons, hflatten, encodeEntries, cborText_eq_encodeText]

/-- A value is encoded exactly when its floats are finite, and then as its item. -/
theorem encodeValue_eq_ok {value : JsonValue} (hvalid : value.Valid) {b : Bytes} :
    encodeValue value = .ok b ↔ value.Finite ∧ b = value.toItem.encode := by
  induction value using JsonValue.induct generalizing b with
  | null => simp [encodeValue, JsonValue.Finite, JsonValue.toItem, Item.encode, eq_comm]
  | bool v =>
    cases v <;> simp [encodeValue, JsonValue.Finite, JsonValue.toItem, Item.encode, eq_comm]
  | number n =>
    rw [JsonValue.Valid] at hvalid
    rw [encodeValue, JsonValue.Finite, JsonValue.toItem]
    exact encodeNumber_eq_ok hvalid
  | string s =>
    simp [encodeValue, JsonValue.Finite, JsonValue.toItem, Item.encode, cborText_eq_encodeText,
      eq_comm]
  | array items ih =>
    rw [JsonValue.Valid, validItems_iff] at hvalid
    -- the items are written one after the other
    have hloop : ∀ {b : Bytes}, encodeArray items = .ok b
        ↔ finiteItems items ∧ b = encodeItems (jsonItems items) := by
      have hvalid' := hvalid.2
      clear hvalid
      induction items with
      | nil => simp [encodeArray, finiteItems, jsonItems, encodeItems, eq_comm]
      | cons item items ih' =>
        intro b
        rw [List.forall_mem_cons] at ih hvalid'
        have ih'' := fun {b} => @ih' ih.2 hvalid'.2 b
        simp only [encodeArray, Except.bind_eq_ok, ih.1 hvalid'.1, ih'', pure, Except.pure,
          Except.ok.injEq, finiteItems, jsonItems, encodeItems]
        constructor
        · rintro ⟨first, ⟨hfirst, rfl⟩, rest, ⟨hrest, rfl⟩, rfl⟩
          exact ⟨⟨hfirst, hrest⟩, rfl⟩
        · rintro ⟨⟨hfirst, hrest⟩, rfl⟩
          exact ⟨_, ⟨hfirst, rfl⟩, _, ⟨hrest, rfl⟩, rfl⟩
    simp only [encodeValue, Except.bind_eq_ok, hloop, pure, Except.pure, Except.ok.injEq,
      JsonValue.Finite, JsonValue.toItem, Item.encode, cborArrayLen, majorU64_eq_head, lengthHead]
    rw [show (jsonItems items).length = items.length by rw [jsonItems_eq_map, List.length_map]]
    constructor
    · rintro ⟨bytes, ⟨hfinite, rfl⟩, rfl⟩
      exact ⟨hfinite, rfl⟩
    · rintro ⟨hfinite, rfl⟩
      exact ⟨_, ⟨hfinite, rfl⟩, rfl⟩
  | object entries ih =>
    rw [JsonValue.Valid, validEntries_iff] at hvalid
    -- the entries are written in the order of their keys
    have hloop := fun {b} => @writeEntries_eq_ok (sortEntries entries) (fun entry hentry b =>
      ih entry (mem_sortEntries.mp hentry) (hvalid.2.2 entry (mem_sortEntries.mp hentry)).2) b
    simp only [encodeValue, encodeMembers_eq_map, sortEntries_map, Except.bind_eq_ok, hloop, pure,
      Except.pure, Except.ok.injEq, JsonValue.Finite, finiteEntries_iff, JsonValue.toItem,
      jsonEntries_eq_map, Item.encode, cborMapLen, majorU64_eq_head, lengthHead, List.length_map,
      length_sortEntries, mem_sortEntries]
    constructor
    · rintro ⟨bytes, ⟨hfinite, rfl⟩, rfl⟩
      exact ⟨hfinite, rfl⟩
    · rintro ⟨hfinite, rfl⟩
      exact ⟨_, ⟨hfinite, rfl⟩, rfl⟩

/-! ## The item is deterministic -/

/-- The item of a value with finite floats is deterministic, nested as deep as the value. -/
theorem deterministic_toItem {value : JsonValue} (hvalid : value.Valid) (hfinite : value.Finite)
    {n : Nat} (hdepth : value.depth ≤ n) : value.toItem.Deterministic n := by
  induction value using JsonValue.induct generalizing n with
  | null => cases n <;> trivial
  | bool b => cases n <;> trivial
  | number num =>
    cases num with
    | posInt m => cases n <;> trivial
    | negInt m => cases n <;> trivial
    | float bits =>
      rw [JsonValue.Finite] at hfinite
      have hshortest := (shortestFloat_spec hfinite).1
      cases n <;> exact hshortest
  | string s =>
    rw [JsonValue.Valid] at hvalid
    have hlt : (utf8Bytes s).length < 2 ^ 64 := by omega
    cases n <;> exact hlt
  -- the items of an array are one level deeper
  | array items ih =>
    rw [JsonValue.Valid, validItems_iff] at hvalid
    rw [JsonValue.Finite, finiteItems_iff] at hfinite
    rw [JsonValue.depth, depthItems_le] at hdepth
    rw [JsonValue.toItem, jsonItems_eq_map]
    refine deterministic_array (by rw [List.length_map]; omega) ?_
    rw [List.forall_mem_map]
    intro item hitem
    have hlt := hdepth item hitem
    cases n with
    | zero => omega
    | succ n => exact ih item hitem (hvalid.2 item hitem) (hfinite item hitem) (by omega)
  -- the entries of a map are one level deeper, and sorted by their keys
  | object entries ih =>
    rw [JsonValue.Valid, validEntries_iff] at hvalid
    rw [JsonValue.Finite, finiteEntries_iff] at hfinite
    rw [JsonValue.depth, depthEntries_le] at hdepth
    obtain ⟨hlen, hnodup, hentries⟩ := hvalid
    rw [JsonValue.toItem, jsonEntries_eq_map, sortEntries_map]
    refine deterministic_map (by rw [List.length_map, length_sortEntries]; omega) ?_ ?_
    · rw [List.map_map]
      exact List.isChain_iff_pairwise.mpr
        (pairwise_sortEntries (fun entry hentry => (hentries entry hentry).1) hnodup)
    · rw [List.forall_mem_map]
      intro entry hentry
      rw [mem_sortEntries] at hentry
      have hlt := hdepth entry hentry
      obtain ⟨hkey, hvalue⟩ := hentries entry hentry
      refine ⟨by dsimp only; omega, ?_⟩
      cases n with
      | zero => omega
      | succ n => exact ih entry hentry hvalue (hfinite entry hentry) (by omega)

/-- The bytes of a value are the deterministic encoding of its item. -/
theorem canonicalCborBytes_eq_ok {value : SerdeValue} {b : Bytes} :
    canonicalCborBytes value = .ok b ↔ value.1.Finite ∧ b = value.1.toItem.encode :=
  encodeValue_eq_ok value.2

/-! ## The validator accepts what the encoder writes -/

/-- The bytes of a record before its payload. -/
def recordFront (m : CanonicalRecordMetadataV1) : Bytes :=
  DetCbor.head 4 7 ++ encodeItems [.uint 1, .bytes m.deviceId.1, .uint m.fc, .uint m.ingestTime,
    deviceTimeItem m.deviceTime, .uint m.kind]

/-- The encoding of a record is its front and that of its payload. -/
theorem encode_recordItem_front (m : CanonicalRecordMetadataV1) (payload : Item) :
    (recordItem m payload).encode = recordFront m ++ payload.encode := by
  rw [encode_recordItem, recordFront]
  simp [encodeItems]

/-- **The canonicaliser produces what the record validator accepts.** The bytes of a value whose
parts lie at most 32 levels below its root are consumed as a payload, wholly; and in the place of
the payload of a canonical record they give a record that is accepted. -/
theorem canonicalCborBytes_accepted (value : SerdeValue) (b : Bytes)
    (hdepth : value.1.depth ≤ maxCborNestingDepth) (h : canonicalCborBytes value = .ok b) :
    (∃ budget, validateCommitmentValue rootLevels b.length b = .ok (budget, []))
      ∧ ∀ (m : CanonicalRecordMetadataV1) (record payload : Bytes),
        validateCanonicalRecord record = .ok m → record = recordFront m ++ payload →
          validateCanonicalRecord (recordFront m ++ b) = .ok m := by
  obtain ⟨hfinite, rfl⟩ := canonicalCborBytes_eq_ok.mp h
  have hdet := deterministic_toItem value.2 hfinite hdepth
  refine ⟨?_, ?_⟩
  · have haccepts : Accepts (validateCommitmentValue rootLevels) value.1.toItem :=
      validateCommitmentValue_accepts hdet
    obtain ⟨budget, -, hread⟩ := haccepts value.1.toItem.encode.length [] (by simp)
    rw [List.append_nil] at hread
    exact ⟨budget, hread⟩
  · intro m record payload hrecord _
    obtain ⟨hversion, -⟩ := validateCanonicalRecord_eq_ok.mp hrecord
    exact validateCanonicalRecord_eq_ok.mpr
      ⟨hversion, value.1.toItem, hdet, (encode_recordItem_front m _).symm⟩

/-- An object with an array of a negative integer and a subnormal float. -/
def sampleDocument : SerdeValue :=
  ⟨.object [("unit", .string "C"),
    ("readings", .array [.number (.negInt (-1)), .number (.float 1)])],
    by
      simp only [JsonValue.Valid, validEntries, validItems, JsonNumber.Valid]
      decide⟩

/-- The sample has no number that is not finite. -/
theorem finite_sampleDocument : sampleDocument.1.Finite := by
  simp only [sampleDocument, JsonValue.Finite, finiteEntries, finiteItems, JsonNumber.Finite]
  decide

/-- An object with a list of readings. -/
theorem canonicalCborBytes_accepted_sample :
    ∃ b budget, canonicalCborBytes sampleDocument = .ok b
      ∧ validateCommitmentValue rootLevels b.length b = .ok (budget, []) := by
  have hbytes := canonicalCborBytes_eq_ok.mpr ⟨finite_sampleDocument, rfl⟩
  have hdepth : sampleDocument.1.depth ≤ maxCborNestingDepth := by decide
  obtain ⟨budget, hread⟩ := (canonicalCborBytes_accepted sampleDocument _ hdepth hbytes).1
  exact ⟨_, budget, hbytes, hread⟩

/-! ## The encoding commits to the value -/

/-- Equality up to the order of members. Numbers are equal when they are the same integer, or floats
with the same bits. -/
inductive JsonValue.Same : JsonValue → JsonValue → Prop where
  | null : Same .null .null
  | bool (b : Bool) : Same (.bool b) (.bool b)
  | number (n : JsonNumber) : Same (.number n) (.number n)
  | string (s : String) : Same (.string s) (.string s)
  | array {items items' : List JsonValue} (hlen : items.length = items'.length)
      (h : ∀ (i : Nat) item item', items[i]? = some item → items'[i]? = some item' →
        Same item item') :
      Same (.array items) (.array items')
  | object {entries entries' : List (String × JsonValue)}
      (hkeys : (entries.map Prod.fst).Perm (entries'.map Prod.fst))
      (h : ∀ key value value', (key, value) ∈ entries → (key, value') ∈ entries' →
        Same value value') :
      Same (.object entries) (.object entries')

/-- Values that are equal up to the order of members are told apart by neither order nor width. -/
theorem JsonValue.Same.toItem {v w : JsonValue} (h : v.Same w) : Item.Same v.toItem w.toItem := by
  induction h with
  | null => exact .refl _
  | bool b => exact .refl _
  | number n => exact .refl _
  | string s => exact .refl _
  | @array items items' hlen h ih =>
    rw [JsonValue.toItem, JsonValue.toItem, jsonItems_eq_map, jsonItems_eq_map]
    refine .array (by simpa using hlen) ?_
    intro i a b ha hb
    rw [List.getElem?_map, Option.map_eq_some_iff] at ha hb
    obtain ⟨item, hitem, rfl⟩ := ha
    obtain ⟨item', hitem', rfl⟩ := hb
    exact ih i item item' hitem hitem'
  | @object entries entries' hkeys h ih =>
    rw [JsonValue.toItem, JsonValue.toItem, jsonEntries_eq_map, jsonEntries_eq_map]
    refine .map ?_ ?_
    -- the keys of a map are sorted, so that their order is lost
    · have hperm : ∀ members : List (String × JsonValue),
          ((sortEntries (members.map fun entry => (entry.1, entry.2.toItem))).map Prod.fst).Perm
            (members.map Prod.fst) := by
        intro members
        refine ((List.mergeSort_perm _ _).map Prod.fst).trans ?_
        rw [List.map_map]
        exact List.Perm.refl _
      exact (hperm entries).trans (hkeys.trans (hperm entries').symm)
    · intro key a b ha hb
      rw [mem_sortEntries, List.mem_map] at ha hb
      obtain ⟨⟨key₁, value⟩, hmem, heq⟩ := ha
      obtain ⟨⟨key₂, value'⟩, hmem', heq'⟩ := hb
      obtain ⟨rfl, rfl⟩ := Prod.mk.inj heq
      obtain ⟨rfl, rfl⟩ := Prod.mk.inj heq'
      exact ih _ value value' hmem hmem'

/-- A negative number is known from its argument. -/
theorem negInt_argument_injective {n m : Int64} (hn : n < 0) (hm : m < 0)
    (h : UInt64.ofInt (-1 - n.toInt) = UInt64.ofInt (-1 - m.toInt)) : n = m := by
  rw [Int64.lt_iff_toInt_lt] at hn hm
  have hn' := n.le_toInt
  have hm' := m.le_toInt
  have hnat := congrArg UInt64.toNat h
  rw [UInt64.ofInt, UInt64.ofInt, UInt64.toNat_ofNat_of_lt64 (by omega),
    UInt64.toNat_ofNat_of_lt64 (by omega)] at hnat
  rw [← Int64.toInt_inj]
  rw [Int64.toInt_zero] at hn hm
  omega

/-- The item of a number says which number it is. -/
theorem JsonNumber.toItem_injective {n m : JsonNumber} (hn : n.Valid) (hm : m.Valid)
    (hnfin : n.Finite) (hmfin : m.Finite) (h : n.toItem = m.toItem) : n = m := by
  cases n with
  | posInt a =>
    cases m with
    | posInt b => rw [Item.uint.inj h]
    | negInt b => cases h
    | float b => cases h
  | negInt a =>
    cases m with
    | posInt b => cases h
    | negInt b => rw [negInt_argument_injective hn hm (Item.nint.inj h)]
    | float b => cases h
  | float a =>
    cases m with
    | posInt b => cases h
    | negInt b => cases h
    | float b =>
      have hvalue := congrArg FloatLit.value (Item.float.inj h)
      rw [(shortestFloat_spec hnfin).2.1, (shortestFloat_spec hmfin).2.1] at hvalue
      rw [UInt64.toNat_inj.mp hvalue]

/-- The item of a value says which value it is, up to the order of members. -/
theorem same_of_toItem_eq {v w : JsonValue} (hv : v.Valid) (hw : w.Valid) (hvfin : v.Finite)
    (hwfin : w.Finite) (h : v.toItem = w.toItem) : v.Same w := by
  induction v using JsonValue.induct generalizing w with
  -- different constructors have different items, but for the two kinds of integers
  | null =>
    cases w with
    | null => exact .null
    | number n => cases n <;> cases h
    | _ => cases h
  | bool b =>
    cases w with
    | bool b' =>
      rw [Item.bool.inj h]
      exact .bool b'
    | number n => cases n <;> cases h
    | _ => cases h
  | number n =>
    cases w with
    | number m =>
      rw [JsonValue.Valid] at hv hw
      rw [JsonValue.Finite] at hvfin hwfin
      rw [JsonNumber.toItem_injective hv hw hvfin hwfin h]
      exact .number m
    | _ => cases n <;> cases h
  | string s =>
    cases w with
    | string t =>
      rw [Item.text.inj h]
      exact .string t
    | number n => cases n <;> cases h
    | _ => cases h
  | array items ih =>
    cases w with
    | array items' =>
      rw [JsonValue.Valid, validItems_iff] at hv hw
      rw [JsonValue.Finite, finiteItems_iff] at hvfin hwfin
      -- the items of the arrays are the same, one by one
      have hmap : items.map JsonValue.toItem = items'.map JsonValue.toItem := by
        rw [← jsonItems_eq_map, ← jsonItems_eq_map]
        exact Item.array.inj h
      refine .array (by simpa using congrArg List.length hmap) ?_
      intro i item item' hitem hitem'
      have hmem := List.mem_of_getElem? hitem
      have hmem' := List.mem_of_getElem? hitem'
      have hat : item.toItem = item'.toItem := by
        have hget := congrArg (fun list => list[i]?) hmap
        simpa [hitem, hitem'] using hget
      exact ih item hmem (hv.2 item hmem) (hw.2 item' hmem') (hvfin item hmem) (hwfin item' hmem')
        hat
    | number n => cases n <;> cases h
    | _ => cases h
  | object entries ih =>
    cases w with
    | object entries' =>
      rw [JsonValue.Valid, validEntries_iff] at hv hw
      rw [JsonValue.Finite, finiteEntries_iff] at hvfin hwfin
      -- the keys of an object are different, and its entries are the other's, sorted
      obtain ⟨-, hnodup, hv⟩ := hv
      obtain ⟨-, hnodup', hw⟩ := hw
      have hsorted : sortEntries (entries.map fun entry => (entry.1, entry.2.toItem))
          = sortEntries (entries'.map fun entry => (entry.1, entry.2.toItem)) := by
        rw [← jsonEntries_eq_map, ← jsonEntries_eq_map]
        exact Item.map.inj h
      have hperm := (List.mergeSort_perm _ _).symm.trans
        ((List.Perm.of_eq hsorted).trans (List.mergeSort_perm _ _))
      refine .object (by simpa [List.map_map, Function.comp_def] using hperm.map Prod.fst) ?_
      intro key value value' hmem hmem'
      -- the item of this key is found among the members of the other object, under one key only
      have hfound : (key, value.toItem) ∈ entries'.map fun entry => (entry.1, entry.2.toItem) :=
        hperm.mem_iff.mp (List.mem_map.mpr ⟨_, hmem, rfl⟩)
      obtain ⟨⟨key₂, value₂⟩, hmem₂, heq⟩ := List.mem_map.mp hfound
      obtain ⟨rfl, hitem⟩ := Prod.mk.inj heq
      obtain rfl : value₂ = value' := by
        have hsame := List.inj_on_of_nodup_map hnodup' hmem₂ hmem' rfl
        exact (Prod.mk.inj hsame).2
      exact ih _ hmem (hv _ hmem).2 (hw _ hmem').2 (hvfin _ hmem) (hwfin _ hmem') hitem.symm
    | number n => cases n <;> cases h
    | _ => cases h

/-- **The canonicaliser commits to the value.** No encoding is a proper beginning of another one,
and two values have one encoding exactly when they are equal up to the order of members. -/
theorem canonicalCborBytes_commits (v w : SerdeValue) (a b : Bytes)
    (hv : canonicalCborBytes v = .ok a) (hw : canonicalCborBytes w = .ok b) :
    (a <+: b → a = b) ∧ (a = b ↔ v.1.Same w.1) := by
  obtain ⟨hvfin, rfl⟩ := canonicalCborBytes_eq_ok.mp hv
  obtain ⟨hwfin, rfl⟩ := canonicalCborBytes_eq_ok.mp hw
  have hvdet := deterministic_toItem v.2 hvfin (Nat.le_max_left v.1.depth w.1.depth)
  have hwdet := deterministic_toItem w.2 hwfin (Nat.le_max_right v.1.depth w.1.depth)
  have hfree := prefixFree_deterministic (max v.1.depth w.1.depth)
  refine ⟨?_, ?_, ?_⟩
  · rintro ⟨rest, hrest⟩
    rw [← List.append_nil w.1.toItem.encode] at hrest
    rw [(hfree hvdet hwdet hrest).1]
  · intro hencode
    have hitem := (hfree hvdet hwdet (congrArg (· ++ []) hencode)).1
    exact same_of_toItem_eq v.2 w.2 hvfin hwfin hitem
  · intro hsame
    rw [hvdet.eq_of_same hwdet hsame.toItem]

/-- The same object with its members the other way round. -/
def sampleReordered : SerdeValue :=
  ⟨.object [("readings", .array [.number (.negInt (-1)), .number (.float 1)]),
    ("unit", .string "C")],
    by
      simp only [JsonValue.Valid, validEntries, validItems, JsonNumber.Valid]
      decide⟩

/-- Two orders of the members of one document. -/
theorem canonicalCborBytes_commits_sample :
    ∃ a, canonicalCborBytes sampleDocument = .ok a
      ∧ canonicalCborBytes sampleReordered = .ok a := by
  have hfinite : sampleReordered.1.Finite := by
    simp only [sampleReordered, JsonValue.Finite, finiteEntries, finiteItems, JsonNumber.Finite]
    decide
  have hbytes := canonicalCborBytes_eq_ok.mpr ⟨finite_sampleDocument, rfl⟩
  have hbytes' := canonicalCborBytes_eq_ok.mpr ⟨hfinite, rfl⟩
  have hreadings : JsonValue.Same (.array [.number (.negInt (-1)), .number (.float 1)])
      (.array [.number (.negInt (-1)), .number (.float 1)]) := by
    refine .array rfl fun i item item' h h' => ?_
    rw [h, Option.some.injEq] at h'
    obtain rfl := h'
    have hmem := List.mem_of_getElem? h
    simp only [List.mem_cons, List.not_mem_nil, or_false] at hmem
    rcases hmem with rfl | rfl <;> exact .number _
  have hsame : sampleDocument.1.Same sampleReordered.1 := by
    refine .object (by decide) ?_
    intro key value value' h h'
    simp only [List.mem_cons, Prod.mk.injEq, List.not_mem_nil, or_false] at h h'
    rcases h with ⟨rfl, rfl⟩ | ⟨rfl, rfl⟩ <;> rcases h' with ⟨hkey, rfl⟩ | ⟨hkey, rfl⟩
    · exact absurd hkey (by decide)
    · exact .string _
    · exact hreadings
    · exact absurd hkey (by decide)
  have heq := (canonicalCborBytes_commits _ _ _ _ hbytes hbytes').2.mpr hsame
  exact ⟨_, hbytes, heq ▸ hbytes'⟩

end TrackOne.CCbor
