import TrackOne.Vtl.Record
import TrackOne.Vtl.SegmentDecode

/-!
# The resource checks

`DecodeBudget` and `ensure_collection_fits` of `trackone-ledger/src/vtl.rs`, as parameters of the
two recursive readers. `Guards.of` puts either check in place or takes it out; with both in place
the readers are the source's (`parseCborValueWith_source`, `validateCommitmentValueWith_source`).

## Architecture
* `Guards.Simulates`: what one pair of checks lets pass the other does too, as far as the bytes that
  are left allow. `parseCborValueWith_follows` and `validateCommitmentValueWith_follows` lift it to
  the readers: an item takes one byte or more, so a budget of the bytes that are left covers the
  items, and a collection that is read had its declared size.
* `DecodeEvent`s are the items a reader enters and the collections it meets, also when it fails.
* `resourceChecks_redundant`: neither check changes what is accepted.
-/

namespace TrackOne

open DetCbor

/-- The two resource checks of the readers: on the items entered, and on the declared lengths. -/
structure Guards where
  consume : Nat → DecodeResult Nat
  fits : Bytes → UInt64 → Nat → DecodeResult Nat

/-- Without a budget the items are only counted. -/
def countItem (items : Nat) : DecodeResult Nat := .ok (items + 1)

/-- Without a size check a declared length is taken as it is. -/
def takeLength (_input : Bytes) (len : UInt64) (_minimumItemsPerEntry : Nat) : DecodeResult Nat :=
  .ok len.toNat

namespace Guards

/-- Either check in place, or removed. -/
def of (budget fits : Bool) : Guards where
  consume := if budget then consumeItem else countItem
  fits := if fits then ensureCollectionFits else takeLength

/-- `DecodeBudget::for_input`, or no item counted yet. -/
def start (budget : Bool) (bytes : Bytes) : Nat := if budget then bytes.length else 0

end Guards

/-! ## The readers -/

/-- `parseContent`, with the given checks. -/
def parseContentWith (g : Guards) (parse : Nat → Bytes → DecodeResult (CborValue × Nat × Bytes))
    (major ai : UInt8) (len : UInt64) (budget : Nat) (rest : Bytes) :
    DecodeResult (CborValue × Nat × Bytes) :=
  match major with
  | 4 => do
    let count ← g.fits rest len 1
    let (items, budget, rest) ← parseItems parse count budget rest
    pure (.array items, budget, rest)
  | 5 => do
    let count ← g.fits rest len 2
    let (entries, budget, rest) ← parseEntries parse count none budget rest
    pure (.map entries, budget, rest)
  -- no other major type has a check
  | major => parseContent parse major ai len budget rest

/-- `parseCborValue`, with the given checks. -/
def parseCborValueWith (g : Guards) : Nat → Nat → Bytes → DecodeResult (CborValue × Nat × Bytes)
  | 0, _, _ => .error (.resourceLimit "CBOR nesting depth exceeds the supported limit")
  | levels + 1, budget, input => do
    let budget ← g.consume budget
    match input with
    | [] => throw (.malformed "truncated CBOR item")
    | initial :: rest =>
      let (len, rest) ← readCborArgument rest (initial &&& 0x1f)
      parseContentWith g (parseCborValueWith g levels) (initial >>> 5) (initial &&& 0x1f) len budget
        rest

/-- `validateContent`, with the given checks. -/
def validateContentWith (g : Guards) (validate : Nat → Bytes → DecodeResult (Nat × Bytes))
    (major : UInt8) (len : UInt64) (budget : Nat) (rest : Bytes) : DecodeResult (Nat × Bytes) :=
  match major with
  | 4 => do
    let count ← g.fits rest len 1
    validateItems validate count budget rest
  | 5 => do
    let count ← g.fits rest len 2
    validateEntries validate count none budget rest
  | major => validateContent validate major len budget rest

/-- `validateCommitmentValue`, with the given checks. -/
def validateCommitmentValueWith (g : Guards) : Nat → Nat → Bytes → DecodeResult (Nat × Bytes)
  | 0, _, _ => .error (.resourceLimit "CBOR nesting depth exceeds the supported limit")
  | levels + 1, budget, input => do
    let budget ← g.consume budget
    match input with
    | [] => throw (.malformed "truncated CBOR payload item")
    | initial :: rest =>
      if initial >>> 5 = 7 then do
        let rest ← validateSimpleOrFloat initial (initial &&& 0x1f) rest
        pure (budget, rest)
      else do
        let (len, rest) ← readCborArgument rest (initial &&& 0x1f)
        validateContentWith g (validateCommitmentValueWith g levels) (initial >>> 5) len budget rest

/-- With both checks in place the content is read as the source reads it. -/
theorem parseContentWith_source (parse : Nat → Bytes → DecodeResult (CborValue × Nat × Bytes)) :
    parseContentWith (.of true true) parse = parseContent parse := by
  funext major ai len budget rest
  unfold parseContentWith
  split <;> rfl

/-- With both guards the parameterised parser is that of the source. -/
theorem parseCborValueWith_source (levels : Nat) :
    parseCborValueWith (.of true true) levels = parseCborValue levels := by
  induction levels with
  | zero => rfl
  | succ levels ih =>
    funext budget input
    rw [parseCborValueWith, parseCborValue, ih, parseContentWith_source]
    rfl

/-- With both guards the content of an item is validated as in the source. -/
theorem validateContentWith_source (validate : Nat → Bytes → DecodeResult (Nat × Bytes)) :
    validateContentWith (.of true true) validate = validateContent validate := by
  funext major len budget rest
  unfold validateContentWith
  split <;> rfl

/-- With both guards the parameterised validator is that of the source. -/
theorem validateCommitmentValueWith_source (levels : Nat) :
    validateCommitmentValueWith (.of true true) levels = validateCommitmentValue levels := by
  induction levels with
  | zero => rfl
  | succ levels ih =>
    funext budget input
    rw [validateCommitmentValueWith, validateCommitmentValue, ih, validateContentWith_source]
    rfl

/-! ## What the readers meet -/

/-- An item that is entered with so many levels left, or a collection that declares its length with
so many bytes left. -/
inductive DecodeEvent where
  | item (levels : Nat)
  | collection (len : UInt64) (minimumItemsPerEntry remaining : Nat)
deriving DecidableEq

namespace DecodeEvent

/-- The declared length is covered by the bytes that are left. -/
def Fits : DecodeEvent → Prop
  | item _ => True
  | collection len minimumItemsPerEntry remaining => len.toNat * minimumItemsPerEntry ≤ remaining

/-- The item is nested too deep, or the minimum size of the collection is no `usize`. -/
def LimitExceeded : DecodeEvent → Prop
  | item levels => levels = 0
  | collection len minimumItemsPerEntry _ => 2 ^ 64 ≤ len.toNat * minimumItemsPerEntry

instance : DecidablePred LimitExceeded
  | item levels => inferInstanceAs (Decidable (levels = 0))
  | collection len minimumItemsPerEntry _ =>
    inferInstanceAs (Decidable (2 ^ 64 ≤ len.toNat * minimumItemsPerEntry))

/-- What is met after a step, if the step succeeds. -/
def after {α : Type} (result : DecodeResult α) (next : α → List DecodeEvent) : List DecodeEvent :=
  match result with
  | .ok a => next a
  | .error _ => []

end DecodeEvent

/-- The loop of `parseItems`. -/
def itemsMet (parse : Nat → Bytes → DecodeResult (CborValue × Nat × Bytes))
    (met : Nat → Bytes → List DecodeEvent) : Nat → Nat → Bytes → List DecodeEvent
  | 0, _, _ => []
  | count + 1, budget, input =>
    met budget input ++ DecodeEvent.after (parse budget input) fun (_, budget, input) =>
      itemsMet parse met count budget input

/-- The loop of `parseEntries`. -/
def entriesMet (parse : Nat → Bytes → DecodeResult (CborValue × Nat × Bytes))
    (met : Nat → Bytes → List DecodeEvent) : Nat → Option Bytes → Nat → Bytes → List DecodeEvent
  | 0, _, _, _ => []
  | count + 1, previousKey, budget, input =>
    met budget input ++ DecodeEvent.after (parse budget input) fun (key, budget, rest) =>
      let rawKey := input.take (input.length - rest.length)
      if keyOutOfOrder previousKey rawKey then []
      else match key with
        | .text _ =>
          met budget rest ++ DecodeEvent.after (parse budget rest) fun (_, budget, rest) =>
          entriesMet parse met count (some rawKey) budget rest
        | _ => []

/-- What `parseContentWith` meets. -/
def contentMet (g : Guards) (parse : Nat → Bytes → DecodeResult (CborValue × Nat × Bytes))
    (met : Nat → Bytes → List DecodeEvent) (major : UInt8) (len : UInt64) (budget : Nat)
    (rest : Bytes) :
    List DecodeEvent :=
  match major with
  | 4 => .collection len 1 rest.length :: DecodeEvent.after (g.fits rest len 1) fun count =>
    itemsMet parse met count budget rest
  | 5 => .collection len 2 rest.length :: DecodeEvent.after (g.fits rest len 2) fun count =>
    entriesMet parse met count none budget rest
  | _ => []

/-- What `parseCborValueWith` meets. -/
def parseMet (g : Guards) : Nat → Nat → Bytes → List DecodeEvent
  | 0, _, _ => [.item 0]
  | levels + 1, budget, input =>
    .item (levels + 1) :: DecodeEvent.after (g.consume budget) fun budget =>
      match input with
      | [] => []
      | initial :: rest =>
        DecodeEvent.after (readCborArgument rest (initial &&& 0x1f)) fun (len, rest) =>
          contentMet g (parseCborValueWith g levels) (parseMet g levels) (initial >>> 5) len
            budget rest

/-- The loop of `validateItems`. -/
def validateItemsMet (validate : Nat → Bytes → DecodeResult (Nat × Bytes))
    (met : Nat → Bytes → List DecodeEvent) : Nat → Nat → Bytes → List DecodeEvent
  | 0, _, _ => []
  | count + 1, budget, input =>
    met budget input ++ DecodeEvent.after (validate budget input) fun (budget, input) =>
      validateItemsMet validate met count budget input

/-- The loop of `validateEntries`. -/
def validateEntriesMet (validate : Nat → Bytes → DecodeResult (Nat × Bytes))
    (met : Nat → Bytes → List DecodeEvent) : Nat → Option Bytes → Nat → Bytes → List DecodeEvent
  | 0, _, _, _ => []
  | count + 1, previousKey, budget, input =>
    DecodeEvent.after (readMapKey input) fun (rawKey, rest) =>
      if keyOutOfOrder previousKey rawKey then []
      else met budget rest ++ DecodeEvent.after (validate budget rest) fun (budget, rest) =>
        validateEntriesMet validate met count (some rawKey) budget rest

/-- What `validateContentWith` meets. -/
def validateContentMet (g : Guards) (validate : Nat → Bytes → DecodeResult (Nat × Bytes))
    (met : Nat → Bytes → List DecodeEvent) (major : UInt8) (len : UInt64) (budget : Nat)
    (rest : Bytes) :
    List DecodeEvent :=
  match major with
  | 4 => .collection len 1 rest.length :: DecodeEvent.after (g.fits rest len 1) fun count =>
    validateItemsMet validate met count budget rest
  | 5 => .collection len 2 rest.length :: DecodeEvent.after (g.fits rest len 2) fun count =>
    validateEntriesMet validate met count none budget rest
  | _ => []

/-- What `validateCommitmentValueWith` meets. -/
def validateMet (g : Guards) : Nat → Nat → Bytes → List DecodeEvent
  | 0, _, _ => [.item 0]
  | levels + 1, budget, input =>
    .item (levels + 1) :: DecodeEvent.after (g.consume budget) fun budget =>
      match input with
      | [] => []
      | initial :: rest =>
        if initial >>> 5 = 7 then []
        else DecodeEvent.after (readCborArgument rest (initial &&& 0x1f)) fun (len, rest) =>
          validateContentMet g (validateCommitmentValueWith g levels) (validateMet g levels)
            (initial >>> 5) len budget rest

/-! ## One pair of checks for another -/

/-- What the checks `g` let pass the checks `g'` let pass as well: `R` relates their states, given
the number of bytes that are left. A step takes one of these. -/
structure Guards.Simulates (g g' : Guards) (R : Nat → Nat → Nat → Prop) : Prop where
  anti : ∀ {left left' n n'}, R left n n' → left' ≤ left → R left' n n'
  consume : ∀ {left n n' m}, R (left + 1) n n' → g.consume n = .ok m →
    ∃ m', g'.consume n' = .ok m' ∧ R left m m'
  count : ∀ {input len k count}, g.fits input len k = .ok count → count = len.toNat
  fits : ∀ {input len k}, input.length < 2 ^ 64 → len.toNat * k ≤ input.length →
    g'.fits input len k = .ok len.toNat

/-- What the parser accepts the other parser accepts, with the same value and the same rest. An item
takes one byte or more. -/
def ParseFollows (R : Nat → Nat → Nat → Prop)
    (parse parse' : Nat → Bytes → DecodeResult (CborValue × Nat × Bytes)) : Prop :=
  ∀ ⦃n n' input value m rest⦄, input.length < 2 ^ 64 → R input.length n n' →
    parse n input = .ok (value, m, rest) →
    rest.length < input.length ∧ ∃ m', parse' n' input = .ok (value, m', rest) ∧ R rest.length m m'

def ValidateFollows (R : Nat → Nat → Nat → Prop)
    (validate validate' : Nat → Bytes → DecodeResult (Nat × Bytes)) : Prop :=
  ∀ ⦃n n' input m rest⦄, input.length < 2 ^ 64 → R input.length n n' →
    validate n input = .ok (m, rest) →
    rest.length < input.length ∧ ∃ m', validate' n' input = .ok (m', rest) ∧ R rest.length m m'

/-- Taking bytes leaves no more than there were. -/
theorem length_le_of_takeBytes {message : String} {width : Nat} {input part rest : Bytes}
    (h : takeBytes message width input = .ok (part, rest)) : rest.length ≤ input.length := by
  obtain ⟨-, rfl⟩ := takeBytes_eq_ok.mp h
  simp

/-- Reading a head leaves no more than there was. -/
theorem length_le_of_readCborArgument {input rest : Bytes} {ai : UInt8} {n : UInt64}
    (h : readCborArgument input ai = .ok (n, rest)) : rest.length ≤ input.length := by
  obtain ⟨-, rfl⟩ := readCborArgument_eq_ok.mp h
  simp

section Parse

variable {g g' : Guards} {R : Nat → Nat → Nat → Prop}
variable {parse parse' : Nat → Bytes → DecodeResult (CborValue × Nat × Bytes)}

/-- Where one parser follows another on an item it does on an array, which takes at least a byte for
each item. -/
theorem parseItems_follows (hparse : ParseFollows R parse parse') {count n n' m : Nat}
    {input rest : Bytes} {items : List CborValue} (hlen : input.length < 2 ^ 64)
    (hR : R input.length n n') (h : parseItems parse count n input = .ok (items, m, rest)) :
    rest.length + count ≤ input.length
      ∧ ∃ m', parseItems parse' count n' input = .ok (items, m', rest) ∧ R rest.length m m' := by
  induction count generalizing n n' input items with
  | zero =>
    cases h
    exact ⟨Nat.le_refl _, n', rfl, hR⟩
  | succ count ih =>
    simp only [parseItems, Except.bind_eq_ok, pure, Except.pure] at h
    obtain ⟨⟨item, n₁, input₁⟩, hitem, ⟨items', n₂, rest₂⟩, hitems, h⟩ := h
    cases h
    obtain ⟨hlt, m₁, hitem', hR₁⟩ := hparse hlen hR hitem
    obtain ⟨hle, m', hitems', hR'⟩ := ih (by omega) hR₁ hitems
    refine ⟨by omega, m', ?_, hR'⟩
    simp only [parseItems, hitem', hitems', Except.ok_bind]
    rfl

/-- Where one parser follows another on an item it does on a map, which takes at least two bytes for
each entry. -/
theorem parseEntries_follows (hparse : ParseFollows R parse parse') {count n n' m : Nat}
    {previous : Option Bytes} {input rest : Bytes} {entries : List (String × CborValue)}
    (hlen : input.length < 2 ^ 64) (hR : R input.length n n')
    (h : parseEntries parse count previous n input = .ok (entries, m, rest)) :
    rest.length + count * 2 ≤ input.length
      ∧ ∃ m', parseEntries parse' count previous n' input = .ok (entries, m', rest)
        ∧ R rest.length m m' := by
  induction count generalizing n n' input previous entries with
  | zero =>
    cases h
    exact ⟨Nat.le_refl _, n', rfl, hR⟩
  | succ count ih =>
    simp only [parseEntries, Except.bind_eq_ok] at h
    obtain ⟨⟨keyValue, n₁, input₁⟩, hkey, h⟩ := h
    obtain ⟨hlt₁, m₁, hkey', hR₁⟩ := hparse hlen hR hkey
    dsimp only at h
    split_ifs at h with horder
    · cases h
    · cases keyValue with
      | text key =>
        simp only [pure, Except.pure, Except.bind_eq_ok] at h
        obtain ⟨⟨value, n₂, input₂⟩, hvalue, ⟨entries', n₃, rest₃⟩, hentries, h⟩ := h
        cases h
        obtain ⟨hlt₂, m₂, hvalue', hR₂⟩ := hparse (by omega) hR₁ hvalue
        obtain ⟨hle, m', hentries', hR'⟩ := ih (by omega) hR₂ hentries
        refine ⟨by omega, m', ?_, hR'⟩
        simp only [parseEntries, hkey', Except.ok_bind]
        rw [if_neg horder]
        simp only [pure, Except.pure, Except.ok_bind, hvalue', hentries']
      | _ => cases h

/-- Content that is no collection is read without the parser and leaves the budget alone. -/
theorem parseContent_scalar {major ai : UInt8} {len : UInt64} {n m : Nat} {input rest : Bytes}
    {value : CborValue} (harray : major ≠ 4) (hmap : major ≠ 5)
    (h : parseContent parse major ai len n input = .ok (value, m, rest)) :
    m = n ∧ rest.length ≤ input.length
      ∧ ∀ n', parseContent parse' major ai len n' input = .ok (value, n', rest) := by
  unfold parseContent at h ⊢
  split at h
  · cases h
    exact ⟨rfl, Nat.le_refl _, fun n' => rfl⟩
  · simp only [Except.bind_eq_ok] at h
    obtain ⟨⟨part, rest'⟩, htake, h⟩ := h
    cases h
    refine ⟨rfl, length_le_of_takeBytes htake, fun n' => ?_⟩
    rw [htake]
    rfl
  · simp only [Except.bind_eq_ok] at h
    obtain ⟨⟨part, rest'⟩, htake, text, hutf8, h⟩ := h
    cases h
    refine ⟨rfl, length_le_of_takeBytes htake, fun n' => ?_⟩
    simp only [htake, Except.ok_bind, hutf8]
    rfl
  · exact absurd rfl harray
  · exact absurd rfl hmap
  · split_ifs at h with hnull
    cases h
    exact ⟨rfl, Nat.le_refl _, fun n' => if_pos hnull⟩
  · cases h
  · cases h
  · cases h

/-- Outside arrays and maps no guard is asked. -/
theorem parseContentWith_scalar {major ai : UInt8} {len : UInt64} (harray : major ≠ 4)
    (hmap : major ≠ 5) :
    parseContentWith g parse major ai len = parseContent parse major ai len := by
  funext n input
  unfold parseContentWith
  split
  · exact absurd rfl harray
  · exact absurd rfl hmap
  · rfl

/-- Where the guards simulate each other the content of an item is read alike. -/
theorem parseContentWith_follows (hg : g.Simulates g' R) (hparse : ParseFollows R parse parse')
    {major ai : UInt8} {len : UInt64} {n n' m : Nat} {input rest : Bytes} {value : CborValue}
    (hlen : input.length < 2 ^ 64) (hR : R input.length n n')
    (h : parseContentWith g parse major ai len n input = .ok (value, m, rest)) :
    rest.length ≤ input.length
      ∧ ∃ m', parseContentWith g' parse' major ai len n' input = .ok (value, m', rest)
        ∧ R rest.length m m' := by
  by_cases harray : major = 4
  · subst harray
    simp only [parseContentWith, Except.bind_eq_ok] at h
    obtain ⟨count, hcount, ⟨items, n₁, rest₁⟩, hitems, h⟩ := h
    cases h
    obtain rfl := hg.count hcount
    obtain ⟨hle, m', hitems', hR'⟩ := parseItems_follows hparse hlen hR hitems
    have hfits := hg.fits (k := 1) hlen (by omega : len.toNat * 1 ≤ input.length)
    refine ⟨Nat.le_of_add_right_le hle, m', ?_, hR'⟩
    simp only [parseContentWith, hfits, hitems', Except.ok_bind]
    rfl
  · by_cases hmap : major = 5
    · subst hmap
      simp only [parseContentWith, Except.bind_eq_ok] at h
      obtain ⟨count, hcount, ⟨entries, n₁, rest₁⟩, hentries, h⟩ := h
      cases h
      obtain rfl := hg.count hcount
      obtain ⟨hle, m', hentries', hR'⟩ := parseEntries_follows hparse hlen hR hentries
      have hfits := hg.fits (k := 2) hlen (by omega : len.toNat * 2 ≤ input.length)
      refine ⟨Nat.le_of_add_right_le hle, m', ?_, hR'⟩
      simp only [parseContentWith, hfits, hentries', Except.ok_bind]
      rfl
    · rw [parseContentWith_scalar harray hmap] at h ⊢
      obtain ⟨rfl, hle, hsame⟩ := parseContent_scalar harray hmap h
      exact ⟨hle, n', hsame n', hg.anti hR hle⟩

/-- Where the guards simulate each other an item is read alike. Induction on the nesting level. -/
theorem parseCborValueWith_follows (hg : g.Simulates g' R) (levels : Nat) :
    ParseFollows R (parseCborValueWith g levels) (parseCborValueWith g' levels) := by
  induction levels with
  | zero =>
    intro n n' input value m rest hlen hR h
    cases h
  | succ levels ih =>
    intro n n' input value m rest hlen hR h
    simp only [parseCborValueWith, Except.bind_eq_ok] at h
    obtain ⟨n₁, hconsume, h⟩ := h
    cases input with
    | nil => cases h
    | cons initial input =>
      rw [List.length_cons] at hlen hR
      obtain ⟨n₁', hconsume', hR₁⟩ := hg.consume hR hconsume
      simp only [Except.bind_eq_ok] at h
      obtain ⟨⟨len, input₁⟩, hread, h⟩ := h
      have hle₁ := length_le_of_readCborArgument hread
      obtain ⟨hle, m', h', hR'⟩ := parseContentWith_follows hg ih (by omega) (hg.anti hR₁ hle₁) h
      refine ⟨by rw [List.length_cons]; omega, m', ?_, hR'⟩
      simp only [parseCborValueWith, hconsume', hread, h', Except.ok_bind]

end Parse

section Validate

variable {g g' : Guards} {R : Nat → Nat → Nat → Prop}
variable {validate validate' : Nat → Bytes → DecodeResult (Nat × Bytes)}

/-- Where one validator follows another on an item it does on an array. -/
theorem validateItems_follows (hvalidate : ValidateFollows R validate validate')
    {count n n' m : Nat} {input rest : Bytes} (hlen : input.length < 2 ^ 64)
    (hR : R input.length n n') (h : validateItems validate count n input = .ok (m, rest)) :
    rest.length + count ≤ input.length
      ∧ ∃ m', validateItems validate' count n' input = .ok (m', rest) ∧ R rest.length m m' := by
  induction count generalizing n n' input with
  | zero =>
    cases h
    exact ⟨Nat.le_refl _, n', rfl, hR⟩
  | succ count ih =>
    simp only [validateItems, Except.bind_eq_ok] at h
    obtain ⟨⟨n₁, input₁⟩, hitem, hitems⟩ := h
    obtain ⟨hlt, m₁, hitem', hR₁⟩ := hvalidate hlen hR hitem
    obtain ⟨hle, m', hitems', hR'⟩ := ih (by omega) hR₁ hitems
    refine ⟨by omega, m', ?_, hR'⟩
    simp only [validateItems, hitem', Except.ok_bind, hitems']

/-- A key has a head of its own. -/
theorem length_lt_of_readMapKey {input rawKey rest : Bytes}
    (h : readMapKey input = .ok (rawKey, rest)) : rest.length < input.length := by
  obtain ⟨key, -, -, rfl⟩ := readMapKey_eq_ok.mp h
  have hpos := List.length_pos_of_ne_nil (Item.encode_ne_nil (.text key))
  rw [Item.encode] at hpos
  rw [List.length_append]
  omega

/-- Where one validator follows another on an item it does on a map. -/
theorem validateEntries_follows (hg : g.Simulates g' R)
    (hvalidate : ValidateFollows R validate validate') {count n n' m : Nat}
    {previous : Option Bytes} {input rest : Bytes} (hlen : input.length < 2 ^ 64)
    (hR : R input.length n n')
    (h : validateEntries validate count previous n input = .ok (m, rest)) :
    rest.length + count * 2 ≤ input.length
      ∧ ∃ m', validateEntries validate' count previous n' input = .ok (m', rest)
        ∧ R rest.length m m' := by
  induction count generalizing n n' input previous with
  | zero =>
    cases h
    exact ⟨Nat.le_refl _, n', rfl, hR⟩
  | succ count ih =>
    simp only [validateEntries, Except.bind_eq_ok] at h
    obtain ⟨⟨rawKey, input₁⟩, hkey, u, horder, ⟨n₂, input₂⟩, hvalue, hentries⟩ := h
    have hlt₁ := length_lt_of_readMapKey hkey
    dsimp only at horder hvalue hentries
    obtain ⟨hlt₂, m₂, hvalue', hR₂⟩ := hvalidate (by omega) (hg.anti hR (by omega)) hvalue
    obtain ⟨hle, m', hentries', hR'⟩ := ih (by omega) hR₂ hentries
    refine ⟨by omega, m', ?_, hR'⟩
    simp only [validateEntries, hkey, horder, hvalue', hentries', Except.ok_bind]

/-- Content that is no collection is validated without the validator. -/
theorem validateContent_scalar {major : UInt8} {len : UInt64} {n m : Nat} {input rest : Bytes}
    (harray : major ≠ 4) (hmap : major ≠ 5)
    (h : validateContent validate major len n input = .ok (m, rest)) :
    m = n ∧ rest.length ≤ input.length
      ∧ ∀ n', validateContent validate' major len n' input = .ok (n', rest) := by
  unfold validateContent at h ⊢
  split at h
  · cases h
    exact ⟨rfl, Nat.le_refl _, fun n' => rfl⟩
  · cases h
    exact ⟨rfl, Nat.le_refl _, fun n' => rfl⟩
  · simp only [Except.bind_eq_ok] at h
    obtain ⟨⟨part, rest'⟩, htake, h⟩ := h
    cases h
    refine ⟨rfl, length_le_of_takeBytes htake, fun n' => ?_⟩
    rw [htake]
    rfl
  · simp only [Except.bind_eq_ok] at h
    obtain ⟨⟨part, rest'⟩, htake, u, hutf8, h⟩ := h
    cases h
    refine ⟨rfl, length_le_of_takeBytes htake, fun n' => ?_⟩
    simp only [htake, Except.ok_bind, hutf8]
    rfl
  · exact absurd rfl harray
  · exact absurd rfl hmap
  · cases h
  · cases h

/-- Outside arrays and maps no guard is asked. -/
theorem validateContentWith_scalar {major : UInt8} {len : UInt64} (harray : major ≠ 4)
    (hmap : major ≠ 5) :
    validateContentWith g validate major len = validateContent validate major len := by
  funext n input
  unfold validateContentWith
  split
  · exact absurd rfl harray
  · exact absurd rfl hmap
  · rfl

/-- Where the guards simulate each other the content of an item is validated alike. -/
theorem validateContentWith_follows (hg : g.Simulates g' R)
    (hvalidate : ValidateFollows R validate validate') {major : UInt8} {len : UInt64} {n n' m : Nat}
    {input rest : Bytes} (hlen : input.length < 2 ^ 64) (hR : R input.length n n')
    (h : validateContentWith g validate major len n input = .ok (m, rest)) :
    rest.length ≤ input.length
      ∧ ∃ m', validateContentWith g' validate' major len n' input = .ok (m', rest)
        ∧ R rest.length m m' := by
  by_cases harray : major = 4
  · subst harray
    simp only [validateContentWith, Except.bind_eq_ok] at h
    obtain ⟨count, hcount, hitems⟩ := h
    obtain rfl := hg.count hcount
    obtain ⟨hle, m', hitems', hR'⟩ := validateItems_follows hvalidate hlen hR hitems
    have hfits := hg.fits (k := 1) hlen (by omega : len.toNat * 1 ≤ input.length)
    refine ⟨Nat.le_of_add_right_le hle, m', ?_, hR'⟩
    simp only [validateContentWith, hfits, hitems', Except.ok_bind]
  · by_cases hmap : major = 5
    · subst hmap
      simp only [validateContentWith, Except.bind_eq_ok] at h
      obtain ⟨count, hcount, hentries⟩ := h
      obtain rfl := hg.count hcount
      obtain ⟨hle, m', hentries', hR'⟩ := validateEntries_follows hg hvalidate hlen hR hentries
      have hfits := hg.fits (k := 2) hlen (by omega : len.toNat * 2 ≤ input.length)
      refine ⟨Nat.le_of_add_right_le hle, m', ?_, hR'⟩
      simp only [validateContentWith, hfits, hentries', Except.ok_bind]
    · rw [validateContentWith_scalar harray hmap] at h ⊢
      obtain ⟨rfl, hle, hsame⟩ := validateContent_scalar harray hmap h
      exact ⟨hle, n', hsame n', hg.anti hR hle⟩

/-- A float leaves no more bytes than there were. -/
theorem length_le_of_validateSimpleOrFloat {initial ai : UInt8} {input rest : Bytes}
    (h : validateSimpleOrFloat initial ai input = .ok rest) : rest.length ≤ input.length := by
  unfold validateSimpleOrFloat at h
  split_ifs at h
  · cases h
    exact Nat.le_refl _
  all_goals
    simp only [Except.bind_eq_ok] at h
    obtain ⟨⟨bits, rest'⟩, hread, u, hvalid, h⟩ := h
    cases h
    exact length_le_of_takeBytes hread

/-- Where the guards simulate each other an item is validated alike. Induction on the nesting
level. -/
theorem validateCommitmentValueWith_follows (hg : g.Simulates g' R) (levels : Nat) :
    ValidateFollows R (validateCommitmentValueWith g levels)
      (validateCommitmentValueWith g' levels) := by
  induction levels with
  | zero =>
    intro n n' input m rest hlen hR h
    cases h
  | succ levels ih =>
    intro n n' input m rest hlen hR h
    simp only [validateCommitmentValueWith, Except.bind_eq_ok] at h
    obtain ⟨n₁, hconsume, h⟩ := h
    cases input with
    | nil => cases h
    | cons initial input =>
      rw [List.length_cons] at hlen hR
      obtain ⟨n₁', hconsume', hR₁⟩ := hg.consume hR hconsume
      dsimp only at h
      -- a simple value or a float is read at once, anything else has its content checked
      by_cases hsimple : initial >>> 5 = 7
      · rw [if_pos hsimple] at h
        simp only [Except.bind_eq_ok] at h
        obtain ⟨rest', hread, h⟩ := h
        cases h
        have hle := length_le_of_validateSimpleOrFloat hread
        refine ⟨by rw [List.length_cons]; omega, n₁', ?_, hg.anti hR₁ hle⟩
        simp only [validateCommitmentValueWith, hconsume', Except.ok_bind, hsimple, if_true, hread]
        rfl
      · rw [if_neg hsimple] at h
        simp only [Except.bind_eq_ok] at h
        obtain ⟨⟨len, input₁⟩, hread, h⟩ := h
        have hle₁ := length_le_of_readCborArgument hread
        obtain ⟨hle, m', h', hR'⟩ :=
          validateContentWith_follows hg ih (by omega) (hg.anti hR₁ hle₁) h
        refine ⟨by rw [List.length_cons]; omega, m', ?_, hR'⟩
        simp only [validateCommitmentValueWith, hconsume', Except.ok_bind, hsimple, if_false, hread,
          h']

end Validate

/-! ## The checks of the source -/

namespace Guards

/-- The size guard answers with the number it was asked about. -/
theorem count_of {budget fits : Bool} {input : Bytes} {len : UInt64} {k count : Nat}
    (h : (of budget fits).fits input len k = .ok count) : count = len.toNat := by
  cases fits with
  | false => exact (Except.ok.inj h).symm
  | true => exact (ensureCollectionFits_eq_ok.mp h).1

/-- A container whose items fit into the bytes that are left passes the size guard. -/
theorem fits_of {budget fits : Bool} {input : Bytes} {len : UInt64} {k : Nat}
    (hlen : input.length < 2 ^ 64) (h : len.toNat * k ≤ input.length) :
    (of budget fits).fits input len k = .ok len.toNat := by
  cases fits with
  | false => rfl
  | true => exact ensureCollectionFits_eq_ok.mpr ⟨rfl, by omega, h⟩

/-- A budget of the bytes that are left lets pass what any checks let pass. -/
theorem simulates_of (budget fits budget' fits' : Bool) :
    (of budget fits).Simulates (of budget' fits') fun left _ n' => budget' = true → left ≤ n' where
  anti h hle hbudget := Nat.le_trans hle (h hbudget)
  consume {left n n' m} h _ := by
    cases budget' with
    | false => exact ⟨n' + 1, rfl, by simp⟩
    | true =>
      have hle : left + 1 ≤ n' := h rfl
      obtain ⟨m', rfl⟩ : ∃ m', n' = m' + 1 := ⟨n' - 1, by omega⟩
      exact ⟨m', rfl, fun _ => by omega⟩
  count := count_of
  fits := fits_of

/-- The items counted without a budget are those a budget loses. -/
theorem simulates_count (fits fits' : Bool) (total : Nat) :
    (of false fits).Simulates (of true fits') fun left n n' => n + n' = total ∧ left ≤ n' where
  anti h hle := ⟨h.1, Nat.le_trans hle h.2⟩
  consume {left n n' m} h hm := by
    cases hm
    obtain ⟨htotal, hle⟩ := h
    obtain ⟨m', rfl⟩ : ∃ m', n' = m' + 1 := ⟨n' - 1, by omega⟩
    exact ⟨m', rfl, by omega, by omega⟩
  count := count_of
  fits := fits_of

/-- A set of guards simulates itself on equal budgets. -/
theorem simulates_self (budget fits : Bool) :
    (of budget fits).Simulates (of budget fits) fun _ n n' => n = n' where
  anti h _ := h
  consume h hm := ⟨_, h ▸ hm, rfl⟩
  count := count_of
  fits := fits_of

end Guards

/-- The value that is returned, and the bytes after it. -/
def parsed (result : DecodeResult (CborValue × Nat × Bytes)) : Option (CborValue × Bytes) :=
  match result with
  | .ok (value, _, rest) => some (value, rest)
  | .error _ => none

/-- The bytes after a validated item. -/
def validated (result : DecodeResult (Nat × Bytes)) : Option Bytes :=
  match result with
  | .ok (_, rest) => some rest
  | .error _ => none

/-- What a parse answers, its budget apart. -/
theorem parsed_eq_some {result : DecodeResult (CborValue × Nat × Bytes)} {value : CborValue}
    {rest : Bytes} :
    parsed result = some (value, rest) ↔ ∃ m, result = .ok (value, m, rest) := by
  cases result with
  | error error => simp [parsed]
  | ok a =>
    obtain ⟨value', m, rest'⟩ := a
    simp [parsed]

/-- What a validation answers, its budget apart. -/
theorem validated_eq_some {result : DecodeResult (Nat × Bytes)} {rest : Bytes} :
    validated result = some rest ↔ ∃ m, result = .ok (m, rest) := by
  cases result with
  | error error => simp [validated]
  | ok a =>
    obtain ⟨m, rest'⟩ := a
    simp [validated]

section Redundant

variable {levels : Nat} {input : Bytes}

/-- Whatever the guards, a parse that succeeds succeeds with any others, given a budget of one item
for each byte. -/
theorem parsed_mono {budget fits budget' fits' : Bool} {n n' : Nat} {value : CborValue}
    {rest : Bytes} (hlen : input.length < 2 ^ 64) (hn' : budget' = true → input.length ≤ n')
    (h : parsed (parseCborValueWith (.of budget fits) levels n input) = some (value, rest)) :
    parsed (parseCborValueWith (.of budget' fits') levels n' input) = some (value, rest) := by
  obtain ⟨m, hm⟩ := parsed_eq_some.mp h
  obtain ⟨-, m', hm', -⟩ := parseCborValueWith_follows
    (Guards.simulates_of budget fits budget' fits') levels hlen hn' hm
  exact parsed_eq_some.mpr ⟨m', hm'⟩

/-- Whichever checks are in place, the same value is read from the same bytes. -/
theorem parsed_eq {budget fits budget' fits' : Bool} {n n' : Nat} (hlen : input.length < 2 ^ 64)
    (hn : budget = true → input.length ≤ n) (hn' : budget' = true → input.length ≤ n') :
    parsed (parseCborValueWith (.of budget fits) levels n input)
      = parsed (parseCborValueWith (.of budget' fits') levels n' input) := by
  refine Option.ext ?_
  rintro ⟨value, rest⟩
  exact ⟨parsed_mono hlen hn', parsed_mono hlen hn⟩

/-- Whatever the guards, a validation that succeeds succeeds with any others, given a budget of one
item for each byte. -/
theorem validated_mono {budget fits budget' fits' : Bool} {n n' : Nat} {rest : Bytes}
    (hlen : input.length < 2 ^ 64) (hn' : budget' = true → input.length ≤ n')
    (h : validated (validateCommitmentValueWith (.of budget fits) levels n input) = some rest) :
    validated (validateCommitmentValueWith (.of budget' fits') levels n' input) = some rest := by
  obtain ⟨m, hm⟩ := validated_eq_some.mp h
  obtain ⟨-, m', hm', -⟩ := validateCommitmentValueWith_follows
    (Guards.simulates_of budget fits budget' fits') levels hlen hn' hm
  exact validated_eq_some.mpr ⟨m', hm'⟩

/-- With a budget of one item for each byte no guard changes what is validated. -/
theorem validated_eq {budget fits budget' fits' : Bool} {n n' : Nat} (hlen : input.length < 2 ^ 64)
    (hn : budget = true → input.length ≤ n) (hn' : budget' = true → input.length ≤ n') :
    validated (validateCommitmentValueWith (.of budget fits) levels n input)
      = validated (validateCommitmentValueWith (.of budget' fits') levels n' input) := by
  refine Option.ext ?_
  intro rest
  exact ⟨validated_mono hlen hn', validated_mono hlen hn⟩

/-- A value that is read has no more items than bytes. -/
theorem items_le_of_parse {value : CborValue} {items : Nat} {rest : Bytes}
    (hlen : input.length < 2 ^ 64)
    (h : parseCborValueWith (.of false false) levels 0 input = .ok (value, items, rest)) :
    rest.length + items ≤ input.length := by
  obtain ⟨-, m', -, htotal, hle⟩ := parseCborValueWith_follows
    (Guards.simulates_count false false input.length) levels hlen
    (⟨Nat.zero_add _, Nat.le_refl _⟩ : 0 + input.length = input.length
      ∧ input.length ≤ input.length)
    h
  omega

/-- Without guards the items counted are no more than the bytes consumed. -/
theorem items_le_of_validate {items : Nat} {rest : Bytes} (hlen : input.length < 2 ^ 64)
    (h : validateCommitmentValueWith (.of false false) levels 0 input = .ok (items, rest)) :
    rest.length + items ≤ input.length := by
  obtain ⟨-, m', -, htotal, hle⟩ := validateCommitmentValueWith_follows
    (Guards.simulates_count false false input.length) levels hlen
    (⟨Nat.zero_add _, Nat.le_refl _⟩ : 0 + input.length = input.length
      ∧ input.length ≤ input.length)
    h
  omega

end Redundant

/-! ## Declared lengths -/

section Fits

/-- Every collection met by a parse that succeeds has its declared length within the bytes left. -/
def ParseFits (parse : Nat → Bytes → DecodeResult (CborValue × Nat × Bytes))
    (met : Nat → Bytes → List DecodeEvent) : Prop :=
  ∀ ⦃n input value m rest⦄, input.length < 2 ^ 64 → parse n input = .ok (value, m, rest) →
    ∀ e ∈ met n input, e.Fits

def ValidateFits (validate : Nat → Bytes → DecodeResult (Nat × Bytes))
    (met : Nat → Bytes → List DecodeEvent) : Prop :=
  ∀ ⦃n input m rest⦄, input.length < 2 ^ 64 → validate n input = .ok (m, rest) →
    ∀ e ∈ met n input, e.Fits

variable {parse : Nat → Bytes → DecodeResult (CborValue × Nat × Bytes)}
variable {validate : Nat → Bytes → DecodeResult (Nat × Bytes)}
  {met : Nat → Bytes → List DecodeEvent}

/-- Every container met below an array fits into the bytes it is met in. -/
theorem fits_of_itemsMet (hparse : ParseFollows (fun _ n n' => n = n') parse parse)
    (hmet : ParseFits parse met) {count n m : Nat} {input rest : Bytes} {items : List CborValue}
    (hlen : input.length < 2 ^ 64) (h : parseItems parse count n input = .ok (items, m, rest)) :
    ∀ e ∈ itemsMet parse met count n input, e.Fits := by
  induction count generalizing n input items with
  | zero => simp [itemsMet]
  | succ count ih =>
    simp only [parseItems, Except.bind_eq_ok, pure, Except.pure] at h
    obtain ⟨⟨item, n₁, input₁⟩, hitem, ⟨items', n₂, rest₂⟩, hitems, h⟩ := h
    cases h
    obtain ⟨hlt, -⟩ := hparse hlen rfl hitem
    dsimp only at hitems
    simp only [itemsMet, hitem, DecodeEvent.after, List.mem_append]
    rintro e (he | he)
    · exact hmet hlen hitem e he
    · exact ih (by omega) hitems e he

/-- Every container met below a map fits into the bytes it is met in. -/
theorem fits_of_entriesMet (hparse : ParseFollows (fun _ n n' => n = n') parse parse)
    (hmet : ParseFits parse met) {count n m : Nat} {previous : Option Bytes} {input rest : Bytes}
    {entries : List (String × CborValue)} (hlen : input.length < 2 ^ 64)
    (h : parseEntries parse count previous n input = .ok (entries, m, rest)) :
    ∀ e ∈ entriesMet parse met count previous n input, e.Fits := by
  induction count generalizing n input previous entries with
  | zero => simp [entriesMet]
  | succ count ih =>
    simp only [parseEntries, Except.bind_eq_ok] at h
    obtain ⟨⟨keyValue, n₁, input₁⟩, hkey, h⟩ := h
    obtain ⟨hlt₁, -⟩ := hparse hlen rfl hkey
    dsimp only at h
    split_ifs at h with horder
    · cases h
    · cases keyValue with
      | text key =>
        simp only [pure, Except.pure, Except.bind_eq_ok] at h
        obtain ⟨⟨value, n₂, input₂⟩, hvalue, ⟨entries', n₃, rest₃⟩, hentries, h⟩ := h
        cases h
        obtain ⟨hlt₂, -⟩ := hparse (by omega) rfl hvalue
        dsimp only at hentries
        simp only [entriesMet, hkey, hvalue, DecodeEvent.after, horder, if_false, List.mem_append,
          Bool.false_eq_true]
        rintro e (he | he | he)
        · exact hmet hlen hkey e he
        · exact hmet (by omega) hvalue e he
        · exact ih (by omega) hentries e he
      | _ => cases h

/-- A collection that is read has the items it declares, each with a byte of its own, and an entry
is two items. -/
theorem fits_of_contentMet {g : Guards} (hg : g.Simulates g fun _ n n' => n = n')
    (hparse : ParseFollows (fun _ n n' => n = n') parse parse) (hmet : ParseFits parse met)
    {major ai : UInt8} {len : UInt64} {n m : Nat} {input rest : Bytes} {value : CborValue}
    (hlen : input.length < 2 ^ 64)
    (h : parseContentWith g parse major ai len n input = .ok (value, m, rest)) :
    ∀ e ∈ contentMet g parse met major len n input, e.Fits := by
  by_cases harray : major = 4
  · subst harray
    simp only [parseContentWith, Except.bind_eq_ok] at h
    obtain ⟨count, hcount, ⟨items, n₁, rest₁⟩, hitems, -⟩ := h
    obtain rfl := hg.count hcount
    obtain ⟨hle, -⟩ := parseItems_follows hparse hlen rfl hitems
    simp only [contentMet, hcount, DecodeEvent.after, List.forall_mem_cons]
    refine ⟨?_, fits_of_itemsMet hparse hmet hlen hitems⟩
    show len.toNat * 1 ≤ input.length
    omega
  · by_cases hmap : major = 5
    · subst hmap
      simp only [parseContentWith, Except.bind_eq_ok] at h
      obtain ⟨count, hcount, ⟨entries, n₁, rest₁⟩, hentries, -⟩ := h
      obtain rfl := hg.count hcount
      obtain ⟨hle, -⟩ := parseEntries_follows hparse hlen rfl hentries
      simp only [contentMet, hcount, DecodeEvent.after, List.forall_mem_cons]
      refine ⟨?_, fits_of_entriesMet hparse hmet hlen hentries⟩
      show len.toNat * 2 ≤ input.length
      omega
    · unfold contentMet
      split
      · exact absurd rfl harray
      · exact absurd rfl hmap
      · simp

theorem fits_of_parseMet {g : Guards} (hg : g.Simulates g fun _ n n' => n = n') (levels : Nat) :
    ParseFits (parseCborValueWith g levels) (parseMet g levels) := by
  induction levels with
  | zero =>
    intro n input value m rest hlen h
    cases h
  | succ levels ih =>
    intro n input value m rest hlen h
    simp only [parseCborValueWith, Except.bind_eq_ok] at h
    obtain ⟨n₁, hconsume, h⟩ := h
    cases input with
    | nil => cases h
    | cons initial input =>
      rw [List.length_cons] at hlen
      simp only [Except.bind_eq_ok] at h
      obtain ⟨⟨len, input₁⟩, hread, h⟩ := h
      have hle₁ := length_le_of_readCborArgument hread
      simp only [parseMet, hconsume, hread, DecodeEvent.after, List.forall_mem_cons]
      exact ⟨trivial, fits_of_contentMet hg (parseCborValueWith_follows hg levels) ih
        (by omega) h⟩

/-- Every container met in the validation of an array fits into the bytes it is met in. -/
theorem fits_of_validateItemsMet
    (hvalidate : ValidateFollows (fun _ n n' => n = n') validate validate)
    (hmet : ValidateFits validate met) {count n m : Nat} {input rest : Bytes}
    (hlen : input.length < 2 ^ 64) (h : validateItems validate count n input = .ok (m, rest)) :
    ∀ e ∈ validateItemsMet validate met count n input, e.Fits := by
  induction count generalizing n input with
  | zero => simp [validateItemsMet]
  | succ count ih =>
    simp only [validateItems, Except.bind_eq_ok] at h
    obtain ⟨⟨n₁, input₁⟩, hitem, hitems⟩ := h
    obtain ⟨hlt, -⟩ := hvalidate hlen rfl hitem
    dsimp only at hitems
    simp only [validateItemsMet, hitem, DecodeEvent.after, List.mem_append]
    rintro e (he | he)
    · exact hmet hlen hitem e he
    · exact ih (by omega) hitems e he

/-- Every container met in the validation of a map fits into the bytes it is met in. -/
theorem fits_of_validateEntriesMet
    (hvalidate : ValidateFollows (fun _ n n' => n = n') validate validate)
    (hmet : ValidateFits validate met) {count n m : Nat} {previous : Option Bytes}
    {input rest : Bytes} (hlen : input.length < 2 ^ 64)
    (h : validateEntries validate count previous n input = .ok (m, rest)) :
    ∀ e ∈ validateEntriesMet validate met count previous n input, e.Fits := by
  induction count generalizing n input previous with
  | zero => simp [validateEntriesMet]
  | succ count ih =>
    simp only [validateEntries, Except.bind_eq_ok, Except.require_eq_ok] at h
    obtain ⟨⟨rawKey, input₁⟩, hkey, u, horder, ⟨n₂, input₂⟩, hvalue, hentries⟩ := h
    have hlt₁ := length_lt_of_readMapKey hkey
    dsimp only at horder hvalue hentries
    obtain ⟨hlt₂, -⟩ := hvalidate (by omega) rfl hvalue
    rw [Bool.not_eq_true'] at horder
    simp only [validateEntriesMet, hkey, hvalue, DecodeEvent.after, horder, if_false,
      List.mem_append, Bool.false_eq_true]
    rintro e (he | he)
    · exact hmet (by omega) hvalue e he
    · exact ih (by omega) hentries e he

/-- Every container met in the content of an item, itself included, fits into its bytes. -/
theorem fits_of_validateContentMet {g : Guards} (hg : g.Simulates g fun _ n n' => n = n')
    (hvalidate : ValidateFollows (fun _ n n' => n = n') validate validate)
    (hmet : ValidateFits validate met) {major : UInt8} {len : UInt64} {n m : Nat}
    {input rest : Bytes} (hlen : input.length < 2 ^ 64)
    (h : validateContentWith g validate major len n input = .ok (m, rest)) :
    ∀ e ∈ validateContentMet g validate met major len n input, e.Fits := by
  by_cases harray : major = 4
  · subst harray
    simp only [validateContentWith, Except.bind_eq_ok] at h
    obtain ⟨count, hcount, hitems⟩ := h
    obtain rfl := hg.count hcount
    obtain ⟨hle, -⟩ := validateItems_follows hvalidate hlen rfl hitems
    simp only [validateContentMet, hcount, DecodeEvent.after, List.forall_mem_cons]
    refine ⟨?_, fits_of_validateItemsMet hvalidate hmet hlen hitems⟩
    show len.toNat * 1 ≤ input.length
    omega
  · by_cases hmap : major = 5
    · subst hmap
      simp only [validateContentWith, Except.bind_eq_ok] at h
      obtain ⟨count, hcount, hentries⟩ := h
      obtain rfl := hg.count hcount
      obtain ⟨hle, -⟩ := validateEntries_follows hg hvalidate hlen rfl hentries
      simp only [validateContentMet, hcount, DecodeEvent.after, List.forall_mem_cons]
      refine ⟨?_, fits_of_validateEntriesMet hvalidate hmet hlen hentries⟩
      show len.toNat * 2 ≤ input.length
      omega
    · unfold validateContentMet
      split
      · exact absurd rfl harray
      · exact absurd rfl hmap
      · simp

/-- Every container met in a validation that succeeds fits into its bytes. Induction on the nesting
level. -/
theorem fits_of_validateMet {g : Guards} (hg : g.Simulates g fun _ n n' => n = n') (levels : Nat) :
    ValidateFits (validateCommitmentValueWith g levels) (validateMet g levels) := by
  induction levels with
  | zero =>
    intro n input m rest hlen h
    cases h
  | succ levels ih =>
    intro n input m rest hlen h
    simp only [validateCommitmentValueWith, Except.bind_eq_ok] at h
    obtain ⟨n₁, hconsume, h⟩ := h
    cases input with
    | nil => cases h
    | cons initial input =>
      rw [List.length_cons] at hlen
      dsimp only at h
      simp only [validateMet, hconsume, DecodeEvent.after, List.forall_mem_cons]
      refine ⟨trivial, ?_⟩
      by_cases hsimple : initial >>> 5 = 7
      · simp [hsimple]
      · rw [if_neg hsimple] at h ⊢
        simp only [Except.bind_eq_ok] at h
        obtain ⟨⟨len, input₁⟩, hread, h⟩ := h
        have hle₁ := length_le_of_readCborArgument hread
        simp only [hread]
        exact fits_of_validateContentMet hg (validateCommitmentValueWith_follows hg levels) ih
          (by omega) h

end Fits

/-! ## Neither check rejects what can be read -/

/-- At any position and any depth, with a budget of all the bytes: adding or removing the item
budget and the size check changes neither whether a value is accepted, nor the value, nor where the
reader stops. Without both, a value that is accepted has no more items than there are bytes, and
every collection in it declared no more than the bytes that were left. -/
theorem resourceChecks_redundant (bytes : Bytes) (hbytes : bytes.length < 2 ^ 64)
    (pos levels : Nat) :
    (∀ budget fits : Bool,
      parsed (parseCborValueWith (.of budget fits) levels (Guards.start budget bytes)
        (bytes.drop pos))
          = parsed (parseCborValue levels bytes.length (bytes.drop pos))
        ∧ validated (validateCommitmentValueWith (.of budget fits) levels
            (Guards.start budget bytes) (bytes.drop pos))
          = validated (validateCommitmentValue levels bytes.length (bytes.drop pos)))
      ∧ (∀ value items rest,
          parseCborValueWith (.of false false) levels 0 (bytes.drop pos)
            = .ok (value, items, rest) →
          items ≤ bytes.length ∧ ∀ e ∈ parseMet (.of false false) levels 0 (bytes.drop pos), e.Fits)
      ∧ ∀ items rest,
          validateCommitmentValueWith (.of false false) levels 0 (bytes.drop pos)
            = .ok (items, rest) →
          items ≤ bytes.length
            ∧ ∀ e ∈ validateMet (.of false false) levels 0 (bytes.drop pos), e.Fits := by
  have hdrop : (bytes.drop pos).length ≤ bytes.length := by simp
  have hlen : (bytes.drop pos).length < 2 ^ 64 := by omega
  have hself := Guards.simulates_self false false
  refine ⟨fun budget fits => ?_, fun value items rest h => ?_, fun items rest h => ?_⟩
  · have hstart : budget = true → (bytes.drop pos).length ≤ Guards.start budget bytes := by
      rintro rfl
      exact hdrop
    rw [← parseCborValueWith_source, ← validateCommitmentValueWith_source]
    exact ⟨parsed_eq hlen hstart fun _ => hdrop, validated_eq hlen hstart fun _ => hdrop⟩
  · have hitems := items_le_of_parse hlen h
    exact ⟨by omega, fits_of_parseMet hself levels hlen h⟩
  · have hitems := items_le_of_validate hlen h
    exact ⟨by omega, fits_of_validateMet hself levels hlen h⟩

/-- The second of two empty arrays in an array, from its position on. -/
theorem resourceChecks_redundant_sample :
    parsed (parseCborValueWith (.of false false) rootLevels 0 [0x80])
      = parsed (parseCborValue rootLevels 3 [0x80]) :=
  ((resourceChecks_redundant [0x82, 0x80, 0x80] (by decide) 2 rootLevels).1 false false).1

end TrackOne
