import TrackOne.Lib.BinaryFloat
import Mathlib.Data.List.Basic
import Mathlib.Data.List.Perm.Basic
import Mathlib.Data.List.Sort

/-!
# Deterministic CBOR items

The data items of RFC 8949 that deterministic encoders of telemetry use, as an abstract syntax
with one encoding each: integers, byte and text strings, arrays, maps with text keys, booleans,
null and floats.

* `head` is the shortest head of an item, `head_eq_cons` splits it into its initial byte and the
  argument bytes that follow.
* `Item.encode` writes an item; `Item.Deterministic n` holds when the encoding is the
  deterministic one: map keys are in strict order of encoded length and then bytes, every float has
  its shortest exact width, at most `n` levels are nested below the root, and every length is one
  a byte string of fewer than `2^64` bytes can have (an entry of a map takes two bytes or more).
* `Item.count` is the number of data items in an item, map keys counted; `Item.count_le_length`
  bounds it by the length of the encoding.
* `prefixFree_deterministic`: no deterministic encoding is a proper beginning of another one;
  `prefixFree_sized` says so of items with floats of any width.
* `Item.Same` relates items that denote one value, whatever the order of map entries and the
  width of floats; `Deterministic.eq_of_same` says that a value has one deterministic item.
-/

namespace DetCbor

open BinaryFloat Format

/-! ## Heads -/

/-- The shortest head with the given major type and argument. -/
def head (major : UInt8) (n : UInt64) : Bytes :=
  let p := major <<< 5
  if n ≤ 23 then [p ||| n.toUInt8]
  else if n ≤ 0xff then (p ||| 24) :: beBytes 1 n.toNat
  else if n ≤ 0xffff then (p ||| 25) :: beBytes 2 n.toNat
  else if n ≤ 0xffffffff then (p ||| 26) :: beBytes 4 n.toNat
  else (p ||| 27) :: beBytes 8 n.toNat

/-- The additional information of a shortest head. -/
def shortestInfo (n : UInt64) : UInt8 :=
  if n ≤ 23 then n.toUInt8
  else if n ≤ 0xff then 24
  else if n ≤ 0xffff then 25
  else if n ≤ 0xffffffff then 26
  else 27

/-- The argument bytes of a shortest head. -/
def shortestArgument (n : UInt64) : Bytes :=
  if n ≤ 23 then []
  else if n ≤ 0xff then beBytes 1 n.toNat
  else if n ≤ 0xffff then beBytes 2 n.toNat
  else if n ≤ 0xffffffff then beBytes 4 n.toNat
  else beBytes 8 n.toNat

/-- A head is its first byte and its argument. -/
theorem head_eq_cons (major : UInt8) (n : UInt64) :
    head major n = ((major <<< 5) ||| shortestInfo n) :: shortestArgument n := by
  unfold head shortestInfo shortestArgument
  split_ifs <;> rfl

/-- The additional information is never a reserved one. -/
theorem shortestInfo_lt (n : UInt64) : shortestInfo n < 28 := by
  unfold shortestInfo
  split_ifs with h
  · rw [UInt64.le_iff_toNat_le] at h
    rw [UInt8.lt_iff_toNat_lt, UInt64.toNat_toUInt8]
    simp only [UInt64.reduceToNat, UInt8.reduceToNat] at h ⊢
    omega
  all_goals decide

/-- The major type and the additional information can be read off the initial byte. -/
theorem initial_fields {major info : UInt8} (hmajor : major < 8) (hinfo : info < 32) :
    ((major <<< 5) ||| info) >>> 5 = major ∧ ((major <<< 5) ||| info) &&& 0x1f = info := by
  have hall : ∀ m < 8, ∀ i < 32,
      ((UInt8.ofNat m <<< 5) ||| UInt8.ofNat i) >>> 5 = UInt8.ofNat m
        ∧ ((UInt8.ofNat m <<< 5) ||| UInt8.ofNat i) &&& 0x1f = UInt8.ofNat i := by decide +kernel
  have h := hall major.toNat (UInt8.lt_iff_toNat_lt.mp hmajor) info.toNat
    (UInt8.lt_iff_toNat_lt.mp hinfo)
  simpa using h

/-- Every byte is the initial byte of its own fields. -/
theorem initial_of_fields (b : UInt8) : (((b >>> 5) <<< 5) ||| (b &&& 0x1f)) = b := by
  have hall : ∀ i < 256, (((UInt8.ofNat i >>> 5) <<< 5) ||| (UInt8.ofNat i &&& 0x1f))
      = UInt8.ofNat i := by decide +kernel
  simpa using hall b.toNat b.toNat_lt

/-- There are eight major types. -/
theorem shiftRight_five_lt (b : UInt8) : b >>> 5 < 8 := by
  have hall : ∀ i < 256, UInt8.ofNat i >>> 5 < 8 := by decide +kernel
  simpa using hall b.toNat b.toNat_lt

/-! ## Items -/

/-- A float as it is written: a bit pattern of one of the three widths. -/
inductive FloatLit where
  | half (bits : UInt16)
  | single (bits : UInt32)
  | double (bits : UInt64)
deriving DecidableEq

namespace FloatLit

/-- The value of a float, as the bit pattern of the double it is exactly. -/
def value : FloatLit → Nat
  | half bits => widen BinaryFloat.half bits.toNat
  | single bits => widen BinaryFloat.single bits.toNat
  | double bits => bits.toNat

/-- Finite, and not exactly a float of a shorter width. -/
def Shortest : FloatLit → Prop
  | half bits => BinaryFloat.half.Finite bits.toNat
  | single bits => BinaryFloat.single.Finite bits.toNat
      ∧ ∀ h : UInt16, BinaryFloat.half.Finite h.toNat →
          widen BinaryFloat.half h.toNat ≠ widen BinaryFloat.single bits.toNat
  | double bits => BinaryFloat.double.Finite bits.toNat
      ∧ (∀ h : UInt16, BinaryFloat.half.Finite h.toNat →
          widen BinaryFloat.half h.toNat ≠ bits.toNat)
      ∧ ∀ s : UInt32, BinaryFloat.single.Finite s.toNat →
          widen BinaryFloat.single s.toNat ≠ bits.toNat

/-- The encoding: the initial byte of the width, then the bits. -/
def encode : FloatLit → Bytes
  | half bits => 0xf9 :: beBytes 2 bits.toNat
  | single bits => 0xfa :: beBytes 4 bits.toNat
  | double bits => 0xfb :: beBytes 8 bits.toNat

end FloatLit

/-- A data item. -/
inductive Item where
  | uint (n : UInt64)
  | nint (n : UInt64)
  | bytes (b : Bytes)
  | text (s : String)
  | array (items : List Item)
  | map (entries : List (String × Item))
  | bool (b : Bool)
  | null
  | float (f : FloatLit)

/-- A length as the argument of a head. -/
def lengthHead (major : UInt8) (n : Nat) : Bytes := head major (UInt64.ofNat n)

/-- The encoding of a text string, of a map key in particular. -/
def encodeText (s : String) : Bytes := lengthHead 3 (utf8Bytes s).length ++ utf8Bytes s

mutual

/-- The encoding of an item. -/
def Item.encode : Item → Bytes
  | .uint n => head 0 n
  | .nint n => head 1 n
  | .bytes b => lengthHead 2 b.length ++ b
  | .text s => encodeText s
  | .array items => lengthHead 4 items.length ++ encodeItems items
  | .map entries => lengthHead 5 entries.length ++ encodeEntries entries
  | .bool b => if b then [0xf5] else [0xf4]
  | .null => [0xf6]
  | .float f => f.encode

/-- The encodings of the items of an array, in order. -/
def encodeItems : List Item → Bytes
  | [] => []
  | item :: items => item.encode ++ encodeItems items

/-- The encodings of the entries of a map, key then value, in order. -/
def encodeEntries : List (String × Item) → Bytes
  | [] => []
  | (key, item) :: entries => encodeText key ++ item.encode ++ encodeEntries entries

end

/-- No head is empty. -/
theorem lengthHead_ne_nil (major : UInt8) (n : Nat) : lengthHead major n ≠ [] := by
  simp [lengthHead, head_eq_cons]

/-- Every item is at least one byte long. -/
theorem Item.encode_ne_nil (item : Item) : item.encode ≠ [] := by
  cases item with
  | uint n => simp [Item.encode, head_eq_cons]
  | nint n => simp [Item.encode, head_eq_cons]
  | bytes b => simp [Item.encode, lengthHead_ne_nil]
  | text s => simp [Item.encode, encodeText, lengthHead_ne_nil]
  | array items => simp [Item.encode, lengthHead_ne_nil]
  | map entries => simp [Item.encode, lengthHead_ne_nil]
  | bool b => cases b <;> simp [Item.encode]
  | null => simp [Item.encode]
  | float f => cases f <;> simp [Item.encode, FloatLit.encode]

/-- An item takes a byte at least. -/
theorem length_encodeItems_ge (items : List Item) : items.length ≤ (encodeItems items).length := by
  induction items with
  | nil => simp
  | cons item items ih =>
    have hpos := List.length_pos_of_ne_nil item.encode_ne_nil
    simp only [encodeItems, List.length_cons, List.length_append]
    omega

/-- An entry takes two bytes at least. -/
theorem length_encodeEntries_ge (entries : List (String × Item)) :
    2 * entries.length ≤ (encodeEntries entries).length := by
  induction entries with
  | nil => simp
  | cons entry entries ih =>
    have hkey : encodeText entry.1 ≠ [] := by simp [encodeText, lengthHead_ne_nil]
    have hpos := List.length_pos_of_ne_nil hkey
    have hpos' := List.length_pos_of_ne_nil entry.2.encode_ne_nil
    simp only [encodeEntries, List.length_cons, List.length_append]
    omega

/-! ## Counting items -/

mutual

/-- The number of data items an item consists of, itself and the keys of its maps included. -/
def Item.count : Item → Nat
  | .array items => 1 + countItems items
  | .map entries => 1 + countEntries entries
  | .uint _ | .nint _ | .bytes _ | .text _ | .bool _ | .null | .float _ => 1

def countItems : List Item → Nat
  | [] => 0
  | item :: items => item.count + countItems items

def countEntries : List (String × Item) → Nat
  | [] => 0
  | (_, item) :: entries => 1 + item.count + countEntries entries

end

mutual

/-- Every data item takes a byte or more. -/
theorem Item.count_le_length (item : Item) : item.count ≤ item.encode.length := by
  have hhead : ∀ major n, 1 ≤ (lengthHead major n).length := fun major n =>
    List.length_pos_of_ne_nil (lengthHead_ne_nil major n)
  cases item with
  | array items =>
    have h := countItems_le_length items
    have := hhead 4 items.length
    simp only [Item.count, Item.encode, List.length_append]
    omega
  | map entries =>
    have h := countEntries_le_length entries
    have := hhead 5 entries.length
    simp only [Item.count, Item.encode, List.length_append]
    omega
  | uint n => exact List.length_pos_of_ne_nil (Item.encode_ne_nil _)
  | nint n => exact List.length_pos_of_ne_nil (Item.encode_ne_nil _)
  | bytes b => exact List.length_pos_of_ne_nil (Item.encode_ne_nil _)
  | text s => exact List.length_pos_of_ne_nil (Item.encode_ne_nil _)
  | bool b => exact List.length_pos_of_ne_nil (Item.encode_ne_nil _)
  | null => exact List.length_pos_of_ne_nil (Item.encode_ne_nil _)
  | float f => exact List.length_pos_of_ne_nil (Item.encode_ne_nil _)

/-- The items counted in an array take a byte each. -/
theorem countItems_le_length (items : List Item) :
    countItems items ≤ (encodeItems items).length := by
  cases items with
  | nil => simp [countItems]
  | cons item items =>
    have hitem := item.count_le_length
    have hitems := countItems_le_length items
    simp only [countItems, encodeItems, List.length_append]
    omega

/-- The items counted in a map take a byte each. -/
theorem countEntries_le_length (entries : List (String × Item)) :
    countEntries entries ≤ (encodeEntries entries).length := by
  cases entries with
  | nil => simp [countEntries]
  | cons entry entries =>
    obtain ⟨key, item⟩ := entry
    have hkey : encodeText key ≠ [] := by simp [encodeText, lengthHead_ne_nil]
    have hpos := List.length_pos_of_ne_nil hkey
    have hitem := item.count_le_length
    have hentries := countEntries_le_length entries
    simp only [countEntries, encodeEntries, List.length_append]
    omega

end

/-- An item counts itself. -/
theorem Item.count_pos (item : Item) : 0 < item.count := by
  cases item <;> simp only [Item.count] <;> omega

/-- The items of an array are counted. -/
theorem length_le_countItems (items : List Item) : items.length ≤ countItems items := by
  induction items with
  | nil => simp
  | cons item items ih =>
    have := item.count_pos
    simp only [countItems, List.length_cons]
    omega

/-- The keys and values of a map are counted. -/
theorem length_le_countEntries (entries : List (String × Item)) :
    2 * entries.length ≤ countEntries entries := by
  induction entries with
  | nil => simp
  | cons entry entries ih =>
    obtain ⟨key, item⟩ := entry
    have := item.count_pos
    simp only [countEntries, List.length_cons]
    omega

/-! ## Deterministic items -/

/-- The order of map keys: by the length of the encoded key, then by its bytes. -/
def KeyLt (a b : String) : Prop :=
  (encodeText a).length < (encodeText b).length
    ∨ ((encodeText a).length = (encodeText b).length ∧ encodeText a < encodeText b)

instance (a b : String) : Decidable (KeyLt a b) := inferInstanceAs (Decidable (_ ∨ _))

/-- The order of keys is transitive. -/
theorem KeyLt.trans {a b c : String} (hab : KeyLt a b) (hbc : KeyLt b c) : KeyLt a c := by
  unfold KeyLt at *
  rcases hab with hab | ⟨hab, hlt⟩ <;> rcases hbc with hbc | ⟨hbc, hlt'⟩
  · exact Or.inl (by omega)
  · exact Or.inl (by omega)
  · exact Or.inl (by omega)
  · exact Or.inr ⟨by omega, List.lt_trans hlt hlt'⟩

instance : Trans KeyLt KeyLt KeyLt := ⟨KeyLt.trans⟩

/-- The order of keys is strict. -/
theorem KeyLt.irrefl (a : String) : ¬ KeyLt a a := by
  rintro (h | ⟨_, h⟩)
  · omega
  · exact List.lt_irrefl _ h

/-- The encoding of the item is deterministic, with at most the given number of levels nested
below it. -/
def Item.Deterministic : Nat → Item → Prop
  | _, .uint _ => True
  | _, .nint _ => True
  | _, .bytes b => b.length < 2 ^ 64
  | _, .text s => (utf8Bytes s).length < 2 ^ 64
  | 0, .array items => items = []
  | n + 1, .array items => items.length < 2 ^ 64 ∧ ∀ item ∈ items, Item.Deterministic n item
  | 0, .map entries => entries = []
  | n + 1, .map entries =>
    entries.length < 2 ^ 63
      ∧ (entries.map Prod.fst).Pairwise KeyLt
      ∧ ∀ entry ∈ entries,
          (utf8Bytes entry.1).length < 2 ^ 64 ∧ Item.Deterministic n entry.2
  | _, .bool _ => True
  | _, .null => True
  | _, .float f => f.Shortest

/-- More levels do no harm. -/
theorem Item.Deterministic.mono {n m : Nat} {item : Item} (h : item.Deterministic n)
    (hle : n ≤ m) : item.Deterministic m := by
  induction n generalizing m item with
  | zero =>
    cases item with
    | array items =>
      rw [show items = [] from h]
      cases m <;> simp [Item.Deterministic]
    | map entries =>
      rw [show entries = [] from h]
      cases m <;> simp [Item.Deterministic]
    | uint | nint | bytes | text | bool | null | float => cases m <;> exact h
  | succ n ih =>
    obtain ⟨m, rfl⟩ : ∃ k, m = k + 1 := ⟨m - 1, by omega⟩
    cases item with
    | array items => exact ⟨h.1, fun item hitem => ih (h.2 item hitem) (by omega)⟩
    | map entries =>
      exact ⟨h.1, h.2.1, fun entry hentry =>
        ⟨(h.2.2 entry hentry).1, ih (h.2.2 entry hentry).2 (by omega)⟩⟩
    | uint | nint | bytes | text | bool | null | float => exact h

/-! ## Encodings are prefix-free -/

/-- The width of the argument bytes, from the additional information. -/
def argumentLength (info : UInt8) : Nat :=
  if info = 24 then 1 else if info = 25 then 2 else if info = 26 then 4 else if info = 27 then 8
  else 0

/-- A shortest head tells the width and the value of its argument. -/
theorem shortest_argument (n : UInt64) :
    (shortestArgument n).length = argumentLength (shortestInfo n)
      ∧ n.toNat = if shortestInfo n < 24 then (shortestInfo n).toNat
        else ofBeBytes (shortestArgument n) := by
  have hback : ∀ w : Nat, n.toNat < 256 ^ w → n.toNat = ofBeBytes (beBytes w n.toNat) := by
    intro w hw
    rw [ofBeBytes_beBytes, Nat.mod_eq_of_lt hw]
  have hn := n.toNat_lt
  unfold shortestInfo shortestArgument
  simp only [UInt64.le_iff_toNat_le, UInt64.reduceToNat]
  -- a number up to 23 stands in the head itself
  by_cases h23 : n.toNat ≤ 23
  · have hinfo : n.toUInt8.toNat = n.toNat := by
      rw [UInt64.toNat_toUInt8]
      omega
    have hne : ∀ info : UInt8, 23 < info.toNat → n.toUInt8 ≠ info := by
      rintro info hgt rfl
      omega
    have hlt : n.toUInt8 < 24 := by
      rw [UInt8.lt_iff_toNat_lt, hinfo]
      simp only [UInt8.reduceToNat]
      omega
    simp only [if_pos h23, if_pos hlt, hinfo, argumentLength, hne 24 (by decide),
      hne 25 (by decide), hne 26 (by decide), hne 27 (by decide), if_false, List.length_nil,
      and_self]
  -- any other is in the fewest bytes that hold it
  · by_cases h255 : n.toNat ≤ 255
    · simp only [if_neg h23, if_pos h255, length_beBytes]
      exact ⟨by decide, hback 1 (by omega)⟩
    · by_cases h65535 : n.toNat ≤ 65535
      · simp only [if_neg h23, if_neg h255, if_pos h65535, length_beBytes]
        exact ⟨by decide, hback 2 (by omega)⟩
      · by_cases h32 : n.toNat ≤ 4294967295
        · simp only [if_neg h23, if_neg h255, if_neg h65535, if_pos h32, length_beBytes]
          exact ⟨by decide, hback 4 (by omega)⟩
        · simp only [if_neg h23, if_neg h255, if_neg h65535, if_neg h32, length_beBytes]
          exact ⟨by decide, hback 8 (by omega)⟩

/-- A head can be told from what follows it. -/
theorem head_append_inj {major major' : UInt8} {n n' : UInt64} {x y : Bytes} (hmajor : major < 8)
    (hmajor' : major' < 8) (h : head major n ++ x = head major' n' ++ y) :
    major = major' ∧ n = n' ∧ x = y := by
  rw [head_eq_cons, head_eq_cons, List.cons_append, List.cons_append, List.cons.injEq] at h
  obtain ⟨hinitial, hrest⟩ := h
  have hinfo : ∀ n : UInt64, shortestInfo n < 32 := fun n =>
    UInt8.lt_trans (shortestInfo_lt n) (by decide)
  obtain ⟨hfield, hadd⟩ := initial_fields hmajor (hinfo n)
  obtain ⟨hfield', hadd'⟩ := initial_fields hmajor' (hinfo n')
  rw [hinitial, hfield'] at hfield
  rw [hinitial, hadd'] at hadd
  obtain ⟨hlen, hvalue⟩ := shortest_argument n
  obtain ⟨hlen', hvalue'⟩ := shortest_argument n'
  obtain ⟨harg, hxy⟩ := List.append_inj hrest (by rw [hlen, hlen', hadd])
  refine ⟨hfield.symm, UInt64.toNat_inj.mp ?_, hxy⟩
  rw [hvalue, hvalue', hadd, harg]

/-- A length at the start. -/
theorem count_of_lengthHead {major : UInt8} {k k' : Nat} {x y : Bytes} (hmajor : major < 8)
    (hk : k < 2 ^ 64) (hk' : k' < 2 ^ 64) (h : lengthHead major k ++ x = lengthHead major k' ++ y) :
    k = k' ∧ x = y := by
  obtain ⟨-, hcount, hrest⟩ := head_append_inj hmajor hmajor h
  rw [← UInt64.toNat_ofNat_of_lt64 hk, ← UInt64.toNat_ofNat_of_lt64 hk', hcount]
  exact ⟨rfl, hrest⟩

/-- A string behind its length. -/
theorem lengthHead_append_inj {major : UInt8} {a b x y : Bytes} (hmajor : major < 8)
    (ha : a.length < 2 ^ 64) (hb : b.length < 2 ^ 64)
    (h : lengthHead major a.length ++ a ++ x = lengthHead major b.length ++ b ++ y) :
    a = b ∧ x = y := by
  rw [List.append_assoc, List.append_assoc] at h
  obtain ⟨hlen, hrest⟩ := count_of_lengthHead hmajor ha hb h
  exact List.append_inj hrest hlen

/-- A text can be told from what follows it. -/
theorem encodeText_append_inj {a b : String} {x y : Bytes} (ha : (utf8Bytes a).length < 2 ^ 64)
    (hb : (utf8Bytes b).length < 2 ^ 64) (h : encodeText a ++ x = encodeText b ++ y) :
    a = b ∧ x = y := by
  obtain ⟨hbytes, hrest⟩ := lengthHead_append_inj (by decide) ha hb h
  refine ⟨?_, hrest⟩
  have := congrArg ofUtf8? hbytes
  simpa using this

/-- The major type of an item. -/
def Item.major : Item → UInt8
  | .uint _ => 0
  | .nint _ => 1
  | .bytes _ => 2
  | .text _ => 3
  | .array _ => 4
  | .map _ => 5
  | .bool _ | .null | .float _ => 7

/-- The initial byte of an item tells its major type. -/
theorem Item.exists_initial (item : Item) :
    ∃ initial rest, item.encode = initial :: rest ∧ initial >>> 5 = item.major := by
  have hhead : ∀ (major : UInt8) (n : UInt64), major < 8 →
      ((major <<< 5) ||| shortestInfo n) >>> 5 = major := fun major n hmajor =>
    (initial_fields hmajor (UInt8.lt_trans (shortestInfo_lt n) (by decide))).1
  cases item with
  | uint n => exact ⟨_, _, head_eq_cons 0 n, hhead 0 n (by decide)⟩
  | nint n => exact ⟨_, _, head_eq_cons 1 n, hhead 1 n (by decide)⟩
  | bytes b =>
    exact ⟨_, _, by rw [Item.encode, lengthHead, head_eq_cons]; rfl, hhead 2 _ (by decide)⟩
  | text s =>
    exact ⟨_, _, by rw [Item.encode, encodeText, lengthHead, head_eq_cons]; rfl,
      hhead 3 _ (by decide)⟩
  | array items =>
    exact ⟨_, _, by rw [Item.encode, lengthHead, head_eq_cons]; rfl, hhead 4 _ (by decide)⟩
  | map entries =>
    exact ⟨_, _, by rw [Item.encode, lengthHead, head_eq_cons]; rfl, hhead 5 _ (by decide)⟩
  | bool b => cases b <;> exact ⟨_, [], rfl, by decide⟩
  | null => exact ⟨_, [], rfl, by decide⟩
  | float f => cases f <;> exact ⟨_, _, rfl, rfl⟩

/-- The first byte names the major type. -/
theorem Item.major_eq_of_append {a b : Item} {x y : Bytes} (h : a.encode ++ x = b.encode ++ y) :
    a.major = b.major := by
  obtain ⟨initial, rest, ha, hmajor⟩ := a.exists_initial
  obtain ⟨initial', rest', hb, hmajor'⟩ := b.exists_initial
  rw [ha, hb, List.cons_append, List.cons_append, List.cons.injEq] at h
  rw [← hmajor, ← hmajor', h.1]

/-- Items none of which is a prefix of another are told apart in a row. -/
def PrefixFree (P : Item → Prop) : Prop :=
  ∀ ⦃a b : Item⦄ ⦃x y : Bytes⦄, P a → P b → a.encode ++ x = b.encode ++ y → a = b ∧ x = y

/-- Items of a prefix-free family can be told apart in a row. -/
theorem encodeItems_append_inj {P : Item → Prop} (hP : PrefixFree P) {items items' : List Item}
    {x y : Bytes} (hlen : items.length = items'.length) (ha : ∀ item ∈ items, P item)
    (hb : ∀ item ∈ items', P item) (h : encodeItems items ++ x = encodeItems items' ++ y) :
    items = items' ∧ x = y := by
  induction items generalizing items' with
  | nil =>
    obtain rfl : items' = [] := List.length_eq_zero_iff.mp hlen.symm
    exact ⟨rfl, h⟩
  | cons item items ih =>
    cases items' with
    | nil => simp at hlen
    | cons item' items' =>
      obtain ⟨hitem, hitems⟩ := List.forall_mem_cons.mp ha
      obtain ⟨hitem', hitems'⟩ := List.forall_mem_cons.mp hb
      simp only [encodeItems, List.append_assoc] at h
      obtain ⟨rfl, hrest⟩ := hP hitem hitem' h
      obtain ⟨rfl, hxy⟩ := ih (by simpa using hlen) hitems hitems' hrest
      exact ⟨rfl, hxy⟩

/-- Entries of a prefix-free family can be told apart in a row. -/
theorem encodeEntries_append_inj {P : Item → Prop} (hP : PrefixFree P)
    {entries entries' : List (String × Item)} {x y : Bytes}
    (hlen : entries.length = entries'.length)
    (ha : ∀ entry ∈ entries, (utf8Bytes entry.1).length < 2 ^ 64 ∧ P entry.2)
    (hb : ∀ entry ∈ entries', (utf8Bytes entry.1).length < 2 ^ 64 ∧ P entry.2)
    (h : encodeEntries entries ++ x = encodeEntries entries' ++ y) :
    entries = entries' ∧ x = y := by
  induction entries generalizing entries' with
  | nil =>
    obtain rfl : entries' = [] := List.length_eq_zero_iff.mp hlen.symm
    exact ⟨rfl, h⟩
  | cons entry entries ih =>
    cases entries' with
    | nil => simp at hlen
    | cons entry' entries' =>
      obtain ⟨key, item⟩ := entry
      obtain ⟨key', item'⟩ := entry'
      obtain ⟨⟨hkey, hitem⟩, hentries⟩ := List.forall_mem_cons.mp ha
      obtain ⟨⟨hkey', hitem'⟩, hentries'⟩ := List.forall_mem_cons.mp hb
      simp only [encodeEntries, List.append_assoc] at h
      obtain ⟨rfl, hafterKey⟩ := encodeText_append_inj hkey hkey' h
      obtain ⟨rfl, hrest⟩ := hP hitem hitem' hafterKey
      obtain ⟨rfl, hxy⟩ := ih (by simpa using hlen) hentries hentries' hrest
      exact ⟨rfl, hxy⟩

/-- A float can be told from what follows it. -/
theorem FloatLit.encode_append_inj {f g : FloatLit} {x y : Bytes}
    (h : f.encode ++ x = g.encode ++ y) : f = g ∧ x = y := by
  have hbits : ∀ w a b : Nat, a < 256 ^ w → b < 256 ^ w →
      beBytes w a ++ x = beBytes w b ++ y → a = b ∧ x = y := by
    intro w a b ha hb h
    obtain ⟨hbytes, hxy⟩ := List.append_inj h (by simp)
    have hvalue := congrArg ofBeBytes hbytes
    rw [ofBeBytes_beBytes, ofBeBytes_beBytes, Nat.mod_eq_of_lt ha, Nat.mod_eq_of_lt hb] at hvalue
    exact ⟨hvalue, hxy⟩
  cases f with
  | half a =>
    cases g with
    | half b =>
      obtain ⟨hab, hxy⟩ := hbits 2 _ _ a.toNat_lt b.toNat_lt (List.cons.inj h).2
      exact ⟨congrArg half (UInt16.toNat_inj.mp hab), hxy⟩
    | single b => exact absurd (List.cons.inj h).1 (by decide)
    | double b => exact absurd (List.cons.inj h).1 (by decide)
  | single a =>
    cases g with
    | half b => exact absurd (List.cons.inj h).1 (by decide)
    | single b =>
      obtain ⟨hab, hxy⟩ := hbits 4 _ _ a.toNat_lt b.toNat_lt (List.cons.inj h).2
      exact ⟨congrArg single (UInt32.toNat_inj.mp hab), hxy⟩
    | double b => exact absurd (List.cons.inj h).1 (by decide)
  | double a =>
    cases g with
    | half b => exact absurd (List.cons.inj h).1 (by decide)
    | single b => exact absurd (List.cons.inj h).1 (by decide)
    | double b =>
      obtain ⟨hab, hxy⟩ := hbits 8 _ _ a.toNat_lt b.toNat_lt (List.cons.inj h).2
      exact ⟨congrArg double (UInt64.toNat_inj.mp hab), hxy⟩

/-- The items of major type 7, by their bytes. -/
theorem simple_append_inj {a b : Item} {x y : Bytes} (ha : a.major = 7) (hb : b.major = 7)
    (h : a.encode ++ x = b.encode ++ y) : a = b ∧ x = y := by
  -- a float starts with a byte above those of the other simple values
  have hfloat : ∀ (f : FloatLit) (z : Bytes), (f.encode ++ z).head?.any (0xf9 ≤ ·) = true := by
    intro f z
    cases f <;> rfl
  have hother : ∀ (byte : UInt8) (f : FloatLit) (z z' : Bytes), byte < 0xf9 →
      byte :: z ≠ f.encode ++ z' := by
    intro byte f z z' hlt heq
    have hge := hfloat f z'
    rw [← heq] at hge
    simp only [List.head?_cons, Option.any_some, decide_eq_true_eq] at hge
    exact absurd hlt (UInt8.not_lt.mpr hge)
  cases a with
  | uint | nint | bytes | text | array | map => exact absurd ha (by simp [Item.major])
  | bool p =>
    cases b with
    | uint | nint | bytes | text | array | map => exact absurd hb (by simp [Item.major])
    | bool q => cases p <;> cases q <;> simp_all [Item.encode]
    | null => cases p <;> simp [Item.encode] at h
    | float g => cases p <;> exact absurd h (hother _ g x y (by decide))
  | null =>
    cases b with
    | uint | nint | bytes | text | array | map => exact absurd hb (by simp [Item.major])
    | bool q => cases q <;> simp [Item.encode] at h
    | null => exact ⟨rfl, (List.cons.inj h).2⟩
    | float g => exact absurd h (hother _ g x y (by decide))
  | float f =>
    cases b with
    | uint | nint | bytes | text | array | map => exact absurd hb (by simp [Item.major])
    | bool q => cases q <;> exact absurd h.symm (hother _ f y x (by decide))
    | null => exact absurd h.symm (hother _ f y x (by decide))
    | float g =>
      obtain ⟨rfl, hxy⟩ := FloatLit.encode_append_inj h
      exact ⟨rfl, hxy⟩

/-- Items with short strings and collections are prefix-free when their parts are. -/
theorem prefixFree_of_parts {P Q : Item → Prop} (hP : PrefixFree P)
    (hbytes : ∀ s, Q (.bytes s) → s.length < 2 ^ 64)
    (htext : ∀ s, Q (.text s) → (utf8Bytes s).length < 2 ^ 64)
    (harray : ∀ items, Q (.array items) → items.length < 2 ^ 64 ∧ ∀ item ∈ items, P item)
    (hmap : ∀ entries, Q (.map entries) → entries.length < 2 ^ 64
      ∧ ∀ entry ∈ entries, (utf8Bytes entry.1).length < 2 ^ 64 ∧ P entry.2) : PrefixFree Q := by
  intro a b x y ha hb h
  -- the first byte tells the kinds apart
  have hmajor := Item.major_eq_of_append h
  cases a with
  -- an integer is its head
  | uint w =>
    cases b with
    | uint w' =>
      obtain ⟨-, rfl, hxy⟩ := head_append_inj (by decide) (by decide) h
      exact ⟨rfl, hxy⟩
    | _ => exact absurd hmajor (by simp [Item.major])
  | nint w =>
    cases b with
    | nint w' =>
      obtain ⟨-, rfl, hxy⟩ := head_append_inj (by decide) (by decide) h
      exact ⟨rfl, hxy⟩
    | _ => exact absurd hmajor (by simp [Item.major])
  -- a string is read by its length
  | bytes s =>
    cases b with
    | bytes s' =>
      obtain ⟨rfl, hxy⟩ :=
        lengthHead_append_inj (by decide) (hbytes _ ha) (hbytes _ hb) h
      exact ⟨rfl, hxy⟩
    | _ => exact absurd hmajor (by simp [Item.major])
  | text s =>
    cases b with
    | text s' =>
      obtain ⟨rfl, hxy⟩ := encodeText_append_inj (htext _ ha) (htext _ hb) h
      exact ⟨rfl, hxy⟩
    | _ => exact absurd hmajor (by simp [Item.major])
  -- a collection has as many members as its head says, and these can be told apart in a row
  | array items =>
    cases b with
    | array items' =>
      obtain ⟨hlen, hitems⟩ := harray _ ha
      obtain ⟨hlen', hitems'⟩ := harray _ hb
      simp only [Item.encode, List.append_assoc] at h
      obtain ⟨heq, hrest⟩ := count_of_lengthHead (by decide) hlen hlen' h
      obtain ⟨rfl, hxy⟩ := encodeItems_append_inj hP heq hitems hitems' hrest
      exact ⟨rfl, hxy⟩
    | _ => exact absurd hmajor (by simp [Item.major])
  | map entries =>
    cases b with
    | map entries' =>
      obtain ⟨hlen, hentries⟩ := hmap _ ha
      obtain ⟨hlen', hentries'⟩ := hmap _ hb
      simp only [Item.encode, List.append_assoc] at h
      obtain ⟨heq, hrest⟩ := count_of_lengthHead (by decide) hlen hlen' h
      obtain ⟨rfl, hxy⟩ := encodeEntries_append_inj hP heq hentries hentries' hrest
      exact ⟨rfl, hxy⟩
    | _ => exact absurd hmajor (by simp [Item.major])
  -- a simple value is read by its head
  | bool | null | float => exact simple_append_inj rfl hmajor.symm h

/-- Strings and collections of fewer than `2^64` elements, whose parts have a property. -/
def Item.Over (P : Item → Prop) : Item → Prop
  | .bytes s => s.length < 2 ^ 64
  | .text s => (utf8Bytes s).length < 2 ^ 64
  | .array items => items.length < 2 ^ 64 ∧ ∀ item ∈ items, P item
  | .map entries =>
    entries.length < 2 ^ 64 ∧ ∀ entry ∈ entries, (utf8Bytes entry.1).length < 2 ^ 64 ∧ P entry.2
  | .uint _ | .nint _ | .bool _ | .null | .float _ => True

/-- Items that nest at most that many levels below the root, whatever the widths of their floats. -/
def Item.Sized : Nat → Item → Prop
  | 0 => Item.Over fun _ => False
  | n + 1 => Item.Over (Item.Sized n)

/-- One level above a prefix-free family there is another. -/
theorem PrefixFree.over {P : Item → Prop} (hP : PrefixFree P) : PrefixFree (Item.Over P) :=
  prefixFree_of_parts hP (fun _ h => h) (fun _ h => h) (fun _ h => h) fun _ h => h

/-- Items whose lengths fit their heads are prefix-free, at every depth. -/
theorem prefixFree_sized (n : Nat) : PrefixFree (Item.Sized n) := by
  induction n with
  | zero =>
    have hnone : PrefixFree fun _ => False := fun _ _ _ _ h => h.elim
    exact hnone.over
  | succ n ih => exact ih.over

/-- Deterministic encodings are prefix-free. -/
theorem prefixFree_deterministic (n : Nat) : PrefixFree (Item.Deterministic n) := by
  induction n with
  | zero =>
    have hnone : PrefixFree fun _ => False := fun _ _ _ _ h => h.elim
    refine prefixFree_of_parts hnone (fun s h => h) (fun s h => h) (fun items h => ?_)
      fun entries h => ?_
    · rw [show items = [] from h]
      simp
    · rw [show entries = [] from h]
      simp
  | succ n ih =>
    refine prefixFree_of_parts ih (fun s h => h) (fun s h => h) (fun items h => h)
      fun entries h => ⟨?_, h.2.2⟩
    have hlen := h.1
    omega

/-! ## One deterministic item per value -/

/-- The two items denote one value: floats are compared by value, arrays by position, maps by
key. -/
inductive Item.Same : Item → Item → Prop where
  | refl (item : Item) : Item.Same item item
  | float {f g : FloatLit} (h : f.value = g.value) : Item.Same (.float f) (.float g)
  | array {items items' : List Item} (hlen : items.length = items'.length)
      (h : ∀ (i : Nat) item item', items[i]? = some item → items'[i]? = some item' →
        Item.Same item item') :
      Item.Same (.array items) (.array items')
  | map {entries entries' : List (String × Item)}
      (hkeys : (entries.map Prod.fst).Perm (entries'.map Prod.fst))
      (h : ∀ key item item', (key, item) ∈ entries → (key, item') ∈ entries' →
        Item.Same item item') :
      Item.Same (.map entries) (.map entries')

/-- A value has one shortest float. -/
theorem FloatLit.Shortest.eq_of_value_eq {f g : FloatLit} (hf : f.Shortest) (hg : g.Shortest)
    (h : f.value = g.value) : f = g := by
  cases f with
  | half a =>
    cases g with
    | half b =>
      rw [UInt16.toNat_inj.mp (widen_injective widens_half hf hg h)]
    | single b => exact absurd h (hg.2 a hf)
    | double b => exact absurd h (hg.2.1 a hf)
  | single a =>
    cases g with
    | half b => exact absurd h.symm (hf.2 b hg)
    | single b =>
      rw [UInt32.toNat_inj.mp (widen_injective widens_single hf.1 hg.1 h)]
    | double b => exact absurd h (hg.2.2 a hf.1)
  | double a =>
    cases g with
    | half b => exact absurd h.symm (hf.2.1 b hg)
    | single b => exact absurd h.symm (hf.2.2 b hg.1)
    | double b => rw [UInt64.toNat_inj.mp h]

/-- A value has one deterministic item, hence one deterministic encoding. -/
theorem Item.Deterministic.eq_of_same {n : Nat} {a b : Item} (ha : a.Deterministic n)
    (hb : b.Deterministic n) (h : Item.Same a b) : a = b := by
  induction n generalizing a b with
  | zero =>
    cases h with
    | refl => rfl
    | float h => rw [FloatLit.Shortest.eq_of_value_eq ha hb h]
    | array => rw [show _ = [] from ha, show _ = [] from hb]
    | map => rw [show _ = [] from ha, show _ = [] from hb]
  | succ n ih =>
    cases h with
    | refl => rfl
    | float h => rw [FloatLit.Shortest.eq_of_value_eq ha hb h]
    | @array items items' hlen h =>
      obtain ⟨-, ha⟩ := ha
      obtain ⟨-, hb⟩ := hb
      congr 1
      refine List.ext_getElem hlen fun i hi hi' => ?_
      exact ih (ha _ (List.getElem_mem hi)) (hb _ (List.getElem_mem hi'))
        (h i _ _ (List.getElem?_eq_getElem hi) (List.getElem?_eq_getElem hi'))
    | @map entries entries' hkeys h =>
      obtain ⟨-, hsorted, ha⟩ := ha
      obtain ⟨-, hsorted', hb⟩ := hb
      -- the keys are in one order, so the entries correspond by position
      have hkeys : entries.map Prod.fst = entries'.map Prod.fst :=
        hkeys.eq_of_pairwise
          (fun a b _ _ hab hba => absurd (hab.trans hba) (KeyLt.irrefl a)) hsorted hsorted'
      have hlen : entries.length = entries'.length := by
        simpa using congrArg List.length hkeys
      congr 1
      refine List.ext_getElem hlen fun i hi hi' => ?_
      have hkey : (entries[i]).1 = (entries'[i]).1 := by
        have := List.getElem_of_eq hkeys (i := i) (by simpa using hi)
        simpa using this
      have hmem : ((entries[i]).1, (entries[i]).2) ∈ entries := List.getElem_mem hi
      have hmem' : ((entries[i]).1, (entries'[i]).2) ∈ entries' := by
        rw [hkey]
        exact List.getElem_mem hi'
      have hitem := ih (ha _ hmem).2 (hb _ hmem').2 (h _ _ _ hmem hmem')
      exact Prod.ext hkey hitem

end DetCbor
