import TrackOne.Vtl.Record
import TrackOne.Vtl.SegmentDecode

/-!
# The permissive profile reader

`decode_segment_profile_id` of `trackone-ledger/src/vtl.rs`: a second, laxer CBOR reader that finds
the text of one top-level map member without validating the rest of the artifact. The verifier
echoes what it finds next to an unrelated artifact error.

As in `Vtl.Cbor` the readers take the input from the source's position on and return the rest of it.
They never look behind the input they are given, so a length beyond the end is a failed take.

* `parseCborValue_sound`: what the strict parser accepts is a deterministic encoding of the value it
  returns.
* `extractTextMapMember_encode`: on such a map the permissive reader finds exactly the text members,
  as it skips every deterministic item (`skipPermissiveItem_encode`).
* `skipPermissiveItem_advances` and `findTextMember_of_length_lt`: on any bytes at all it only moves
  forward inside the input, so that no announced length makes a loop longer than the input.
-/

namespace TrackOne

open DetCbor

/-! ## Heads and texts -/

/-- The next `width` bytes and the rest, when there are so many. -/
def takePermissive (width : Nat) (input : Bytes) : Option (Bytes × Bytes) :=
  if width ≤ input.length then some (input.take width, input.drop width) else none

/-- The argument part of `read_permissive_head`. Unlike `readCborArgument` it does not ask for the
shortest form. -/
def readPermissiveArgument (input : Bytes) (ai : UInt8) : Option (UInt64 × Bytes) :=
  let wide (width : Nat) := do
    let (part, rest) ← takePermissive width input
    some (UInt64.ofNat (ofBeBytes part), rest)
  if ai ≤ 23 then some (ai.toUInt64, input)
  else if ai = 24 then wide 1
  else if ai = 25 then wide 2
  else if ai = 26 then wide 4
  else if ai = 27 then wide 8
  else none

/-- `read_permissive_head`: the major type, the argument and the rest. -/
def readPermissiveHead : Bytes → Option (UInt8 × UInt64 × Bytes)
  | [] => none
  | initial :: input => do
    let (argument, rest) ← readPermissiveArgument input (initial &&& 0x1f)
    some (initial >>> 5, argument, rest)

def readPermissiveText (input : Bytes) : Option (String × Bytes) := do
  let (major, length, rest) ← readPermissiveHead input
  if major = 3 then
    let (part, rest) ← takePermissive length.toNat rest
    let text ← ofUtf8? part
    some (text, rest)
  else none

/-! ## Skipping -/

/-- `try_for_each` over a counter: the step that many times, one rest after another. -/
def skipTimes (skip : Bytes → Option Bytes) : Nat → Bytes → Option Bytes
  | 0, input => some input
  | count + 1, input => do
    let rest ← skip input
    skipTimes skip count rest

/-- The match of `skip_permissive_item` on the major type, with `skip` for the items one level
below. -/
def skipContent (skip : Bytes → Option Bytes) (major : UInt8) (length : UInt64) (input : Bytes) :
    Option Bytes :=
  if major = 0 ∨ major = 1 ∨ major = 7 then some input
  else if major = 2 ∨ major = 3 then do
    let (_, rest) ← takePermissive length.toNat input
    some rest
  else if major = 4 then skipTimes skip length.toNat input
  else if major = 5 then
    skipTimes (fun input => do
      let rest ← skip input
      skip rest) length.toNat input
  else if major = 6 then skip input
  else none

/-- `skip_permissive_item`, on the number of levels left: an item at depth
`MAX_CBOR_NESTING_DEPTH` is the last one read. -/
def skipPermissiveItem : Nat → Bytes → Option Bytes
  | 0, _ => none
  | levels + 1, input => do
    let (major, length, rest) ← readPermissiveHead input
    skipContent (skipPermissiveItem levels) major length rest

/-! ## The member -/

/-- The loop of `extract_text_map_member` over the entries: the first entry with the key decides. -/
def findTextMember (member : String) : Nat → Bytes → Option String
  | 0, _ => none
  | entries + 1, input => do
    let (key, rest) ← readPermissiveText input
    if key = member then
      let (text, _) ← readPermissiveText rest
      some text
    else
      let rest ← skipPermissiveItem rootLevels rest
      findTextMember member entries rest

def extractTextMapMember (bytes : Bytes) (member : String) : Option String := do
  let (major, entries, rest) ← readPermissiveHead bytes
  if major = 5 then findTextMember member entries.toNat rest else none

def decodeSegmentProfileId (bytes : Bytes) : DecodeResult String :=
  Except.ofOption (.missingField "commitment_profile_id")
    (extractTextMapMember bytes "commitment_profile_id")

/-! ## Deterministic input -/

/-- Where the strict reader finds an argument, the permissive one finds it too. -/
theorem readPermissiveArgument_of_ok {input rest : Bytes} {ai : UInt8} {n : UInt64}
    (h : readCborArgument input ai = .ok (n, rest)) :
    readPermissiveArgument input ai = some (n, rest) := by
  have hwide : ∀ {width shorterMax}, readWideArgument width shorterMax input = .ok (n, rest) →
      (do
        let (part, rest) ← takePermissive width input
        some (UInt64.ofNat (ofBeBytes part), rest)) = some (n, rest) := by
    intro width shorterMax hread
    unfold readWideArgument at hread
    obtain ⟨⟨part, rest'⟩, htake, hread⟩ := Except.bind_eq_ok.mp hread
    dsimp only at hread
    split_ifs at hread with hshort
    · cases hread
    · cases hread
      unfold takeBytes at htake
      unfold takePermissive
      split_ifs at htake ⊢ with hlength
      cases htake
      rfl
  unfold readCborArgument at h
  unfold readPermissiveArgument
  dsimp only
  split_ifs at h ⊢
  · cases h
    rfl
  · exact hwide h
  · exact hwide h
  · exact hwide h
  · exact hwide h

theorem readPermissiveHead_head {major : UInt8} (hmajor : major < 8) (n : UInt64) (rest : Bytes) :
    readPermissiveHead (DetCbor.head major n ++ rest) = some (major, n, rest) := by
  obtain ⟨hfield, hinfo⟩ := initial_fields hmajor
    (UInt8.lt_trans (shortestInfo_lt n) (by decide : (28 : UInt8) < 32))
  have hread : readPermissiveArgument (shortestArgument n ++ rest) (shortestInfo n)
      = some (n, rest) := readPermissiveArgument_of_ok (readCborArgument_eq_ok.mpr ⟨rfl, rfl⟩)
  rw [head_eq_cons, List.cons_append, readPermissiveHead, hfield, hinfo, hread]
  rfl

theorem takePermissive_append (part rest : Bytes) :
    takePermissive part.length (part ++ rest) = some (part, rest) := by
  simp [takePermissive]

theorem readPermissiveText_encodeText {s : String} (hlen : (utf8Bytes s).length < 2 ^ 64)
    (rest : Bytes) : readPermissiveText (encodeText s ++ rest) = some (s, rest) := by
  unfold readPermissiveText encodeText lengthHead
  rw [List.append_assoc, readPermissiveHead_head (by decide)]
  simp [UInt64.toNat_ofNat_of_lt64 hlen, takePermissive_append]

/-- The reader skips the item, whatever follows it. -/
def Skips (skip : Bytes → Option Bytes) (item : Item) : Prop :=
  ∀ rest, skip (item.encode ++ rest) = some rest

theorem skipTimes_encodeItems {skip : Bytes → Option Bytes} {items : List Item}
    (h : ∀ item ∈ items, Skips skip item) (rest : Bytes) :
    skipTimes skip items.length (encodeItems items ++ rest) = some rest := by
  induction items with
  | nil => rfl
  | cons item items ih =>
    rw [List.forall_mem_cons] at h
    rw [encodeItems, List.append_assoc, List.length_cons, skipTimes, h.1]
    exact ih h.2

theorem skipTimes_encodeEntries {skip : Bytes → Option Bytes} {entries : List (String × Item)}
    (h : ∀ entry ∈ entries, Skips skip (.text entry.1) ∧ Skips skip entry.2) (rest : Bytes) :
    skipTimes (fun input => do
      let rest ← skip input
      skip rest) entries.length (encodeEntries entries ++ rest) = some rest := by
  induction entries with
  | nil => rfl
  | cons entry entries ih =>
    rw [List.forall_mem_cons] at h
    have hkey := h.1.1 (entry.2.encode ++ (encodeEntries entries ++ rest))
    rw [Item.encode] at hkey
    rw [encodeEntries, List.append_assoc, List.append_assoc, List.length_cons, skipTimes, hkey]
    simp only [Option.bind_eq_bind, Option.bind_some, h.1.2 (encodeEntries entries ++ rest)]
    exact ih h.2

theorem skips_of_content {levels : Nat} {item : Item} (major : UInt8) (n : UInt64) (body : Bytes)
    (hmajor : major < 8) (hencode : item.encode = DetCbor.head major n ++ body)
    (hcontent : ∀ rest, skipContent (skipPermissiveItem levels) major n (body ++ rest)
      = some rest) :
    Skips (skipPermissiveItem (levels + 1)) item := by
  intro rest
  rw [hencode, List.append_assoc, skipPermissiveItem, readPermissiveHead_head hmajor]
  exact hcontent rest

theorem skips_string {levels : Nat} {item : Item} {body : Bytes} (major : UInt8)
    (hmajor : major = 2 ∨ major = 3) (hlen : body.length < 2 ^ 64)
    (hencode : item.encode = lengthHead major body.length ++ body) :
    Skips (skipPermissiveItem (levels + 1)) item := by
  refine skips_of_content major (UInt64.ofNat body.length) body ?_ hencode ?_
  · rcases hmajor with rfl | rfl <;> decide
  · intro rest
    rcases hmajor with rfl | rfl <;>
      simp [skipContent, UInt64.toNat_ofNat_of_lt64 hlen, takePermissive_append]

theorem skips_array {levels : Nat} {items : List Item} (hlen : items.length < 2 ^ 64)
    (h : ∀ item ∈ items, Skips (skipPermissiveItem levels) item) :
    Skips (skipPermissiveItem (levels + 1)) (.array items) := by
  refine skips_of_content 4 (UInt64.ofNat items.length) (encodeItems items) (by decide) rfl ?_
  intro rest
  simpa [skipContent, UInt64.toNat_ofNat_of_lt64 hlen] using skipTimes_encodeItems h rest

theorem skips_map {levels : Nat} {entries : List (String × Item)} (hlen : entries.length < 2 ^ 64)
    (h : ∀ entry ∈ entries, Skips (skipPermissiveItem levels) (.text entry.1)
      ∧ Skips (skipPermissiveItem levels) entry.2) :
    Skips (skipPermissiveItem (levels + 1)) (.map entries) := by
  refine skips_of_content 5 (UInt64.ofNat entries.length) (encodeEntries entries) (by decide) rfl ?_
  intro rest
  simpa [skipContent, UInt64.toNat_ofNat_of_lt64 hlen] using skipTimes_encodeEntries h rest

/-- Every deterministic value that is nested within the levels is skipped. -/
theorem skipPermissiveItem_encode {n levels : Nat} {value : CborValue} (hlevels : n < levels)
    (hdet : value.toItem.Deterministic n) :
    Skips (skipPermissiveItem levels) value.toItem := by
  induction n generalizing levels value with
  -- no container is left: an array or a map is empty
  | zero =>
    obtain ⟨levels, rfl⟩ : ∃ l, levels = l + 1 := ⟨levels - 1, by omega⟩
    cases value with
    | uint n =>
      exact skips_of_content 0 n [] (by decide) (by simp [CborValue.toItem, Item.encode])
        fun rest => rfl
    | bytes b => exact skips_string 2 (.inl rfl) hdet rfl
    | text s => exact skips_string 3 (.inr rfl) hdet rfl
    | array items =>
      rw [CborValue.toItem, Item.Deterministic] at hdet
      rw [CborValue.toItem, hdet]
      exact skips_array (by simp) (by simp)
    | map entries =>
      rw [CborValue.toItem, Item.Deterministic] at hdet
      rw [CborValue.toItem, hdet]
      exact skips_map (by simp) (by simp)
    | null => exact skips_of_content 7 22 [] (by decide) (by decide) fun rest => rfl
  -- the items and the members are one level further in
  | succ n ih =>
    obtain ⟨levels, rfl⟩ : ∃ l, levels = l + 1 := ⟨levels - 1, by omega⟩
    cases value with
    | uint n =>
      exact skips_of_content 0 n [] (by decide) (by simp [CborValue.toItem, Item.encode])
        fun rest => rfl
    | bytes b => exact skips_string 2 (.inl rfl) hdet rfl
    | text s => exact skips_string 3 (.inr rfl) hdet rfl
    | array items =>
      rw [CborValue.toItem, Item.Deterministic, toItems_eq_map] at hdet
      rw [CborValue.toItem, toItems_eq_map]
      refine skips_array hdet.1 ?_
      rw [List.forall_mem_map] at hdet ⊢
      exact fun item hitem => ih (by omega) (hdet.2 item hitem)
    | map entries =>
      rw [CborValue.toItem, Item.Deterministic, toEntries_eq_map] at hdet
      obtain ⟨hlen, -, hentries⟩ := hdet
      rw [CborValue.toItem, toEntries_eq_map]
      rw [List.forall_mem_map] at hentries
      refine skips_map (by omega) ?_
      rw [List.forall_mem_map]
      intro entry hentry
      obtain ⟨l, rfl⟩ : ∃ l, levels = l + 1 := ⟨levels - 1, by omega⟩
      exact ⟨skips_string 3 (.inr rfl) (hentries entry hentry).1 rfl,
        ih (by omega) (hentries entry hentry).2⟩
    | null => exact skips_of_content 7 22 [] (by decide) (by decide) fun rest => rfl

/-- A text is only read from a text. -/
theorem readPermissiveText_toItem {value : CborValue} {text : String} {rest rest' : Bytes}
    (h : readPermissiveText (value.toItem.encode ++ rest) = some (text, rest')) :
    ∃ found, value = .text found := by
  have hmajor : ∀ (major : UInt8) (n : UInt64) (body : Bytes), major < 8 →
      readPermissiveText (DetCbor.head major n ++ body) = some (text, rest') → major = 3 := by
    intro major n body hlt hread
    rw [readPermissiveText, readPermissiveHead_head hlt] at hread
    by_contra hne
    simp [hne] at hread
  cases value with
  | text s => exact ⟨s, rfl⟩
  | uint n => exact absurd (hmajor 0 n rest (by decide) h) (by decide)
  | null => exact absurd (hmajor 7 22 rest (by decide) h) (by decide)
  | bytes b =>
    rw [CborValue.toItem, Item.encode, lengthHead, List.append_assoc] at h
    exact absurd (hmajor 2 _ _ (by decide) h) (by decide)
  | array items =>
    rw [CborValue.toItem, Item.encode, lengthHead, List.append_assoc] at h
    exact absurd (hmajor 4 _ _ (by decide) h) (by decide)
  | map entries =>
    rw [CborValue.toItem, Item.encode, lengthHead, List.append_assoc] at h
    exact absurd (hmajor 5 _ _ (by decide) h) (by decide)

/-- The loop finds the text of a member, and nothing else, when every value can be skipped. -/
theorem findTextMember_encodeEntries {member text : String} {entries : List (String × CborValue)}
    (hkeys : ∀ entry ∈ entries, (utf8Bytes entry.1).length < 2 ^ 64)
    (hvalues : ∀ entry ∈ entries, Skips (skipPermissiveItem rootLevels) entry.2.toItem)
    (htexts : ∀ key text, (key, .text text) ∈ entries → (utf8Bytes text).length < 2 ^ 64)
    (hnodup : (entries.map Prod.fst).Nodup) (rest : Bytes) :
    findTextMember member entries.length (encodeEntries (toEntries entries) ++ rest) = some text
      ↔ (member, .text text) ∈ entries := by
  induction entries with
  | nil => simp [findTextMember]
  | cons entry entries ih =>
    rw [List.forall_mem_cons] at hkeys hvalues
    rw [List.map_cons, List.nodup_cons] at hnodup
    rw [toEntries, encodeEntries, List.append_assoc, List.append_assoc, List.length_cons,
      findTextMember, readPermissiveText_encodeText hkeys.1, List.mem_cons]
    by_cases hkey : entry.1 = member
    · -- the first entry with the key decides, and there is only one
      have hlater : (member, .text text) ∉ entries := by
        intro hmem
        exact hnodup.1 (hkey ▸ List.mem_map_of_mem hmem)
      simp only [Option.bind_eq_bind, Option.bind_some, if_pos hkey, hlater, or_false]
      constructor
      · intro h
        obtain ⟨⟨found, rest'⟩, hread, hfound⟩ := Option.bind_eq_some_iff.mp h
        obtain rfl : found = text := Option.some.inj hfound
        obtain ⟨s, hs⟩ := readPermissiveText_toItem hread
        rw [hs, CborValue.toItem, Item.encode, readPermissiveText_encodeText
          (htexts entry.1 s (by rw [← hs]; exact List.mem_cons_self))] at hread
        cases hread
        exact Prod.ext hkey.symm hs.symm
      · intro heq
        have htext := htexts member text (by rw [heq]; exact List.mem_cons_self)
        rw [← heq, CborValue.toItem, Item.encode, readPermissiveText_encodeText htext]
        rfl
    -- another key is skipped with its value
    · have hne : (member, CborValue.text text) ≠ entry := fun heq => hkey (by rw [← heq])
      simp only [Option.bind_eq_bind, Option.bind_some, if_neg hkey,
        hvalues.1 (encodeEntries (toEntries entries) ++ rest), hne, false_or]
      exact ih hkeys.2 hvalues.2
        (fun key text hmem => htexts key text (List.mem_cons_of_mem _ hmem)) hnodup.2

/-- The text members of a deterministic map are found, and only they. -/
theorem extractTextMapMember_encode {n : Nat} {member text : String}
    {entries : List (String × CborValue)} (hlevels : n < rootLevels)
    (hdet : (CborValue.map entries).toItem.Deterministic (n + 1)) :
    extractTextMapMember (CborValue.map entries).toItem.encode member = some text
      ↔ (member, .text text) ∈ entries := by
  rw [CborValue.toItem] at hdet ⊢
  obtain ⟨hlen, hsorted, hentries⟩ := hdet
  rw [toEntries_eq_map, List.forall_mem_map] at hentries
  have hvalues : ∀ entry ∈ entries, Skips (skipPermissiveItem rootLevels) entry.2.toItem :=
    fun entry hentry => skipPermissiveItem_encode hlevels (hentries entry hentry).2
  have hnodup : (entries.map Prod.fst).Nodup := by
    rw [toEntries_eq_map, List.map_map] at hsorted
    refine List.Pairwise.imp ?_ hsorted
    rintro key _ hlt rfl
    exact KeyLt.irrefl key hlt
  have htexts : ∀ key text, (key, .text text) ∈ entries → (utf8Bytes text).length < 2 ^ 64 := by
    intro key text hmem
    have hdetText := (hentries _ hmem).2
    cases n <;> exact hdetText
  have hcount : (toEntries entries).length = entries.length := by
    rw [toEntries_eq_map, List.length_map]
  have hfind := @findTextMember_encodeEntries member text entries
    (fun entry hentry => (hentries entry hentry).1) hvalues htexts hnodup []
  rw [List.append_nil] at hfind
  rw [← hfind]
  unfold extractTextMapMember
  rw [Item.encode, lengthHead, readPermissiveHead_head (by decide), hcount]
  simp [UInt64.toNat_ofNat_of_lt64 (show entries.length < 2 ^ 64 by omega)]

/-- The profile that is found in the bytes of a segment is its own. -/
theorem decodeSegmentProfileId_cborBody [Sha256] {r : SegmentRecord}
    (h : r.validateDetailed = .ok ()) :
    decodeSegmentProfileId r.cborBody = .ok r.commitmentProfileId := by
  rw [decodeSegmentProfileId, ← encode_toValue, Except.ofOption_eq_ok]
  refine (extractTextMapMember_encode (by decide) (deterministic_toValue h)).mpr ?_
  simp

/-! ## The strict parser -/

/-- The parser only returns values whose encoding within the given levels it has consumed. -/
def Parses (parse : Nat → Bytes → DecodeResult (CborValue × Nat × Bytes)) (levels : Nat) : Prop :=
  ∀ budget input value budget' rest, parse budget input = .ok (value, budget', rest) →
    WithinLevels levels value.toItem ∧ input = value.toItem.encode ++ rest

section Sound

variable {parse : Nat → Bytes → DecodeResult (CborValue × Nat × Bytes)} {levels : Nat}

theorem parseItems_sound (hparse : Parses parse levels) {count budget budget' : Nat}
    {input rest : Bytes} {items : List CborValue}
    (h : parseItems parse count budget input = .ok (items, budget', rest)) :
    items.length = count ∧ (∀ item ∈ items, WithinLevels levels item.toItem)
      ∧ input = encodeItems (toItems items) ++ rest := by
  induction count generalizing budget input items with
  | zero =>
    cases h
    exact ⟨rfl, by simp, rfl⟩
  | succ count ih =>
    simp only [parseItems, Except.bind_eq_ok, pure, Except.pure] at h
    obtain ⟨⟨item, budget₁, rest₁⟩, hitem, ⟨items', budget₂, rest₂⟩, hitems, h⟩ := h
    cases h
    obtain ⟨hwithin, rfl⟩ := hparse _ _ _ _ _ hitem
    obtain ⟨hlen, hall, rfl⟩ := ih hitems
    exact ⟨by simp [hlen], List.forall_mem_cons.mpr ⟨hwithin, hall⟩, by simp [toItems, encodeItems]⟩

theorem parseEntries_sound (hparse : Parses parse levels) {count budget budget' : Nat}
    (previous : Option String) {input rest : Bytes} {entries : List (String × CborValue)}
    (h : parseEntries parse count (previous.map encodeText) budget input
      = .ok (entries, budget', rest)) :
    entries.length = count ∧ (previous.toList ++ entries.map Prod.fst).IsChain KeyLt
      ∧ (∀ entry ∈ entries, (utf8Bytes entry.1).length < 2 ^ 64
        ∧ WithinLevels levels entry.2.toItem)
      ∧ input = encodeEntries (toEntries entries) ++ rest := by
  induction count generalizing budget input previous entries with
  | zero =>
    cases h
    refine ⟨rfl, ?_, by simp, rfl⟩
    cases previous <;> simp
  | succ count ih =>
    simp only [parseEntries, Except.bind_eq_ok] at h
    -- a key, then the order test
    obtain ⟨⟨keyValue, budget₁, rest₁⟩, hkey, h⟩ := h
    obtain ⟨hwithinKey, hinput⟩ := hparse _ _ _ _ _ hkey
    dsimp only at h hwithinKey hinput
    split_ifs at h with horder
    · cases h
    · cases keyValue with
      | text key =>
        simp only [pure, Except.pure, Except.bind_eq_ok] at h
        obtain ⟨⟨value, budget₂, rest₂⟩, hvalue, ⟨entries', budget₃, rest₃⟩, hentries, h⟩ := h
        cases h
        obtain ⟨hwithin, rfl⟩ := hparse _ _ _ _ _ hvalue
        rw [CborValue.toItem, Item.encode] at hinput
        subst hinput
        -- the raw key is what the key parser consumed
        have hraw : (encodeText key ++ (value.toItem.encode ++ rest₂)).take
            ((encodeText key ++ (value.toItem.encode ++ rest₂)).length
              - (value.toItem.encode ++ rest₂).length) = encodeText key := by
          simp
        rw [hraw] at horder hentries
        obtain ⟨hlen, hchain, hall, rfl⟩ := ih (some key) hentries
        have hsize : (utf8Bytes key).length < 2 ^ 64 := by
          cases levels with
          | zero => exact hwithin.elim
          | succ levels => cases levels <;> exact hwithinKey
        refine ⟨by simp [hlen], ?_, List.forall_mem_cons.mpr ⟨⟨hsize, hwithin⟩, hall⟩,
          by simp [toEntries, encodeEntries]⟩
        cases previous with
        | none => exact hchain
        | some p =>
          rw [Bool.not_eq_true] at horder
          exact List.isChain_cons_cons.mpr ⟨keyOutOfOrder_encodeText.mp horder, hchain⟩
      | _ => cases h

theorem eq_of_shortestInfo_null {n : UInt64} (h : shortestInfo n = 22) : n = 22 := by
  have hvalue := (shortest_argument n).2
  rw [h, if_pos (by decide)] at hvalue
  exact UInt64.toNat_inj.mp hvalue

/-- What follows a head is the content of the value. -/
theorem parseContent_sound (hparse : Parses parse levels) {major : UInt8} {n : UInt64}
    {budget budget' : Nat} {value : CborValue} {input rest : Bytes}
    (h : parseContent parse major (shortestInfo n) n budget input = .ok (value, budget', rest)) :
    value.toItem.Deterministic levels
      ∧ DetCbor.head major n ++ input = value.toItem.encode ++ rest := by
  unfold parseContent at h
  split at h
  -- an unsigned integer
  · cases h
    exact ⟨by cases levels <;> trivial, rfl⟩
  -- a byte string
  · simp only [Except.bind_eq_ok] at h
    obtain ⟨⟨part, rest'⟩, htake, h⟩ := h
    cases h
    obtain ⟨hlen, rfl⟩ := takeBytes_eq_ok.mp htake
    have hlt : part.length < 2 ^ 64 := hlen ▸ n.toNat_lt
    refine ⟨by cases levels <;> exact hlt, ?_⟩
    rw [CborValue.toItem, Item.encode, lengthHead, hlen, UInt64.ofNat_toNat, List.append_assoc]
  -- a text
  · simp only [Except.bind_eq_ok, Except.ofOption_eq_ok] at h
    obtain ⟨⟨part, rest'⟩, htake, text, hutf8, h⟩ := h
    cases h
    obtain ⟨hlen, rfl⟩ := takeBytes_eq_ok.mp htake
    obtain rfl := utf8Bytes_of_ofUtf8? hutf8
    have hlt : (utf8Bytes text).length < 2 ^ 64 := hlen ▸ n.toNat_lt
    refine ⟨by cases levels <;> exact hlt, ?_⟩
    rw [CborValue.toItem, Item.encode, encodeText, lengthHead, hlen, UInt64.ofNat_toNat,
      List.append_assoc]
  -- an array
  · simp only [Except.bind_eq_ok] at h
    obtain ⟨count, hfits, ⟨items, budget₁, rest₁⟩, hitems, h⟩ := h
    cases h
    obtain ⟨rfl, -, -⟩ := ensureCollectionFits_eq_ok.mp hfits
    obtain ⟨hlen, hall, rfl⟩ := parseItems_sound hparse hitems
    have hcount : (toItems items).length = n.toNat := by rw [toItems_eq_map, List.length_map, hlen]
    have hlt : (toItems items).length < 2 ^ 64 := hcount ▸ n.toNat_lt
    refine ⟨deterministic_array hlt ?_, ?_⟩
    · rw [toItems_eq_map, List.forall_mem_map]
      exact hall
    · rw [CborValue.toItem, Item.encode, lengthHead, hcount, UInt64.ofNat_toNat, List.append_assoc]
  -- a map, its keys in order
  · simp only [Except.bind_eq_ok] at h
    obtain ⟨count, hfits, ⟨entries, budget₁, rest₁⟩, hentries, h⟩ := h
    cases h
    obtain ⟨rfl, hsize, -⟩ := ensureCollectionFits_eq_ok.mp hfits
    obtain ⟨hlen, hchain, hall, rfl⟩ := parseEntries_sound hparse none hentries
    have hcount : (toEntries entries).length = n.toNat := by
      rw [toEntries_eq_map, List.length_map, hlen]
    have hlt : (toEntries entries).length < 2 ^ 63 := by omega
    refine ⟨deterministic_map hlt ?_ ?_, ?_⟩
    · rw [toEntries_eq_map, List.map_map]
      exact hchain
    · rw [toEntries_eq_map, List.forall_mem_map]
      exact hall
    · rw [CborValue.toItem, Item.encode, lengthHead, hcount, UInt64.ofNat_toNat, List.append_assoc]
  -- null
  · split_ifs at h with hnull
    cases h
    refine ⟨by cases levels <;> trivial, ?_⟩
    rw [eq_of_shortestInfo_null hnull]
    rfl
  -- other simple values, negative integers and tags are refused
  · cases h
  · cases h
  · cases h

end Sound

/-- What the strict parser accepts is the deterministic encoding of the value it returns. -/
theorem parseCborValue_sound (levels : Nat) : Parses (parseCborValue levels) levels := by
  induction levels with
  | zero =>
    intro budget input value budget' rest h
    cases h
  | succ levels ih =>
    intro budget input value budget' rest h
    simp only [parseCborValue, Except.bind_eq_ok] at h
    obtain ⟨budget₁, -, h⟩ := h
    cases input with
    | nil => cases h
    | cons initial input =>
      simp only [Except.bind_eq_ok] at h
      obtain ⟨⟨n, rest'⟩, hread, h⟩ := h
      obtain ⟨hinfo, rfl⟩ := readCborArgument_eq_ok.mp hread
      rw [hinfo] at h
      obtain ⟨hdet, heq⟩ := parseContent_sound ih h
      refine ⟨hdet, ?_⟩
      rw [← heq, head_eq_cons, ← hinfo, initial_of_fields]
      rfl

/-! ## Any bytes at all -/

/-- A reader that only moves forward: it has read something, and the rest is what follows. -/
def Advances (skip : Bytes → Option Bytes) : Prop :=
  ∀ input rest, skip input = some rest → ∃ read, read ≠ [] ∧ input = read ++ rest

theorem takePermissive_eq_some {width : Nat} {input part rest : Bytes}
    (h : takePermissive width input = some (part, rest)) :
    part.length = width ∧ input = part ++ rest := by
  unfold takePermissive at h
  split_ifs at h with hlength
  cases h
  exact ⟨List.length_take_of_le hlength, (List.take_append_drop width input).symm⟩

theorem readPermissiveHead_eq_some {input rest : Bytes} {major : UInt8} {n : UInt64}
    (h : readPermissiveHead input = some (major, n, rest)) :
    ∃ read, read ≠ [] ∧ input = read ++ rest := by
  cases input with
  | nil => cases h
  | cons initial input =>
    have hargument : ∀ {ai : UInt8} {n : UInt64} {rest : Bytes},
        readPermissiveArgument input ai = some (n, rest) → ∃ read, input = read ++ rest := by
      intro ai n rest hread
      unfold readPermissiveArgument at hread
      dsimp only at hread
      have hwide : ∀ {width : Nat}, (do
          let (part, rest) ← takePermissive width input
          some (UInt64.ofNat (ofBeBytes part), rest)) = some (n, rest) →
            ∃ read, input = read ++ rest := by
        intro width htake
        obtain ⟨⟨part, rest'⟩, htake, heq⟩ := Option.bind_eq_some_iff.mp htake
        cases heq
        exact ⟨part, (takePermissive_eq_some htake).2⟩
      split_ifs at hread
      · cases hread
        exact ⟨[], rfl⟩
      · exact hwide hread
      · exact hwide hread
      · exact hwide hread
      · exact hwide hread
    rw [readPermissiveHead, Option.bind_eq_bind, Option.bind_eq_some_iff] at h
    obtain ⟨⟨argument, rest'⟩, hread, heq⟩ := h
    cases heq
    obtain ⟨read, hinput⟩ := hargument hread
    exact ⟨initial :: read, by simp, by rw [hinput]; rfl⟩

/-- A text that is read lies inside the input. -/
theorem readPermissiveText_eq_some {input rest : Bytes} {text : String}
    (h : readPermissiveText input = some (text, rest)) :
    ∃ read, read ≠ [] ∧ input = read ++ (utf8Bytes text ++ rest) := by
  rw [readPermissiveText, Option.bind_eq_bind, Option.bind_eq_some_iff] at h
  obtain ⟨⟨major, length, rest'⟩, hhead, h⟩ := h
  dsimp only at h
  split_ifs at h with hmajor
  simp only [Option.bind_eq_bind, Option.bind_eq_some_iff] at h
  obtain ⟨⟨part, rest''⟩, htake, found, hutf8, heq⟩ := h
  cases heq
  obtain ⟨read, hne, rfl⟩ := readPermissiveHead_eq_some hhead
  obtain ⟨-, rfl⟩ := takePermissive_eq_some htake
  exact ⟨read, hne, by rw [utf8Bytes_of_ofUtf8? hutf8]⟩

/-- A loop reads at least one byte a round, so that it ends within the input. -/
theorem skipTimes_advances {skip : Bytes → Option Bytes} (hskip : Advances skip) {count : Nat}
    {input rest : Bytes} (h : skipTimes skip count input = some rest) :
    ∃ read, count ≤ read.length ∧ input = read ++ rest := by
  induction count generalizing input with
  | zero =>
    cases h
    exact ⟨[], Nat.le_refl _, rfl⟩
  | succ count ih =>
    rw [skipTimes, Option.bind_eq_bind, Option.bind_eq_some_iff] at h
    obtain ⟨rest', hfirst, h⟩ := h
    obtain ⟨read, hne, rfl⟩ := hskip _ _ hfirst
    obtain ⟨read', hcount, rfl⟩ := ih h
    have hpos := List.length_pos_of_ne_nil hne
    exact ⟨read ++ read', by rw [List.length_append]; omega, by rw [List.append_assoc]⟩

theorem skipPermissiveItem_advances (levels : Nat) : Advances (skipPermissiveItem levels) := by
  induction levels with
  | zero =>
    intro input rest h
    cases h
  | succ levels ih =>
    intro input rest h
    rw [skipPermissiveItem, Option.bind_eq_bind, Option.bind_eq_some_iff] at h
    obtain ⟨⟨major, length, rest'⟩, hhead, h⟩ := h
    obtain ⟨read, hne, rfl⟩ := readPermissiveHead_eq_some hhead
    -- whatever the content takes comes after the head
    suffices ∃ read', rest' = read' ++ rest by
      obtain ⟨read', rfl⟩ := this
      exact ⟨read ++ read', by simp [hne], by rw [List.append_assoc]⟩
    dsimp only at h
    unfold skipContent at h
    split_ifs at h
    · cases h
      exact ⟨[], rfl⟩
    · obtain ⟨⟨part, rest''⟩, htake, heq⟩ := Option.bind_eq_some_iff.mp h
      cases heq
      exact ⟨part, (takePermissive_eq_some htake).2⟩
    · obtain ⟨read', -, hread'⟩ := skipTimes_advances ih h
      exact ⟨read', hread'⟩
    · have hpair : Advances fun input => (skipPermissiveItem levels input).bind
          (skipPermissiveItem levels) := by
        intro input rest hpair
        obtain ⟨middle, hkey, hvalue⟩ := Option.bind_eq_some_iff.mp hpair
        obtain ⟨first, hfirst, rfl⟩ := ih _ _ hkey
        obtain ⟨second, -, rfl⟩ := ih _ _ hvalue
        exact ⟨first ++ second, by simp [hfirst], by rw [List.append_assoc]⟩
      obtain ⟨read', -, hread'⟩ := skipTimes_advances hpair h
      exact ⟨read', hread'⟩
    · obtain ⟨read', -, hread'⟩ := ih _ _ h
      exact ⟨read', hread'⟩

/-- An announced number of items beyond the bytes that are left is not reached. -/
theorem skipTimes_of_length_lt {levels count : Nat} {input : Bytes} (h : input.length < count) :
    skipTimes (skipPermissiveItem levels) count input = none := by
  rw [Option.eq_none_iff_forall_ne_some]
  intro rest hskip
  obtain ⟨read, hcount, rfl⟩ := skipTimes_advances (skipPermissiveItem_advances levels) hskip
  rw [List.length_append] at h
  omega

/-- The loop over the entries ends within the input, whatever number of entries is announced. -/
theorem findTextMember_of_length_lt {member : String} {count count' : Nat} {input : Bytes}
    (h : input.length < count) (h' : input.length < count') :
    findTextMember member count input = findTextMember member count' input := by
  induction count generalizing count' input with
  | zero => omega
  | succ count ih =>
    cases count' with
    | zero => omega
    | succ count' =>
      rw [findTextMember, findTextMember]
      cases hkey : readPermissiveText input with
      | none => rfl
      | some found =>
        obtain ⟨key, rest⟩ := found
        obtain ⟨read, hne, rfl⟩ := readPermissiveText_eq_some hkey
        simp only [Option.bind_eq_bind, Option.bind_some]
        split_ifs
        · rfl
        · cases hskip : skipPermissiveItem rootLevels rest with
          | none => rfl
          | some rest' =>
            obtain ⟨read', -, rfl⟩ := skipPermissiveItem_advances _ _ _ hskip
            have hpos := List.length_pos_of_ne_nil hne
            simp only [List.length_append] at h h'
            simp only [Option.bind_some]
            exact ih (by omega) (by omega)

end TrackOne
