import TrackOne.Gateway.Envelope

/-!
# The grammar of batch envelopes

`parse_batch_envelope` has a reader of its own for CBOR lengths, which works on offsets into the
body. This file proves that it accepts exactly the deterministic encoding (`DetCbor`) of an array of
byte strings.

A cursor into the body is a split of it: the bytes before the offset and the input from there on.

* `readUint_eq_ok` and `readCborLen_eq_ok`: the reader at a cursor reads one shortest head.
* `readRecords_eq_ok`: the loop reads as many byte strings as it was told.
* `parseBatchEnvelope_grammar`: the envelopes are the encodings, and nothing outside the body is
  read.
-/

namespace TrackOne

open DetCbor

/-- The envelope of a record list. -/
def batchEnvelope (records : List Bytes) : Bytes := (Item.array (records.map Item.bytes)).encode

section

variable {before input : Bytes}

/-! ## Reading at a cursor -/

theorem readUint_eq_ok (hbytes : (before ++ input).length < 2 ^ 64) {width value next : Nat} :
    readUint (before ++ input) before.length width = .ok (value, next)
      ↔ ∃ part rest, input = part ++ rest ∧ part.length = width ∧ value = ofBeBytes part
        ∧ next = before.length + width := by
  rw [List.length_append] at hbytes
  simp only [readUint, Except.bind_eq_ok, Except.ofOption_eq_ok, checkedAddUsize_eq_some]
  constructor
  · rintro ⟨stop, ⟨-, rfl⟩, part, hrange, h⟩
    cases h
    obtain ⟨rest, hinput, hlength⟩ := getRange_cursor.mp hrange
    exact ⟨part, rest, hinput, hlength, rfl, rfl⟩
  · rintro ⟨part, rest, rfl, rfl, rfl, rfl⟩
    rw [List.length_append] at hbytes
    exact ⟨_, ⟨by omega, rfl⟩, part, getRange_cursor.mpr ⟨rest, rfl, rfl⟩, rfl⟩

/-- A multi-byte argument at a cursor is the one `readWideArgument` reads from the input. -/
theorem readUint_wide (hbytes : (before ++ input).length < 2 ^ 64) {width shorterMax : Nat}
    (hwidth : width ≤ 8) {value next : Nat} :
    readUint (before ++ input) before.length width = .ok (value, next) ∧ shorterMax < value
      ↔ ∃ n rest, readWideArgument width shorterMax input = .ok (n, rest) ∧ value = n.toNat
        ∧ next + rest.length = (before ++ input).length := by
  rw [readUint_eq_ok hbytes]
  constructor
  · rintro ⟨⟨part, rest, rfl, rfl, rfl, rfl⟩, hgt⟩
    have hlt : ofBeBytes part < 256 ^ part.length := ofBeBytes_lt part
    have hword : ofBeBytes part < 2 ^ 64 := by
      calc ofBeBytes part < 256 ^ part.length := hlt
        _ ≤ 256 ^ 8 := Nat.pow_le_pow_right (by omega) hwidth
        _ = 2 ^ 64 := by decide
    have hvalue : (UInt64.ofNat (ofBeBytes part)).toNat = ofBeBytes part :=
      UInt64.toNat_ofNat_of_lt64 hword
    refine ⟨UInt64.ofNat (ofBeBytes part), rest, ?_, hvalue.symm, ?_⟩
    · rw [readWideArgument_eq_ok hwidth, hvalue, beBytes_ofBeBytes]
      exact ⟨hgt, hlt, rfl⟩
    · rw [List.length_append, List.length_append]
      omega
  · rintro ⟨n, rest, hread, rfl, hnext⟩
    obtain ⟨hgt, hlt, rfl⟩ := (readWideArgument_eq_ok hwidth).mp hread
    rw [List.length_append, List.length_append, length_beBytes] at hnext
    refine ⟨⟨beBytes width n.toNat, rest, rfl, length_beBytes _ _, ?_, by omega⟩, hgt⟩
    rw [ofBeBytes_beBytes, Nat.mod_eq_of_lt hlt]

/-- The test for a length that has a shorter form. -/
def shorterForm (length width : Nat) : Prop :=
  width = 1 ∧ length < 24 ∨ width = 2 ∧ length ≤ 2 ^ 8 - 1
    ∨ width = 4 ∧ length ≤ 2 ^ 16 - 1 ∨ width = 8 ∧ length ≤ 2 ^ 32 - 1

/-- The two readers of an argument agree. -/
theorem readArgument_eq_ok (hbytes : (before ++ input).length < 2 ^ 64) {additional : UInt8}
    {value next : Nat} :
    (∃ width, readArgument (before ++ input) before.length additional = .ok (value, width, next)
        ∧ ¬ shorterForm value width)
      ↔ ∃ n rest, readCborArgument input additional = .ok (n, rest) ∧ value = n.toNat
        ∧ next + rest.length = (before ++ input).length := by
  -- one arm of the match: the width is fixed, and the test is on the value alone
  have hwide : ∀ {width shorterMax : Nat}, width ≤ 8 →
      (∀ v, shorterForm v width ↔ v ≤ shorterMax) →
      ((∃ w, (readUint (before ++ input) before.length width
            >>= fun result => pure (result.1, width, result.2)) = .ok (value, w, next)
          ∧ ¬ shorterForm value w)
        ↔ ∃ n rest, readWideArgument width shorterMax input = .ok (n, rest) ∧ value = n.toNat
          ∧ next + rest.length = (before ++ input).length) := by
    intro width shorterMax hwidth htest
    rw [← readUint_wide hbytes hwidth]
    simp only [Except.bind_eq_ok]
    constructor
    · rintro ⟨w, ⟨⟨v, o⟩, hread, h⟩, hshort⟩
      cases h
      rw [htest, Nat.not_le] at hshort
      exact ⟨hread, hshort⟩
    · rintro ⟨hread, hgt⟩
      refine ⟨width, ⟨(value, next), hread, rfl⟩, ?_⟩
      rw [htest, Nat.not_le]
      exact hgt
  unfold readArgument readCborArgument
  split_ifs with h23 h24 h25 h26 h27
  · constructor
    · rintro ⟨w, h, -⟩
      cases h
      exact ⟨_, _, rfl, by simp, by rw [List.length_append]⟩
    · rintro ⟨n, rest, h, rfl, hnext⟩
      cases h
      rw [List.length_append] at hnext
      refine ⟨0, ?_, by simp [shorterForm]⟩
      rw [UInt8.toNat_toUInt64, show next = before.length by omega]
  · exact hwide (by omega) (by intro v; unfold shorterForm; omega)
  · exact hwide (by omega) (by intro v; unfold shorterForm; omega)
  · exact hwide (by omega) (by intro v; unfold shorterForm; omega)
  · exact hwide (by omega) (by intro v; unfold shorterForm; omega)
  · simp

/-- The length reader at a cursor reads one shortest head of the major type. -/
theorem readCborLen_eq_ok (hbytes : (before ++ input).length < 2 ^ 64) {major : UInt8}
    (hmajor : major < 8) {length next : Nat} :
    readCborLen (before ++ input) before.length major = .ok (length, next)
      ↔ ∃ n rest, input = head major n ++ rest ∧ length = n.toNat
        ∧ next = before.length + (head major n).length := by
  -- the length is read with the head of the item
  have hread : readCborLen (before ++ input) before.length major = .ok (length, next)
      ↔ ∃ n rest, readTypedArgument input = .ok (major, n, rest) ∧ length = n.toNat
        ∧ next + rest.length = (before ++ input).length := by
    cases input with
    | nil => simp [readCborLen, readTypedArgument, Except.ofOption, bind, Except.bind]
    | cons initial input =>
      have hsplit : before ++ initial :: input = (before ++ [initial]) ++ input := by simp
      have hoffset : before.length + 1 = (before ++ [initial]).length := by simp
      have hfirst : (before ++ initial :: input)[before.length]? = some initial := by simp
      rw [hsplit] at hbytes
      simp only [readCborLen, readTypedArgument, Except.bind_eq_ok, Except.ofOption_eq_ok,
        Except.require_eq_ok, decide_eq_true_eq, hfirst, hoffset]
      rw [hsplit]
      constructor
      · rintro ⟨_, hinitial, -, hmajor, ⟨value, width, next'⟩, hargument, -, hshort, h⟩
        cases h
        obtain rfl := Option.some.inj hinitial
        obtain ⟨n, rest, hread, hvalue, hnext⟩ :=
          (readArgument_eq_ok hbytes).mp ⟨width, hargument, hshort⟩
        exact ⟨n, rest, ⟨(n, rest), hread, by rw [hmajor]; rfl⟩, hvalue, hnext⟩
      · rintro ⟨n, rest, ⟨⟨n', rest'⟩, hread, h⟩, hvalue, hnext⟩
        cases h
        obtain ⟨width, hargument, hshort⟩ :=
          (readArgument_eq_ok hbytes).mpr ⟨_, _, hread, hvalue, hnext⟩
        exact ⟨initial, rfl, (), rfl, (length, width, next), hargument, (), hshort, rfl⟩
  -- and the head is in its shortest form
  rw [hread]
  constructor
  · rintro ⟨n, rest, htyped, hlength, hnext⟩
    obtain ⟨-, rfl⟩ := readTypedArgument_eq_ok.mp htyped
    rw [List.length_append, List.length_append] at hnext
    exact ⟨n, rest, rfl, hlength, by omega⟩
  · rintro ⟨n, rest, rfl, hlength, rfl⟩
    refine ⟨n, rest, readTypedArgument_eq_ok.mpr ⟨hmajor, rfl⟩, hlength, ?_⟩
    rw [List.length_append, List.length_append]
    omega

/-! ## The loop -/

/-- The loop reads as many byte strings as it was told, and stops after them. -/
theorem readRecords_eq_ok {count next : Nat} {records : List Bytes}
    (hbytes : (before ++ input).length < 2 ^ 64) :
    readRecords (before ++ input) count before.length = .ok (records, next)
      ↔ records.length = count ∧ ∃ rest, input = encodeItems (records.map Item.bytes) ++ rest
        ∧ next + rest.length = (before ++ input).length := by
  induction count generalizing before input records with
  | zero =>
    simp only [readRecords, Except.ok.injEq, Prod.mk.injEq, List.length_eq_zero_iff]
    constructor
    · rintro ⟨rfl, rfl⟩
      exact ⟨rfl, input, rfl, by rw [List.length_append]⟩
    · rintro ⟨rfl, rest, rfl, hnext⟩
      refine ⟨rfl, ?_⟩
      rw [List.length_append] at hnext
      omega
  | succ count ih =>
    simp only [readRecords, Except.bind_eq_ok, Except.ofOption_eq_ok, checkedAddUsize_eq_some]
    constructor
    -- the head of the first record, its bytes, and the records after it
    · rintro ⟨⟨length, start⟩, hhead, stop, ⟨-, hstop⟩, record, hrecord, ⟨later, last⟩, hlater, h⟩
      cases h
      dsimp only at hstop hrecord hlater
      obtain ⟨n, rest, rfl, rfl, rfl⟩ := (readCborLen_eq_ok hbytes (by decide)).mp hhead
      -- the record stands after its head
      have hcursor : before ++ (head 2 n ++ rest) = (before ++ head 2 n) ++ rest := by simp
      have hstart : before.length + (head 2 n).length = (before ++ head 2 n).length := by simp
      rw [hcursor, ← hstop, hstart] at hrecord
      obtain ⟨rest', rfl, hlength⟩ := getRange_cursor.mp hrecord
      -- and the later ones after it
      have hcursor' : before ++ (head 2 n ++ (record ++ rest'))
          = (before ++ head 2 n ++ record) ++ rest' := by simp
      have hstart' : stop = (before ++ head 2 n ++ record).length := by
        simp only [List.length_append]
        omega
      rw [hcursor', hstart'] at hlater
      rw [hcursor'] at hbytes ⊢
      obtain ⟨hcount, rest'', rfl, hnext⟩ := (ih hbytes).mp hlater
      have hword : lengthHead 2 record.length = head 2 n := by
        rw [lengthHead, hlength, UInt64.ofNat_toNat]
      refine ⟨by rw [List.length_cons, hcount], rest'', ?_, hnext⟩
      simp [encodeItems, Item.encode, hword]
    -- the records that are written lie within the body, so no addition overflows
    · rintro ⟨hcount, rest, rfl, hnext⟩
      obtain ⟨record, later, rfl⟩ := List.exists_cons_of_length_eq_add_one hcount
      rw [List.map_cons, encodeItems, Item.encode] at hbytes hnext ⊢
      have hrecord : record.length < 2 ^ 64 := by
        simp only [List.length_append] at hbytes
        omega
      have hword : (UInt64.ofNat record.length).toNat = record.length :=
        UInt64.toNat_ofNat_of_lt64 hrecord
      have hcursor : before ++ (lengthHead 2 record.length ++ record
            ++ encodeItems (later.map Item.bytes) ++ rest)
          = (before ++ lengthHead 2 record.length) ++ (record
            ++ (encodeItems (later.map Item.bytes) ++ rest)) := by simp
      have hcursor' : before ++ (lengthHead 2 record.length ++ record
            ++ encodeItems (later.map Item.bytes) ++ rest)
          = (before ++ lengthHead 2 record.length ++ record)
            ++ (encodeItems (later.map Item.bytes) ++ rest) := by simp
      have hstart : before.length + (lengthHead 2 record.length).length
          = (before ++ lengthHead 2 record.length).length := by simp
      refine ⟨(record.length, before.length + (lengthHead 2 record.length).length),
        (readCborLen_eq_ok hbytes (by decide)).mpr ⟨UInt64.ofNat record.length, _, by
          rw [List.append_assoc, List.append_assoc]; rfl, hword.symm, rfl⟩,
        _, ⟨?_, rfl⟩, record, ?_, (later, next), ?_, rfl⟩
      · simp only [List.length_append] at hbytes
        dsimp only
        omega
      · dsimp only
        rw [hcursor, hstart]
        exact getRange_cursor.mpr ⟨_, rfl, rfl⟩
      · dsimp only
        rw [hcursor', hstart, ← List.length_append]
        rw [hcursor'] at hbytes hnext
        exact (ih hbytes).mpr ⟨by simpa using hcount, rest, rfl, hnext⟩

end

/-! ## The parser -/

/-- Every length and every slice the parser takes from the bytes lies within them. -/
structure ReadsWithin (bytes : Bytes) : Prop where
  lengths : ∀ offset major length next, readCborLen bytes offset major = .ok (length, next) →
    offset < next ∧ next ≤ bytes.length
  slices : ∀ start stop slice, getRange bytes start stop = some slice →
    start ≤ stop ∧ stop ≤ bytes.length ∧ slice.length = stop - start

theorem readsWithin (bytes : Bytes) : ReadsWithin bytes where
  lengths _ _ _ _ h := readCborLen_offset h
  slices _ _ _ h := getRange_eq_some h

/-- What is parsed is an envelope of as many records as were counted. -/
theorem parseBatchEnvelope_iff {bytes : Bytes} {maxRecords : Nat} {records : List Bytes}
    (hbytes : bytes.length < 2 ^ 64) :
    parseBatchEnvelope bytes maxRecords = .ok records
      ↔ 1 ≤ records.length ∧ records.length ≤ maxRecords ∧ bytes = batchEnvelope records := by
  rw [parseBatchEnvelope_eq_ok]
  unfold batchEnvelope
  rw [Item.encode, List.length_map]
  constructor
  · rintro ⟨count, offset, hhead, hcount, hlimit, hrecords⟩
    obtain ⟨n, rest, rfl, rfl, rfl⟩ :=
      (@readCborLen_eq_ok [] _ hbytes 4 (by decide) _ _).mp hhead
    rw [List.length_nil, Nat.zero_add] at hrecords
    obtain ⟨hlength, rest', rfl, hnext⟩ := (readRecords_eq_ok hbytes).mp hrecords
    -- nothing is left
    obtain rfl : rest' = [] := List.length_eq_zero_iff.mp (by omega)
    rw [← hlength] at hcount hlimit
    refine ⟨Nat.pos_of_ne_zero hcount, hlimit, ?_⟩
    rw [lengthHead, hlength, UInt64.ofNat_toNat, List.append_nil]
  · rintro ⟨hpos, hlimit, rfl⟩
    have hcount : records.length < 2 ^ 64 := by
      have hitems := length_encodeItems_ge (records.map Item.bytes)
      rw [List.length_map] at hitems
      rw [List.length_append] at hbytes
      omega
    have hword : (UInt64.ofNat records.length).toNat = records.length :=
      UInt64.toNat_ofNat_of_lt64 hcount
    refine ⟨records.length, (lengthHead 4 records.length).length, ?_, by omega, hlimit, ?_⟩
    · refine (@readCborLen_eq_ok [] _ hbytes 4 (by decide) _ _).mpr
        ⟨UInt64.ofNat records.length, _, rfl, hword.symm, ?_⟩
      rw [List.length_nil, Nat.zero_add]
      rfl
    · exact (readRecords_eq_ok hbytes).mpr ⟨rfl, [], (List.append_nil _).symm, by simp⟩

/-- **The parser accepts exactly its grammar.** A body, whose length is a `usize`, is accepted with
a record list exactly when the list is neither empty nor too long and the body is its deterministic
encoding. So accepted envelopes and their record lists determine each other, and the parser reads
nothing outside the body. -/
theorem parseBatchEnvelope_grammar (bytes : Bytes) (maxRecords : Nat)
    (hbytes : bytes.length < 2 ^ 64) :
    (∀ records, parseBatchEnvelope bytes maxRecords = .ok records
        ↔ 1 ≤ records.length ∧ records.length ≤ maxRecords ∧ bytes = batchEnvelope records)
      ∧ (∀ bytes' maxRecords' records records', bytes'.length < 2 ^ 64 →
          parseBatchEnvelope bytes maxRecords = .ok records →
          parseBatchEnvelope bytes' maxRecords' = .ok records' →
          (bytes = bytes' ↔ records = records'))
      ∧ ReadsWithin bytes := by
  refine ⟨fun records => parseBatchEnvelope_iff hbytes, ?_, readsWithin bytes⟩
  intro bytes' maxRecords' records records' hbytes' h h'
  obtain ⟨-, -, henvelope⟩ := (parseBatchEnvelope_iff hbytes).mp h
  obtain ⟨-, -, henvelope'⟩ := (parseBatchEnvelope_iff hbytes').mp h'
  constructor
  · rintro rfl
    exact parseBatchEnvelope_unique h h'
  · rintro rfl
    rw [henvelope, henvelope']

/-- An empty record, twice. -/
theorem parseBatchEnvelope_grammar_pair :
    parseBatchEnvelope [0x82, 0x40, 0x40] 2 = .ok [[], []]
      ∧ [0x82, 0x40, 0x40] = batchEnvelope [[], []] := by
  have hgrammar := (parseBatchEnvelope_grammar [0x82, 0x40, 0x40] 2 (by decide)).1 [[], []]
  have henvelope : ([0x82, 0x40, 0x40] : Bytes) = batchEnvelope [[], []] := by decide
  exact ⟨hgrammar.mpr ⟨by decide, by decide, henvelope⟩, henvelope⟩

end TrackOne
