import TrackOne.Gateway.EnvelopeGrammar

/-!
# Gzip headers

`gzip_deflate_offset` of `trackone-gateway-svc/src/service.rs` walks over the header of a gzip
member: ten bytes, and the fields that the flags announce. Slices and plain additions are partial
here, and `panicked` is what a failing one gives.

* `GzipHeader`: the headers of the format, with the fields that are optional.
* `gzipDeflateOffset_eq_ok`: exactly these are accepted, and the offset is the length of the header.
* `safe_gzipDeflateOffset`: no index and no addition fails on the way.
-/

namespace TrackOne

/-- An error that is returned, or a panic. -/
inductive GzipFailure where
  | envelope (error : BatchEnvelopeError)
  | panicked
deriving DecidableEq, Repr

/-- A byte slice; no object in memory is larger. -/
abbrev SliceBytes := { bytes : Bytes // bytes.length < 2 ^ 63 }

/-! ## The header -/

def orMalformed {α : Type} (message : String) (value : Option α) : Except GzipFailure α :=
  Except.ofOption (.envelope (.malformed message)) value

def requireGzip (message : String) (condition : Bool) : Except GzipFailure Unit :=
  Except.require (.envelope (.malformed message)) condition

/-- `&bytes[start..stop]`. -/
def indexRange (bytes : Bytes) (start stop : Nat) : Except GzipFailure Bytes :=
  Except.ofOption .panicked (getRange bytes start stop)

/-- `a + b`. -/
def addUsize (a b : Nat) : Except GzipFailure Nat := Except.ofOption .panicked (checkedAddUsize a b)

/-- Two bytes at an offset, when they are there. -/
def getLe16 (message : String) (input : Bytes) (offset : Nat) : Except GzipFailure Nat := do
  let stop ← addUsize offset 2
  let bytes ← orMalformed message (getRange input offset stop)
  pure (ofLeBytes bytes)

/-- The extra field. -/
def skipExtra (input : Bytes) (flags : UInt8) (offset : Nat) : Except GzipFailure Nat :=
  if flags &&& 0x04 = 0 then .ok offset
  else do
    let length ← getLe16 "truncated gzip extra field" input offset
    let width ← addUsize 2 length
    let offset ← orMalformed "gzip header overflows" (checkedAddUsize offset width)
    requireGzip "truncated gzip extra field" (offset ≤ input.length)
    pure offset

/-- A string field, which ends with a zero byte. -/
def skipString (input : Bytes) (flags flag : UInt8) (offset : Nat) : Except GzipFailure Nat :=
  if flags &&& flag = 0 then .ok offset
  else do
    let stop ← orMalformed "unterminated gzip string field"
      ((getRange input offset input.length).bind (·.findIdx? (· = 0)))
    let width ← addUsize stop 1
    addUsize offset width

section

variable (crc32 : Bytes → UInt32)

/-- The checksum of the header. -/
def skipHeaderCrc (input : Bytes) (flags : UInt8) (offset : Nat) : Except GzipFailure Nat :=
  if flags &&& 0x02 = 0 then .ok offset
  else do
    let expected ← getLe16 "truncated gzip header checksum" input offset
    let covered ← indexRange input 0 offset
    requireGzip "gzip header checksum is invalid" ((crc32 covered).toNat % 2 ^ 16 = expected)
    orMalformed "gzip header overflows" (checkedAddUsize offset 2)

def gzipDeflateOffset (input : Bytes) : Except GzipFailure Nat := do
  requireGzip "invalid gzip header"
    (18 ≤ input.length && getRange input 0 3 = some [0x1f, 0x8b, 8])
  let flags ← Except.ofOption .panicked input[3]?
  requireGzip "reserved gzip flags" (flags &&& 0xe0 = 0)
  let offset ← skipExtra input flags 10
  let offset ← skipString input flags 0x08 offset
  let offset ← skipString input flags 0x10 offset
  let offset ← skipHeaderCrc crc32 input flags offset
  requireGzip "truncated gzip member" ((checkedAddUsize offset 8).any fun minimum =>
    minimum ≤ input.length)
  pure offset

end

/-! ## Panics -/

/-- No index and no addition of the computation fails. -/
def Safe {α : Type} (result : Except GzipFailure α) : Prop := result ≠ .error .panicked

/-- A value is no panic. -/
theorem Safe.ok {α : Type} (value : α) : Safe (.ok value) := by
  intro h
  cases h

/-- Steps that do not panic do not panic one after the other. -/
theorem Safe.bind {α β : Type} {result : Except GzipFailure α} {f : α → Except GzipFailure β}
    (hresult : Safe result) (hf : ∀ value, result = .ok value → Safe (f value)) :
    Safe (result >>= f) := by
  cases result with
  | error failure =>
    intro h
    cases h
    exact hresult rfl
  | ok value => exact hf value rfl

/-- A missing value is reported, with no panic. -/
theorem Safe.orMalformed {α : Type} (message : String) (value : Option α) :
    Safe (TrackOne.orMalformed message value) := by
  cases value with
  | none =>
    intro h
    cases h
  | some value => exact Safe.ok value

/-- A failed condition is reported, with no panic. -/
theorem Safe.requireGzip (message : String) (condition : Bool) :
    Safe (TrackOne.requireGzip message condition) := by
  cases condition with
  | false =>
    intro h
    cases h
  | true => exact Safe.ok ()

/-- An addition that does not overflow is the sum. -/
theorem addUsize_eq_ok {a b c : Nat} : addUsize a b = .ok c ↔ a + b < 2 ^ 64 ∧ a + b = c := by
  rw [addUsize, Except.ofOption_eq_ok, checkedAddUsize_eq_some]

/-- Below `2 ^ 64` an addition does not overflow. -/
theorem addUsize_of_lt {a b : Nat} (h : a + b < 2 ^ 64) : addUsize a b = .ok (a + b) :=
  addUsize_eq_ok.mpr ⟨h, rfl⟩

/-- An index expression gives what `get` gives. -/
theorem indexRange_eq_ok {bytes slice : Bytes} {start stop : Nat} :
    indexRange bytes start stop = .ok slice ↔ getRange bytes start stop = some slice :=
  Except.ofOption_eq_ok

/-- A range within the bytes can be indexed. -/
theorem indexRange_of_le {bytes : Bytes} {start stop : Nat} (hstart : start ≤ stop)
    (hstop : stop ≤ bytes.length) :
    indexRange bytes start stop = .ok ((bytes.take stop).drop start) := by
  rw [indexRange_eq_ok, getRange, if_pos ⟨hstart, hstop⟩]

/-! ## The fields of a header -/

/-- The first zero byte. -/
theorem findIdx?_zero {input : Bytes} {k : Nat} :
    input.findIdx? (· = 0) = some k
      ↔ ∃ text rest, input = text ++ 0 :: rest ∧ 0 ∉ text ∧ text.length = k := by
  induction input generalizing k with
  | nil => simp
  | cons byte input ih =>
    rw [List.findIdx?_cons]
    by_cases hbyte : byte = 0
    · rw [if_pos (by simpa using hbyte)]
      constructor
      · intro h
        cases h
        exact ⟨[], input, by rw [hbyte]; rfl, List.not_mem_nil, rfl⟩
      · rintro ⟨text, rest, hinput, htext, rfl⟩
        cases text with
        | nil => rfl
        | cons first text =>
          -- A text that starts with the zero byte is none.
          obtain ⟨rfl, -⟩ := List.cons.inj hinput
          exact absurd (hbyte ▸ List.mem_cons_self) htext
    · rw [if_neg (by simpa using hbyte), Option.map_eq_some_iff]
      constructor
      · rintro ⟨k, hk, rfl⟩
        obtain ⟨text, rest, rfl, htext, rfl⟩ := ih.mp hk
        refine ⟨byte :: text, rest, rfl, ?_, rfl⟩
        rintro (_ | ⟨_, hmem⟩)
        · exact hbyte rfl
        · exact htext hmem
      · rintro ⟨text, rest, hinput, htext, rfl⟩
        cases text with
        | nil => exact absurd (List.cons.inj hinput).1 hbyte
        | cons first text =>
          obtain ⟨rfl, htail⟩ := List.cons.inj hinput
          exact ⟨text.length, ih.mpr ⟨text, rest, htail,
            fun hmem => htext (List.mem_cons_of_mem _ hmem), rfl⟩, rfl⟩

def IsExtra (flags : UInt8) (field : Bytes) : Prop :=
  if flags &&& 0x04 = 0 then field = []
  else ∃ extra : Bytes, extra.length < 2 ^ 16 ∧ field = leBytes 2 extra.length ++ extra

def IsString (flags flag : UInt8) (field : Bytes) : Prop :=
  if flags &&& flag = 0 then field = []
  else ∃ text : Bytes, 0 ∉ text ∧ field = text ++ [0]

def IsHeaderCrc (crc32 : Bytes → UInt32) (flags : UInt8) (covered field : Bytes) : Prop :=
  if flags &&& 0x02 = 0 then field = []
  else field = leBytes 2 (crc32 covered).toNat

/-- A header: ten bytes, and the optional fields that its flags announce. -/
structure GzipHeader (crc32 : Bytes → UInt32) where
  flags : UInt8
  fixed : Bytes
  extra : Bytes
  name : Bytes
  comment : Bytes
  checksum : Bytes
  flags_reserved : flags &&& 0xe0 = 0
  length_fixed : fixed.length = 6
  isExtra : IsExtra flags extra
  isString_name : IsString flags 0x08 name
  isString_comment : IsString flags 0x10 comment
  isHeaderCrc : IsHeaderCrc crc32 flags
    (([0x1f, 0x8b, 8, flags] ++ fixed) ++ extra ++ name ++ comment) checksum

def GzipHeader.bytes {crc32 : Bytes → UInt32} (header : GzipHeader crc32) : Bytes :=
  ([0x1f, 0x8b, 8, header.flags] ++ header.fixed) ++ header.extra ++ header.name ++ header.comment
    ++ header.checksum

section

variable {before input : Bytes} (hbytes : (before ++ input).length < 2 ^ 63)
include hbytes

/-- Two bytes at the offset are read as a number. -/
theorem getLe16_eq_ok {message : String} {value : Nat} :
    getLe16 message (before ++ input) before.length = .ok value
      ↔ ∃ part rest, input = part ++ rest ∧ part.length = 2 ∧ value = ofLeBytes part := by
  rw [List.length_append] at hbytes
  simp only [getLe16, orMalformed, Except.bind_eq_ok, Except.ofOption_eq_ok, addUsize_eq_ok]
  constructor
  · rintro ⟨stop, ⟨-, rfl⟩, part, hrange, h⟩
    cases h
    obtain ⟨rest, hinput, hlength⟩ := getRange_cursor.mp hrange
    exact ⟨part, rest, hinput, hlength, rfl⟩
  · rintro ⟨part, rest, rfl, hlength, rfl⟩
    exact ⟨_, ⟨by omega, rfl⟩, part, getRange_cursor.mpr ⟨rest, rfl, hlength⟩, rfl⟩

/-- Reading two bytes does not panic. -/
theorem safe_getLe16 (message : String) :
    Safe (getLe16 message (before ++ input) before.length) := by
  rw [List.length_append] at hbytes
  rw [getLe16, addUsize_of_lt (by omega)]
  exact (Safe.orMalformed _ _).bind fun _ _ => Safe.ok _

/-- The extra field is skipped where the flags announce one. -/
theorem skipExtra_eq_ok {flags : UInt8} {next : Nat} :
    skipExtra (before ++ input) flags before.length = .ok next
      ↔ ∃ field rest, input = field ++ rest ∧ IsExtra flags field
        ∧ next = before.length + field.length := by
  unfold skipExtra IsExtra
  -- without the flag there is no extra field
  split_ifs with hflag
  · constructor
    · intro h
      cases h
      exact ⟨[], input, rfl, rfl, rfl⟩
    · rintro ⟨field, rest, rfl, rfl, rfl⟩
      rfl
  · simp only [orMalformed, requireGzip, Except.bind_eq_ok, getLe16_eq_ok hbytes,
      addUsize_eq_ok, Except.ofOption_eq_ok, checkedAddUsize_eq_some, Except.require_eq_ok,
      decide_eq_true_eq, List.length_append] at hbytes ⊢
    constructor
    -- with it the field is its length and as many bytes
    · rintro ⟨length, ⟨part, rest, rfl, hpart, rfl⟩, width, ⟨-, rfl⟩, offset, ⟨-, rfl⟩, -, hle, h⟩
      cases h
      have hlt : ofLeBytes part < 256 ^ part.length := ofLeBytes_lt part
      rw [hpart] at hlt
      rw [List.length_append, hpart] at hle
      have hextra : (rest.take (ofLeBytes part)).length = ofLeBytes part := by
        rw [List.length_take]
        omega
      refine ⟨part ++ rest.take (ofLeBytes part), rest.drop (ofLeBytes part), ?_,
        ⟨rest.take (ofLeBytes part), by omega, ?_⟩, ?_⟩
      · rw [List.append_assoc, List.take_append_drop]
      · rw [hextra, ← hpart, leBytes_ofLeBytes]
      · rw [List.length_append, hextra, hpart]
    · rintro ⟨field, rest, rfl, ⟨extra, hextra, rfl⟩, rfl⟩
      have hlength : ofLeBytes (leBytes 2 extra.length) = extra.length := by
        rw [ofLeBytes_leBytes, Nat.mod_eq_of_lt (by omega)]
      simp only [List.length_append, length_leBytes] at hbytes ⊢
      exact ⟨extra.length, ⟨leBytes 2 extra.length, extra ++ rest, by rw [List.append_assoc],
        length_leBytes _ _, hlength.symm⟩, 2 + extra.length, ⟨by omega, rfl⟩, _,
        ⟨by omega, rfl⟩, (),
        by omega, rfl⟩

/-- Skipping the extra field does not panic. -/
theorem safe_skipExtra (flags : UInt8) :
    Safe (skipExtra (before ++ input) flags before.length) := by
  unfold skipExtra
  split_ifs with hflag
  · exact Safe.ok _
  · refine (safe_getLe16 hbytes _).bind fun length hlength => ?_
    obtain ⟨part, rest, -, hpart, rfl⟩ := (getLe16_eq_ok hbytes).mp hlength
    have hlt : ofLeBytes part < 256 ^ part.length := ofLeBytes_lt part
    rw [hpart] at hlt
    rw [addUsize_of_lt (by omega)]
    refine (Safe.orMalformed _ _).bind fun offset _ => ?_
    exact (Safe.requireGzip _ _).bind fun _ _ => Safe.ok _

/-- A string is skipped, its zero included, where the flags announce one. -/
theorem skipString_eq_ok {flags flag : UInt8} {next : Nat} :
    skipString (before ++ input) flags flag before.length = .ok next
      ↔ ∃ field rest, input = field ++ rest ∧ IsString flags flag field
        ∧ next = before.length + field.length := by
  have hrange : getRange (before ++ input) before.length (before ++ input).length = some input := by
    rw [List.length_append]
    exact getRange_cursor.mpr ⟨[], (List.append_nil input).symm, rfl⟩
  unfold skipString IsString
  split_ifs with hflag
  · constructor
    · intro h
      cases h
      exact ⟨[], input, rfl, rfl, rfl⟩
    · rintro ⟨field, rest, rfl, rfl, rfl⟩
      rfl
  · simp only [orMalformed, Except.bind_eq_ok, hrange, Option.bind_some, Except.ofOption_eq_ok,
      findIdx?_zero, addUsize_eq_ok]
    constructor
    · rintro ⟨stop, ⟨text, rest, rfl, htext, rfl⟩, width, ⟨-, rfl⟩, -, rfl⟩
      exact ⟨text ++ [0], rest, by rw [List.append_assoc]; rfl, ⟨text, htext, rfl⟩,
        by rw [List.length_append]; rfl⟩
    · rintro ⟨field, rest, rfl, ⟨text, htext, rfl⟩, rfl⟩
      simp only [List.length_append, List.length_singleton] at hbytes ⊢
      exact ⟨text.length, ⟨text, rest, by rw [List.append_assoc]; rfl, htext, rfl⟩, text.length + 1,
        ⟨by omega, rfl⟩, by omega, rfl⟩

/-- Skipping a string does not panic. -/
theorem safe_skipString (flags flag : UInt8) :
    Safe (skipString (before ++ input) flags flag before.length) := by
  have hrange : getRange (before ++ input) before.length (before ++ input).length = some input := by
    rw [List.length_append]
    exact getRange_cursor.mpr ⟨[], (List.append_nil input).symm, rfl⟩
  unfold skipString
  split_ifs with hflag
  · exact Safe.ok _
  · refine (Safe.orMalformed _ _).bind fun stop hstop => ?_
    rw [hrange, orMalformed, Except.ofOption_eq_ok, Option.bind_some, findIdx?_zero] at hstop
    obtain ⟨text, rest, rfl, -, rfl⟩ := hstop
    simp only [List.length_append, List.length_cons] at hbytes
    rw [addUsize_of_lt (by omega), Except.ok_bind, addUsize_of_lt (by omega)]
    exact Safe.ok _

variable (crc32 : Bytes → UInt32)

/-- The checksum of the header is skipped where the flags announce one and it is right. -/
theorem skipHeaderCrc_eq_ok {flags : UInt8} {next : Nat} :
    skipHeaderCrc crc32 (before ++ input) flags before.length = .ok next
      ↔ ∃ field rest, input = field ++ rest ∧ IsHeaderCrc crc32 flags before field
        ∧ next = before.length + field.length := by
  have hcovered : getRange (before ++ input) 0 before.length = some before := by
    rw [getRange, if_pos ⟨Nat.zero_le _, by rw [List.length_append]; omega⟩, List.take_left]
    rfl
  unfold skipHeaderCrc IsHeaderCrc
  split_ifs with hflag
  · constructor
    · intro h
      cases h
      exact ⟨[], input, rfl, rfl, rfl⟩
    · rintro ⟨field, rest, rfl, rfl, rfl⟩
      rfl
  · simp only [orMalformed, requireGzip, Except.bind_eq_ok, getLe16_eq_ok hbytes, indexRange_eq_ok,
      hcovered, Option.some.injEq, Except.require_eq_ok, decide_eq_true_eq, Except.ofOption_eq_ok,
      checkedAddUsize_eq_some]
    constructor
    · rintro ⟨value, ⟨part, rest, rfl, hpart, rfl⟩, covered, rfl, -, hcrc, -, rfl⟩
      refine ⟨part, rest, rfl, ?_, by rw [hpart]⟩
      -- Two bytes are the numeral of what they denote, and only that counts of the checksum.
      calc part = leBytes part.length (ofLeBytes part) := (leBytes_ofLeBytes part).symm
        _ = leBytes 2 ((crc32 before).toNat % 2 ^ 16) := by rw [hpart, hcrc]
        _ = leBytes 2 (ofLeBytes (leBytes 2 (crc32 before).toNat)) := by
          rw [ofLeBytes_leBytes]
          rfl
        _ = leBytes 2 (crc32 before).toNat := leBytes_ofLeBytes (leBytes 2 (crc32 before).toNat)
    · rintro ⟨field, rest, rfl, rfl, rfl⟩
      simp only [List.length_append, length_leBytes] at hbytes ⊢
      exact ⟨_, ⟨leBytes 2 (crc32 before).toNat, rest, rfl, length_leBytes _ _, rfl⟩,
        before, rfl, (),
        by rw [ofLeBytes_leBytes]; rfl, by omega, trivial⟩

/-- Skipping the checksum does not panic. -/
theorem safe_skipHeaderCrc (flags : UInt8) :
    Safe (skipHeaderCrc crc32 (before ++ input) flags before.length) := by
  unfold skipHeaderCrc
  split_ifs with hflag
  · exact Safe.ok _
  · refine (safe_getLe16 hbytes _).bind fun expected _ => ?_
    rw [indexRange_of_le (Nat.zero_le _) (by rw [List.length_append]; omega)]
    exact (Safe.requireGzip _ _).bind fun _ _ => Safe.orMalformed _ _

end

section

variable {input : Bytes} (crc32 : Bytes → UInt32)

/-- The ten bytes in front, with eight for the trailer behind them. -/
theorem fixedPart_iff {flags : UInt8} :
    (18 ≤ input.length ∧ getRange input 0 3 = some [0x1f, 0x8b, 8]) ∧ input[3]? = some flags
      ↔ ∃ fixed rest, input = ([0x1f, 0x8b, 8, flags] ++ fixed) ++ rest ∧ fixed.length = 6
        ∧ 8 ≤ rest.length := by
  constructor
  · rintro ⟨⟨hlength, hmagic⟩, hflags⟩
    obtain ⟨tail, rfl, -⟩ := (@getRange_cursor [] input 3 [0x1f, 0x8b, 8]).mp hmagic
    cases tail with
    | nil => cases hflags
    | cons first tail =>
      cases hflags
      simp only [List.length_append, List.length_cons, List.length_nil] at hlength
      refine ⟨tail.take 6, tail.drop 6, ?_, ?_, ?_⟩
      · rw [List.append_assoc, List.take_append_drop]
        rfl
      · rw [List.length_take]
        omega
      · rw [List.length_drop]
        omega
  · rintro ⟨fixed, rest, rfl, hfixed, hrest⟩
    refine ⟨⟨?_, ?_⟩, rfl⟩
    · simp only [List.length_append, List.length_cons, List.length_nil]
      omega
    · exact (@getRange_cursor [] _ 3 [0x1f, 0x8b, 8]).mpr ⟨flags :: (fixed ++ rest), rfl, rfl⟩

/-- The fixed part takes ten bytes. -/
theorem length_fixedPart {flags : UInt8} {fixed : Bytes} (hfixed : fixed.length = 6) :
    ([0x1f, 0x8b, 8, flags] ++ fixed).length = 10 := by
  simp [hfixed]

/-- A trailer must fit behind the header. -/
theorem minimum_iff {offset : Nat} (hinput : input.length < 2 ^ 63) :
    ((checkedAddUsize offset 8).any fun minimum => minimum ≤ input.length) = true
      ↔ offset + 8 ≤ input.length := by
  unfold checkedAddUsize
  split_ifs with h
  · simp
  · simp only [Option.any_none, Bool.false_eq_true, false_iff]
    omega

/-- The offset behind a header is given exactly when there is one, with room for a trailer. -/
theorem gzipDeflateOffset_eq_ok (hinput : input.length < 2 ^ 63) {offset : Nat} :
    gzipDeflateOffset crc32 input = .ok offset
      ↔ ∃ (header : GzipHeader crc32) (rest : Bytes), input = header.bytes ++ rest
        ∧ 8 ≤ rest.length ∧ offset = header.bytes.length := by
  simp only [gzipDeflateOffset, requireGzip, Except.bind_eq_ok, Except.require_eq_ok,
    Except.ofOption_eq_ok, Bool.and_eq_true, decide_eq_true_eq, minimum_iff hinput]
  constructor
  -- the checks of the source, in their order
  · rintro ⟨-, hmagic, flags, hflags, -, hreserved, stop, hextra, stop', hname, stop'',
      hcomment, last, hcrc, -, hroom, h⟩
    cases h
    obtain ⟨fixed, rest, rfl, hfixed, -⟩ := fixedPart_iff.mp ⟨hmagic, hflags⟩
    -- Each field begins where the one before it ends.
    rw [← @length_fixedPart flags fixed hfixed, skipExtra_eq_ok hinput] at hextra
    obtain ⟨extra, rest, rfl, hextra, rfl⟩ := hextra
    rw [← List.append_assoc] at hinput hname hcomment hcrc hroom
    rw [← List.length_append, skipString_eq_ok hinput] at hname
    obtain ⟨name, rest, rfl, hname, rfl⟩ := hname
    rw [← List.append_assoc] at hinput hcomment hcrc hroom
    rw [← List.length_append, skipString_eq_ok hinput] at hcomment
    obtain ⟨comment, rest, rfl, hcomment, rfl⟩ := hcomment
    rw [← List.append_assoc] at hinput hcrc hroom
    rw [← List.length_append, skipHeaderCrc_eq_ok hinput] at hcrc
    obtain ⟨checksum, rest, rfl, hcrc, rfl⟩ := hcrc
    refine ⟨⟨flags, fixed, extra, name, comment, checksum, hreserved, hfixed, hextra, hname,
      hcomment, hcrc⟩, rest, ?_, ?_, ?_⟩
    · simp only [GzipHeader.bytes, List.append_assoc]
    · simp only [List.length_append] at hroom
      omega
    · simp only [GzipHeader.bytes, List.length_append]
  -- a header that was written passes them
  · rintro ⟨header, rest, rfl, hrest, rfl⟩
    obtain ⟨flags, fixed, extra, name, comment, checksum, hreserved, hfixed, hextra, hname,
      hcomment, hcrc⟩ := header
    simp only [GzipHeader.bytes] at hinput ⊢
    have hten := @length_fixedPart flags fixed hfixed
    obtain ⟨hmagic, hflags⟩ := fixedPart_iff.mpr
      ⟨fixed, extra ++ (name ++ (comment ++ (checksum ++ rest))), rfl, hfixed, by
        simp only [List.length_append]; omega⟩
    generalize [0x1f, 0x8b, 8, flags] ++ fixed = start at hinput hmagic hflags hcrc hten ⊢
    simp only [List.append_assoc] at hinput ⊢
    refine ⟨(), hmagic, flags, hflags, (), hreserved, start.length + extra.length, ?_,
      (start ++ extra).length + name.length, ?_,
      (start ++ extra ++ name).length + comment.length, ?_,
      (start ++ extra ++ name ++ comment).length + checksum.length, ?_, (), ?_, ?_⟩
    -- and each field is skipped where it stands
    · rw [← hten]
      exact (skipExtra_eq_ok hinput).mpr ⟨extra, _, rfl, hextra, rfl⟩
    · rw [← List.append_assoc] at hinput ⊢
      rw [← List.length_append]
      exact (skipString_eq_ok hinput).mpr ⟨name, _, rfl, hname, rfl⟩
    · rw [← List.append_assoc, ← List.append_assoc] at hinput ⊢
      rw [← List.length_append]
      exact (skipString_eq_ok hinput).mpr ⟨comment, _, rfl, hcomment, rfl⟩
    · rw [← List.append_assoc, ← List.append_assoc, ← List.append_assoc] at hinput ⊢
      rw [← List.length_append]
      exact (skipHeaderCrc_eq_ok hinput crc32).mpr ⟨checksum, rest, rfl, hcrc, rfl⟩
    · simp only [List.length_append]
      omega
    · simp only [List.length_append, ← Nat.add_assoc]
      rfl

/-- Reading the header does not panic. -/
theorem safe_gzipDeflateOffset (hinput : input.length < 2 ^ 63) :
    Safe (gzipDeflateOffset crc32 input) := by
  refine (Safe.requireGzip _ _).bind fun _ hmagic => ?_
  rw [requireGzip, Except.require_eq_ok, Bool.and_eq_true, decide_eq_true_eq, decide_eq_true_eq]
    at hmagic
  obtain ⟨flags, hflags⟩ : ∃ flags, input[3]? = some flags :=
    ⟨_, List.getElem?_eq_getElem (by omega)⟩
  obtain ⟨fixed, rest, rfl, hfixed, -⟩ := fixedPart_iff.mp ⟨hmagic, hflags⟩
  rw [hflags]
  show Safe (requireGzip "reserved gzip flags" _ >>= _)
  refine (Safe.requireGzip _ _).bind fun _ _ => ?_
  rw [← @length_fixedPart flags fixed hfixed]
  refine (safe_skipExtra hinput flags).bind fun stop hextra => ?_
  obtain ⟨extra, rest, rfl, -, rfl⟩ := (skipExtra_eq_ok hinput).mp hextra
  rw [← List.append_assoc] at hinput ⊢
  rw [← List.length_append]
  refine (safe_skipString hinput flags 0x08).bind fun stop hname => ?_
  obtain ⟨name, rest, rfl, -, rfl⟩ := (skipString_eq_ok hinput).mp hname
  rw [← List.append_assoc] at hinput ⊢
  rw [← List.length_append]
  refine (safe_skipString hinput flags 0x10).bind fun stop hcomment => ?_
  obtain ⟨comment, rest, rfl, -, rfl⟩ := (skipString_eq_ok hinput).mp hcomment
  rw [← List.append_assoc] at hinput ⊢
  rw [← List.length_append]
  refine (safe_skipHeaderCrc hinput crc32 flags).bind fun last _ => ?_
  exact (Safe.requireGzip _ _).bind fun _ _ => Safe.ok _

end

end TrackOne
