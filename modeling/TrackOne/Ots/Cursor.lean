import TrackOne.Lib.Codec
import TrackOne.Lib.Slice
import Mathlib.Data.Nat.Bitwise

/-!
# The cursor over an OpenTimestamps proof

`OtsCursor` of `trackone-ots/src/lib.rs`: bytes, numbers in groups of seven bits and byte strings
with a length in front. A slice that lies outside the proof would be `panicked`.

* `readBytes_eq_ok`: reading at a cursor takes bytes off the front of the input.
* `readVaruint_eq_ok`: a number is read modulo `2 ^ 64`. The guard on the shift lets a tenth group
  through whatever it holds, and only the lowest bit of it survives.
* `readVaruint_exact_iff`: so a number is misread exactly when the tenth group is larger than one.
-/

namespace TrackOne.Ots

inductive OtsInternalError where
  | fallback
  | invalid (reason : String)
deriving DecidableEq, Repr

/-- An error that is returned, a panic, or a loop that was cut off. -/
inductive OtsFailure where
  | internal (error : OtsInternalError)
  | panicked
  | outOfSteps
deriving DecidableEq, Repr

def invalid (reason : String) : OtsFailure := .internal (.invalid reason)

structure OtsCursor where
  raw : Bytes
  offset : Nat
deriving DecidableEq, Repr

namespace OtsCursor

def new (raw : Bytes) : OtsCursor := ⟨raw, 0⟩

def readBytes (cursor : OtsCursor) (len : Nat) : Except OtsFailure (Bytes × OtsCursor) := do
  let stop ← Except.ofOption (invalid "ots-proof-parse-failed") (checkedAddUsize cursor.offset len)
  Except.require (invalid "ots-proof-parse-failed") (stop ≤ cursor.raw.length)
  let bytes ← Except.ofOption .panicked (getRange cursor.raw cursor.offset stop)
  pure (bytes, { cursor with offset := stop })

def readU8 (cursor : OtsCursor) : Except OtsFailure (UInt8 × OtsCursor) := do
  let (bytes, cursor) ← cursor.readBytes 1
  let byte ← Except.ofOption .panicked bytes[0]?
  pure (byte, cursor)

def assertMagic (cursor : OtsCursor) (magic : Bytes) : Except OtsFailure OtsCursor := do
  let (actual, cursor) ← cursor.readBytes magic.length
  Except.require (.internal .fallback) (actual = magic)
  pure cursor

/-- The loop of `read_varuint`. -/
def readVaruintLoop : (steps : Nat) → OtsCursor → (value : UInt64) → (shift : Nat) →
    Except OtsFailure (UInt64 × OtsCursor)
  | 0, _, _, _ => .error .outOfSteps
  | steps + 1, cursor, value, shift =>
    if 64 ≤ shift then .error (invalid "ots-proof-parse-failed")
    else do
      let (byte, cursor) ← cursor.readU8
      let value := value ||| ((byte &&& 0x7f).toUInt64 <<< UInt64.ofNat shift)
      if byte &&& 0x80 = 0 then pure (value, cursor)
      else readVaruintLoop steps cursor value (shift + 7)

/-- `read_varuint`; the shift leaves room for ten groups. -/
def readVaruint (cursor : OtsCursor) : Except OtsFailure (UInt64 × OtsCursor) :=
  readVaruintLoop 11 cursor 0 0

def assertEof (cursor : OtsCursor) : Except OtsFailure Unit :=
  Except.require (invalid "ots-proof-trailing-garbage") (cursor.offset = cursor.raw.length)

end OtsCursor

/-! ## Reading at a cursor -/

/-- A cursor with these bytes behind it and this input before it. -/
def cursorAt (before input : Bytes) : OtsCursor := ⟨before ++ input, before.length⟩

section

variable {before input : Bytes} (hraw : (before ++ input).length < 2 ^ 63)
include hraw

/-- Bytes are read off the front, and the cursor stands behind them. -/
theorem readBytes_eq_ok {len : Nat} {bytes : Bytes} {next : OtsCursor} :
    (cursorAt before input).readBytes len = .ok (bytes, next)
      ↔ ∃ rest, input = bytes ++ rest ∧ bytes.length = len
        ∧ next = cursorAt (before ++ bytes) rest := by
  rw [List.length_append] at hraw
  simp only [OtsCursor.readBytes, cursorAt, Except.bind_eq_ok, Except.ofOption_eq_ok,
    checkedAddUsize_eq_some, Except.require_eq_ok, decide_eq_true_eq, List.length_append]
  constructor
  · rintro ⟨stop, ⟨-, rfl⟩, -, -, slice, hslice, h⟩
    cases h
    obtain ⟨rest, rfl, hlength⟩ := getRange_cursor.mp hslice
    exact ⟨rest, rfl, hlength, by rw [List.append_assoc, hlength]⟩
  · rintro ⟨rest, rfl, rfl, rfl⟩
    rw [List.length_append] at hraw ⊢
    exact ⟨_, ⟨by omega, rfl⟩, (), by omega, bytes, getRange_cursor.mpr ⟨rest, rfl, rfl⟩,
      by rw [List.append_assoc]; rfl⟩

/-- A byte is read off the front, and the cursor stands behind it. -/
theorem readU8_eq_ok {byte : UInt8} {next : OtsCursor} :
    (cursorAt before input).readU8 = .ok (byte, next)
      ↔ ∃ rest, input = byte :: rest ∧ next = cursorAt (before ++ [byte]) rest := by
  simp only [OtsCursor.readU8, Except.bind_eq_ok, Except.ofOption_eq_ok]
  constructor
  · rintro ⟨⟨bytes, cursor⟩, hread, byte', hbyte, h⟩
    cases h
    obtain ⟨rest, rfl, hlength, rfl⟩ := (readBytes_eq_ok hraw).mp hread
    obtain ⟨first, rfl⟩ := List.length_eq_one_iff.mp hlength
    cases hbyte
    exact ⟨rest, rfl, rfl⟩
  · rintro ⟨rest, rfl, rfl⟩
    exact ⟨([byte], _), (readBytes_eq_ok hraw).mpr ⟨rest, rfl, rfl, rfl⟩, byte, rfl, rfl⟩

end

/-! ## Failures that are returned -/

/-- The computation neither panics nor is cut off: what it fails with is an error it returns. -/
def Returns {α : Type} (result : Except OtsFailure α) : Prop :=
  ∀ failure, result = .error failure → ∃ error, failure = .internal error

/-- A value is no panic. -/
theorem Returns.ok {α : Type} (value : α) : Returns (.ok value) := by
  intro failure h
  cases h

/-- An error of the parser is no panic. -/
theorem Returns.internal {α : Type} (error : OtsInternalError) :
    Returns (.error (.internal error) : Except OtsFailure α) := by
  intro failure h
  cases h
  exact ⟨error, rfl⟩

/-- Steps that return return one after the other. -/
theorem Returns.bind {α β : Type} {result : Except OtsFailure α} {f : α → Except OtsFailure β}
    (hresult : Returns result) (hf : ∀ value, result = .ok value → Returns (f value)) :
    Returns (result >>= f) := by
  cases result with
  | error failure =>
    intro failure' h
    cases h
    exact hresult failure rfl
  | ok value => exact hf value rfl

/-- A failed condition is an error, no panic. -/
theorem Returns.require (error : OtsInternalError) (condition : Bool) :
    Returns (Except.require (.internal error) condition) := by
  cases condition with
  | false => exact Returns.internal error
  | true => exact Returns.ok ()

/-- Missing bytes are an error, no panic. -/
theorem readBytes_returns {before input : Bytes} (len : Nat) :
    Returns ((cursorAt before input).readBytes len) := by
  unfold OtsCursor.readBytes cursorAt
  simp only [checkedAddUsize]
  split_ifs with hoverflow
  · refine (Returns.require _ _).bind fun _ hstop => ?_
    -- Within the proof the slice is there.
    rw [Except.require_eq_ok, decide_eq_true_eq] at hstop
    rw [getRange, if_pos ⟨by omega, hstop⟩]
    exact Returns.ok _
  · exact Returns.internal _

/-- A missing byte is an error, no panic. -/
theorem readU8_returns {before input : Bytes} (hraw : (before ++ input).length < 2 ^ 63) :
    Returns (cursorAt before input).readU8 := by
  refine (readBytes_returns 1).bind fun result hread => ?_
  obtain ⟨bytes, next⟩ := result
  obtain ⟨rest, -, hlength, -⟩ := (readBytes_eq_ok hraw).mp hread
  obtain ⟨first, rfl⟩ := List.length_eq_one_iff.mp hlength
  exact Returns.ok _

/-! ## Numbers -/

/-- The number that groups of seven bits stand for, the lowest group first. -/
def groupsValue : Bytes → Nat
  | [] => 0
  | byte :: bytes => byte.toNat % 128 + 128 * groupsValue bytes

/-- The bytes of a numeral: the last one ends it, all others continue it. -/
def IsNumeral (bytes : Bytes) : Prop :=
  ∃ groups last, bytes = groups ++ [last] ∧ (∀ byte ∈ groups, 128 ≤ byte.toNat) ∧ last.toNat < 128

/-- A group is the last when its high bit is clear. -/
theorem ends_iff (byte : UInt8) : byte &&& 0x80 = 0 ↔ byte.toNat < 128 := by
  have hlt := byte.toNat_lt
  have hand : (byte &&& 0x80).toNat = (byte.toNat.testBit 7).toNat * 2 ^ 7 := by
    rw [UInt8.toNat_and]
    exact Nat.and_two_pow byte.toNat 7
  rw [← UInt8.toNat_inj, hand, Nat.testBit_eq_decide_div_mod_eq]
  by_cases hbit : byte.toNat / 2 ^ 7 % 2 = 1
  · simp only [hbit, decide_true, Bool.toNat_true, UInt8.toNat_zero]
    omega
  · simp only [hbit, decide_false, Bool.toNat_false, UInt8.toNat_zero]
    omega

/-- A group has the low seven bits. -/
theorem toNat_group (byte : UInt8) : (byte &&& 0x7f).toUInt64.toNat = byte.toNat % 128 := by
  rw [UInt8.toNat_toUInt64, UInt8.toNat_and]
  exact Nat.and_two_pow_sub_one_eq_mod byte.toNat 7

/-- A group goes where the value is still empty, as far as the word reaches. -/
theorem toNat_insert {value : UInt64} {shift : Nat} (hshift : shift < 64)
    (hvalue : value.toNat < 2 ^ shift) (byte : UInt8) :
    (value ||| ((byte &&& 0x7f).toUInt64 <<< UInt64.ofNat shift)).toNat
      = (value.toNat + 2 ^ shift * (byte.toNat % 128)) % 2 ^ 64 := by
  have hword : (2 : Nat) ^ 64 = 2 ^ shift * 2 ^ (64 - shift) := by
    rw [← Nat.pow_add]
    congr 1
    omega
  have hamount : (UInt64.ofNat shift).toNat % 64 = shift := by
    rw [UInt64.toNat_ofNat_of_lt64 (by omega), Nat.mod_eq_of_lt hshift]
  have hpow : 0 < 2 ^ shift := Nat.two_pow_pos shift
  have hor : ∀ x, value.toNat ||| 2 ^ shift * x = value.toNat + 2 ^ shift * x := by
    intro x
    rw [Nat.lor_comm, ← Nat.two_pow_add_eq_or_of_lt hvalue, Nat.add_comm]
  rw [UInt64.toNat_or, UInt64.toNat_shiftLeft, hamount, toNat_group, Nat.shiftLeft_eq, hword,
    Nat.mul_comm (byte.toNat % 128), Nat.mul_mod_mul_left, hor, Nat.mod_mul,
    Nat.add_mul_mod_self_left, Nat.mod_eq_of_lt hvalue, Nat.add_mul_div_left _ _ hpow,
    Nat.div_eq_of_lt hvalue, Nat.zero_add]

/-- A group more makes the value seven bits longer at most. -/
theorem insert_lt {value : UInt64} {shift : Nat} (hvalue : value.toNat < 2 ^ shift) (byte : UInt8)
    (hshift : shift + 7 < 64) :
    (value ||| ((byte &&& 0x7f).toUInt64 <<< UInt64.ofNat shift)).toNat < 2 ^ (shift + 7) := by
  have hgroup : byte.toNat % 128 ≤ 127 := by omega
  have hsum : value.toNat + 2 ^ shift * (byte.toNat % 128) < 2 ^ (shift + 7) := by
    calc value.toNat + 2 ^ shift * (byte.toNat % 128)
        < 2 ^ shift + 2 ^ shift * 127 :=
          Nat.add_lt_add_of_lt_of_le hvalue (Nat.mul_le_mul_left _ hgroup)
      _ = 2 ^ (shift + 7) := by rw [Nat.pow_add]; omega
  rw [toNat_insert (by omega) hvalue]
  exact Nat.lt_of_le_of_lt (Nat.mod_le _ _) hsum

/-- What the later groups add goes on top. -/
theorem insert_add {value : UInt64} {shift : Nat} (hshift : shift < 64)
    (hvalue : value.toNat < 2 ^ shift) (byte : UInt8) (high : Nat) :
    ((value ||| ((byte &&& 0x7f).toUInt64 <<< UInt64.ofNat shift)).toNat
        + 2 ^ (shift + 7) * high) % 2 ^ 64
      = (value.toNat + 2 ^ shift * (byte.toNat % 128 + 128 * high)) % 2 ^ 64 := by
  rw [toNat_insert hshift hvalue, Nat.mod_add_mod, Nat.pow_add, Nat.mul_add, Nat.mul_assoc,
    Nat.add_assoc]

/-- The loop takes a numeral off the input that fits under the guard, and reads it modulo the
word. -/
theorem readVaruintLoop_eq_ok {steps shift : Nat} {before input : Bytes} {value read : UInt64}
    {next : OtsCursor} (hraw : (before ++ input).length < 2 ^ 63)
    (hvalue : shift < 64 → value.toNat < 2 ^ shift) (hsteps : 71 ≤ shift + 7 * steps) :
    OtsCursor.readVaruintLoop steps (cursorAt before input) value shift = .ok (read, next)
      ↔ ∃ numeral rest, input = numeral ++ rest ∧ IsNumeral numeral
        ∧ shift + 7 * numeral.length < 71
        ∧ read.toNat = (value.toNat + 2 ^ shift * groupsValue numeral) % 2 ^ 64
        ∧ next = cursorAt (before ++ numeral) rest := by
  induction steps generalizing shift before input value with
  -- no step left: the length bounds the steps, so there is no numeral
  | zero =>
    constructor
    · intro h
      cases h
    · rintro ⟨numeral, rest, -, -, hlength, -⟩
      omega
  | succ steps ih =>
    rw [OtsCursor.readVaruintLoop]
    -- past the guard a numeral would be too long
    by_cases hguard : 64 ≤ shift
    · rw [if_pos hguard]
      constructor
      · intro h
        cases h
      · rintro ⟨numeral, rest, -, ⟨groups, last, rfl, -, -⟩, hlength, -⟩
        rw [List.length_append, List.length_singleton] at hlength
        omega
    · have hshift : shift < 64 := by omega
      rw [if_neg hguard]
      simp only [Except.bind_eq_ok]
      constructor
      -- from the loop to the numeral
      · rintro ⟨⟨byte, cursor⟩, hread, h⟩
        obtain ⟨rest, rfl, rfl⟩ := (readU8_eq_ok hraw).mp hread
        have hinsert := toNat_insert hshift (hvalue hshift) byte
        dsimp only at h
        by_cases hend : byte &&& 0x80 = 0
        -- the last group ends the numeral
        · rw [if_pos hend] at h
          cases h
          refine ⟨[byte], rest, rfl, ⟨[], byte, rfl, by simp, (ends_iff byte).mp hend⟩, ?_, ?_, rfl⟩
          · rw [List.length_singleton]
            omega
          · rw [hinsert, groupsValue, groupsValue, Nat.mul_zero, Nat.add_zero]
        · rw [if_neg hend] at h
          -- a group that continues stands in front of the numeral of the induction
          have hcontinues : 128 ≤ byte.toNat := by
            rw [ends_iff] at hend
            omega
          rw [← List.singleton_append, ← List.append_assoc] at hraw
          rw [ih hraw (insert_lt (hvalue hshift) byte) (by omega)] at h
          obtain ⟨numeral, rest, rfl, hnumeral, hlength, hvalue', rfl⟩ := h
          obtain ⟨groups, last, rfl, hgroups, hlast⟩ := hnumeral
          refine ⟨byte :: (groups ++ [last]), rest, rfl,
            ⟨byte :: groups, last, rfl, List.forall_mem_cons.mpr ⟨hcontinues, hgroups⟩, hlast⟩, ?_,
            ?_, ?_⟩
          · rw [List.length_cons]
            omega
          · rw [hvalue', insert_add hshift (hvalue hshift), groupsValue]
          · rw [List.append_assoc, List.singleton_append]
      -- from the numeral to the loop
      · rintro ⟨numeral, rest, rfl, hnumeral, hlength, hread, rfl⟩
        obtain ⟨groups, last, rfl, hgroups, hlast⟩ := hnumeral
        cases groups with
        -- one group: the loop ends with it
        | nil =>
          refine ⟨(last, _), (readU8_eq_ok hraw).mpr ⟨rest, rfl, rfl⟩, ?_⟩
          dsimp only
          rw [if_pos ((ends_iff last).mpr hlast)]
          have hvalue' : read = value ||| ((last &&& 0x7f).toUInt64 <<< UInt64.ofNat shift) := by
            rw [← UInt64.toNat_inj, hread, toNat_insert hshift (hvalue hshift)]
            rfl
          rw [hvalue']
          rfl
        -- more groups: the loop goes on with the value so far
        | cons byte groups =>
          obtain ⟨hcontinues, hgroups⟩ := List.forall_mem_cons.mp hgroups
          refine ⟨(byte, _), (readU8_eq_ok hraw).mpr ⟨groups ++ [last] ++ rest, rfl, rfl⟩, ?_⟩
          dsimp only
          rw [if_neg (by rw [ends_iff]; omega)]
          rw [List.cons_append, List.cons_append, ← List.singleton_append, ← List.append_assoc]
            at hraw
          rw [List.cons_append, List.length_cons] at hlength
          rw [ih hraw (insert_lt (hvalue hshift) byte) (by omega)]
          refine ⟨groups ++ [last], rest, rfl, ⟨groups, last, rfl, hgroups, hlast⟩,
            by omega, ?_, ?_⟩
          · rw [hread, insert_add hshift (hvalue hshift)]
            rfl
          · rw [List.append_assoc, List.singleton_append]
            rfl

/-- `read_varuint` reads a numeral of at most ten groups, modulo the word. -/
theorem readVaruint_eq_ok {before input : Bytes} {read : UInt64} {next : OtsCursor}
    (hraw : (before ++ input).length < 2 ^ 63) :
    (cursorAt before input).readVaruint = .ok (read, next)
      ↔ ∃ numeral rest, input = numeral ++ rest ∧ IsNumeral numeral ∧ numeral.length ≤ 10
        ∧ read.toNat = groupsValue numeral % 2 ^ 64 ∧ next = cursorAt (before ++ numeral) rest := by
  rw [OtsCursor.readVaruint, readVaruintLoop_eq_ok hraw (by simp) (by omega)]
  simp only [UInt64.toNat_zero, Nat.pow_zero, Nat.one_mul, Nat.zero_add]
  constructor
  · rintro ⟨numeral, rest, hinput, hnumeral, hlength, hread, hnext⟩
    exact ⟨numeral, rest, hinput, hnumeral, by omega, hread, hnext⟩
  · rintro ⟨numeral, rest, hinput, hnumeral, hlength, hread, hnext⟩
    exact ⟨numeral, rest, hinput, hnumeral, by omega, hread, hnext⟩

/-- The loop ends at shift 64 at the latest, with no panic. Induction on the steps left. -/
theorem readVaruintLoop_returns {steps shift : Nat} {before input : Bytes} {value : UInt64}
    (hraw : (before ++ input).length < 2 ^ 63) (hsteps : 71 ≤ shift + 7 * steps)
    (hpos : 0 < steps) :
    Returns (OtsCursor.readVaruintLoop steps (cursorAt before input) value shift) := by
  induction steps generalizing shift before input value with
  | zero => omega
  | succ steps ih =>
    rw [OtsCursor.readVaruintLoop]
    split_ifs with hguard
    · exact Returns.internal _
    · refine (readU8_returns hraw).bind fun result hread => ?_
      obtain ⟨byte, cursor⟩ := result
      obtain ⟨rest, rfl, rfl⟩ := (readU8_eq_ok hraw).mp hread
      dsimp only
      split_ifs with hend
      · exact Returns.ok _
      · rw [← List.singleton_append, ← List.append_assoc] at hraw
        exact ih hraw (by omega) (by omega)

/-- A number is read, or refused, with no panic. -/
theorem readVaruint_returns {before input : Bytes} (hraw : (before ++ input).length < 2 ^ 63) :
    Returns (cursorAt before input).readVaruint :=
  readVaruintLoop_returns hraw (by omega) (by omega)

/-! ## Numerals that are read as what they stand for -/

/-- More groups stand above the first. -/
theorem groupsValue_append (groups more : Bytes) :
    groupsValue (groups ++ more) = groupsValue groups + 128 ^ groups.length * groupsValue more := by
  induction groups with
  | nil => simp [groupsValue]
  | cons byte groups ih =>
    rw [List.cons_append, groupsValue, groupsValue, ih, List.length_cons, Nat.pow_succ, Nat.mul_add,
      ← Nat.mul_assoc, Nat.mul_comm 128 (128 ^ groups.length), Nat.add_assoc]

/-- Groups have a value of seven bits each. -/
theorem groupsValue_lt (bytes : Bytes) : groupsValue bytes < 128 ^ bytes.length := by
  induction bytes with
  | nil => simp [groupsValue]
  | cons byte bytes ih =>
    have hgroup : byte.toNat % 128 < 128 := Nat.mod_lt _ (by omega)
    rw [groupsValue, List.length_cons, Nat.pow_succ]
    omega

/-- Nine bytes that continue a numeral, and a tenth that ends it with more than one bit. -/
def Overlong (input : Bytes) : Prop :=
  (∀ byte ∈ input.take 9, 128 ≤ byte.toNat)
    ∧ ∃ last, input[9]? = some last ∧ 1 < last.toNat ∧ last.toNat < 128

/-- What is overlong starts with a numeral. -/
theorem Overlong.numeral {input : Bytes} (h : Overlong input) :
    ∃ numeral rest, input = numeral ++ rest ∧ IsNumeral numeral := by
  obtain ⟨hcontinued, last, hlast, -, hend⟩ := h
  obtain ⟨hlt, hget⟩ := List.getElem?_eq_some_iff.mp hlast
  refine ⟨input.take 9 ++ [last], input.drop 10, ?_, _, _, rfl, hcontinued, hend⟩
  rw [← hget, List.take_append_getElem, List.take_append_drop]

/-- A numeral is overlong when it has ten groups and a value past 64 bits. -/
theorem overlong_iff {numeral rest : Bytes} (h : IsNumeral numeral) :
    Overlong (numeral ++ rest) ↔ numeral.length = 10 ∧ 2 ^ 64 ≤ groupsValue numeral := by
  obtain ⟨groups, last, rfl, hgroups, hlast⟩ := h
  have hsingle : groupsValue [last] = last.toNat := by
    rw [groupsValue, groupsValue, Nat.mul_zero, Nat.add_zero, Nat.mod_eq_of_lt hlast]
  have hlow := groupsValue_lt groups
  rw [groupsValue_append, hsingle, List.length_append, List.length_singleton, List.append_assoc,
    List.singleton_append]
  constructor
  · rintro ⟨hcontinued, last', hlast', hmore, hend⟩
    -- The numeral ends neither before the tenth byte nor after it.
    have hlength : groups.length = 9 := by
      rcases Nat.lt_trichotomy groups.length 9 with hlt | heq | hgt
      · have hmem : last ∈ (groups ++ last :: rest).take 9 := by
          rw [List.mem_take_iff_getElem]
          exact ⟨groups.length, by simp; omega, by simp⟩
        have := hcontinued last hmem
        omega
      · exact heq
      · rw [List.getElem?_append_left hgt] at hlast'
        have := hgroups last' (List.mem_of_getElem? hlast')
        omega
    have hsame : last' = last := by
      rw [List.getElem?_append_right (by omega), hlength] at hlast'
      simpa using hlast'.symm
    subst hsame
    refine ⟨by omega, ?_⟩
    rw [hlength]
    have : 128 ^ 9 * 2 ≤ 128 ^ 9 * last'.toNat := Nat.mul_le_mul_left _ hmore
    omega
  · rintro ⟨hlength, hvalue⟩
    have hnine : groups.length = 9 := by omega
    rw [hnine] at hvalue hlow
    refine ⟨?_, last, ?_, ?_, hlast⟩
    · rw [List.take_append_of_le_length (by omega), List.take_of_length_le (by omega)]
      exact hgroups
    · rw [List.getElem?_append_right (by omega), hnine]
      rfl
    · by_contra hsmall
      have : 128 ^ 9 * last.toNat ≤ 128 ^ 9 * 1 := Nat.mul_le_mul_left _ (by omega)
      omega

/-- The bytes between two positions of a proof. -/
def OtsCursor.consumed (cursor next : OtsCursor) : Bytes :=
  (cursor.raw.take next.offset).drop cursor.offset

/-- What was consumed is the part between the two cursors. -/
theorem consumed_cursorAt (before part rest : Bytes) :
    (cursorAt before (part ++ rest)).consumed (cursorAt (before ++ part) rest) = part := by
  rw [OtsCursor.consumed, cursorAt, cursorAt, ← List.append_assoc]
  simp only [List.take_left, List.drop_left]

/-- The number is the one that is encoded, unless the tenth group of the numeral is too large. -/
theorem readVaruint_exact_iff {before input : Bytes} (hraw : (before ++ input).length < 2 ^ 63) :
    (∀ read next, (cursorAt before input).readVaruint = .ok (read, next) →
        read.toNat = groupsValue ((cursorAt before input).consumed next))
      ↔ ¬ Overlong input := by
  constructor
  · intro hexact hover
    obtain ⟨numeral, rest, rfl, hnumeral⟩ := hover.numeral
    obtain ⟨hlength, hvalue⟩ := (overlong_iff hnumeral).mp hover
    have hread : (cursorAt before (numeral ++ rest)).readVaruint
        = .ok (UInt64.ofNat (groupsValue numeral), cursorAt (before ++ numeral) rest) := by
      rw [readVaruint_eq_ok hraw]
      exact ⟨numeral, rest, rfl, hnumeral, by omega, UInt64.toNat_ofNat', rfl⟩
    have heq := hexact _ _ hread
    have hword := (UInt64.ofNat (groupsValue numeral)).toNat_lt
    rw [consumed_cursorAt] at heq
    omega
  · intro hfits read next hread
    obtain ⟨numeral, rest, rfl, hnumeral, hlength, hvalue, rfl⟩ := (readVaruint_eq_ok hraw).mp hread
    rw [consumed_cursorAt, hvalue]
    apply Nat.mod_eq_of_lt
    by_contra hover
    -- Nine groups fit in the word, so it was the tenth.
    have hten : numeral.length = 10 := by
      by_contra hne
      have hlow := groupsValue_lt numeral
      have hpow : 128 ^ numeral.length ≤ 128 ^ 9 := Nat.pow_le_pow_right (by omega) (by omega)
      omega
    exact hfits ((overlong_iff hnumeral).mpr ⟨hten, by omega⟩)

end TrackOne.Ots
