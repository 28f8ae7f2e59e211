import TrackOne.Lib.Civil
import TrackOne.Lib.FixedWidth
import TrackOne.Lib.Slice

/-!
# Timestamps as text

`trackone-sensorthings/src/timefmt.rs`. Times are seconds since 1970; no step of the arithmetic
leaves the 64 bits, and divisions truncate, as in the source. The year is narrowed to 32 bits before
it is written.

* `daysFromCivil_eq`, `civilFromDays_eq`: the conversions are those of the calendar, up to that
  narrowing.
* `parseU32_eq_ok`: a number is read from a field of its width.
-/

namespace TrackOne.SensorThings

open Decimal

/-! ## The calendar -/

def isLeapYear (year : Int) : Bool :=
  (year.tmod 4 = 0 && year.tmod 100 ≠ 0) || year.tmod 400 = 0

def daysInMonth (year : Int) (month : Nat) : Nat :=
  if month ∈ [1, 3, 5, 7, 8, 10, 12] then 31
  else if month ∈ [4, 6, 9, 11] then 30
  else if month = 2 then (if isLeapYear year then 29 else 28)
  else 0

def daysFromCivil (year : Int) (month day : Nat) : Int :=
  let month : Int := month
  let year := year - (if month ≤ 2 then 1 else 0)
  let era := (if 0 ≤ year then year else year - 399).tdiv 400
  let yoe := year - era * 400
  let doy := (153 * (month + (if 2 < month then -3 else 9)) + 2).tdiv 5 + day - 1
  let doe := yoe * 365 + yoe.tdiv 4 - yoe.tdiv 100 + doy
  era * 146097 + doe - 719468

/-- `year as i32`. -/
def asI32 (year : Int) : Int := year.bmod (2 ^ 32)

def civilFromDays (days : Int) : Int × Nat × Nat :=
  let days := days + 719468
  let era := (if 0 ≤ days then days else days - 146096).tdiv 146097
  let doe := days - era * 146097
  let yoe := (doe - doe.tdiv 1460 + doe.tdiv 36524 - doe.tdiv 146096).tdiv 365
  let y := yoe + era * 400
  let doy := doe - (365 * yoe + yoe.tdiv 4 - yoe.tdiv 100)
  let mp := (5 * doy + 2).tdiv 153
  let day := doy - (153 * mp + 2).tdiv 5 + 1
  let month := mp + (if mp < 10 then 3 else -9)
  let year := y + (if month ≤ 2 then 1 else 0)
  (asI32 year, month.toNat, day.toNat)

/-! ## Text -/

structure Timestamp where
  unixSeconds : Int
deriving DecidableEq, Repr

/-- `{n:0width}`: zeros go between the sign and the digits. -/
def paddedInt (width : Nat) (n : Int) : List Char :=
  if n < 0 then '-' :: padded (width - 1) n.natAbs else padded width n.natAbs

/-- The characters of a time, up to the `Z`. -/
def stamp (year : Int) (month day hour minute second : Nat) : List Char :=
  paddedInt 4 year ++ '-' :: (padded 2 month ++ '-' :: (padded 2 day ++ 'T' :: (padded 2 hour
    ++ ':' :: (padded 2 minute ++ ':' :: padded 2 second))))

def formatRfc3339Utc (unixSeconds : Int) : String :=
  let days := unixSeconds / 86400
  let secondsOfDay := (unixSeconds % 86400).toNat
  let (year, month, day) := civilFromDays days
  let hour := secondsOfDay / 3600
  let minute := secondsOfDay % 3600 / 60
  let second := secondsOfDay % 60
  String.ofList (stamp year month day hour minute second ++ ['Z'])

/-- The body of the loop of `parse_u32`. -/
def parseDigit (value : Nat) (byte : UInt8) : Except Unit Nat :=
  if isAsciiDigit byte then .ok (value * 10 + (byte.toNat - 48)) else .error ()

/-- `parse_u32`; the fields have four digits at most. -/
def parseU32 (bytes : Bytes) (start len : Nat) : Except Unit Nat := do
  let slice ← Except.ofOption () (getRange bytes start (start + len))
  slice.foldlM parseDigit 0

def expect (bytes : Bytes) (idx : Nat) (expected : UInt8) : Except Unit Unit :=
  Except.require () (bytes[idx]? = some expected)

def validateDateTime (year : Int) (month day hour minute second : Nat) : Except Unit Unit := do
  Except.require () (1 ≤ month && month ≤ 12)
  Except.require () (!(day = 0 || daysInMonth year month < day))
  Except.require () (!(23 < hour || 59 < minute || 59 < second))

/-- The fraction: the position behind its digits, of which there is one at least. -/
def parseFraction (bytes : Bytes) (pos : Nat) : Except Unit Nat :=
  if bytes[pos]? = some 0x2e then do
    let fracStart := pos + 1
    let stop := fracStart + ((bytes.drop fracStart).takeWhile isAsciiDigit).length
    Except.require () (stop ≠ fracStart)
    pure stop
  else pure pos

/-- The offset in seconds, and the position behind it. -/
def parseOffset (bytes : Bytes) (pos : Nat) : Except Unit (Int × Nat) :=
  match bytes[pos]? with
  | none => .error ()
  | some byte =>
    if byte = 0x5a then .ok (0, pos + 1)
    else if byte = 0x2b ∨ byte = 0x2d then do
      let sign : Int := if byte = 0x2b then 1 else -1
      let offsetHour ← parseU32 bytes (pos + 1) 2
      expect bytes (pos + 3) 0x3a
      let offsetMinute ← parseU32 bytes (pos + 4) 2
      Except.require () (!(23 < offsetHour || 59 < offsetMinute))
      pure (sign * (offsetHour * 3600 + offsetMinute * 60), pos + 6)
    else .error ()

def parseRfc3339Timestamp (value : String) : Except Unit Timestamp := do
  let bytes := utf8Bytes value
  Except.require () (!(bytes.length < 20))
  let year ← parseU32 bytes 0 4
  expect bytes 4 0x2d
  let month ← parseU32 bytes 5 2
  expect bytes 7 0x2d
  let day ← parseU32 bytes 8 2
  expect bytes 10 0x54
  let hour ← parseU32 bytes 11 2
  expect bytes 13 0x3a
  let minute ← parseU32 bytes 14 2
  expect bytes 16 0x3a
  let second ← parseU32 bytes 17 2
  let pos ← parseFraction bytes 19
  let (offsetSeconds, pos) ← parseOffset bytes pos
  Except.require () (pos = bytes.length)
  validateDateTime year month day hour minute second
  let days := daysFromCivil year month day
  let localSeconds := days * 86400 + (hour : Int) * 3600 + (minute : Int) * 60 + second
  pure ⟨localSeconds - offsetSeconds⟩

/-! ## The conversions are those of the calendar -/

/-- A division that truncates rounds down after the shift. -/
theorem tdiv_shifted {n k : Int} (hk : 0 < k) :
    (if 0 ≤ n then n else n - (k - 1)).tdiv k = n / k := by
  split_ifs with hn
  · exact Int.tdiv_eq_ediv_of_nonneg hn
  · have hneg : n - (k - 1) = -(k - 1 - n) := by omega
    have hdivide := Int.emod_add_ediv_mul n k
    have hpos := Int.emod_nonneg n (Int.ne_of_gt hk)
    have hlt := Int.emod_lt_of_pos n hk
    have hsum : k - 1 - n = k - 1 - n % k + -(n / k) * k := by
      rw [Int.neg_mul]
      omega
    rw [hneg, Int.neg_tdiv, Int.tdiv_eq_ediv_of_nonneg (by omega), hsum,
      Int.add_mul_ediv_right _ _ (Int.ne_of_gt hk), Int.ediv_eq_zero_of_lt (by omega) (by omega)]
    omega

theorem daysFromCivil_eq {year : Int} {month day : Nat} (hpos : 1 ≤ month) (hle : month ≤ 12) :
    daysFromCivil year month day = Civil.dayNumber year month day := by
  unfold daysFromCivil Civil.dayNumber Civil.fromMarch Civil.daysBefore Civil.daysBeforeMonth
    Civil.epoch
  dsimp only
  rw [show (399 : Int) = 400 - 1 from rfl, tdiv_shifted (by decide)]
  by_cases hearly : (month : Int) ≤ 2
  · simp only [if_pos hearly, if_neg (show ¬ 2 < (month : Int) by omega)]
    rw [Int.tdiv_eq_ediv_of_nonneg (by omega), Int.tdiv_eq_ediv_of_nonneg (by omega),
      Int.tdiv_eq_ediv_of_nonneg (by omega)]
    omega
  · simp only [if_neg hearly, if_pos (show 2 < (month : Int) by omega), Int.sub_zero]
    rw [Int.tdiv_eq_ediv_of_nonneg (by omega), Int.tdiv_eq_ediv_of_nonneg (by omega),
      Int.tdiv_eq_ediv_of_nonneg (by omega), ← Int.sub_eq_add_neg]
    omega

theorem civilFromDays_eq (days : Int) :
    civilFromDays days = (asI32 (Civil.Date.ofNumber days).year,
      (Civil.Date.ofNumber days).month.toNat, (Civil.Date.ofNumber days).day.toNat) := by
  have hdoe : days + 719468 - (days + 719468) / 146097 * 146097 = (days + 719468) % 146097 := by
    omega
  have hpos : 0 ≤ (days + 719468) % 146097 := by omega
  have hlt : (days + 719468) % 146097 < Civil.daysPerEra := Int.emod_lt_of_pos _ (by decide)
  obtain ⟨hyear, -, hfirst, hlast⟩ := Civil.day_of_year hpos hlt
  unfold civilFromDays
  dsimp only
  rw [show (146096 : Int) = 146097 - 1 from rfl, tdiv_shifted (by decide), hdoe]
  show _ = (asI32 (Civil.ofDayNumber days).1, (Civil.ofDayNumber days).2.1.toNat,
    (Civil.ofDayNumber days).2.2.toNat)
  unfold Civil.ofDayNumber Civil.daysPerEra Civil.epoch
  dsimp only
  generalize (days + 719468) % 146097 = doe at *
  -- the source's quotients are those of the calendar, for nothing is negative
  have hyoe : (doe - doe.tdiv 1460 + doe.tdiv 36524 - doe.tdiv (146097 - 1)).tdiv 365
      = Civil.yearOfEra doe := by
    simp only [Int.tdiv_eq_ediv_of_nonneg hpos]
    exact Int.tdiv_eq_ediv_of_nonneg (by omega)
  rw [hyoe]
  generalize Civil.yearOfEra doe = yoe at *
  rw [Int.tdiv_eq_ediv_of_nonneg hyear, Int.tdiv_eq_ediv_of_nonneg hyear]
  have hdoy : 0 ≤ doe - (365 * yoe + yoe / 4 - yoe / 100) := Int.sub_nonneg_of_le hfirst
  have hdoyLe : doe - (365 * yoe + yoe / 4 - yoe / 100) ≤ 365 := by
    unfold Civil.lastDay Civil.daysBeforeYear at hlast
    split_ifs at hlast <;> omega
  unfold Civil.daysBeforeYear Civil.daysBeforeMonth
  generalize doe - (365 * yoe + yoe / 4 - yoe / 100) = doy at *
  rw [Int.tdiv_eq_ediv_of_nonneg (by omega)]
  have hmp : 0 ≤ (5 * doy + 2) / 153 ∧ (5 * doy + 2) / 153 ≤ 11 := by omega
  generalize (5 * doy + 2) / 153 = mp at *
  rw [Int.tdiv_eq_ediv_of_nonneg (by omega)]
  by_cases hspring : mp < 10
  · simp only [if_pos hspring, if_neg (show ¬ mp + 3 ≤ 2 by omega), Int.add_zero]
  · simp only [if_neg hspring, if_pos (show mp + -9 ≤ 2 by omega), Int.sub_eq_add_neg]

/-! ## Fields -/

theorem parseDigit_digit {value : Nat} {c : Char} (hc : c.isDigit) :
    parseDigit value (UInt8.ofNat c.toNat) = .ok (10 * value + digit c) := by
  obtain ⟨hvalue, hlt⟩ := toNat_of_isDigit hc
  have hbyte : (UInt8.ofNat c.toNat).toNat = digit c + 48 := by
    rw [UInt8.toNat_ofNat', hvalue, Nat.mod_eq_of_lt (by omega)]
  rw [parseDigit, if_pos ((isAsciiDigit_iff _).mpr (by omega)), hbyte, Nat.add_sub_cancel,
    Nat.mul_comm]

theorem foldlM_parseDigit {numeral : List Char} (h : ∀ c ∈ numeral, c.isDigit) (start : Nat) :
    (asciiBytes numeral).foldlM parseDigit start
      = .ok (numeral.foldl (fun n c => 10 * n + digit c) start) := by
  induction numeral generalizing start with
  | nil => rfl
  | cons c numeral ih =>
    obtain ⟨hc, hnumeral⟩ := List.forall_mem_cons.mp h
    have hcons : asciiBytes (c :: numeral) = UInt8.ofNat c.toNat :: asciiBytes numeral := rfl
    rw [hcons, List.foldlM_cons, parseDigit_digit hc, Except.ok_bind, ih hnumeral, List.foldl_cons]

theorem all_digits_of_foldlM {bytes : Bytes} {start value : Nat}
    (h : bytes.foldlM parseDigit start = .ok value) : bytes.all isAsciiDigit = true := by
  induction bytes generalizing start with
  | nil => rfl
  | cons byte bytes ih =>
    rw [List.foldlM_cons, Except.bind_eq_ok] at h
    obtain ⟨next, hdigit, hrest⟩ := h
    rw [parseDigit] at hdigit
    split_ifs at hdigit with hbyte
    rw [List.all_cons, hbyte, ih hrest]
    rfl

/-- A number is read from the field that is its padded numeral. -/
theorem parseU32_eq_ok {before input : Bytes} {pos len value : Nat} (hpos : before.length = pos)
    (hlen : 0 < len) :
    parseU32 (before ++ input) pos len = .ok value
      ↔ value < 10 ^ len ∧ ∃ rest, input = field len value ++ rest := by
  subst hpos
  simp only [parseU32, Except.bind_eq_ok, Except.ofOption_eq_ok, getRange_cursor]
  constructor
  · rintro ⟨slice, ⟨rest, rfl, rfl⟩, hvalue⟩
    obtain ⟨numeral, rfl, hdigits⟩ := exists_numeral (all_digits_of_foldlM hvalue)
    rw [foldlM_parseDigit hdigits] at hvalue
    obtain rfl := Except.ok.inj hvalue
    have hlength : (asciiBytes numeral).length = numeral.length := List.length_map _
    rw [hlength] at hlen ⊢
    refine ⟨value_lt hdigits, rest, ?_⟩
    show _ = field numeral.length (Decimal.value numeral) ++ rest
    rw [field, padded_value hlen hdigits]
  · rintro ⟨hlt, rest, rfl⟩
    refine ⟨field len value, ⟨rest, rfl, length_field hlen hlt⟩, ?_⟩
    rw [field, foldlM_parseDigit fun _ hc => isDigit_of_mem_padded hc]
    exact congrArg _ (value_padded len value)

theorem expect_eq_ok {before input : Bytes} {pos : Nat} {expected : UInt8}
    (hpos : before.length = pos) :
    expect (before ++ input) pos expected = .ok () ↔ ∃ rest, input = expected :: rest := by
  subst hpos
  rw [expect, Except.require_eq_ok, decide_eq_true_eq, List.getElem?_append_right (Nat.le_refl _),
    Nat.sub_self]
  cases input with
  | nil => simp
  | cons byte rest => simp [eq_comm]

end TrackOne.SensorThings
