import TrackOne.SensorThings.TimeFmt

/-!
# Times and their texts

A `CivilTime` is a time of the years 0000 to 9999, by its date and its time of day; `seconds` and
`ofSeconds` go to and fro. What the parser accepts is the text of one, a fraction and a zone.

* `parseRfc3339Timestamp_eq_ok`: exactly the accepted strings, and what each is read as.
* `formatRfc3339Utc_eq`: a time in those years is formatted as its text.
* `CivilTime.text_lt`: later times have larger texts.
-/

namespace TrackOne.SensorThings

open Decimal

/-! ## Times -/

@[ext]
structure CivilTime where
  date : Civil.Date
  hour : Nat
  minute : Nat
  second : Nat
  year_nonneg : 0 ≤ date.year
  year_le : date.year ≤ 9999
  hour_le : hour ≤ 23
  minute_le : minute ≤ 59
  second_le : second ≤ 59

/-- The date of a number of seconds. -/
def utcDate (unixSeconds : Int) : Civil.Date := Civil.Date.ofNumber (unixSeconds / 86400)

/-- The years that have four digits. -/
def InYears (unixSeconds : Int) : Prop :=
  0 ≤ (utcDate unixSeconds).year ∧ (utcDate unixSeconds).year ≤ 9999

namespace CivilTime

def seconds (time : CivilTime) : Int :=
  time.date.number * 86400 + (time.hour : Int) * 3600 + (time.minute : Int) * 60 + time.second

def ofSeconds (unixSeconds : Int) (h : InYears unixSeconds) : CivilTime where
  date := utcDate unixSeconds
  hour := (unixSeconds % 86400).toNat / 3600
  minute := (unixSeconds % 86400).toNat % 3600 / 60
  second := (unixSeconds % 86400).toNat % 60
  year_nonneg := h.1
  year_le := h.2
  hour_le := by omega
  minute_le := by omega
  second_le := by omega

/-- A civil time has the seconds it was made of. -/
@[simp] theorem seconds_ofSeconds (unixSeconds : Int) (h : InYears unixSeconds) :
    (ofSeconds unixSeconds h).seconds = unixSeconds := by
  rw [seconds, ofSeconds]
  dsimp only [utcDate]
  rw [Civil.Date.number_ofNumber]
  omega

/-- The days of a civil time are those of its date. -/
theorem seconds_div (time : CivilTime) : time.seconds / 86400 = time.date.number := by
  have := time.hour_le
  have := time.minute_le
  have := time.second_le
  unfold seconds
  omega

/-- The source's date of the seconds is the date of the civil time. -/
theorem utcDate_seconds (time : CivilTime) : utcDate time.seconds = time.date := by
  rw [utcDate, seconds_div, Civil.Date.ofNumber_number]

/-- A civil time is the one made of its seconds. -/
theorem ofSeconds_seconds (time : CivilTime) (h : InYears time.seconds) :
    ofSeconds time.seconds h = time := by
  have := time.hour_le
  have := time.minute_le
  have := time.second_le
  have hday : time.seconds % 86400 = (time.hour : Int) * 3600 + (time.minute : Int) * 60
    + time.second := by
    unfold seconds
    omega
  apply CivilTime.ext
  · exact time.utcDate_seconds
  · show (time.seconds % 86400).toNat / 3600 = time.hour
    omega
  · show (time.seconds % 86400).toNat % 3600 / 60 = time.minute
    omega
  · show (time.seconds % 86400).toNat % 60 = time.second
    omega

/-- The seconds of a civil time are in the supported years. -/
theorem inYears (time : CivilTime) : InYears time.seconds := by
  rw [InYears, utcDate_seconds]
  exact ⟨time.year_nonneg, time.year_le⟩

/-- The characters of a time, up to the `Z`. -/
def text (time : CivilTime) : List Char :=
  stamp time.date.year time.date.month.toNat time.date.day.toNat time.hour time.minute time.second

/-- A year has four digits. -/
theorem year_lt (time : CivilTime) : time.date.year.natAbs < 10 ^ 4 := by
  have := time.year_nonneg
  have := time.year_le
  omega

/-- A month has two digits. -/
theorem month_lt (time : CivilTime) : time.date.month.toNat < 10 ^ 2 := by
  have := time.date.month_le
  omega

/-- A day has two digits. -/
theorem day_lt (time : CivilTime) : time.date.day.toNat < 10 ^ 2 := by
  have := time.date.day_le
  have : Civil.daysInMonth time.date.year time.date.month ≤ 31 := by
    unfold Civil.daysInMonth
    split_ifs <;> omega
  omega

/-- A year is no negative number, and is padded as a natural one. -/
theorem paddedInt_year (time : CivilTime) :
    paddedInt 4 time.date.year = padded 4 time.date.year.natAbs :=
  if_neg (Int.not_lt.mpr time.year_nonneg)

end CivilTime

/-! ## Texts -/

/-- What is formatted is the text of the civil time in UTC. -/
theorem formatRfc3339Utc_eq {unixSeconds : Int} (h : InYears unixSeconds) :
    formatRfc3339Utc unixSeconds
      = String.ofList ((CivilTime.ofSeconds unixSeconds h).text ++ ['Z']) := by
  have hyear : asI32 (utcDate unixSeconds).year = (utcDate unixSeconds).year := by
    obtain ⟨hlow, hhigh⟩ := h
    exact Int.bmod_eq_of_le (by omega) (by omega)
  rw [formatRfc3339Utc, civilFromDays_eq]
  dsimp only
  rw [← utcDate, hyear]
  rfl

/-! ## Order -/

/-- Fields of one width are in the order of their numbers, whatever follows. -/
theorem padded_append_lt {width n m : Nat} (hwidth : 0 < width) (hm : m < 10 ^ width) (h : n < m)
    (rest rest' : List Char) : padded width n ++ rest < padded width m ++ rest' := by
  refine append_lt_append rest rest' ?_ (padded_lt hwidth hm h)
  rw [length_padded hwidth hm, length_padded hwidth (Nat.lt_trans h hm)]

/-- The same field and the same separator. -/
theorem append_cons_lt (xs : List Char) (c : Char) {rest rest' : List Char} (h : rest < rest') :
    xs ++ c :: rest < xs ++ c :: rest' :=
  append_lt_append_left xs (List.cons_lt_cons_iff.mpr (.inr ⟨rfl, h⟩))

namespace CivilTime

/-- The later time: by date, then by hour, minute and second. -/
theorem lt_cases {a b : CivilTime} (h : a.seconds < b.seconds) :
    a.date.Before b.date ∨ a.date = b.date
      ∧ (a.hour < b.hour ∨ a.hour = b.hour ∧ (a.minute < b.minute
      ∨ a.minute = b.minute ∧ a.second < b.second)) := by
  have := a.minute_le
  have := b.minute_le
  have := a.second_le
  have := b.second_le
  have := a.hour_le
  have := b.hour_le
  unfold seconds at h
  by_cases hdate : a.date = b.date
  · rw [hdate] at h
    exact .inr ⟨hdate, by omega⟩
  · have hnumber : a.date.number ≠ b.date.number := fun heq => hdate (Civil.number_injective heq)
    exact .inl (Civil.number_lt_iff.mp (by omega))

/-- The order of dates, on the numbers that are written. -/
theorem date_nat {a b : CivilTime} (h : a.date.Before b.date) :
    a.date.year.natAbs < b.date.year.natAbs ∨ a.date.year = b.date.year
      ∧ (a.date.month.toNat < b.date.month.toNat
        ∨ a.date.month = b.date.month ∧ a.date.day.toNat < b.date.day.toNat) := by
  have := a.year_nonneg
  have := b.year_nonneg
  have := b.date.month_pos
  have := b.date.day_pos
  unfold Civil.Date.Before at h
  omega

/-- Later times have larger texts. -/
theorem text_lt {a b : CivilTime} (h : a.seconds < b.seconds) (rest rest' : List Char) :
    a.text ++ rest < b.text ++ rest' := by
  unfold text stamp
  rw [paddedInt_year, paddedInt_year]
  simp only [List.append_assoc, List.cons_append]
  have hminute : ∀ time : CivilTime, time.minute < 10 ^ 2 := fun time => by
    have := time.minute_le
    omega
  have hhour : ∀ time : CivilTime, time.hour < 10 ^ 2 := fun time => by
    have := time.hour_le
    omega
  have hsecond : ∀ time : CivilTime, time.second < 10 ^ 2 := fun time => by
    have := time.second_le
    omega
  rcases lt_cases h with hdate | ⟨hdate, htime⟩
  · rcases date_nat hdate with hyear | ⟨hyear, hmonth | ⟨hmonth, hday⟩⟩
    · exact padded_append_lt (by decide) b.year_lt hyear _ _
    · rw [hyear]
      exact append_cons_lt _ _ (padded_append_lt (by decide) b.month_lt hmonth _ _)
    · rw [hyear, hmonth]
      exact append_cons_lt _ _ (append_cons_lt _ _ (padded_append_lt (by decide) b.day_lt hday _ _))
  · rw [hdate]
    refine append_cons_lt _ _ (append_cons_lt _ _ (append_cons_lt _ _ ?_))
    rcases htime with hhours | ⟨hhours, hminutes | ⟨hminutes, hseconds⟩⟩
    · exact padded_append_lt (by decide) (hhour b) hhours _ _
    · rw [hhours]
      exact append_cons_lt _ _ (padded_append_lt (by decide) (hminute b) hminutes _ _)
    · rw [hhours, hminutes]
      exact append_cons_lt _ _ (append_cons_lt _ _
        (padded_append_lt (by decide) (hsecond b) hseconds _ _))

end CivilTime

/-! ## Fractions and zones -/

/-- Nothing, or a point with digits behind it. -/
def IsFraction (fraction : Bytes) : Prop :=
  fraction = [] ∨ ∃ digits, fraction = 0x2e :: digits ∧ digits ≠ [] ∧ digits.all isAsciiDigit = true

inductive Zone where
  | utc
  | offset (ahead : Bool) (hour minute : Nat) (hour_le : hour ≤ 23) (minute_le : minute ≤ 59)

namespace Zone

def sign (ahead : Bool) : UInt8 := if ahead then 0x2b else 0x2d

def bytes : Zone → Bytes
  | .utc => [0x5a]
  | .offset ahead hour minute _ _ => sign ahead :: (field 2 hour ++ 0x3a :: field 2 minute)

/-- How far local time is ahead. -/
def seconds : Zone → Int
  | .utc => 0
  | .offset ahead hour minute _ _ =>
    (if ahead then 1 else -1) * ((hour : Int) * 3600 + (minute : Int) * 60)

end Zone

/-- Where a text goes on with something other than a fraction. -/
def EndsFraction (rest : Bytes) : Prop :=
  ∀ byte ∈ rest.head?, byte ≠ 0x2e ∧ isAsciiDigit byte = false

/-- A zone cannot be taken for more digits of a fraction. -/
theorem Zone.endsFraction (zone : Zone) (rest : Bytes) : EndsFraction (zone.bytes ++ rest) := by
  intro byte hbyte
  cases zone with
  | utc =>
    cases hbyte
    exact ⟨by decide, by decide⟩
  | offset ahead hour minute hhour hminute =>
    cases hbyte
    cases ahead <;> exact ⟨by decide, by decide⟩

/-- The byte at the cursor is the first of those after it. -/
theorem getElem?_cursor (before input : Bytes) :
    (before ++ input)[before.length]? = input.head? := by
  rw [List.getElem?_append_right (Nat.le_refl _), Nat.sub_self, List.head?_eq_getElem?]

/-- What is parsed as a fraction is one. -/
theorem parseFraction_ok {before input : Bytes} {pos : Nat}
    (h : parseFraction (before ++ input) before.length = .ok pos) :
    ∃ fraction rest, input = fraction ++ rest ∧ IsFraction fraction
      ∧ pos = (before ++ fraction).length := by
  rw [parseFraction, getElem?_cursor] at h
  split_ifs at h with hpoint
  · obtain ⟨rest, rfl⟩ := List.head?_eq_some_iff.mp hpoint
    rw [Except.bind_eq_ok] at h
    obtain ⟨_, hdigits, h⟩ := h
    cases h
    rw [List.append_cons, List.drop_left' (by simp)] at hdigits ⊢
    rw [Except.require_eq_ok, decide_eq_true_eq] at hdigits
    refine ⟨0x2e :: rest.takeWhile isAsciiDigit, rest.dropWhile isAsciiDigit, ?_,
      .inr ⟨_, rfl, ?_, ?_⟩, ?_⟩
    · rw [List.cons_append, List.takeWhile_append_dropWhile]
    · intro hnil
      rw [hnil] at hdigits
      exact hdigits rfl
    · exact List.all_takeWhile
    · simp only [List.length_append, List.length_cons]
      omega
  · cases h
    exact ⟨[], input, rfl, .inl rfl, by rw [List.append_nil]⟩

/-- A written fraction is parsed whole. -/
theorem parseFraction_write {before fraction rest : Bytes} (hfraction : IsFraction fraction)
    (hrest : EndsFraction rest) :
    parseFraction (before ++ (fraction ++ rest)) before.length
      = .ok (before ++ fraction).length := by
  rw [parseFraction, getElem?_cursor]
  rcases hfraction with rfl | ⟨digits, rfl, hne, hdigits⟩
  · rw [List.nil_append, if_neg, List.append_nil]
    · rfl
    · intro hpoint
      exact (hrest 0x2e hpoint).1 rfl
  · have hstop : (digits ++ rest).takeWhile isAsciiDigit = digits := by
      rw [List.takeWhile_append_of_pos (List.all_eq_true.mp hdigits)]
      cases rest with
      | nil => simp
      | cons byte rest => simp [(hrest byte rfl).2]
    have hpos : 0 < digits.length := List.length_pos_iff.mpr hne
    rw [List.cons_append, List.head?_cons, if_pos rfl]
    dsimp only
    rw [List.append_cons, List.drop_left' (by simp), hstop, decide_eq_true (by omega),
      List.length_append, List.length_cons, Nat.add_assoc, Nat.add_comm 1]
    rfl

/-- The parser of an offset takes exactly the zones, and gives their seconds. -/
theorem parseOffset_eq_ok {before input : Bytes} {offset : Int} {pos : Nat} :
    parseOffset (before ++ input) before.length = .ok (offset, pos)
      ↔ ∃ zone rest, input = Zone.bytes zone ++ rest ∧ offset = zone.seconds
        ∧ pos = (before ++ zone.bytes).length := by
  rw [parseOffset, getElem?_cursor]
  cases input with
  -- at the end there is no zone
  | nil =>
    refine iff_of_false (by simp) ?_
    rintro ⟨zone, rest, hinput, -⟩
    cases zone <;> cases hinput
  | cons byte input =>
    rw [List.head?_cons, List.append_cons]
    dsimp only
    -- `Z` is a zone by itself
    by_cases hutc : byte = 0x5a
    · subst hutc
      rw [if_pos rfl]
      constructor
      · intro h
        cases h
        exact ⟨.utc, input, rfl, rfl, by rw [Zone.bytes, List.length_append, List.length_singleton]⟩
      · rintro ⟨zone, rest, hinput, rfl, rfl⟩
        cases zone with
        | utc => rw [Zone.bytes, List.length_append, List.length_singleton, Zone.seconds]
        | offset ahead hour minute _ _ =>
          cases ahead <;> exact absurd (List.cons.inj hinput).1 (by decide)
    rw [if_neg hutc]
    -- a sign starts an offset in hours and minutes
    by_cases hzone : byte = 0x2b ∨ byte = 0x2d
    · rw [if_pos hzone]
      obtain ⟨ahead, rfl⟩ : ∃ ahead, byte = Zone.sign ahead := by
        rcases hzone with rfl | rfl
        · exact ⟨true, rfl⟩
        · exact ⟨false, rfl⟩
      have hahead : (if Zone.sign ahead = 0x2b then 1 else -1 : Int) = if ahead then 1 else -1 := by
        cases ahead <;> rfl
      simp only [Except.bind_eq_ok, Except.require_eq_ok, hahead]
      constructor
      -- two digits, a colon and two digits, each a step of the cursor
      · rintro ⟨hour, hhour, _, hcolon, minute, hminute, -, hbounds, h⟩
        obtain ⟨hhourLt, rest, rfl⟩ := (parseU32_eq_ok (by simp) (by decide)).mp hhour
        have hhourLength := length_field (show 0 < 2 by decide) hhourLt
        rw [← List.append_assoc] at hcolon hminute
        obtain ⟨rest, rfl⟩ := (expect_eq_ok (by simp [hhourLength])).mp hcolon
        rw [List.append_cons _ 0x3a] at hminute
        obtain ⟨hminuteLt, rest, rfl⟩ :=
          (parseU32_eq_ok (by simp [hhourLength]) (by decide)).mp hminute
        have hminuteLength := length_field (show 0 < 2 by decide) hminuteLt
        cases h
        simp only [Bool.not_eq_true', Bool.or_eq_false_iff, decide_eq_false_iff_not] at hbounds
        refine ⟨.offset ahead hour minute (by omega) (by omega), rest, ?_, rfl, ?_⟩
        · simp [Zone.bytes]
        · simp [Zone.bytes, hhourLength, hminuteLength]
      -- an offset that was written gives the same steps
      · rintro ⟨zone, rest, hinput, rfl, rfl⟩
        cases zone with
        | utc => exact absurd (List.cons.inj hinput).1 hutc
        | offset ahead' hour minute hhourLe hminuteLe =>
          obtain ⟨hsame, hrest⟩ := List.cons.inj hinput
          have hahead : ahead' = ahead := by
            cases ahead <;> cases ahead' <;> first | rfl | exact absurd hsame (by decide)
          subst hahead
          have hhourLt : hour < 10 ^ 2 := by omega
          have hminuteLt : minute < 10 ^ 2 := by omega
          have hinput : input = field 2 hour ++ (0x3a :: (field 2 minute ++ rest)) := by
            rw [hrest]
            exact List.append_assoc _ _ _
          have hhourLength := length_field (show 0 < 2 by decide) hhourLt
          have hlength : (before ++ (Zone.offset ahead' hour minute hhourLe hminuteLe).bytes).length
              = before.length + 6 := by
            simp [Zone.bytes, hhourLength, length_field (show 0 < 2 by decide) hminuteLt]
          rw [hinput, hlength]
          refine ⟨hour, ?_, (), ?_, minute, ?_, (), ?_, ?_⟩
          · exact (parseU32_eq_ok (by simp) (by decide)).mpr ⟨hhourLt, _, rfl⟩
          · rw [← List.append_assoc]
            exact (expect_eq_ok (by simp [hhourLength])).mpr ⟨_, rfl⟩
          · rw [← List.append_assoc, List.append_cons _ 0x3a]
            exact (parseU32_eq_ok (by simp [hhourLength]) (by decide)).mpr ⟨hminuteLt, _, rfl⟩
          · simp only [Bool.not_eq_true', Bool.or_eq_false_iff, decide_eq_false_iff_not]
            omega
          · rfl
    -- any other byte starts no zone
    · rw [if_neg hzone]
      refine iff_of_false (by simp) ?_
      rintro ⟨zone, rest, hinput, -⟩
      cases zone with
      | utc => exact hutc (List.cons.inj hinput).1
      | offset ahead hour minute _ _ =>
        refine hzone ?_
        rw [(List.cons.inj hinput).1]
        cases ahead
        · exact .inr rfl
        · exact .inl rfl

/-! ## What is accepted -/

/-- A text is written character by character. -/
theorem asciiBytes_cons (c : Char) (text : List Char) :
    asciiBytes (c :: text) = UInt8.ofNat c.toNat :: asciiBytes text := rfl

/-- The fields of a time, as they are read. -/
def dateTimeBytes (year month day hour minute second : Nat) (rest : Bytes) : Bytes :=
  field 4 year ++ (0x2d :: (field 2 month ++ (0x2d :: (field 2 day ++ (0x54 :: (field 2 hour
    ++ (0x3a :: (field 2 minute ++ (0x3a :: (field 2 second ++ rest))))))))))

/-- What follows a date and time is not part of it. -/
theorem dateTimeBytes_append (year month day hour minute second : Nat) (rest : Bytes) :
    dateTimeBytes year month day hour minute second rest
      = dateTimeBytes year month day hour minute second [] ++ rest := by
  simp [dateTimeBytes]

/-- The text of a civil time is its six fields. -/
theorem CivilTime.text_bytes (time : CivilTime) (rest : Bytes) :
    asciiBytes time.text ++ rest = dateTimeBytes time.date.year.natAbs time.date.month.toNat
      time.date.day.toNat time.hour time.minute time.second rest := by
  unfold text stamp dateTimeBytes
  rw [paddedInt_year]
  simp only [asciiBytes_append, asciiBytes_cons, List.append_assoc, List.cons_append]
  rfl

/-- The source's leap years are those of the calendar. -/
theorem isLeapYear_iff {year : Int} (h : 0 ≤ year) :
    isLeapYear year = true ↔ Civil.IsLeap year := by
  unfold isLeapYear Civil.IsLeap
  simp only [Int.tmod_eq_emod_of_nonneg h, Bool.or_eq_true, Bool.and_eq_true, decide_eq_true_eq]
  omega

/-- The source's month lengths are those of the calendar. -/
theorem daysInMonth_eq {year : Int} {month : Nat} (hyear : 0 ≤ year) (hpos : 1 ≤ month)
    (hle : month ≤ 12) : (daysInMonth year month : Int) = Civil.daysInMonth year month := by
  have hleap := isLeapYear_iff hyear
  unfold daysInMonth Civil.daysInMonth
  interval_cases month <;> simp [hleap]

/-- The checks of a date and a time of day pass on those that there are. -/
theorem validateDateTime_eq_ok {year : Int} {month day hour minute second : Nat}
    (hyear : 0 ≤ year) :
    validateDateTime year month day hour minute second = .ok ()
      ↔ 1 ≤ month ∧ month ≤ 12 ∧ 1 ≤ day ∧ (day : Int) ≤ Civil.daysInMonth year month ∧ hour ≤ 23
        ∧ minute ≤ 59 ∧ second ≤ 59 := by
  simp only [validateDateTime, Except.bind_eq_ok, Except.require_eq_ok, Bool.and_eq_true,
    Bool.not_eq_true', Bool.or_eq_false_iff, decide_eq_true_eq, decide_eq_false_iff_not]
  constructor
  · rintro ⟨-, hmonth, -, hday, htime⟩
    rw [← daysInMonth_eq hyear hmonth.1 hmonth.2]
    omega
  · rintro ⟨hpos, hle, hday, hdayLe, htime⟩
    rw [← daysInMonth_eq hyear hpos hle] at hdayLe
    exact ⟨(), ⟨hpos, hle⟩, (), by omega, by omega⟩

/-- A field and the separator behind it. -/
theorem field_separator_iff {before input : Bytes} {pos len value : Nat} {separator : UInt8}
    (hpos : before.length = pos) (hlen : 0 < len) :
    parseU32 (before ++ input) pos len = .ok value ∧ expect (before ++ input)
    (pos + len) separator = .ok ()
      ↔ value < 10 ^ len ∧ ∃ rest, input = field len value ++ separator :: rest := by
  rw [parseU32_eq_ok hpos hlen]
  constructor
  · rintro ⟨⟨hvalue, rest, rfl⟩, hseparator⟩
    rw [← List.append_assoc] at hseparator
    obtain ⟨rest, rfl⟩ :=
      (expect_eq_ok (by rw [List.length_append, hpos, length_field hlen hvalue])).mp
      hseparator
    exact ⟨hvalue, rest, rfl⟩
  · rintro ⟨hvalue, rest, rfl⟩
    refine ⟨⟨hvalue, _, rfl⟩, ?_⟩
    rw [← List.append_assoc]
    exact (expect_eq_ok (by rw [List.length_append, hpos, length_field hlen hvalue])).mpr
      ⟨rest, rfl⟩

/-- The bytes before the field that follows. -/
def afterField (before : Bytes) (len value : Nat) (separator : UInt8) : Bytes :=
  before ++ field len value ++ [separator]

/-- A field and its separator in front of the rest. -/
theorem afterField_append (before rest : Bytes) (len value : Nat) (separator : UInt8) :
    before ++ (field len value ++ separator :: rest)
      = afterField before len value separator ++ rest := by
  simp [afterField]

/-- A field moves the cursor by its width and its separator. -/
theorem length_afterField {before : Bytes} {pos len value : Nat} {separator : UInt8}
    (hpos : before.length = pos) (hlen : 0 < len) (hvalue : value < 10 ^ len) :
    (afterField before len value separator).length = pos + len + 1 := by
  simp only [afterField, List.length_append, List.length_singleton, hpos, length_field hlen hvalue]

/-- The fixed part of a text is read field by field. -/
theorem reads_iff {bytes : Bytes} {year month day hour minute second : Nat} :
    (parseU32 bytes 0 4 = .ok year ∧ expect bytes 4 0x2d = .ok ())
        ∧ (parseU32 bytes 5 2 = .ok month ∧ expect bytes 7 0x2d = .ok ())
        ∧ (parseU32 bytes 8 2 = .ok day ∧ expect bytes 10 0x54 = .ok ())
        ∧ (parseU32 bytes 11 2 = .ok hour ∧ expect bytes 13 0x3a = .ok ())
        ∧ (parseU32 bytes 14 2 = .ok minute ∧ expect bytes 16 0x3a = .ok ())
        ∧ parseU32 bytes 17 2 = .ok second
      ↔ (year < 10 ^ 4 ∧ month < 10 ^ 2 ∧ day < 10 ^ 2 ∧ hour < 10 ^ 2 ∧ minute < 10 ^ 2
        ∧ second < 10 ^ 2)
        ∧ ∃ rest, bytes = dateTimeBytes year month day hour minute second rest := by
  have hfirst := @field_separator_iff [] bytes 0 4 year 0x2d rfl (by decide)
  constructor
  -- field after field, each ends where the next one starts
  · rintro ⟨hyear, hmonth, hday, hhour, hminute, hsecond⟩
    obtain ⟨hyearLt, rest, rfl⟩ := hfirst.mp hyear
    rw [← List.nil_append (field 4 year ++ _), afterField_append]
      at hmonth hday hhour hminute hsecond
    have hpos := @length_afterField [] 0 4 year 0x2d rfl (by decide) hyearLt
    obtain ⟨hmonthLt, rest, rfl⟩ := (field_separator_iff hpos (by decide)).mp hmonth
    rw [afterField_append] at hday hhour hminute hsecond
    replace hpos := @length_afterField _ _ 2 month 0x2d hpos (by decide) hmonthLt
    obtain ⟨hdayLt, rest, rfl⟩ := (field_separator_iff hpos (by decide)).mp hday
    rw [afterField_append] at hhour hminute hsecond
    replace hpos := @length_afterField _ _ 2 day 0x54 hpos (by decide) hdayLt
    obtain ⟨hhourLt, rest, rfl⟩ := (field_separator_iff hpos (by decide)).mp hhour
    rw [afterField_append] at hminute hsecond
    replace hpos := @length_afterField _ _ 2 hour 0x3a hpos (by decide) hhourLt
    obtain ⟨hminuteLt, rest, rfl⟩ := (field_separator_iff hpos (by decide)).mp hminute
    rw [afterField_append] at hsecond
    replace hpos := @length_afterField _ _ 2 minute 0x3a hpos (by decide) hminuteLt
    obtain ⟨hsecondLt, rest, rfl⟩ := (parseU32_eq_ok hpos (by decide)).mp hsecond
    exact ⟨⟨hyearLt, hmonthLt, hdayLt, hhourLt, hminuteLt, hsecondLt⟩, rest, rfl⟩
  -- and the fields are read back one by one
  · rintro ⟨⟨hyear, hmonth, hday, hhour, hminute, hsecond⟩, rest, rfl⟩
    refine ⟨hfirst.mpr ⟨hyear, _, rfl⟩, ?_⟩
    rw [dateTimeBytes, ← List.nil_append (field 4 year ++ _), afterField_append]
    have hpos := @length_afterField [] 0 4 year 0x2d rfl (by decide) hyear
    refine ⟨(field_separator_iff hpos (by decide)).mpr ⟨hmonth, _, rfl⟩, ?_⟩
    rw [afterField_append]
    replace hpos := @length_afterField _ _ 2 month 0x2d hpos (by decide) hmonth
    refine ⟨(field_separator_iff hpos (by decide)).mpr ⟨hday, _, rfl⟩, ?_⟩
    rw [afterField_append]
    replace hpos := @length_afterField _ _ 2 day 0x54 hpos (by decide) hday
    refine ⟨(field_separator_iff hpos (by decide)).mpr ⟨hhour, _, rfl⟩, ?_⟩
    rw [afterField_append]
    replace hpos := @length_afterField _ _ 2 hour 0x3a hpos (by decide) hhour
    refine ⟨(field_separator_iff hpos (by decide)).mpr ⟨hminute, _, rfl⟩, ?_⟩
    rw [afterField_append]
    replace hpos := @length_afterField _ _ 2 minute 0x3a hpos (by decide) hminute
    exact (parseU32_eq_ok hpos (by decide)).mpr ⟨hsecond, _, rfl⟩

/-- A date and time takes nineteen bytes. -/
theorem length_dateTimeBytes {year month day hour minute second : Nat}
    (h : year < 10 ^ 4 ∧ month < 10 ^ 2 ∧ day < 10 ^ 2 ∧ hour < 10 ^ 2 ∧ minute < 10 ^ 2
      ∧ second < 10 ^ 2) :
    (dateTimeBytes year month day hour minute second []).length = 19 := by
  obtain ⟨hyear, hmonth, hday, hhour, hminute, hsecond⟩ := h
  simp only [dateTimeBytes, List.length_append, List.length_cons, List.length_nil,
    length_field (show 0 < 4 by decide) hyear, length_field (show 0 < 2 by decide) hmonth,
    length_field (show 0 < 2 by decide) hday, length_field (show 0 < 2 by decide) hhour,
    length_field (show 0 < 2 by decide) hminute, length_field (show 0 < 2 by decide) hsecond]

/-- The fields of a civil time fit their widths. -/
theorem CivilTime.fields_lt (time : CivilTime) :
    time.date.year.natAbs < 10 ^ 4 ∧ time.date.month.toNat < 10 ^ 2 ∧ time.date.day.toNat < 10 ^ 2
      ∧ time.hour < 10 ^ 2 ∧ time.minute < 10 ^ 2 ∧ time.second < 10 ^ 2 := by
  have := time.hour_le
  have := time.minute_le
  have := time.second_le
  exact ⟨time.year_lt, time.month_lt, time.day_lt, by omega, by omega, by omega⟩

/-- The text of a civil time takes nineteen bytes. -/
theorem CivilTime.length_text (time : CivilTime) : (asciiBytes time.text).length = 19 := by
  rw [← List.append_nil (asciiBytes time.text), text_bytes, length_dateTimeBytes time.fields_lt]

/-- A zone is written. -/
theorem Zone.length_pos (zone : Zone) : 0 < zone.bytes.length := by
  cases zone <;> exact Nat.succ_pos _

/-- The accepted strings, and the time that each is read as. -/
theorem parseRfc3339Timestamp_eq_ok {value : String} {timestamp : Timestamp} :
    parseRfc3339Timestamp value = .ok timestamp
      ↔ ∃ (time : CivilTime) (fraction : Bytes) (zone : Zone), IsFraction fraction
        ∧ utf8Bytes value = asciiBytes time.text ++ (fraction ++ zone.bytes)
        ∧ timestamp.unixSeconds = time.seconds - zone.seconds := by
  unfold parseRfc3339Timestamp
  simp only [Except.bind_eq_ok, Except.require_eq_ok]
  generalize utf8Bytes value = bytes
  constructor
  · rintro ⟨-, -, year, hyear, _, hdash, month, hmonth, _, hdash', day, hday, _, hat, hour,
      hhour, _, hcolon, minute, hminute, _, hcolon', second, hsecond, pos, hfraction,
      ⟨offset, stop⟩, hoffset, -, hend, _, hvalid, h⟩
    -- the six fields and their separators, all at once
    obtain ⟨hlt, rest, rfl⟩ := reads_iff.mp ⟨⟨hyear, hdash⟩, ⟨hmonth, hdash'⟩, ⟨hday, hat⟩,
      ⟨hhour, hcolon⟩, ⟨hminute, hcolon'⟩, hsecond⟩
    clear hyear hdash hmonth hdash' hday hat hhour hcolon hminute hcolon' hsecond
    -- the cursor stands behind them, at the fraction and then at the zone
    rw [dateTimeBytes_append] at hfraction hoffset hend ⊢
    rw [← length_dateTimeBytes hlt] at hfraction
    obtain ⟨fraction, rest, rfl, hisFraction, rfl⟩ := parseFraction_ok hfraction
    rw [← List.append_assoc] at hoffset hend
    obtain ⟨zone, rest, rfl, rfl, rfl⟩ := parseOffset_eq_ok.mp hoffset
    obtain ⟨hmonthPos, hmonthLe, hdayPos, hdayLe, hhourLe, hminuteLe, hsecondLe⟩ :=
      (validateDateTime_eq_ok (Int.natCast_nonneg year)).mp hvalid
    -- Nothing follows the zone.
    obtain rfl : rest = [] := by
      rw [decide_eq_true_eq] at hend
      simp only [List.length_append] at hend
      exact List.eq_nil_of_length_eq_zero (by omega)
    cases h
    have hmonth : 1 ≤ (month : Int) ∧ (month : Int) ≤ 12 := by omega
    have hyear : 0 ≤ (year : Int) ∧ (year : Int) ≤ 9999 := by omega
    -- the fields are those of a civil time: the checks are its bounds
    refine ⟨⟨⟨year, month, day, hmonth.1, hmonth.2, by omega, hdayLe⟩, hour, minute,
      second, hyear.1, hyear.2, hhourLe, hminuteLe, hsecondLe⟩, fraction, zone, hisFraction, ?_, ?_⟩
    · rw [CivilTime.text_bytes, List.append_nil, ← dateTimeBytes_append]
      rfl
    · dsimp only
      rw [daysFromCivil_eq hmonthPos hmonthLe]
      rfl
  · rintro ⟨time, fraction, zone, hfraction, rfl, htime⟩
    have hlt := time.fields_lt
    -- what is written is read field by field
    obtain ⟨⟨hyear, hdash⟩, ⟨hmonth, hdash'⟩, ⟨hday, hat⟩, ⟨hhour, hcolon⟩, ⟨hminute, hcolon'⟩,
      hsecond⟩ :=
      reads_iff.mpr ⟨hlt, fraction ++ zone.bytes, rfl⟩
    rw [← CivilTime.text_bytes] at *
    have hlength := time.length_text
    generalize asciiBytes time.text = head at *
    have hfractionEnd := @parseFraction_write head _ _ hfraction (zone.endsFraction [])
    have hoffset := (@parseOffset_eq_ok (head ++ fraction) zone.bytes _ _).mpr
      ⟨zone, [], by rw [List.append_nil], rfl, rfl⟩
    rw [List.append_nil, hlength] at hfractionEnd
    rw [List.append_assoc] at hoffset
    -- the fields are written as natural numbers
    have hyearCast : (time.date.year.natAbs : Int) = time.date.year :=
      Int.natAbs_of_nonneg time.year_nonneg
    have hmonthCast : (time.date.month.toNat : Int) = time.date.month :=
      Int.toNat_of_nonneg (Int.le_trans (by decide) time.date.month_pos)
    have hdayCast : (time.date.day.toNat : Int) = time.date.day :=
      Int.toNat_of_nonneg (Int.le_trans (by decide) time.date.day_pos)
    have hmonthBounds := time.date.month_le
    have hmonthPos := time.date.month_pos
    have hdayPos := time.date.day_pos
    have hvalid : validateDateTime (time.date.year.natAbs : Int) time.date.month.toNat
        time.date.day.toNat time.hour time.minute time.second = .ok () := by
      rw [validateDateTime_eq_ok (Int.natCast_nonneg _), hyearCast, hmonthCast, hdayCast]
      exact ⟨by omega, by omega, by omega, time.date.day_le, time.hour_le, time.minute_le,
        time.second_le⟩
    refine ⟨(), ?_, _, hyear, (), hdash, _, hmonth, (), hdash', _, hday, (), hat, _, hhour, (),
      hcolon, _, hminute, (), hcolon', _, hsecond, _, hfractionEnd, _, hoffset, (), ?_, (),
      hvalid, ?_⟩
    -- the shortest zone is one byte, so that the text is long enough
    · have := zone.length_pos
      rw [Bool.not_eq_true', decide_eq_false_iff_not]
      simp only [List.length_append]
      omega
    · rw [decide_eq_true_eq]
    -- the days of the source are those of the calendar
    · have hdays :=
        @daysFromCivil_eq time.date.year.natAbs time.date.month.toNat time.date.day.toNat
        (by omega) (by omega)
      rw [hyearCast, hmonthCast, hdayCast] at hdays
      dsimp only
      rw [hyearCast, hdays]
      show Except.ok (Timestamp.mk (time.seconds - zone.seconds)) = _
      rw [← htime]

end TrackOne.SensorThings
