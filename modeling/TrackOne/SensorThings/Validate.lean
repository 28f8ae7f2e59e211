import TrackOne.SensorThings.CivilTime

/-!
# Canonical timestamps

`parse_rfc3339_utc` of `trackone-sensorthings/src/validate.rs`: a timestamp that is formatted as it
was written.

* `parse_iff_text`: the accepted strings, character by character.
* `civilTime_roundTrip`: parsing and formatting undo each other, on the strings and on the times of
  the years 0000 to 9999. -/

namespace TrackOne.SensorThings

open Decimal

inductive ValidationError where
  | missingField (field : String)
  | invalidRfc3339 (field : String)
  | invalidTimeRange
  | nonFiniteScalarResult
deriving DecidableEq, Repr

def parseRfc3339Utc (field value : String) : Except ValidationError Timestamp := do
  let timestamp ← (parseRfc3339Timestamp value).mapError fun _ =>
    ValidationError.invalidRfc3339 field
  Except.require (.invalidRfc3339 field) (formatRfc3339Utc timestamp.unixSeconds = value)
  pure timestamp

/-! ## Texts of characters -/

/-- Nothing, or a point with digits behind it. -/
def IsFractionText (fraction : List Char) : Prop :=
  fraction = [] ∨ ∃ digits, fraction = '.' :: digits ∧ digits ≠ [] ∧ ∀ c ∈ digits, c.isDigit

def Zone.text : Zone → List Char
  | .utc => ['Z']
  | .offset ahead hour minute _ _ =>
    (if ahead then '+' else '-') :: (padded 2 hour ++ ':' :: padded 2 minute)

theorem Zone.bytes_eq (zone : Zone) : zone.bytes = asciiBytes zone.text := by
  cases zone with
  | utc => rfl
  | offset ahead hour minute hhour hminute =>
    rw [bytes, text, asciiBytes_cons, asciiBytes_append, asciiBytes_cons]
    cases ahead <;> rfl

theorem isFraction_iff {fraction : Bytes} :
    IsFraction fraction ↔ ∃ text, fraction = asciiBytes text ∧ IsFractionText text := by
  constructor
  · rintro (rfl | ⟨digits, rfl, hne, hdigits⟩)
    · exact ⟨[], rfl, .inl rfl⟩
    · obtain ⟨numeral, rfl, hnumeral⟩ := exists_numeral hdigits
      refine ⟨'.' :: numeral, rfl, .inr ⟨numeral, rfl, ?_, hnumeral⟩⟩
      rintro rfl
      exact hne rfl
  · rintro ⟨text, rfl, rfl | ⟨digits, rfl, hne, hdigits⟩⟩
    · exact .inl rfl
    · refine .inr ⟨asciiBytes digits, rfl, ?_, asciiBytes_digits hdigits⟩
      intro hnil
      exact hne (List.map_eq_nil_iff.mp hnil)

/-! ## All characters are ASCII -/

theorem digit_ascii {c : Char} (h : c.isDigit) : c.toNat < 128 := by
  have := toNat_of_isDigit h
  omega

theorem padded_ascii (width n : Nat) : ∀ c ∈ padded width n, c.toNat < 128 :=
  fun _ hc => digit_ascii (isDigit_of_mem_padded hc)

theorem CivilTime.text_ascii (time : CivilTime) : ∀ c ∈ time.text, c.toNat < 128 := by
  unfold text stamp
  rw [paddedInt_year]
  simp only [List.forall_mem_append, List.forall_mem_cons]
  exact ⟨padded_ascii _ _, by decide, padded_ascii _ _, by decide, padded_ascii _ _, by decide,
    padded_ascii _ _, by decide, padded_ascii _ _, by decide, padded_ascii _ _⟩

theorem IsFractionText.ascii {fraction : List Char} (h : IsFractionText fraction) :
    ∀ c ∈ fraction, c.toNat < 128 := by
  rcases h with rfl | ⟨digits, rfl, -, hdigits⟩
  · exact fun c hc => absurd hc List.not_mem_nil
  · exact List.forall_mem_cons.mpr ⟨by decide, fun c hc => digit_ascii (hdigits c hc)⟩

theorem Zone.text_ascii (zone : Zone) : ∀ c ∈ zone.text, c.toNat < 128 := by
  cases zone with
  | utc => simp [text]
  | offset ahead hour minute hhour hminute =>
    simp only [text, List.forall_mem_append, List.forall_mem_cons]
    exact ⟨by cases ahead <;> decide, padded_ascii _ _, by decide, padded_ascii _ _⟩

theorem utf8Bytes_eq_ascii {value : String} {text : List Char} (h : ∀ c ∈ text, c.toNat < 128) :
    utf8Bytes value = asciiBytes text ↔ value = String.ofList text := by
  rw [← utf8Bytes_ascii h]
  constructor
  · intro heq
    rw [← Option.some_inj, ← ofUtf8?_utf8Bytes value, heq, ofUtf8?_utf8Bytes]
  · intro heq
    rw [heq]

/-- The accepted strings, character by character. -/
theorem parse_iff_text {value : String} {timestamp : Timestamp} :
    parseRfc3339Timestamp value = .ok timestamp
      ↔ ∃ (time : CivilTime) (fraction : List Char) (zone : Zone), IsFractionText fraction
        ∧ value = String.ofList (time.text ++ (fraction ++ zone.text))
        ∧ timestamp.unixSeconds = time.seconds - zone.seconds := by
  have hascii : ∀ (time : CivilTime) (fraction : List Char) (zone : Zone), IsFractionText fraction →
      ∀ c ∈ time.text ++ (fraction ++ zone.text), c.toNat < 128 := by
    intro time fraction zone hfraction
    simp only [List.forall_mem_append]
    exact ⟨time.text_ascii, hfraction.ascii, zone.text_ascii⟩
  rw [parseRfc3339Timestamp_eq_ok]
  constructor
  · rintro ⟨time, fraction, zone, hfraction, hvalue, htime⟩
    obtain ⟨text, rfl, htext⟩ := isFraction_iff.mp hfraction
    rw [Zone.bytes_eq, ← asciiBytes_append, ← asciiBytes_append,
      utf8Bytes_eq_ascii (hascii time text zone htext)] at hvalue
    exact ⟨time, text, zone, htext, hvalue, htime⟩
  · rintro ⟨time, text, zone, htext, hvalue, htime⟩
    rw [← utf8Bytes_eq_ascii (hascii time text zone htext), asciiBytes_append, asciiBytes_append,
      ← Zone.bytes_eq] at hvalue
    exact ⟨time, asciiBytes text, zone, isFraction_iff.mpr ⟨text, rfl, htext⟩, hvalue, htime⟩

/-! ## To and fro -/

theorem parse_format {unixSeconds : Int} (h : InYears unixSeconds) :
    parseRfc3339Timestamp (formatRfc3339Utc unixSeconds) = .ok ⟨unixSeconds⟩ := by
  rw [parse_iff_text, formatRfc3339Utc_eq h]
  exact ⟨_, [], .utc, .inl rfl, rfl, by simp [Zone.seconds]⟩

/-- The text of a time, with a `Z` behind it, is how the time is formatted. -/
theorem format_seconds (time : CivilTime) :
    formatRfc3339Utc time.seconds = String.ofList (time.text ++ ['Z']) := by
  rw [formatRfc3339Utc_eq time.inYears, time.ofSeconds_seconds]

/-- Only the zone of UTC ends in a `Z`. -/
theorem Zone.eq_utc {zone : Zone} (text : List Char) (h : (text ++ zone.text).getLast? = some 'Z') :
    zone = .utc := by
  cases zone with
  | utc => rfl
  | offset ahead hour minute hhour hminute =>
    have hlast : (padded 2 minute).getLast? = some 'Z' := by
      have hne : padded 2 minute ≠ [] := by
        intro hnil
        have hlength := length_padded (show 0 < 2 by decide) (show minute < 10 ^ 2 by omega)
        rw [hnil] at hlength
        cases hlength
      rw [Zone.text, List.append_cons, ← List.append_assoc, List.append_cons,
        List.getLast?_append_of_ne_nil _ hne] at h
      exact h
    exact absurd (isDigit_of_mem_padded (List.mem_of_getLast? hlast)) (by decide)

theorem format_parse {value : String} {timestamp : Timestamp}
    (h : parseRfc3339Timestamp value = .ok timestamp) (hzone : value.toList.getLast? = some 'Z')
    (hfraction : '.' ∉ value.toList) : formatRfc3339Utc timestamp.unixSeconds = value := by
  obtain ⟨time, fraction, zone, hfraction', rfl, htime⟩ := parse_iff_text.mp h
  rw [String.toList_ofList] at hzone hfraction
  rw [← List.append_assoc] at hzone
  obtain rfl := Zone.eq_utc _ hzone
  obtain rfl : fraction = [] := by
    rcases hfraction' with rfl | ⟨digits, rfl, -⟩
    · rfl
    · exact absurd (by simp) hfraction
  rw [htime, Zone.seconds, Int.sub_zero, format_seconds]
  rfl

/-- Later times have larger strings. -/
theorem format_lt {a b : Int} (ha : InYears a) (hb : InYears b) (h : a < b) :
    formatRfc3339Utc a < formatRfc3339Utc b := by
  rw [formatRfc3339Utc_eq ha, formatRfc3339Utc_eq hb, String.lt_iff, String.toList_ofList,
    String.toList_ofList]
  exact CivilTime.text_lt (by simpa using h) _ _

/-! ## Offsets -/

/-- The same local time in another zone. -/
theorem parse_zone (time : CivilTime) {fraction : List Char} (h : IsFractionText fraction)
    (zone : Zone) :
    parseRfc3339Timestamp (String.ofList (time.text ++ fraction) ++ String.ofList zone.text)
      = .ok ⟨time.seconds - zone.seconds⟩ := by
  rw [parse_iff_text]
  refine ⟨time, fraction, zone, h, ?_, rfl⟩
  rw [← String.ofList_append, List.append_assoc]

/-- The time with an offset is the time without it, less the offset. -/
theorem parse_offset {value : String} {timestamp : Timestamp}
    (h : parseRfc3339Timestamp value = .ok timestamp) :
    ∃ (stem : String) (zone : Zone) (base : Timestamp), value = stem ++ String.ofList zone.text
      ∧ parseRfc3339Timestamp (stem ++ "Z") = .ok base
      ∧ parseRfc3339Timestamp (stem ++ "+00:00") = .ok base
      ∧ timestamp.unixSeconds = base.unixSeconds - zone.seconds := by
  obtain ⟨time, fraction, zone, hfraction, rfl, htime⟩ := parse_iff_text.mp h
  refine ⟨String.ofList (time.text ++ fraction), zone, ⟨time.seconds⟩, ?_, ?_, ?_, htime⟩
  · rw [← String.ofList_append, List.append_assoc]
  · have hutc := parse_zone time hfraction .utc
    rw [Zone.seconds, Int.sub_zero] at hutc
    exact hutc
  · have hzero := parse_zone time hfraction (.offset true 0 0 (by decide) (by decide))
    have hseconds : (Zone.offset true 0 0 (by decide) (by decide)).seconds = 0 := rfl
    rw [hseconds, Int.sub_zero] at hzero
    exact hzero

/-! ## Canonical strings -/

theorem point_notMem_stamp (year : Int) (month day hour minute second : Nat) :
    '.' ∉ stamp year month day hour minute second ++ ['Z'] := by
  have hpadded : ∀ width n, '.' ∉ padded width n := by
    intro width n hmem
    exact absurd (isDigit_of_mem_padded hmem) (by decide)
  have hyear : '.' ∉ paddedInt 4 year := by
    unfold paddedInt
    split_ifs
    · simp [hpadded]
    · exact hpadded _ _
  simp [stamp, hpadded, hyear]

/-- Whatever the time, its string ends in a `Z` and has no fraction. -/
theorem format_shape (unixSeconds : Int) :
    (formatRfc3339Utc unixSeconds).toList.getLast? = some 'Z'
      ∧ '.' ∉ (formatRfc3339Utc unixSeconds).toList := by
  rw [formatRfc3339Utc]
  dsimp only
  rw [String.toList_ofList]
  exact ⟨List.getLast?_concat, point_notMem_stamp _ _ _ _ _ _⟩

/-- `parse_rfc3339_utc` accepts what `format_rfc3339_utc` makes of the times in range. -/
theorem parseRfc3339Utc_eq_ok {field value : String} {timestamp : Timestamp} :
    parseRfc3339Utc field value = .ok timestamp
      ↔ InYears timestamp.unixSeconds ∧ value = formatRfc3339Utc timestamp.unixSeconds := by
  simp only [parseRfc3339Utc, Except.bind_eq_ok, Except.mapError_eq_ok, Except.require_eq_ok,
    decide_eq_true_eq]
  constructor
  · rintro ⟨timestamp', hparse, -, hformat, h⟩
    cases h
    obtain ⟨hzone, hfraction⟩ := format_shape timestamp.unixSeconds
    rw [hformat] at hzone hfraction
    obtain ⟨time, fraction, zone, hfraction', rfl, htime⟩ := parse_iff_text.mp hparse
    rw [String.toList_ofList, ← List.append_assoc] at hzone
    obtain rfl := Zone.eq_utc _ hzone
    rw [Zone.seconds, Int.sub_zero] at htime
    refine ⟨?_, hformat.symm⟩
    rw [htime]
    exact time.inYears
  · rintro ⟨hyears, rfl⟩
    exact ⟨timestamp, parse_format hyears, (), rfl, rfl⟩

/-- Parsing and formatting undo each other. -/
theorem civilTime_roundTrip :
    (∀ unixSeconds, InYears unixSeconds →
      parseRfc3339Timestamp (formatRfc3339Utc unixSeconds) = .ok ⟨unixSeconds⟩)
    ∧ (∀ value timestamp, parseRfc3339Timestamp value = .ok timestamp →
        value.toList.getLast? = some 'Z' → '.' ∉ value.toList →
          formatRfc3339Utc timestamp.unixSeconds = value)
    ∧ (∀ a b, InYears a → InYears b → a < b → formatRfc3339Utc a < formatRfc3339Utc b)
    ∧ (∀ value timestamp, parseRfc3339Timestamp value = .ok timestamp →
        ∃ (stem : String) (zone : Zone) (base : Timestamp), value = stem ++ String.ofList zone.text
          ∧ parseRfc3339Timestamp (stem ++ "Z") = .ok base
          ∧ parseRfc3339Timestamp (stem ++ "+00:00") = .ok base
          ∧ timestamp.unixSeconds = base.unixSeconds - zone.seconds)
    ∧ (∀ field value timestamp, parseRfc3339Utc field value = .ok timestamp
        ↔ InYears timestamp.unixSeconds ∧ value = formatRfc3339Utc timestamp.unixSeconds) :=
  ⟨fun _ h => parse_format h, fun _ _ h hzone hfraction => format_parse h hzone hfraction,
    fun _ _ ha hb h => format_lt ha hb h, fun _ _ h => parse_offset h,
    fun _ _ _ => parseRfc3339Utc_eq_ok⟩

theorem civilTime_roundTrip_2026 :
    parseRfc3339Timestamp (formatRfc3339Utc 1772755501) = .ok ⟨1772755501⟩ :=
  civilTime_roundTrip.1 1772755501 ⟨by decide +kernel, by decide +kernel⟩

example : parseRfc3339Timestamp "2026-03-06T01:05:01+01:00" = .ok ⟨1772755501⟩ := by decide +kernel

end TrackOne.SensorThings
