import TrackOne.Lib.Decimal
import TrackOne.Lib.DecimalFraction
import TrackOne.Lib.Words
import Mathlib.Algebra.Order.Floor.Ring
import Mathlib.Data.Rat.Floor
import Mathlib.Tactic.IntervalCases

/-!
# The generation time of a timestamp

`TimestampGenerationTime` of `trackone-rfc3161/src/lib.rs`: a DER `GeneralizedTime` with any number
of digits behind the point. The calendar is the business of `DateTime` of the `der` package.

* `fromGeneralizedTimeDer_eq_ok`: the accepted strings.
* `digitLoop_eq`: the loop over digits compares the fractions.
* `generation_time_exact`: comparison and bounds are those of the rational number.
-/

namespace TrackOne.Rfc3161

open DecimalFraction

/-! ## The calendar -/

def isLeapYear (year : Nat) : Bool := year % 4 = 0 && (year % 100 ≠ 0 || year % 400 = 0)

def daysInMonth (year month : Nat) : Nat :=
  if month = 2 then (if isLeapYear year then 29 else 28)
  else if month ∈ [4, 6, 9, 11] then 30
  else 31

/-- An instant from 1970 to 9999 that the calendar has. -/
def ValidInstant (year month day hour minutes seconds : Nat) : Prop :=
  1970 ≤ year ∧ year ≤ 9999 ∧ 1 ≤ month ∧ month ≤ 12 ∧ 1 ≤ day ∧ day ≤ daysInMonth year month
    ∧ hour ≤ 23 ∧ minutes ≤ 59 ∧ seconds ≤ 59

instance (year month day hour minutes seconds : Nat) :
    Decidable (ValidInstant year month day hour minutes seconds) := by
  unfold ValidInstant
  infer_instance

/-- The last second of the year 9999. -/
def maxUnixSeconds : Nat := 253402300799

/-- A `DateTime` of the package, by its Unix time. -/
abbrev UnixTime := { seconds : UInt64 // seconds.toNat ≤ maxUnixSeconds }

/-- What is relied on of `DateTime::new`: it accepts the instants of the calendar. -/
class DateTime where
  new : (year : UInt16) → (month day hour minutes seconds : UInt8) → Except String UnixTime
  new_eq_ok : ∀ year month day hour minutes seconds,
    (∃ time, new year month day hour minutes seconds = .ok time)
      ↔ ValidInstant year.toNat month.toNat day.toNat hour.toNat minutes.toNat seconds.toNat

/-! ## The code -/

/-- `VerificationError`, as far as it is raised here. -/
inductive TimestampError where
  | malformed (message : String)
  | historicalValidation (message : String)
deriving DecidableEq, Repr

/-- `AnyRef`: the tag and the contents of a DER value. -/
structure AnyRef where
  tag : UInt8
  value : Bytes
deriving DecidableEq

def generalizedTimeTag : UInt8 := 0x18

/-- `std::time::Duration`. -/
structure Duration where
  secs : UInt64
  subsecNanos : UInt32
  nanos_lt : subsecNanos.toNat < 1000000000

def isAsciiDigit (b : UInt8) : Bool := 48 ≤ b && b ≤ 57

/-- The digits behind the point: there is one, and the last is no zero. -/
structure Fraction where
  digits : Bytes
  ne_nil : digits ≠ []
  all_digits : digits.all isAsciiDigit = true
  last_ne_zero : digits.getLast? ≠ some 48

structure TimestampGenerationTime where
  dateTime : UnixTime
  fractionalSeconds : Option Fraction

namespace TimestampGenerationTime

def unixSeconds (time : TimestampGenerationTime) : UInt64 := time.dateTime.1

/-- The loop over indices; zeros are implied behind the end of either text. -/
def digitLoop (fraction boundFraction : Bytes) : List Nat → Bool
  | [] => false
  | index :: rest =>
    match compare (fraction.getD index 48).toNat (boundFraction.getD index 48).toNat with
    | .gt => true
    | .lt => false
    | .eq => digitLoop fraction boundFraction rest

/-- `format!("{:09}", nanos)`. -/
def nanosText (nanos : UInt32) : Bytes :=
  (Decimal.padded 9 nanos.toNat).map fun c => UInt8.ofNat c.toNat

def exceedsUnixDuration (time : TimestampGenerationTime) (bound : Duration) : Bool :=
  match compare time.unixSeconds.toNat bound.secs.toNat with
  | .gt => true
  | .lt => false
  | .eq =>
    match time.fractionalSeconds with
    | none => false
    | some fraction =>
      let boundFraction := nanosText bound.subsecNanos
      digitLoop fraction.digits boundFraction
        (List.range (max fraction.digits.length boundFraction.length))

def opensslAttimeBounds (time : TimestampGenerationTime) :
    Except TimestampError (UInt64 × UInt64) := do
  let wholeSecond := time.unixSeconds
  let upperBound ←
    if time.fractionalSeconds.isSome then
      Except.ofOption (.malformed "TSTInfo genTime upper bound exceeds uint64")
        (wholeSecond.checkedAdd 1)
    else pure wholeSecond
  pure (wholeSecond, upperBound)

end TimestampGenerationTime

/-- The values of ASCII digits. -/
def digitValues (digits : Bytes) : List Nat := digits.map fun b => b.toNat - 48

def asciiValue (digits : Bytes) : Nat := natValue (digitValues digits)

/-- `str::parse` on digits, for an unsigned type with the given number of values. -/
def parseDigits (values : Nat) (digits : Bytes) : Option Nat :=
  if asciiValue digits < values then some (asciiValue digits) else none

def slice (bytes : Bytes) (start stop : Nat) : Bytes := (bytes.take stop).drop start

section

variable [DateTime]

/-- The closure `component`. -/
def component (wholeSeconds : Bytes) (start stop : Nat) : Except TimestampError UInt8 :=
  Except.ofOption (.malformed "invalid TSTInfo genTime")
    ((parseDigits (2 ^ 8) (slice wholeSeconds start stop)).map UInt8.ofNat)

/-- The date and the time of day, from fourteen digits. -/
def parseDateTime (wholeSeconds : Bytes) : Except TimestampError UnixTime := do
  let year ← Except.ofOption (.malformed "invalid TSTInfo genTime year")
    ((parseDigits (2 ^ 16) (slice wholeSeconds 0 4)).map UInt16.ofNat)
  let month ← component wholeSeconds 4 6
  let day ← component wholeSeconds 6 8
  let hour ← component wholeSeconds 8 10
  let minutes ← component wholeSeconds 10 12
  let seconds ← component wholeSeconds 12 14
  (DateTime.new year month day hour minutes seconds).mapError fun error =>
    .malformed ("invalid TSTInfo genTime: " ++ error)

/-- The text between the seconds and the `Z`. -/
def parseFraction (text : Bytes) : Except TimestampError (Option Fraction) :=
  match text with
  | [] => .ok none
  | point :: digits =>
    if h : point = 46 ∧ digits ≠ [] ∧ digits.all isAsciiDigit = true
      ∧ digits.getLast? ≠ some 48 then
      .ok (some ⟨digits, h.2.1, h.2.2.1, h.2.2.2⟩)
    else .error (.malformed "TSTInfo genTime has a non-canonical fractional part")

def fromGeneralizedTimeDer (value : AnyRef) : Except TimestampError TimestampGenerationTime := do
  Except.require (.malformed "TSTInfo genTime is not GeneralizedTime")
    (value.tag = generalizedTimeTag)
  let encoded := value.value
  Except.require (.malformed "TSTInfo genTime must include seconds and use UTC Z form")
    (15 ≤ encoded.length && encoded.getLast? = some 90)
  let wholeSeconds := encoded.take 14
  Except.require (.malformed "TSTInfo genTime contains a non-decimal time component")
    (wholeSeconds.all isAsciiDigit)
  let dateTime ← parseDateTime wholeSeconds
  let fractionalSeconds ← parseFraction (slice encoded 14 (encoded.length - 1))
  pure { dateTime, fractionalSeconds }

end

/-! ## The strings that are accepted -/

/-- The text of a fraction, with its point. -/
def fractionText : Option Fraction → Bytes
  | none => []
  | some fraction => 46 :: fraction.digits

theorem parseFraction_eq_ok {text : Bytes} {fraction : Option Fraction} :
    parseFraction text = .ok fraction ↔ text = fractionText fraction := by
  cases text with
  | nil =>
    cases fraction with
    | none => exact iff_of_true rfl rfl
    | some fraction => exact iff_of_false (fun h => by cases h) fun h => by cases h
  | cons point digits =>
    unfold parseFraction
    dsimp only
    constructor
    · intro h
      split_ifs at h with hcanonical
      obtain rfl := Except.ok.inj h
      exact congrArg (· :: digits) hcanonical.1
    · intro h
      cases fraction with
      | none => cases h
      | some fraction =>
        obtain ⟨rfl, rfl⟩ := List.cons.inj h
        rw [dif_pos ⟨rfl, fraction.ne_nil, fraction.all_digits, fraction.last_ne_zero⟩]

section

variable [DateTime]

/-- The accepted strings: fourteen digits that `DateTime` accepts, the fraction, and a `Z`. -/
theorem fromGeneralizedTimeDer_eq_ok {value : AnyRef} {time : TimestampGenerationTime} :
    fromGeneralizedTimeDer value = .ok time
      ↔ value.tag = generalizedTimeTag ∧ ∃ wholeSeconds : Bytes, wholeSeconds.length = 14
        ∧ wholeSeconds.all isAsciiDigit = true ∧ parseDateTime wholeSeconds = .ok time.dateTime
        ∧ value.value = wholeSeconds ++ (fractionText time.fractionalSeconds ++ [90]) := by
  obtain ⟨tag, encoded⟩ := value
  obtain ⟨dateTime, fractionalSeconds⟩ := time
  simp only [fromGeneralizedTimeDer, Except.bind_eq_ok, Except.require_eq_ok, decide_eq_true_eq,
    Bool.and_eq_true, parseFraction_eq_ok, pure, Except.pure, Except.ok.injEq,
    TimestampGenerationTime.mk.injEq]
  constructor
  · rintro ⟨u, htag, u', ⟨hlong, hlast⟩, u'', hdigits, date, hdate, fraction, hfraction, rfl, rfl⟩
    refine ⟨htag, encoded.take 14, ?_, hdigits, hdate, ?_⟩
    · rw [List.length_take]
      omega
    · -- the middle is what is left between the digits and the last byte
      have hinit : encoded.take (encoded.length - 1) ++ [90] = encoded := by
        rw [← List.dropLast_eq_take]
        exact List.dropLast_append_getLast? _ hlast
      rw [← hfraction, slice, ← List.append_assoc]
      conv_lhs => rw [← hinit, ← List.take_append_drop 14 (encoded.take (encoded.length - 1))]
      rw [List.take_take, Nat.min_eq_left (by omega)]
  · rintro ⟨htag, wholeSeconds, hlength, hdigits, hdate, rfl⟩
    have htake : (wholeSeconds ++ (fractionText fractionalSeconds ++ [90])).take 14
      = wholeSeconds :=
      List.take_left' hlength
    refine ⟨(), htag, (), ⟨?_, ?_⟩, (), ?_, dateTime, ?_, fractionalSeconds, ?_, rfl, rfl⟩
    · simp only [List.length_append, List.length_singleton]
      omega
    · rw [← List.append_assoc, List.getLast?_concat]
    · rw [htake]
      exact hdigits
    · rw [htake]
      exact hdate
    · rw [slice, ← List.append_assoc, List.length_append, List.length_singleton,
        Nat.add_sub_cancel, List.take_left, List.drop_left' hlength]

end

/-! ## The comparison -/

theorem isAsciiDigit_iff {b : UInt8} : isAsciiDigit b = true ↔ 48 ≤ b.toNat ∧ b.toNat ≤ 57 := by
  simp [isAsciiDigit, UInt8.le_iff_toNat_le]

theorem digitValues_lt {digits : Bytes} (h : digits.all isAsciiDigit = true) :
    ∀ d ∈ digitValues digits, d < 10 := by
  rw [List.all_eq_true] at h
  rw [digitValues, List.forall_mem_map]
  intro b hb
  have := isAsciiDigit_iff.mp (h b hb)
  omega

/-- The loop, from any index on, compares what is left of the digits. -/
theorem digitLoop_eq {fraction bound : Bytes} (hfraction : fraction.all isAsciiDigit = true)
    (hbound : bound.all isAsciiDigit = true) (m k : Nat) (hf : fraction.length ≤ k + m)
    (hb : bound.length ≤ k + m) :
    TimestampGenerationTime.digitLoop fraction bound (List.range' k m)
      = lexExceeds (digitValues (fraction.drop k)) (digitValues (bound.drop k)) := by
  induction m generalizing k with
  | zero =>
    rw [List.drop_eq_nil_of_le (by omega)]
    rfl
  | succ m ih =>
    -- the digits after this one are compared by the induction
    have hrest := ih (k + 1) (by omega) (by omega)
    rw [List.range'_succ, TimestampGenerationTime.digitLoop]
    rw [List.all_eq_true] at hfraction hbound
    -- a digit past the end of a text reads as zero
    have hdigit : ∀ {text : Bytes}, (∀ b ∈ text, isAsciiDigit b = true) →
        (text.drop k = [] ∧ text.drop (k + 1) = [] ∧ text.getD k 48 = 48)
          ∨ ∃ b rest, text.drop k = b :: rest ∧ text.drop (k + 1) = rest ∧ text.getD k 48 = b
            ∧ 48 ≤ b.toNat := by
      intro text htext
      rcases Nat.lt_or_ge k text.length with hlt | hge
      · refine .inr ⟨text[k], text.drop (k + 1), List.drop_eq_getElem_cons hlt, rfl, ?_, ?_⟩
        · rw [List.getD_eq_getElem?_getD, List.getElem?_eq_getElem hlt]
          rfl
        · exact (isAsciiDigit_iff.mp (htext _ (List.getElem_mem hlt))).1
      · refine .inl ⟨List.drop_eq_nil_of_le hge, List.drop_eq_nil_of_le (by omega), ?_⟩
        rw [List.getD_eq_getElem?_getD, List.getElem?_eq_none hge]
        rfl
    -- whether either text has ended
    rcases hdigit hfraction with ⟨hf₀, hf₁, hfk⟩ | ⟨a, as, hf₀, hf₁, hfk, ha⟩ <;>
      rcases hdigit hbound with ⟨hb₀, hb₁, hbk⟩ | ⟨b, bs, hb₀, hb₁, hbk, hb'⟩ <;>
      rw [hf₁, hb₁] at hrest <;> rw [hfk, hbk, hf₀, hb₀, hrest]
    · rfl
    · -- the fraction has ended, and zeros do not exceed anything
      rcases Nat.eq_or_lt_of_le hb' with heq | hlt
      · rw [show compare (48 : UInt8).toNat b.toNat = .eq from Nat.compare_eq_eq.mpr heq]
        rfl
      · rw [show compare (48 : UInt8).toNat b.toNat = .lt from Nat.compare_eq_lt.mpr hlt]
        rfl
    -- the bound has ended, and only zeros do not exceed it
    · rcases Nat.eq_or_lt_of_le ha with heq | hlt
      · rw [show compare a.toNat (48 : UInt8).toNat = .eq from Nat.compare_eq_eq.mpr heq.symm]
        simp [digitValues, lexExceeds, ← heq]
      · rw [show compare a.toNat (48 : UInt8).toNat = .gt from Nat.compare_eq_gt.mpr hlt]
        have hpos : 0 < a.toNat - 48 := by omega
        simp [digitValues, lexExceeds, hpos]
    -- both have a digit, and the first difference decides
    · rcases Nat.lt_trichotomy a.toNat b.toNat with hlt | heq | hgt
      · rw [Nat.compare_eq_lt.mpr hlt]
        have h₁ : ¬ b.toNat - 48 < a.toNat - 48 := by omega
        have h₂ : a.toNat - 48 ≠ b.toNat - 48 := by omega
        simp [digitValues, lexExceeds, h₁, h₂]
      · rw [Nat.compare_eq_eq.mpr heq]
        simp [digitValues, lexExceeds, heq]
      · rw [Nat.compare_eq_gt.mpr hgt]
        have h₁ : b.toNat - 48 < a.toNat - 48 := by omega
        simp [digitValues, lexExceeds, h₁]

theorem toNat_of_isDigit {c : Char} (h : c.isDigit) : 48 ≤ c.toNat ∧ c.toNat ≤ 57 := by
  simp only [Char.isDigit, Bool.and_eq_true, decide_eq_true_eq, UInt32.le_iff_toNat_le] at h
  exact ⟨h.1, h.2⟩

theorem length_nanosText {nanos : UInt32} (h : nanos.toNat < 1000000000) :
    (TimestampGenerationTime.nanosText nanos).length = 9 := by
  have hdigits : (Nat.toDigits 10 nanos.toNat).length ≤ 9 :=
    (Nat.length_toDigits_le_iff (by decide) (by decide)).mpr h
  rw [TimestampGenerationTime.nanosText, List.length_map, Decimal.padded, List.length_append,
    List.length_replicate]
  omega

theorem nanosText_all_digits (nanos : UInt32) :
    (TimestampGenerationTime.nanosText nanos).all isAsciiDigit = true := by
  rw [List.all_eq_true, TimestampGenerationTime.nanosText, List.forall_mem_map]
  intro c hc
  have hrange := toNat_of_isDigit (Decimal.isDigit_of_mem_padded hc)
  have hbyte : (UInt8.ofNat c.toNat).toNat = c.toNat := by
    rw [UInt8.toNat_ofNat']
    omega
  rw [isAsciiDigit_iff, hbyte]
  exact hrange

theorem asciiValue_nanosText (nanos : UInt32) :
    asciiValue (TimestampGenerationTime.nanosText nanos) = nanos.toNat := by
  have hdigits : digitValues (TimestampGenerationTime.nanosText nanos)
      = (Decimal.padded 9 nanos.toNat).map Decimal.digit := by
    rw [digitValues, TimestampGenerationTime.nanosText, List.map_map]
    refine List.map_congr_left fun c hc => ?_
    have hrange := toNat_of_isDigit (Decimal.isDigit_of_mem_padded hc)
    show (UInt8.ofNat c.toNat).toNat - 48 = c.toNat - 48
    rw [UInt8.toNat_ofNat']
    omega
  rw [asciiValue, hdigits, natValue, List.foldl_map]
  exact Decimal.value_padded 9 nanos.toNat

/-- The fraction as a number. -/
def fractionValue : Option Fraction → ℚ
  | none => 0
  | some f => fraction (digitValues f.digits)

/-- The instant that was signed, in seconds of Unix time. -/
def TimestampGenerationTime.instant (time : TimestampGenerationTime) : ℚ :=
  time.unixSeconds.toNat + fractionValue time.fractionalSeconds

def Duration.value (bound : Duration) : ℚ := bound.secs.toNat + bound.subsecNanos.toNat / 10 ^ 9

theorem fraction_nanosText (bound : Duration) :
    fraction (digitValues (TimestampGenerationTime.nanosText bound.subsecNanos))
      = bound.subsecNanos.toNat / 10 ^ 9 := by
  have hvalue := asciiValue_nanosText bound.subsecNanos
  rw [asciiValue] at hvalue
  rw [fraction, hvalue, digitValues, List.length_map, length_nanosText bound.nanos_lt]

theorem fractionValue_nonneg (f : Option Fraction) : 0 ≤ fractionValue f := by
  cases f with
  | none => exact le_refl 0
  | some f => exact fraction_nonneg _

theorem fractionValue_lt_one (f : Option Fraction) : fractionValue f < 1 := by
  cases f with
  | none => exact one_pos
  | some f => exact fraction_lt_one (digitValues_lt f.all_digits)

/-- The last digit makes a fraction positive. -/
theorem fraction_digits_pos (f : Fraction) : 0 < fraction (digitValues f.digits) := by
  obtain ⟨last, hlast⟩ : ∃ last, f.digits.getLast? = some last :=
    ⟨_, List.getLast?_eq_some_getLast f.ne_nil⟩
  have hmem := List.mem_of_getLast? hlast
  have hdigit := isAsciiDigit_iff.mp (List.all_eq_true.mp f.all_digits last hmem)
  have hne : last.toNat ≠ 48 := by
    intro heq
    have hzero : last = 48 := UInt8.toNat_inj.mp heq
    exact f.last_ne_zero (by rw [hlast, hzero])
  exact fraction_pos (List.mem_map.mpr ⟨last, hmem, rfl⟩) (by omega)

/-- The comparison is that of the numbers. -/
theorem exceedsUnixDuration_iff (time : TimestampGenerationTime) (bound : Duration) :
    time.exceedsUnixDuration bound = true ↔ bound.value < time.instant := by
  have hlow := fractionValue_nonneg time.fractionalSeconds
  have hhigh := fractionValue_lt_one time.fractionalSeconds
  have hnanos : (0 : ℚ) ≤ bound.subsecNanos.toNat / 10 ^ 9 := by positivity
  have hnanos' : (bound.subsecNanos.toNat : ℚ) / 10 ^ 9 < 1 := by
    rw [← fraction_nanosText]
    exact fraction_lt_one (digitValues_lt (nanosText_all_digits _))
  unfold TimestampGenerationTime.exceedsUnixDuration Duration.value TimestampGenerationTime.instant
  rcases Nat.lt_trichotomy time.unixSeconds.toNat bound.secs.toNat with hlt | heq | hgt
  · rw [Nat.compare_eq_lt.mpr hlt]
    have : (time.unixSeconds.toNat : ℚ) + 1 ≤ bound.secs.toNat := by exact_mod_cast hlt
    exact iff_of_false (by simp) (by linarith)
  · rw [Nat.compare_eq_eq.mpr heq, heq]
    cases hfraction : time.fractionalSeconds with
    | none =>
      refine iff_of_false (by simp) ?_
      rw [fractionValue]
      linarith
    | some f =>
      -- within one second the digits decide
      have hloop := digitLoop_eq f.all_digits (nanosText_all_digits bound.subsecNanos)
        (max f.digits.length (TimestampGenerationTime.nanosText bound.subsecNanos).length) 0
        (by omega) (by omega)
      rw [List.drop_zero, List.drop_zero, ← List.range_eq_range'] at hloop
      dsimp only
      rw [hloop, lexExceeds_iff (digitValues_lt f.all_digits)
        (digitValues_lt (nanosText_all_digits _)), fraction_nanosText, fractionValue]
      constructor
      · intro h
        linarith
      · intro h
        linarith
  · rw [Nat.compare_eq_gt.mpr hgt]
    have : (bound.secs.toNat : ℚ) + 1 ≤ time.unixSeconds.toNat := by exact_mod_cast hgt
    exact iff_of_true rfl (by linarith)

/-- The bounds are the whole seconds around the instant. -/
theorem opensslAttimeBounds_eq (time : TimestampGenerationTime) :
    ∃ lower upper, time.opensslAttimeBounds = .ok (lower, upper)
      ∧ (lower.toNat : ℤ) = ⌊time.instant⌋ ∧ (upper.toNat : ℤ) = ⌈time.instant⌉ := by
  have hlow := fractionValue_nonneg time.fractionalSeconds
  have hhigh := fractionValue_lt_one time.fractionalSeconds
  -- the fraction is below one second
  have hfloor : (time.unixSeconds.toNat : ℤ) = ⌊time.instant⌋ := by
    refine (Int.floor_eq_iff.mpr ⟨?_, ?_⟩).symm
    · unfold TimestampGenerationTime.instant
      push_cast
      linarith
    · unfold TimestampGenerationTime.instant
      push_cast
      linarith
  have hbounded : time.unixSeconds.toNat ≤ maxUnixSeconds := time.dateTime.2
  unfold TimestampGenerationTime.opensslAttimeBounds
  cases hfraction : time.fractionalSeconds with
  | none =>
    refine ⟨time.unixSeconds, time.unixSeconds, rfl, hfloor, ?_⟩
    rw [TimestampGenerationTime.instant, hfraction, fractionValue, add_zero, Int.ceil_natCast]
  -- with a fraction the upper bound is the next second
  | some f =>
    have hpos := fraction_digits_pos f
    have hfits : time.unixSeconds.toNat + (1 : UInt64).toNat < 2 ^ 64 := by
      have hone : (1 : UInt64).toNat = 1 := rfl
      unfold maxUnixSeconds at hbounded
      omega
    obtain ⟨upper, hupper⟩ := UInt64.exists_checkedAdd hfits
    have hvalue : upper.toNat = time.unixSeconds.toNat + 1 := UInt64.checkedAdd_eq_some.mp hupper
    refine ⟨time.unixSeconds, upper, ?_, hfloor, ?_⟩
    · simp [hupper, Except.ofOption, bind, Except.bind, pure, Except.pure]
    · refine (Int.ceil_eq_iff.mpr ⟨?_, ?_⟩).symm
      · rw [TimestampGenerationTime.instant, hfraction, fractionValue, hvalue]
        push_cast
        linarith
      · rw [TimestampGenerationTime.instant, hvalue]
        push_cast
        linarith

/-! ## The date -/

theorem isAsciiDigit_slice {text : Bytes} (h : text.all isAsciiDigit = true) (start stop : Nat) :
    (slice text start stop).all isAsciiDigit = true := by
  rw [List.all_eq_true] at h ⊢
  intro b hb
  exact h b (List.mem_of_mem_take (List.mem_of_mem_drop hb))

/-- Two digits, or four, are no large number. -/
theorem asciiValue_slice_lt {text : Bytes} (h : text.all isAsciiDigit = true)
    (hlength : text.length = 14) {start stop : Nat} (hstop : stop ≤ 14) :
    asciiValue (slice text start stop) < 10 ^ (stop - start) := by
  have hlt := natValue_lt (digitValues_lt (isAsciiDigit_slice h start stop))
  have hsize : (digitValues (slice text start stop)).length = stop - start := by
    rw [digitValues, List.length_map, slice, List.length_drop, List.length_take]
    omega
  rwa [hsize] at hlt

/-- The fourteen digits are an instant of the calendar. -/
def ValidDigits (text : Bytes) : Prop :=
  ValidInstant (asciiValue (slice text 0 4)) (asciiValue (slice text 4 6))
    (asciiValue (slice text 6 8)) (asciiValue (slice text 8 10)) (asciiValue (slice text 10 12))
    (asciiValue (slice text 12 14))

theorem exists_parseDateTime [DateTime] {text : Bytes} (h : text.all isAsciiDigit = true)
    (hlength : text.length = 14) :
    (∃ dateTime, parseDateTime text = .ok dateTime) ↔ ValidDigits text := by
  -- the numbers fit into their integers
  have hyear : asciiValue (slice text 0 4) < 2 ^ 16 :=
    (asciiValue_slice_lt h hlength (by decide)).trans (by decide)
  have htwo : ∀ {start stop : Nat}, stop ≤ 14 → stop - start = 2 →
      asciiValue (slice text start stop) < 2 ^ 8 := by
    intro start stop hstop hsize
    have hlt := @asciiValue_slice_lt text h hlength start stop hstop
    rw [hsize] at hlt
    omega
  have hcomponent : ∀ {start stop : Nat}, stop ≤ 14 → stop - start = 2 →
      component text start stop = .ok (UInt8.ofNat (asciiValue (slice text start stop))) := by
    intro start stop hstop hsize
    rw [component, parseDigits, if_pos (htwo hstop hsize)]
    rfl
  have hdate : parseDateTime text
      = (DateTime.new (UInt16.ofNat (asciiValue (slice text 0 4)))
          (UInt8.ofNat (asciiValue (slice text 4 6))) (UInt8.ofNat (asciiValue (slice text 6 8)))
          (UInt8.ofNat (asciiValue (slice text 8 10))) (UInt8.ofNat (asciiValue (slice text 10 12)))
          (UInt8.ofNat (asciiValue (slice text 12 14)))).mapError
        fun error => .malformed ("invalid TSTInfo genTime: " ++ error) := by
    rw [parseDateTime, parseDigits, if_pos hyear, hcomponent (by decide) rfl,
      hcomponent (by decide) rfl, hcomponent (by decide) rfl, hcomponent (by decide) rfl,
      hcomponent (by decide) rfl]
    rfl
  have hbyte : ∀ {start stop : Nat}, stop ≤ 14 → stop - start = 2 →
      (UInt8.ofNat (asciiValue (slice text start stop))).toNat
        = asciiValue (slice text start stop) := by
    intro start stop hstop hsize
    have := @htwo start stop hstop hsize
    rw [UInt8.toNat_ofNat']
    omega
  -- the date is valid exactly when its components are
  have hnew := DateTime.new_eq_ok (UInt16.ofNat (asciiValue (slice text 0 4)))
    (UInt8.ofNat (asciiValue (slice text 4 6))) (UInt8.ofNat (asciiValue (slice text 6 8)))
    (UInt8.ofNat (asciiValue (slice text 8 10))) (UInt8.ofNat (asciiValue (slice text 10 12)))
    (UInt8.ofNat (asciiValue (slice text 12 14)))
  rw [UInt16.toNat_ofNat_of_lt' hyear, hbyte (by decide) rfl, hbyte (by decide) rfl,
    hbyte (by decide) rfl, hbyte (by decide) rfl, hbyte (by decide) rfl] at hnew
  rw [ValidDigits, ← hnew, hdate]
  simp only [Except.mapError_eq_ok]

/-- Fourteen digits that are an instant, and perhaps a point and digits that do not end in a zero,
before a `Z`. -/
def CanonicalTime (text : Bytes) : Prop :=
  ∃ wholeSeconds fraction, wholeSeconds.length = 14 ∧ wholeSeconds.all isAsciiDigit = true
    ∧ ValidDigits wholeSeconds ∧ text = wholeSeconds ++ (fraction ++ [90])
    ∧ (fraction = [] ∨ ∃ digits, fraction = 46 :: digits ∧ digits ≠ []
      ∧ digits.all isAsciiDigit = true ∧ digits.getLast? ≠ some 48)

/-- **The future-skew comparison is exact.** A value is accepted exactly when it is a
`GeneralizedTime` in canonical form. Of an accepted one, with the digits its text has behind the
point: it exceeds a duration exactly when its instant, as a rational number, is larger; and the
bounds for OpenSSL are the floor and the ceiling of the instant. -/
theorem generation_time_exact [DateTime] (value : AnyRef) :
    ((∃ time, fromGeneralizedTimeDer value = .ok time)
        ↔ value.tag = generalizedTimeTag ∧ CanonicalTime value.value)
      ∧ ∀ time, fromGeneralizedTimeDer value = .ok time →
        (∃ wholeSeconds : Bytes, wholeSeconds.length = 14
          ∧ parseDateTime wholeSeconds = .ok time.dateTime
          ∧ value.value = wholeSeconds ++ (fractionText time.fractionalSeconds ++ [90]))
        ∧ (∀ bound, time.exceedsUnixDuration bound = true ↔ bound.value < time.instant)
        ∧ ∃ lower upper, time.opensslAttimeBounds = .ok (lower, upper)
          ∧ (lower.toNat : ℤ) = ⌊time.instant⌋ ∧ (upper.toNat : ℤ) = ⌈time.instant⌉ := by
  refine ⟨⟨?_, ?_⟩, ?_⟩
  · rintro ⟨time, htime⟩
    obtain ⟨htag, whole, hlength, hdigits, hdate, htext⟩ := fromGeneralizedTimeDer_eq_ok.mp htime
    refine ⟨htag, whole, fractionText time.fractionalSeconds, hlength, hdigits,
      (exists_parseDateTime hdigits hlength).mp ⟨_, hdate⟩, htext, ?_⟩
    cases time.fractionalSeconds with
    | none => exact .inl rfl
    | some f => exact .inr ⟨f.digits, rfl, f.ne_nil, f.all_digits, f.last_ne_zero⟩
  · rintro ⟨htag, whole, text, hlength, hdigits, hvalid, htext, hfraction⟩
    obtain ⟨dateTime, hdate⟩ := (exists_parseDateTime hdigits hlength).mpr hvalid
    obtain ⟨f, rfl⟩ : ∃ f, text = fractionText f := by
      rcases hfraction with rfl | ⟨digits, rfl, hne, hall, hlast⟩
      · exact ⟨none, rfl⟩
      · exact ⟨some ⟨digits, hne, hall, hlast⟩, rfl⟩
    exact ⟨⟨dateTime, f⟩, fromGeneralizedTimeDer_eq_ok.mpr
      ⟨htag, whole, hlength, hdigits, hdate, htext⟩⟩
  · intro time htime
    obtain ⟨-, whole, hlength, -, hdate, htext⟩ := fromGeneralizedTimeDer_eq_ok.mp htime
    exact ⟨⟨whole, hlength, hdate, htext⟩, exceedsUnixDuration_iff time,
      opensslAttimeBounds_eq time⟩

/-! ### The calendar, computed -/

/-- The days of a year before a month. -/
def daysBeforeMonth (year month : Nat) : Nat :=
  [0, 31, 59, 90, 120, 151, 181, 212, 243, 273, 304, 334].getD (month - 1) 0
    + (if isLeapYear year ∧ 2 < month then 1 else 0)

/-- The days since the first of January 1970. -/
def daysSinceEpoch (year month day : Nat) : Nat :=
  365 * (year - 1970) + ((year - 1) / 4 - (year - 1) / 100 + (year - 1) / 400 - 477)
    + daysBeforeMonth year month + (day - 1)

def unixSecondsOf (year month day hour minutes seconds : Nat) : Nat :=
  daysSinceEpoch year month day * 86400 + hour * 3600 + minutes * 60 + seconds

theorem dayOfYear_le {year month day : Nat} (hmonth : 1 ≤ month ∧ month ≤ 12)
    (hday : day ≤ daysInMonth year month) :
    daysBeforeMonth year month + (day - 1) ≤ 364 + if isLeapYear year then 1 else 0 := by
  obtain ⟨hlow, hhigh⟩ := hmonth
  cases hleap : isLeapYear year <;> interval_cases month <;>
    simp [daysBeforeMonth, daysInMonth, hleap] at hday ⊢ <;> omega

theorem unixSecondsOf_le {year month day hour minutes seconds : Nat}
    (h : ValidInstant year month day hour minutes seconds) :
    unixSecondsOf year month day hour minutes seconds ≤ maxUnixSeconds := by
  obtain ⟨hyear, hyear', hmonth, hmonth', -, hday, hhour, hminutes, hseconds⟩ := h
  have hdays := dayOfYear_le ⟨hmonth, hmonth'⟩ hday
  -- the last year of all is no leap year
  have hlast : 365 * (year - 1970) + ((year - 1) / 4 - (year - 1) / 100 + (year - 1) / 400 - 477)
      + (364 + if isLeapYear year then 1 else 0) ≤ 2932896 := by
    rcases Nat.lt_or_ge year 9999 with hbefore | hat
    · split_ifs <;> omega
    · obtain rfl : year = 9999 := by omega
      decide
  unfold unixSecondsOf daysSinceEpoch maxUnixSeconds
  omega

/-- `DateTime::new` of the calendar. -/
@[reducible] def DateTime.civil : DateTime where
  new year month day hour minutes seconds :=
    if h : ValidInstant year.toNat month.toNat day.toNat hour.toNat minutes.toNat seconds.toNat then
      .ok ⟨UInt64.ofNat (unixSecondsOf year.toNat month.toNat day.toNat hour.toNat minutes.toNat
        seconds.toNat), by
          have hle := unixSecondsOf_le h
          rw [UInt64.toNat_ofNat_of_lt64 (hle.trans_lt (by decide))]
          exact hle⟩
    else .error "ASN.1 DATETIME error"
  new_eq_ok year month day hour minutes seconds := by
    split_ifs with h
    · exact iff_of_true ⟨_, rfl⟩ h
    · refine iff_of_false ?_ h
      rintro ⟨time, heq⟩
      cases heq

/-- Two instants in one second, which differ at the tenth digit. -/
theorem generation_time_exact_sample :
    letI := DateTime.civil
    ∃ time, fromGeneralizedTimeDer
        ⟨generalizedTimeTag, utf8Bytes "20260722224000.1000000001Z"⟩ = .ok time
      ∧ (∀ bound, time.exceedsUnixDuration bound = true ↔ bound.value < time.instant)
      ∧ time.exceedsUnixDuration ⟨1784760000, 100000000, by decide⟩ = true := by
  let := DateTime.civil
  have h := generation_time_exact
    ⟨generalizedTimeTag, utf8Bytes "20260722224000.1000000001Z"⟩
  have hvalid : ValidDigits (utf8Bytes "20260722224000") := by
    unfold ValidDigits
    decide +kernel
  have hcanonical : CanonicalTime (utf8Bytes "20260722224000.1000000001Z") :=
    ⟨utf8Bytes "20260722224000", 46 :: utf8Bytes "1000000001", by decide +kernel,
      by decide +kernel, hvalid, by decide +kernel,
      .inr ⟨_, rfl, by decide +kernel, by decide +kernel, by decide +kernel⟩⟩
  obtain ⟨time, htime⟩ := h.1.mpr ⟨rfl, hcanonical⟩
  refine ⟨time, htime, (h.2 time htime).2.1, ?_⟩
  have hcomputed : (fromGeneralizedTimeDer
      ⟨generalizedTimeTag, utf8Bytes "20260722224000.1000000001Z"⟩).toOption.any
        (·.exceedsUnixDuration ⟨1784760000, 100000000, by decide⟩) = true := by decide +kernel
  rwa [htime] at hcomputed

end TrackOne.Rfc3161
