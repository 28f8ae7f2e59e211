import TrackOne.Ingest.Fact
import TrackOne.SensorThings.Mapping

/-!
# The projection of a fact

`trackone-sensorthings/src/adapter.rs`: an environmental fact becomes an input of the projection,
its times written as text. The values that `json!` makes are a parameter.

A year is narrowed to 32 bits before it is written, so a time far outside the years 0000 to 9999 can
be written as one of them.

* `format_eq_iff_written`: the times that are written as a time of those years.
* `projectFactEnvObservation_eq_ok`: the facts that are projected, and what each is projected to.
* `projectedTimes_exact_iff`: where the projected times are those of the fact.
-/

namespace TrackOne.SensorThings

open BinaryFloat Decimal

structure EnvObservationAdapterContext where
  siteId : Option String
  sensorKeyOverride : Option String
  deploymentSensorKey : Option String
  provisioningSensorKey : Option String
  provisioningIdentity : Option String

inductive AdapterError where
  | notEnvFact
  | invalidFact (error : FactValidationError)
  | missingSensorIdentity (podId observedPropertyKey : String) (sensorChannel : Option UInt8)
  | validation (error : ValidationError)

def observedPropertyKey : SampleType → String
  | .ambientAirTemperature => "temperature_air"
  | .ambientRelativeHumidity => "relative_humidity"
  | .interfaceTemperature => "temperature_interface"
  | .coverageCapacitance => "coverage_capacitance"
  | .bioImpedanceMagnitude => "bioimpedance_magnitude"
  | .bioImpedanceActivity => "bioimpedance_activity"
  | .supplyVoltage => "supply_voltage"
  | .batterySoc => "battery_soc"
  | .floodContact => "flood_contact"
  | .linkQuality => "link_quality"
  | .waterLevel => "water_level"
  | .waterFlowRate => "water_flow_rate"
  | .waterVolume => "water_volume"
  | .waterPressure => "water_pressure"
  | .waterTemperature => "water_temperature"
  | .waterElectricalConductivity => "water_electrical_conductivity"
  | .waterPh => "water_ph"
  | .waterDissolvedOxygen => "water_dissolved_oxygen"
  | .waterTurbidity => "water_turbidity"
  | .waterSalinity => "water_salinity"
  | .waterTotalDissolvedSolids => "water_total_dissolved_solids"
  | .rainfall => "rainfall"
  | .rainIntensity => "rain_intensity"
  | .windSpeed => "wind_speed"
  | .windDirection => "wind_direction"
  | .barometricPressure => "barometric_pressure"
  | .solarIrradiance => "solar_irradiance"
  | .soilMoisture => "soil_moisture"
  | .soilTemperature => "soil_temperature"
  | .soilElectricalConductivity => "soil_electrical_conductivity"
  | .vibrationRms => "vibration_rms"
  | .vibrationPeak => "vibration_peak"
  | .shockAcceleration => "shock_acceleration"
  | .inclinationAngle => "inclination_angle"
  | .displacement => "displacement"
  | .strain => "strain"
  | .crackWidth => "crack_width"
  | .acousticNoise => "acoustic_noise"
  | .airQualityPm25 => "air_quality_pm25"
  | .airQualityPm10 => "air_quality_pm10"
  | .carbonDioxide => "carbon_dioxide"
  | .volatileOrganicCompounds => "volatile_organic_compounds"
  | .batteryVoltage => "battery_voltage"
  | .batteryCurrent => "battery_current"
  | .batteryTemperature => "battery_temperature"
  | .solarChargeCurrent => "solar_charge_current"
  | .enclosureHumidity => "enclosure_humidity"
  | .enclosureTemperature => "enclosure_temperature"
  | .radioRssi => "radio_rssi"
  | .radioSnr => "radio_snr"
  | .custom => "custom"

/-- What `json!` is given for a summary. -/
structure StructuredResult where
  min : Option F32
  max : Option F32
  mean : Option F32
  count : Option UInt32
  quality : Option F32
  sensorChannel : Option UInt8

section

variable [Sha256]

def deriveProvisionedSensorKey (identity observedPropertyKey : String)
    (sensorChannel : Option UInt8) :
    String :=
  let digest := sha256Hex (utf8Bytes identity)
  let fingerprint := String.ofList (digest.toList.take 16)
  let suffix :=
    match sensorChannel with
    | some channel => "ch" ++ toString channel
    | none => observedPropertyKey.map fun c => if c = '_' then '-' else c
  "prov-" ++ fingerprint ++ "-" ++ suffix

/-- The `sensor_key` of a fact, of the first source that has one. -/
def sensorKey (ctx : EnvObservationAdapterContext) (env : EnvFact) : Option String :=
  ctx.sensorKeyOverride
    <|> ctx.deploymentSensorKey
    <|> ctx.provisioningSensorKey
    <|> ctx.provisioningIdentity.map fun identity =>
      deriveProvisionedSensorKey identity (observedPropertyKey env.sampleType) env.sensorChannel

variable {Value : Type} (json : StructuredResult → Value)

def unixToRfc3339 (value : Int64) : String := formatRfc3339Utc value.toInt

/-- `f64::from` of a float of 32 bits. -/
def f64From (value : F32) : UInt64 := UInt64.ofNat (widen single value.bits.toNat)

def observationResult (env : EnvFact) : ObservationResult Value :=
  match env.value with
  | some value => .scalar (f64From value)
  | none =>
    .structured (json ⟨env.min, env.max, env.mean, env.count, env.quality, env.sensorChannel⟩)

/-- The input that is made of a fact, once it has a sensor. -/
def envInput (fact : Fact) (env : EnvFact) (ctx : EnvObservationAdapterContext)
    (sensorKey : String) :
    EnvObservationProjectionInput Value where
  podId := hexLower fact.podId.1
  frameCounter := fact.fc
  siteId := ctx.siteId
  sensorKey
  observedPropertyKey := observedPropertyKey env.sampleType
  streamKey := if env.value.isSome then "raw" else "summary"
  phenomenonTimeStartRfc3339Utc := unixToRfc3339 env.phenomenonTimeStart
  phenomenonTimeEndRfc3339Utc := unixToRfc3339 env.phenomenonTimeEnd
  resultTimeRfc3339Utc := unixToRfc3339 fact.ingestTime
  result := observationResult json env

/-- The environmental observation of a fact. -/
def Fact.asEnv (fact : Fact) : Option EnvFact :=
  match fact.kind, fact.payload with
  | .env, .env env => some env
  | _, _ => none

def adaptEnvFactInput (fact : Fact) (ctx : EnvObservationAdapterContext) :
    Except AdapterError (EnvObservationProjectionInput Value) := do
  fact.validate.mapError AdapterError.invalidFact
  let env ← Except.ofOption .notEnvFact (Fact.asEnv fact)
  let sensorKey ← Except.ofOption
    (.missingSensorIdentity (hexLower fact.podId.1) (observedPropertyKey env.sampleType)
      env.sensorChannel)
    (sensorKey ctx env)
  pure (envInput json fact env ctx sensorKey)

def projectFactEnvObservation (fact : Fact) (ctx : EnvObservationAdapterContext) :
    Except AdapterError (EnvObservationProjection Value) := do
  let input ← adaptEnvFactInput json fact ctx
  (projectEnvObservation input).mapError AdapterError.validation

end

/-! ## The year that is written -/

/-- Digits up to the same separator are known from what is written. -/
theorem digits_append_inj {xs ys rest rest' : List Char} {c : Char} (hxs : ∀ d ∈ xs, d.isDigit)
    (hys : ∀ d ∈ ys, d.isDigit) (hc : c.isDigit = false) (h : xs ++ c :: rest = ys ++ c :: rest') :
    xs = ys ∧ rest = rest' := by
  have htake : ∀ (zs rest : List Char), (∀ d ∈ zs, d.isDigit) →
      (zs ++ c :: rest).takeWhile Char.isDigit = zs := by
    intro zs rest hzs
    rw [List.takeWhile_append_of_pos hzs]
    simp [hc]
  have heq : xs = ys := by
    rw [← htake xs rest hxs, h, htake ys rest' hys]
  subst heq
  exact ⟨rfl, (List.cons.inj (List.append_cancel_left h)).2⟩

/-- A field is read off a text up to its separator. -/
theorem padded_append_inj {width n m : Nat} {rest rest' : List Char} {c : Char}
    (hc : c.isDigit = false)
    (h : padded width n ++ c :: rest = padded width m ++ c :: rest') : n = m ∧ rest = rest' := by
  obtain ⟨hfield, hrest⟩ := digits_append_inj (fun _ hd => isDigit_of_mem_padded hd)
    (fun _ hd => isDigit_of_mem_padded hd) hc h
  refine ⟨?_, hrest⟩
  rw [← value_padded width n, hfield, value_padded]

/-- A year with a sign is none of four digits. -/
theorem nonneg_of_paddedInt {year : Int} {n : Nat} {rest rest' : List Char} (hn : n < 10 ^ 4)
    (h : paddedInt 4 year ++ rest = padded 4 n ++ rest') : 0 ≤ year := by
  by_contra hneg
  rw [paddedInt, if_pos (Int.not_le.mp hneg)] at h
  cases hfield : padded 4 n with
  | nil =>
    have hlength := length_padded (show 0 < 4 by decide) hn
    rw [hfield] at hlength
    cases hlength
  | cons c field =>
    rw [hfield] at h
    have hminus : '-' = c := (List.cons.inj h).1
    have hdigit : c.isDigit := isDigit_of_mem_padded (hfield ▸ List.mem_cons_self)
    rw [← hminus] at hdigit
    exact absurd hdigit (by decide)

/-- The year of a time, as it is written. -/
def writtenYear (unixSeconds : Int) : Int := asI32 (utcDate unixSeconds).year

/-- What is written is a date, and its year has four digits. -/
structure Written (unixSeconds : Int) : Prop where
  year_nonneg : 0 ≤ writtenYear unixSeconds
  year_le : writtenYear unixSeconds ≤ 9999
  day_le : (utcDate unixSeconds).day
    ≤ Civil.daysInMonth (writtenYear unixSeconds) (utcDate unixSeconds).month

theorem hourOfDay_le (unixSeconds : Int) : (unixSeconds % 86400).toNat / 3600 ≤ 23 := by omega

theorem minuteOfHour_le (unixSeconds : Int) :
    (unixSeconds % 86400).toNat % 3600 / 60 ≤ 59 := by omega

theorem secondOfMinute_le (unixSeconds : Int) : (unixSeconds % 86400).toNat % 60 ≤ 59 := by omega

namespace Written

/-- The time that is written. -/
def time {unixSeconds : Int} (h : Written unixSeconds) : CivilTime where
  date :=
    { utcDate unixSeconds with
      year := writtenYear unixSeconds
      day_le := h.day_le }
  hour := (unixSeconds % 86400).toNat / 3600
  minute := (unixSeconds % 86400).toNat % 3600 / 60
  second := (unixSeconds % 86400).toNat % 60
  year_nonneg := h.year_nonneg
  year_le := h.year_le
  hour_le := hourOfDay_le unixSeconds
  minute_le := minuteOfHour_le unixSeconds
  second_le := secondOfMinute_le unixSeconds

/-- A time that can be written is written as a civil time. -/
theorem format_eq {unixSeconds : Int} (h : Written unixSeconds) :
    formatRfc3339Utc unixSeconds = formatRfc3339Utc h.time.seconds := by
  rw [format_seconds, formatRfc3339Utc, civilFromDays_eq]
  rfl

end Written

/-- What a time is written as, before the years are looked at. -/
theorem format_stamp (unixSeconds : Int) :
    formatRfc3339Utc unixSeconds = String.ofList (stamp (writtenYear unixSeconds)
      (utcDate unixSeconds).month.toNat (utcDate unixSeconds).day.toNat
      ((unixSeconds % 86400).toNat / 3600) ((unixSeconds % 86400).toNat % 3600 / 60)
      ((unixSeconds % 86400).toNat % 60) ++ ['Z']) := by
  rw [formatRfc3339Utc, civilFromDays_eq]
  rfl

/-- A stamp is known from its six fields. -/
theorem stamp_inj {year year' : Int}
    {month day hour minute second month' day' hour' minute' second' : Nat}
    (hpos : 0 ≤ year') (hle : year' ≤ 9999)
    (h : stamp year month day hour minute second ++ ['Z']
      = stamp year' month' day' hour' minute' second' ++ ['Z']) :
    year = year' ∧ month = month' ∧ day = day' ∧ hour = hour' ∧ minute = minute'
      ∧ second = second' := by
  unfold stamp at h
  simp only [List.append_assoc, List.cons_append] at h
  have hyear' : paddedInt 4 year' = padded 4 year'.natAbs := if_neg (Int.not_lt.mpr hpos)
  rw [hyear'] at h
  have hyear := nonneg_of_paddedInt (by omega) h
  rw [paddedInt, if_neg (Int.not_lt.mpr hyear)] at h
  obtain ⟨hyears, h⟩ := padded_append_inj (by decide) h
  obtain ⟨hmonths, h⟩ := padded_append_inj (by decide) h
  obtain ⟨hdays, h⟩ := padded_append_inj (by decide) h
  obtain ⟨hhours, h⟩ := padded_append_inj (by decide) h
  obtain ⟨hminutes, h⟩ := padded_append_inj (by decide) h
  obtain ⟨hseconds, -⟩ := padded_append_inj (by decide) h
  exact ⟨by omega, hmonths, hdays, hhours, hminutes, hseconds⟩

/-- The times that are written as a time of the years 0000 to 9999. -/
theorem format_eq_iff_written {a b : Int} (hb : InYears b) :
    formatRfc3339Utc a = formatRfc3339Utc b ↔ ∃ h : Written a, h.time.seconds = b := by
  constructor
  · intro h
    rw [format_stamp, formatRfc3339Utc_eq hb] at h
    have htime := CivilTime.year_nonneg (CivilTime.ofSeconds b hb)
    obtain ⟨hyear, hmonth, hday, hhour, hminute, hsecond⟩ :=
      stamp_inj htime (CivilTime.year_le _) (String.ofList_injective h)
    have hmonth : (utcDate a).month = (utcDate b).month := by
      have ha := (utcDate a).month_pos
      have hb := (utcDate b).month_pos
      change _ = (utcDate b).month.toNat at hmonth
      omega
    have hday : (utcDate a).day = (utcDate b).day := by
      have ha := (utcDate a).day_pos
      have hb := (utcDate b).day_pos
      change _ = (utcDate b).day.toNat at hday
      omega
    have hwritten : Written a := by
      refine ⟨hyear ▸ htime, hyear ▸ CivilTime.year_le _, ?_⟩
      rw [hyear, hmonth, hday]
      exact (utcDate b).day_le
    refine ⟨hwritten, ?_⟩
    rw [← CivilTime.seconds_ofSeconds b hb]
    congr 1
    refine CivilTime.ext ?_ hhour hminute hsecond
    exact Civil.Date.ext hyear hmonth hday
  · rintro ⟨h, rfl⟩
    exact h.format_eq

/-! ## What is projected -/

theorem isFinite_f64From {value : F32} (h : value.isFinite = true) :
    isFiniteF64 (f64From value) = true := by
  rw [F32.isFinite, decide_eq_true_eq] at h
  have hlt : widen single value.bits.toNat < 2 ^ 64 := widen_lt widens_single h value.bits.toNat_lt
  rw [isFiniteF64, f64From, UInt64.toNat_ofNat', Nat.mod_eq_of_lt hlt, decide_eq_true_eq]
  exact finite_widen widens_single h

/-- The result of a valid measurement is finite. -/
theorem observationResult_isFinite {Value : Type} (json : StructuredResult → Value) {env : EnvFact}
    (h : env.validate = .ok ()) : (observationResult json env).isFinite = true := by
  cases hvalue : env.value with
  | none =>
    rw [observationResult, hvalue]
    rfl
  | some value =>
    rw [observationResult, hvalue]
    exact isFinite_f64From (EnvFact.isFinite_of_validate h _ List.mem_cons_self value hvalue)

theorem trim_hexLower {bytes : Bytes} (h : bytes ≠ []) :
    (trim (hexLower bytes)).isEmpty = false := by
  have hdigit : ∀ n : Fin 256, isWhiteSpace (hexDigit (UInt8.ofNat n &&& 0x0f)) = false := by
    decide +kernel
  obtain ⟨byte, rest, rfl⟩ := List.exists_cons_of_ne_nil h
  refine trim_ne_nil (c := hexDigit (byte &&& 0x0f)) ?_ ?_
  · simp [hexLower]
  · simpa using hdigit ⟨byte.toNat, byte.toNat_lt⟩

theorem trim_observedPropertyKey (sampleType : SampleType) :
    (trim (observedPropertyKey sampleType)).isEmpty = false := by
  cases sampleType <;> decide +kernel

section

variable [Sha256] {Value : Type} (json : StructuredResult → Value)

/-- The times of a fact. -/
def factTimes (fact : Fact) (env : EnvFact) : List Int :=
  [env.phenomenonTimeStart.toInt, env.phenomenonTimeEnd.toInt, fact.ingestTime.toInt]

/-- A fact is projected: a sensor is named, and what is written for its times are dates, in
order. -/
structure Projectable (fact : Fact) (env : EnvFact) (ctx : EnvObservationAdapterContext) :
    Prop where
  sensor : ∃ key, sensorKey ctx env = some key ∧ (trim key).isEmpty = false
  start : Written env.phenomenonTimeStart.toInt
  stop : Written env.phenomenonTimeEnd.toInt
  result : Written fact.ingestTime.toInt
  ordered : start.time.seconds ≤ stop.time.seconds

omit [Sha256] in
/-- All keys but the sensor's are never blank. -/
theorem hasKeys_envInput {fact : Fact} {env : EnvFact} {ctx : EnvObservationAdapterContext}
    {key : String} :
    HasKeys (envInput json fact env ctx key) ↔ (trim key).isEmpty = false := by
  have hpod : fact.podId.1 ≠ [] := by
    intro hnil
    have hlength := fact.podId.2
    rw [hnil] at hlength
    cases hlength
  have hstream : (trim (if env.value.isSome then "raw" else "summary")).isEmpty = false := by
    split_ifs <;> decide +kernel
  simp only [HasKeys, List.forall_mem_cons]
  constructor
  · rintro ⟨-, hkey, -⟩
    exact hkey
  · intro hkey
    exact ⟨trim_hexLower hpod, hkey, trim_observedPropertyKey _, hstream, by simp⟩

omit [Sha256] in
/-- The times are projected exactly where they can be written, in order. -/
theorem projectedTimes_envInput {fact : Fact} {env : EnvFact} {ctx : EnvObservationAdapterContext}
    {key : String} :
    Nonempty (ProjectedTimes (envInput json fact env ctx key))
      ↔ ∃ (start : Written env.phenomenonTimeStart.toInt)
        (stop : Written env.phenomenonTimeEnd.toInt),
        Written fact.ingestTime.toInt ∧ start.time.seconds ≤ stop.time.seconds := by
  constructor
  · rintro ⟨times⟩
    obtain ⟨start, hstart⟩ := (format_eq_iff_written times.start_inYears).mp times.start_eq
    obtain ⟨stop, hstop⟩ := (format_eq_iff_written times.end_inYears).mp times.end_eq
    obtain ⟨result, -⟩ := (format_eq_iff_written times.result_inYears).mp times.result_eq
    refine ⟨start, stop, result, ?_⟩
    rw [hstart, hstop]
    exact times.start_le_end
  · rintro ⟨start, stop, result, hle⟩
    exact ⟨⟨_, _, _, start.time.inYears, stop.time.inYears, result.time.inYears, start.format_eq,
      stop.format_eq, result.format_eq, hle⟩⟩

/-- The facts that are projected, and what each is projected to. -/
theorem projectFactEnvObservation_eq_ok {fact : Fact} {env : EnvFact}
    {ctx : EnvObservationAdapterContext}
    {projection : EnvObservationProjection Value} (henv : Fact.asEnv fact = some env)
    (hvalid : fact.validate = .ok ()) :
    projectFactEnvObservation json fact ctx = .ok projection
      ↔ Projectable fact env ctx
        ∧ ∃ key, sensorKey ctx env = some key ∧ projection
          = projected (envInput json fact env ctx key) := by
  have hvalidEnv : env.validate = .ok () := by
    unfold Fact.asEnv at henv
    unfold Fact.validate at hvalid
    split at henv
    · cases henv
      rw [‹fact.kind = _›, ‹fact.payload = _›] at hvalid
      exact hvalid
    · cases henv
  simp only [projectFactEnvObservation, adaptEnvFactInput, Except.bind_eq_ok, Except.mapError_eq_ok,
    Except.ofOption_eq_ok, projectEnvObservation_eq_ok]
  constructor
  · rintro ⟨input, ⟨_, -, env', henv', key, hkey, hinput⟩, h⟩
    rw [henv] at henv'
    cases henv'
    cases hinput
    rw [hasKeys_envInput, projectedTimes_envInput] at h
    obtain ⟨hblank, ⟨start, stop, result, hle⟩, -, rfl⟩ := h
    exact ⟨⟨⟨key, hkey, hblank⟩, start, stop, result, hle⟩, key, hkey, rfl⟩
  · rintro ⟨hprojectable, key, hkey, rfl⟩
    obtain ⟨key', hkey', hblank⟩ := hprojectable.sensor
    rw [hkey] at hkey'
    cases hkey'
    refine ⟨_, ⟨(), hvalid, env, henv, key, hkey, rfl⟩, (hasKeys_envInput json).mpr hblank, ?_,
      observationResult_isFinite json hvalidEnv, rfl⟩
    exact (projectedTimes_envInput json).mpr
      ⟨hprojectable.start, hprojectable.stop, hprojectable.result, hprojectable.ordered⟩

/-- The times of a projection, as they are read. -/
def ReadsTimes (projection : EnvObservationProjection Value) (fact : Fact) (env : EnvFact) : Prop :=
  parseRfc3339Timestamp projection.observation.phenomenonTime.startRfc3339Utc
      = .ok ⟨env.phenomenonTimeStart.toInt⟩
    ∧ parseRfc3339Timestamp projection.observation.phenomenonTime.endRfc3339Utc
      = .ok ⟨env.phenomenonTimeEnd.toInt⟩
    ∧ parseRfc3339Timestamp projection.observation.resultTimeRfc3339Utc
      = .ok ⟨fact.ingestTime.toInt⟩

/-- The projected times are those of the fact, and no fact outside the years 0000 to 9999 is
projected, exactly where all its times are in those years or the narrowed years do not pass for such
a fact. -/
theorem projectedTimes_exact_iff {fact : Fact} {env : EnvFact} {ctx : EnvObservationAdapterContext}
    (henv : Fact.asEnv fact = some env) (hvalid : fact.validate = .ok ()) :
    ((∀ projection, projectFactEnvObservation json fact ctx = .ok projection →
        ReadsTimes projection fact env)
      ∧ ((∃ time ∈ factTimes fact env, ¬ InYears time) →
        ∀ projection, projectFactEnvObservation json fact ctx ≠ .ok projection))
    ↔ (∀ time ∈ factTimes fact env, InYears time) ∨ ¬ Projectable fact env ctx := by
  constructor
  · rintro ⟨-, hrejects⟩
    by_contra! hcon
    obtain ⟨hyears, hprojectable⟩ := hcon
    obtain ⟨key, hkey, -⟩ := hprojectable.sensor
    exact hrejects hyears _
      ((projectFactEnvObservation_eq_ok json henv hvalid).mpr ⟨hprojectable, key, hkey, rfl⟩)
  · rintro (hyears | hprojectable)
    · refine ⟨?_, ?_⟩
      · intro projection h
        obtain ⟨-, key, -, rfl⟩ := (projectFactEnvObservation_eq_ok json henv hvalid).mp h
        simp only [factTimes, List.forall_mem_cons] at hyears
        exact ⟨parse_format hyears.1, parse_format hyears.2.1, parse_format hyears.2.2.1⟩
      · rintro ⟨time, hmem, hout⟩
        exact absurd (hyears time hmem) hout
    · have hnone : ∀ projection, projectFactEnvObservation json fact ctx ≠ .ok projection :=
        fun projection h => hprojectable ((projectFactEnvObservation_eq_ok json henv hvalid).mp h).1
      exact ⟨fun projection h => absurd h (hnone projection), fun _ => hnone⟩

end

/-! ## A year that is narrowed -/

/-- An air temperature of `0`, at one time. -/
def sampleEnv (time : Int64) : EnvFact where
  sampleType := .ambientAirTemperature
  phenomenonTimeStart := time
  phenomenonTimeEnd := time
  value := some ⟨0⟩
  min := none
  max := none
  mean := none
  count := none
  quality := none
  sensorChannel := none

def sampleFact (time : Int64) : Fact where
  podId := ⟨List.replicate 8 0, rfl⟩
  fc := 1
  ingestTime := time
  podTime := none
  kind := .env
  payload := .env (sampleEnv time)

def sampleContext : EnvObservationAdapterContext where
  siteId := none
  sensorKeyOverride := some "shtc3"
  deploymentSensorKey := none
  provisioningSensorKey := none
  provisioningIdentity := none

theorem projectedTimes_exact_2026 :
    letI := Sha256.fips
    ∃ projection, projectFactEnvObservation id (sampleFact 1772755501) sampleContext
      = .ok projection
      ∧ parseRfc3339Timestamp projection.observation.resultTimeRfc3339Utc = .ok ⟨1772755501⟩ := by
  let := Sha256.fips
  have hyears : InYears (1772755501 : Int64).toInt := ⟨by decide +kernel, by decide +kernel⟩
  have hwritten : Written (1772755501 : Int64).toInt :=
    ⟨by decide +kernel, by decide +kernel, by decide +kernel⟩
  have hprojectable : Projectable (sampleFact 1772755501) (sampleEnv 1772755501) sampleContext :=
    ⟨⟨"shtc3", rfl, by decide +kernel⟩, hwritten, hwritten, hwritten, Int.le_refl _⟩
  have hvalid : (sampleFact 1772755501).validate = .ok () := by decide +kernel
  have hproject := (projectFactEnvObservation_eq_ok id rfl hvalid).mpr ⟨hprojectable, _, rfl, rfl⟩
  have hexact := (@projectedTimes_exact_iff _ _ id (sampleFact 1772755501) _ sampleContext rfl
    hvalid).mpr (.inl ?_)
  · exact ⟨_, hproject, (hexact.1 _ hproject).2.2⟩
  · simp only [factTimes, List.forall_mem_cons]
    exact ⟨hyears, hyears, hyears, by simp⟩

/-- Some `2 ^ 32` years later the year is written as 2026. -/
theorem projectedTimes_narrowed :
    letI := Sha256.fips
    ∃ projection, projectFactEnvObservation id (sampleFact 135536078574197293) sampleContext
        = .ok projection
      ∧ ¬ InYears (sampleFact 135536078574197293).ingestTime.toInt
      ∧ parseRfc3339Timestamp projection.observation.resultTimeRfc3339Utc
        ≠ .ok ⟨(sampleFact 135536078574197293).ingestTime.toInt⟩ := by
  let := Sha256.fips
  have hwritten : Written (135536078574197293 : Int64).toInt :=
    ⟨by decide +kernel, by decide +kernel, by decide +kernel⟩
  have hprojectable :
      Projectable (sampleFact 135536078574197293) (sampleEnv 135536078574197293) sampleContext :=
    ⟨⟨"shtc3", rfl, by decide +kernel⟩, hwritten, hwritten, hwritten, Int.le_refl _⟩
  refine ⟨_, (projectFactEnvObservation_eq_ok id rfl (by decide +kernel)).mpr
    ⟨hprojectable, _, rfl, rfl⟩, ?_, ?_⟩
  · rintro ⟨-, hle⟩
    exact absurd hle (by decide +kernel)
  · show parseRfc3339Timestamp (formatRfc3339Utc 135536078574197293) ≠ .ok ⟨135536078574197293⟩
    decide +kernel

end TrackOne.SensorThings
