import TrackOne.Lib.Codec
import TrackOne.Lib.BinaryFloat

/-!
# Facts

The telemetry fact of `trackone-core/src/types.rs`, with its validation, and the size it has on the
wire. Serialisation is the business of the `postcard` package: the class `Postcard` says what is
relied on, that a fact is read back and how many bytes its fields take. `Postcard.wire` is the
format as it is documented.

* `Fact.postcardLength_le`: no fact takes more than 106 bytes, whatever its fields hold.
-/

namespace TrackOne

open BinaryFloat

/-! ## The data model -/

/-- `PodId`, eight bytes. -/
abbrev PodId := { bytes : Bytes // bytes.length = 8 }

/-- A float of 32 bits, by its pattern. -/
structure F32 where
  bits : UInt32
deriving DecidableEq

namespace F32

def isFinite (x : F32) : Bool := decide (single.Finite x.bits.toNat)

/-- The place of a pattern that is no NaN in the order of the floats; both zeros have one place. -/
def place (x : F32) : Int :=
  if x.bits.toNat < 2 ^ 31 then x.bits.toNat else -((x.bits.toNat - 2 ^ 31 : Nat) : Int)

/-- `>` on floats that are no NaN. -/
def gt (x y : F32) : Bool := decide (y.place < x.place)

end F32

inductive SampleType where
  | ambientAirTemperature
  | ambientRelativeHumidity
  | interfaceTemperature
  | coverageCapacitance
  | bioImpedanceMagnitude
  | bioImpedanceActivity
  | supplyVoltage
  | batterySoc
  | floodContact
  | linkQuality
  | waterLevel
  | waterFlowRate
  | waterVolume
  | waterPressure
  | waterTemperature
  | waterElectricalConductivity
  | waterPh
  | waterDissolvedOxygen
  | waterTurbidity
  | waterSalinity
  | waterTotalDissolvedSolids
  | rainfall
  | rainIntensity
  | windSpeed
  | windDirection
  | barometricPressure
  | solarIrradiance
  | soilMoisture
  | soilTemperature
  | soilElectricalConductivity
  | vibrationRms
  | vibrationPeak
  | shockAcceleration
  | inclinationAngle
  | displacement
  | strain
  | crackWidth
  | acousticNoise
  | airQualityPm25
  | airQualityPm10
  | carbonDioxide
  | volatileOrganicCompounds
  | batteryVoltage
  | batteryCurrent
  | batteryTemperature
  | solarChargeCurrent
  | enclosureHumidity
  | enclosureTemperature
  | radioRssi
  | radioSnr
  | custom
deriving DecidableEq

/-- The `repr` of a sample type. -/
def SampleType.code : SampleType → UInt8
  | .ambientAirTemperature => 1
  | .ambientRelativeHumidity => 2
  | .interfaceTemperature => 3
  | .coverageCapacitance => 4
  | .bioImpedanceMagnitude => 5
  | .bioImpedanceActivity => 6
  | .supplyVoltage => 7
  | .batterySoc => 8
  | .floodContact => 9
  | .linkQuality => 10
  | .waterLevel => 11
  | .waterFlowRate => 12
  | .waterVolume => 13
  | .waterPressure => 14
  | .waterTemperature => 15
  | .waterElectricalConductivity => 16
  | .waterPh => 17
  | .waterDissolvedOxygen => 18
  | .waterTurbidity => 19
  | .waterSalinity => 20
  | .waterTotalDissolvedSolids => 21
  | .rainfall => 22
  | .rainIntensity => 23
  | .windSpeed => 24
  | .windDirection => 25
  | .barometricPressure => 26
  | .solarIrradiance => 27
  | .soilMoisture => 28
  | .soilTemperature => 29
  | .soilElectricalConductivity => 30
  | .vibrationRms => 31
  | .vibrationPeak => 32
  | .shockAcceleration => 33
  | .inclinationAngle => 34
  | .displacement => 35
  | .strain => 36
  | .crackWidth => 37
  | .acousticNoise => 38
  | .airQualityPm25 => 39
  | .airQualityPm10 => 40
  | .carbonDioxide => 41
  | .volatileOrganicCompounds => 42
  | .batteryVoltage => 43
  | .batteryCurrent => 44
  | .batteryTemperature => 45
  | .solarChargeCurrent => 46
  | .enclosureHumidity => 47
  | .enclosureTemperature => 48
  | .radioRssi => 49
  | .radioSnr => 50
  | .custom => 250

structure EnvFact where
  sampleType : SampleType
  phenomenonTimeStart : Int64
  phenomenonTimeEnd : Int64
  value : Option F32
  min : Option F32
  max : Option F32
  mean : Option F32
  count : Option UInt32
  quality : Option F32
  sensorChannel : Option UInt8
deriving DecidableEq

inductive FactKind where
  | env
  | pipeline
  | health
  | custom
deriving DecidableEq

/-- The `repr` of a kind. -/
def FactKind.code : FactKind → UInt8
  | .env => 1
  | .pipeline => 2
  | .health => 3
  | .custom => 250

/-- `FactPayload`; a custom payload is a vector with room for 64 bytes. -/
inductive FactPayload where
  | env (fact : EnvFact)
  | custom (bytes : { bytes : Bytes // bytes.length ≤ 64 })
deriving DecidableEq

structure Fact where
  podId : PodId
  fc : UInt64
  ingestTime : Int64
  podTime : Option Int64
  kind : FactKind
  payload : FactPayload
deriving DecidableEq

/-! ## Validation -/

inductive FactValidationError where
  | kindPayloadMismatch
  | phenomenonTimeReversed
  | instantTimeRange
  | nonFiniteInstantValue
  | instantHasAggregates
  | instantCount
  | incompleteSummary
  | summaryCount
  | nonFiniteSummaryValue
  | summaryOrder
  | nonFiniteQuality
deriving DecidableEq, Repr

def EnvFact.validate (fact : EnvFact) : Except FactValidationError Unit := do
  if fact.phenomenonTimeEnd < fact.phenomenonTimeStart then
    throw .phenomenonTimeReversed
  if fact.quality.any fun quality => !quality.isFinite then
    throw .nonFiniteQuality
  match fact.value with
  | some value =>
    if fact.phenomenonTimeStart ≠ fact.phenomenonTimeEnd then
      throw .instantTimeRange
    if !value.isFinite then
      throw .nonFiniteInstantValue
    if fact.min.isSome || fact.max.isSome || fact.mean.isSome then
      throw .instantHasAggregates
    if fact.count ≠ none ∧ fact.count ≠ some 1 then
      throw .instantCount
  | none =>
    match fact.min, fact.max, fact.mean, fact.count with
    | some min, some max, some mean, some count =>
      if count = 0 then
        throw .summaryCount
      if !min.isFinite || !max.isFinite || !mean.isFinite then
        throw .nonFiniteSummaryValue
      if min.gt mean || mean.gt max then
        throw .summaryOrder
    | _, _, _, _ => throw .incompleteSummary

def Fact.validate (fact : Fact) : Except FactValidationError Unit :=
  match fact.kind, fact.payload with
  | .env, .env env => env.validate
  | .pipeline, .custom _ => .ok ()
  | .health, .custom _ => .ok ()
  | .custom, .custom _ => .ok ()
  | _, _ => .error .kindPayloadMismatch

/-- A check of `validate`, and what comes behind it. -/
theorem check_eq_ok {c : Prop} [Decidable c] {reason : FactValidationError}
    {rest : Except FactValidationError Unit} (h : (if c then .error reason else rest) = .ok ()) :
    ¬ c ∧ rest = .ok () := by
  split_ifs at h with hc
  exact ⟨hc, h⟩

/-- The floats of a valid observation are finite. -/
theorem EnvFact.isFinite_of_validate {fact : EnvFact} (h : fact.validate = .ok ()) :
    ∀ field ∈ [fact.value, fact.min, fact.max, fact.mean, fact.quality], ∀ x ∈ field,
      x.isFinite = true := by
  unfold validate at h
  -- the times are in order and the quality is finite
  obtain ⟨-, h⟩ := check_eq_ok h
  obtain ⟨hfinite, h⟩ := check_eq_ok h
  have hquality : ∀ x ∈ fact.quality, x.isFinite = true := by
    intro x hx
    rw [hx] at hfinite
    simpa using hfinite
  have hnone : ∀ x : F32, x ∈ none → x.isFinite = true := fun _ hx => absurd hx (by simp)
  have hsome : ∀ {y : F32}, y.isFinite = true → ∀ x ∈ some y, x.isFinite = true := by
    rintro y hy x hx
    cases hx
    exact hy
  simp only [List.forall_mem_cons]
  cases hvalue : fact.value with
  -- a single value is finite, and then there are no aggregates
  | some value =>
    rw [hvalue] at h
    obtain ⟨-, h⟩ := check_eq_ok h
    obtain ⟨hvalue, h⟩ := check_eq_ok h
    obtain ⟨haggregates, -⟩ := check_eq_ok h
    simp only [Bool.or_eq_true, not_or, Option.not_isSome_iff_eq_none] at haggregates
    obtain ⟨⟨hmin, hmax⟩, hmean⟩ := haggregates
    rw [hmin, hmax, hmean]
    exact ⟨hsome (by simpa using hvalue), hnone, hnone, hnone, hquality, by simp⟩
  -- without it there are all four aggregates, and these are finite
  | none =>
    rw [hvalue] at h
    cases hmin : fact.min with
    | none =>
      rw [hmin] at h
      cases h
    | some min =>
    cases hmax : fact.max with
    | none =>
      rw [hmin, hmax] at h
      cases h
    | some max =>
    cases hmean : fact.mean with
    | none =>
      rw [hmin, hmax, hmean] at h
      cases h
    | some mean =>
    cases hcount : fact.count with
    | none =>
      rw [hmin, hmax, hmean, hcount] at h
      cases h
    | some count =>
      rw [hmin, hmax, hmean, hcount] at h
      obtain ⟨-, h⟩ := check_eq_ok h
      obtain ⟨hfinite, -⟩ := check_eq_ok h
      simp only [Bool.or_eq_true, not_or, Bool.not_eq_true', Bool.not_eq_false] at hfinite
      obtain ⟨⟨hmin, hmax⟩, hmean⟩ := hfinite
      exact ⟨hnone, hsome hmin, hsome hmax, hsome hmean, hquality, by simp⟩

/-! ## The size of a fact -/

def int64Length (n : Int64) : Nat := Codec.varintLength (Codec.zigzag n)

def optionLength {α : Type} (length : α → Nat) (value : Option α) : Nat :=
  1 + (value.map length).getD 0

/-- A byte for the type, the two times, and five floats, a count and a channel that may be
missing. -/
def EnvFact.postcardLength (fact : EnvFact) : Nat :=
  1 + int64Length fact.phenomenonTimeStart + int64Length fact.phenomenonTimeEnd
    + optionLength (fun _ => 4) fact.value + optionLength (fun _ => 4) fact.min
    + optionLength (fun _ => 4) fact.max + optionLength (fun _ => 4) fact.mean
    + optionLength (fun n => Codec.varintLength n.toNat) fact.count
    + optionLength (fun _ => 4) fact.quality + optionLength (fun _ => 1) fact.sensorChannel

/-- The index of the variant, and what it holds. -/
def FactPayload.postcardLength : FactPayload → Nat
  | .env fact => 1 + fact.postcardLength
  | .custom bytes => 1 + (Codec.varintLength bytes.1.length + bytes.1.length)

def Fact.postcardLength (fact : Fact) : Nat :=
  8 + Codec.varintLength fact.fc.toNat + int64Length fact.ingestTime
    + optionLength int64Length fact.podTime + 1 + fact.payload.postcardLength

/-- What the code relies on of `postcard`: a fact that was written is read back, and integers are
written in groups of seven bits. -/
class Postcard where
  toBytes : Fact → Bytes
  fromBytes : Bytes → Option Fact
  fromBytes_toBytes : ∀ fact, fromBytes (toBytes fact) = some fact
  length_toBytes : ∀ fact, (toBytes fact).length = fact.postcardLength

theorem int64Length_le (n : Int64) : int64Length n ≤ 10 :=
  Codec.varintLength_le (k := 9) ((Codec.zigzag_lt n).trans (by decide))

theorem optionLength_le {α : Type} {length : α → Nat} {limit : Nat} (h : ∀ a, length a ≤ limit)
    (value : Option α) : optionLength length value ≤ 1 + limit := by
  cases value with
  | none => simp [optionLength]
  | some a => simpa [optionLength] using h a

theorem EnvFact.postcardLength_le (fact : EnvFact) : fact.postcardLength ≤ 54 := by
  have hstart := int64Length_le fact.phenomenonTimeStart
  have hend := int64Length_le fact.phenomenonTimeEnd
  have hfloat : ∀ x : Option F32, optionLength (fun _ => 4) x ≤ 1 + 4 :=
    optionLength_le fun _ => Nat.le_refl 4
  have hvalue := hfloat fact.value
  have hmin := hfloat fact.min
  have hmax := hfloat fact.max
  have hmean := hfloat fact.mean
  have hquality := hfloat fact.quality
  have hcount : optionLength (fun n : UInt32 => Codec.varintLength n.toNat) fact.count ≤ 1 + 5 :=
    optionLength_le (fun n => Codec.varintLength_le (k := 4) (n.toNat_lt.trans (by decide))) _
  have hchannel : optionLength (fun _ => 1) fact.sensorChannel ≤ 1 + 1 :=
    optionLength_le (fun _ => Nat.le_refl 1) _
  unfold postcardLength
  omega

theorem FactPayload.postcardLength_le (payload : FactPayload) : payload.postcardLength ≤ 66 := by
  cases payload with
  | env fact =>
    have := fact.postcardLength_le
    rw [postcardLength]
    omega
  | custom bytes =>
    have hbytes := bytes.2
    have hlength : Codec.varintLength bytes.1.length ≤ 1 :=
      Codec.varintLength_le (k := 0) (by omega)
    rw [postcardLength]
    omega

/-- Every fact fits the buffers, with the tag and without. -/
theorem Fact.postcardLength_le (fact : Fact) : fact.postcardLength ≤ 106 := by
  have hfc : Codec.varintLength fact.fc.toNat ≤ 10 :=
    Codec.varintLength_le (k := 9) (fact.fc.toNat_lt.trans (by decide))
  have hingest := int64Length_le fact.ingestTime
  have hpod := optionLength_le int64Length_le fact.podTime
  have hpayload := fact.payload.postcardLength_le
  unfold postcardLength
  omega

theorem Fact.postcardLength_pos (fact : Fact) : 0 < fact.postcardLength := by
  unfold postcardLength
  omega

/-! ## The documented format -/

/-- The sample types, in the order of their codes. -/
def SampleType.all : List SampleType :=
  [.ambientAirTemperature, .ambientRelativeHumidity, .interfaceTemperature, .coverageCapacitance,
    .bioImpedanceMagnitude, .bioImpedanceActivity, .supplyVoltage, .batterySoc, .floodContact,
    .linkQuality, .waterLevel, .waterFlowRate, .waterVolume, .waterPressure, .waterTemperature,
    .waterElectricalConductivity, .waterPh, .waterDissolvedOxygen, .waterTurbidity,
    .waterSalinity, .waterTotalDissolvedSolids, .rainfall, .rainIntensity, .windSpeed,
    .windDirection, .barometricPressure, .solarIrradiance, .soilMoisture, .soilTemperature,
    .soilElectricalConductivity, .vibrationRms, .vibrationPeak, .shockAcceleration,
    .inclinationAngle, .displacement, .strain, .crackWidth, .acousticNoise, .airQualityPm25,
    .airQualityPm10, .carbonDioxide, .volatileOrganicCompounds, .batteryVoltage, .batteryCurrent,
    .batteryTemperature, .solarChargeCurrent, .enclosureHumidity, .enclosureTemperature,
    .radioRssi, .radioSnr, .custom]

def SampleType.ofCode? (code : UInt8) : Option SampleType :=
  SampleType.all.find? fun sampleType => sampleType.code == code

theorem SampleType.ofCode?_code (sampleType : SampleType) :
    SampleType.ofCode? sampleType.code = some sampleType := by
  cases sampleType <;> decide

def FactKind.ofCode? (code : UInt8) : Option FactKind :=
  [FactKind.env, .pipeline, .health, .custom].find? fun kind => kind.code == code

theorem FactKind.ofCode?_code (kind : FactKind) : FactKind.ofCode? kind.code = some kind := by
  cases kind <;> decide

def F32.codec : Codec F32 :=
  (Codec.blob 4).via (fun x => ⟨(beBytes 4 x.bits.toNat).reverse, by simp⟩)
    (fun bytes => some ⟨UInt32.ofNat (ofBeBytes bytes.1.reverse)⟩) fun x => by
      have hlt : x.bits.toNat < 256 ^ 4 := x.bits.toNat_lt
      rw [List.reverse_reverse, ofBeBytes_beBytes, Nat.mod_eq_of_lt hlt, UInt32.ofNat_toNat]

def EnvFact.codec : Codec EnvFact :=
  ((Codec.byte.via SampleType.code SampleType.ofCode? SampleType.ofCode?_code).both
    (Codec.int64.both (Codec.int64.both (F32.codec.opt.both (F32.codec.opt.both (F32.codec.opt.both
      (F32.codec.opt.both (Codec.uint32.opt.both (F32.codec.opt.both Codec.byte.opt))))))))).via
    (fun fact => (fact.sampleType, fact.phenomenonTimeStart, fact.phenomenonTimeEnd, fact.value,
      fact.min, fact.max, fact.mean, fact.count, fact.quality, fact.sensorChannel))
    (fun (sampleType, start, stop, value, min, max, mean, count, quality, channel) =>
      some ⟨sampleType, start, stop, value, min, max, mean, count, quality, channel⟩)
    fun _ => rfl

def FactPayload.codec : Codec FactPayload :=
  (EnvFact.codec.choice (Codec.bounded 64)).via
    (fun
      | .env fact => .inl fact
      | .custom bytes => .inr bytes)
    (fun
      | .inl fact => some (.env fact)
      | .inr bytes => some (.custom bytes))
    fun payload => by cases payload <;> rfl

def Fact.codec : Codec Fact :=
  ((Codec.blob 8).both (Codec.uint64.both (Codec.int64.both (Codec.int64.opt.both
    ((Codec.byte.via FactKind.code FactKind.ofCode? FactKind.ofCode?_code).both
      FactPayload.codec))))).via
    (fun fact => (fact.podId, fact.fc, fact.ingestTime, fact.podTime, fact.kind, fact.payload))
    (fun (podId, fc, ingestTime, podTime, kind, payload) =>
      some ⟨podId, fc, ingestTime, podTime, kind, payload⟩)
    fun _ => rfl

theorem length_write_opt {α : Type} (codec : Codec α) (value : Option α) :
    (codec.opt.write value).length = optionLength (fun a => (codec.write a).length) value := by
  cases value with
  | none => rfl
  | some a => simp [Codec.opt, optionLength, Nat.add_comm]

theorem EnvFact.length_write (fact : EnvFact) :
    (codec.write fact).length = fact.postcardLength := by
  have hfloat : ∀ x : F32, (F32.codec.write x).length = 4 := by
    intro x
    simp [F32.codec, Codec.via, Codec.blob]
  simp only [codec, Codec.via, Codec.both, List.length_append, length_write_opt, hfloat,
    Codec.byte, Codec.int64, Codec.varint, Codec.uint32, Codec.length_writeVarint,
    List.length_singleton, postcardLength, int64Length]
  omega

theorem FactPayload.length_write (payload : FactPayload) :
    (codec.write payload).length = payload.postcardLength := by
  have hindex : ∀ n, n < 128 → (Codec.writeVarint n).length = 1 := by
    intro n hn
    rw [Codec.length_writeVarint, Codec.varintLength, if_pos hn]
  cases payload with
  | env fact =>
    simp only [codec, Codec.via, Codec.choice, List.length_append, hindex 0 (by decide),
      EnvFact.length_write, postcardLength]
  | custom bytes =>
    simp only [codec, Codec.via, Codec.choice, Codec.bounded, List.length_append,
      hindex 1 (by decide), Codec.length_writeVarint, postcardLength]

/-- The format as `postcard` documents it. -/
@[reducible] def Postcard.wire : Postcard where
  toBytes := Fact.codec.write
  fromBytes bytes := (Fact.codec.read bytes).map Prod.fst
  fromBytes_toBytes fact := by
    have h := Fact.codec.read_write fact []
    rw [List.append_nil] at h
    rw [h]
    rfl
  length_toBytes fact := by
    have hid : ((Codec.blob 8).write fact.podId).length = 8 := fact.podId.2
    simp only [Fact.codec, Codec.via, Codec.both, List.length_append, length_write_opt, hid,
      Codec.byte, Codec.int64, Codec.uint64, Codec.varint, Codec.length_writeVarint,
      List.length_singleton, FactPayload.length_write, Fact.postcardLength]
    show _ = 8 + _ + int64Length _ + optionLength (fun t => int64Length t) _ + 1 + _
    simp only [int64Length]
    omega

end TrackOne
