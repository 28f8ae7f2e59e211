import TrackOne.Ingest.Replay
import TrackOne.Lib.BinaryFloat
import TrackOne.SensorThings.Ids
import TrackOne.SensorThings.Validate

/-!
# The projection of an observation

`trackone-sensorthings/src/mapping.rs` and the validation of its input. A structured result is
passed on as it is, so the type of JSON values is a parameter.

* `projectEnvObservation_eq_ok`: the inputs that are projected, and what each is projected to.
* `identities_separate`: identities are equal where the components are, or there is a collision.
-/

namespace TrackOne.SensorThings

open BinaryFloat

variable {Value : Type}

inductive ObservationResult (Value : Type) where
  | scalar (bits : UInt64)
  | structured (value : Value)

structure EnvObservationProjectionInput (Value : Type) where
  podId : String
  frameCounter : UInt64
  siteId : Option String
  sensorKey : String
  observedPropertyKey : String
  streamKey : String
  phenomenonTimeStartRfc3339Utc : String
  phenomenonTimeEndRfc3339Utc : String
  resultTimeRfc3339Utc : String
  result : ObservationResult Value

structure SensorThingsEntityIds where
  thingId : String
  sensorId : String
  observedPropertyId : String
  datastreamId : String
  observationId : String

structure SensorThingsThing where
  id : String
  podId : String
  siteId : Option String

structure SensorThingsDatastream where
  id : String
  thingId : String
  sensorId : String
  observedPropertyId : String
  streamKey : String

structure TimeInterval where
  startRfc3339Utc : String
  endRfc3339Utc : String

inductive ObservationPayload (Value : Type) where
  | scalar (bits : UInt64)
  | structured (value : Value)

structure SensorThingsObservation (Value : Type) where
  id : String
  datastreamId : String
  phenomenonTime : TimeInterval
  resultTimeRfc3339Utc : String
  result : ObservationPayload Value

structure EnvObservationProjection (Value : Type) where
  ids : SensorThingsEntityIds
  thing : SensorThingsThing
  datastream : SensorThingsDatastream
  observation : SensorThingsObservation Value

/-! ## Validation -/

def requireField (field value : String) : Except ValidationError Unit :=
  Except.require (.missingField field) (!(trim value).isEmpty)

/-- `f64::is_finite`. -/
def isFiniteF64 (bits : UInt64) : Bool := decide (double.Finite bits.toNat)

/-- The result is no scalar that is not finite. -/
def ObservationResult.isFinite : ObservationResult Value → Bool
  | .scalar bits => isFiniteF64 bits
  | .structured _ => true

def validateEnvObservationInput (input : EnvObservationProjectionInput Value) :
    Except ValidationError Unit := do
  requireField "pod_id" input.podId
  requireField "sensor_key" input.sensorKey
  requireField "observed_property_key" input.observedPropertyKey
  requireField "stream_key" input.streamKey
  requireField "phenomenon_time_start_rfc3339_utc" input.phenomenonTimeStartRfc3339Utc
  requireField "phenomenon_time_end_rfc3339_utc" input.phenomenonTimeEndRfc3339Utc
  requireField "result_time_rfc3339_utc" input.resultTimeRfc3339Utc
  let phenomenonStart ← parseRfc3339Utc "phenomenon_time_start_rfc3339_utc"
    input.phenomenonTimeStartRfc3339Utc
  let phenomenonEnd ← parseRfc3339Utc "phenomenon_time_end_rfc3339_utc"
    input.phenomenonTimeEndRfc3339Utc
  let _resultTime ← parseRfc3339Utc "result_time_rfc3339_utc" input.resultTimeRfc3339Utc
  Except.require .invalidTimeRange (!(phenomenonEnd.unixSeconds < phenomenonStart.unixSeconds))
  Except.require .nonFiniteScalarResult input.result.isFinite

/-! ## Projection -/

def normalizeRfc3339Utc (field value : String) : Except ValidationError String := do
  let timestamp ← (parseRfc3339Timestamp value).mapError fun _ =>
    ValidationError.invalidRfc3339 field
  pure (formatRfc3339Utc timestamp.unixSeconds)

def ObservationResult.payload : ObservationResult Value → ObservationPayload Value
  | .scalar bits => .scalar bits
  | .structured value => .structured value

section

variable [Sha256]

/-- The identities that are made of an input. -/
def entityIds (input : EnvObservationProjectionInput Value) : SensorThingsEntityIds :=
  let datastreamId := entityId .datastream
    [input.podId, input.sensorKey, input.observedPropertyKey, input.streamKey]
  { thingId := entityId .thing [input.podId]
    sensorId := entityId .sensor [input.podId, input.sensorKey]
    observedPropertyId := entityId .observedProperty [input.observedPropertyKey]
    datastreamId := datastreamId
    observationId :=
      entityId .observation [datastreamId, input.podId, toString input.frameCounter] }

def projectEnvObservation (input : EnvObservationProjectionInput Value) :
    Except ValidationError (EnvObservationProjection Value) := do
  validateEnvObservationInput input
  let phenomenonTimeStart ← normalizeRfc3339Utc "phenomenon_time_start_rfc3339_utc"
    input.phenomenonTimeStartRfc3339Utc
  let phenomenonTimeEnd ← normalizeRfc3339Utc "phenomenon_time_end_rfc3339_utc"
    input.phenomenonTimeEndRfc3339Utc
  let resultTime ← normalizeRfc3339Utc "result_time_rfc3339_utc" input.resultTimeRfc3339Utc
  let ids := entityIds input
  pure
    { ids
      thing := { id := ids.thingId, podId := input.podId, siteId := input.siteId }
      datastream :=
        { id := ids.datastreamId
          thingId := ids.thingId
          sensorId := ids.sensorId
          observedPropertyId := ids.observedPropertyId
          streamKey := input.streamKey }
      observation :=
        { id := ids.observationId
          datastreamId := ids.datastreamId
          phenomenonTime := ⟨phenomenonTimeStart, phenomenonTimeEnd⟩
          resultTimeRfc3339Utc := resultTime
          result := input.result.payload } }

end

/-! ## What is projected -/

theorem trim_ne_nil {value : String} {c : Char} (hmem : c ∈ value.toList)
    (hc : isWhiteSpace c = false) :
    (trim value).isEmpty = false := by
  have hkept : ∀ text : List Char, c ∈ text → c ∈ text.dropWhile isWhiteSpace := by
    intro text hmem
    rw [← List.takeWhile_append_dropWhile (p := isWhiteSpace) (l := text), List.mem_append] at hmem
    rcases hmem with htaken | hdropped
    · have := List.all_eq_true.mp List.all_takeWhile c htaken
      rw [hc] at this
      cases this
    · exact hdropped
  have htrim : c ∈ trim value := by
    rw [trim, List.mem_reverse]
    exact hkept _ (List.mem_reverse.mpr (hkept _ hmem))
  exact List.isEmpty_eq_false_iff.mpr (List.ne_nil_of_mem htrim)

/-- A field passes when it is not blank. -/
theorem requireField_eq_ok {field value : String} :
    requireField field value = .ok () ↔ (trim value).isEmpty = false := by
  rw [requireField, Except.require_eq_ok, Bool.not_eq_true']

theorem requireField_format (field : String) (unixSeconds : Int) :
    requireField field (formatRfc3339Utc unixSeconds) = .ok () :=
  requireField_eq_ok.mpr
    (trim_ne_nil (List.mem_of_getLast? (format_shape unixSeconds).1) (by decide))

/-- The times that an input is written with. -/
structure ProjectedTimes (input : EnvObservationProjectionInput Value) where
  phenomenonStart : Int
  phenomenonEnd : Int
  resultTime : Int
  start_inYears : InYears phenomenonStart
  end_inYears : InYears phenomenonEnd
  result_inYears : InYears resultTime
  start_eq : input.phenomenonTimeStartRfc3339Utc = formatRfc3339Utc phenomenonStart
  end_eq : input.phenomenonTimeEndRfc3339Utc = formatRfc3339Utc phenomenonEnd
  result_eq : input.resultTimeRfc3339Utc = formatRfc3339Utc resultTime
  start_le_end : phenomenonStart ≤ phenomenonEnd

/-- The four keys of an input are there. -/
def HasKeys (input : EnvObservationProjectionInput Value) : Prop :=
  ∀ key ∈ [input.podId, input.sensorKey, input.observedPropertyKey, input.streamKey],
    (trim key).isEmpty = false

/-- An input is valid when it has its keys, its times and a finite result. -/
theorem validateEnvObservationInput_eq_ok {input : EnvObservationProjectionInput Value} :
    validateEnvObservationInput input = .ok ()
      ↔ HasKeys input ∧ Nonempty (ProjectedTimes input) ∧ input.result.isFinite = true := by
  simp only [validateEnvObservationInput, Except.bind_eq_ok, Except.require_eq_ok,
    parseRfc3339Utc_eq_ok, Bool.not_eq_true', decide_eq_false_iff_not, Int.not_lt]
  constructor
  · rintro ⟨_, hpod, _, hsensor, _, hproperty, _, hstream, _, -, _, -, _, -, start,
      ⟨hstartIn, hstart⟩, stop, ⟨hendIn, hend⟩, result, ⟨hresultIn, hresult⟩, -, hle, hfinite⟩
    refine ⟨?_, ⟨⟨_, _, _, hstartIn, hendIn, hresultIn, hstart, hend, hresult, hle⟩⟩, hfinite⟩
    simp only [HasKeys, List.forall_mem_cons]
    exact ⟨requireField_eq_ok.mp hpod, requireField_eq_ok.mp hsensor,
      requireField_eq_ok.mp hproperty,
      requireField_eq_ok.mp hstream, by simp⟩
  · rintro ⟨hkeys, ⟨times⟩, hfinite⟩
    simp only [HasKeys, List.forall_mem_cons] at hkeys
    obtain ⟨hpod, hsensor, hproperty, hstream, -⟩ := hkeys
    refine ⟨(), requireField_eq_ok.mpr hpod, (), requireField_eq_ok.mpr hsensor, (),
      requireField_eq_ok.mpr hproperty, (), requireField_eq_ok.mpr hstream, (), ?_, (), ?_, (), ?_,
      ⟨times.phenomenonStart⟩, ⟨times.start_inYears, times.start_eq⟩, ⟨times.phenomenonEnd⟩,
      ⟨times.end_inYears, times.end_eq⟩, ⟨times.resultTime⟩,
      ⟨times.result_inYears, times.result_eq⟩, (), times.start_le_end, hfinite⟩
    · rw [times.start_eq, requireField_format]
    · rw [times.end_eq, requireField_format]
    · rw [times.result_eq, requireField_format]

/-- What was formatted is normal already. -/
theorem normalizeRfc3339Utc_format (field : String) {unixSeconds : Int} (h : InYears unixSeconds) :
    normalizeRfc3339Utc field (formatRfc3339Utc unixSeconds)
      = .ok (formatRfc3339Utc unixSeconds) := by
  rw [normalizeRfc3339Utc, parse_format h]
  rfl

section

variable [Sha256]

/-- What an input is projected to; its times are canonical. -/
def projected (input : EnvObservationProjectionInput Value) : EnvObservationProjection Value where
  ids := entityIds input
  thing := { id := (entityIds input).thingId, podId := input.podId, siteId := input.siteId }
  datastream :=
    { id := (entityIds input).datastreamId
      thingId := (entityIds input).thingId
      sensorId := (entityIds input).sensorId
      observedPropertyId := (entityIds input).observedPropertyId
      streamKey := input.streamKey }
  observation :=
    { id := (entityIds input).observationId
      datastreamId := (entityIds input).datastreamId
      phenomenonTime := ⟨input.phenomenonTimeStartRfc3339Utc, input.phenomenonTimeEndRfc3339Utc⟩
      resultTimeRfc3339Utc := input.resultTimeRfc3339Utc
      result := input.result.payload }

/-- The inputs that are projected, and what each is projected to. -/
theorem projectEnvObservation_eq_ok {input : EnvObservationProjectionInput Value}
    {projection : EnvObservationProjection Value} :
    projectEnvObservation input = .ok projection
      ↔ HasKeys input ∧ Nonempty (ProjectedTimes input) ∧ input.result.isFinite = true
        ∧ projection = projected input := by
  have hnormal : ∀ times : ProjectedTimes input, validateEnvObservationInput input = .ok () →
      projectEnvObservation input = .ok (projected input) := by
    intro times hvalid
    rw [projectEnvObservation, hvalid, Except.ok_bind, times.start_eq, times.end_eq,
      times.result_eq, normalizeRfc3339Utc_format _ times.start_inYears, Except.ok_bind,
      normalizeRfc3339Utc_format _ times.end_inYears, Except.ok_bind,
      normalizeRfc3339Utc_format _ times.result_inYears, Except.ok_bind, ← times.start_eq,
      ← times.end_eq, ← times.result_eq]
    rfl
  constructor
  · intro h
    have hvalid : validateEnvObservationInput input = .ok () := by
      rw [projectEnvObservation, Except.bind_eq_ok] at h
      obtain ⟨_, hvalid, -⟩ := h
      exact hvalid
    obtain ⟨hkeys, ⟨times⟩, hfinite⟩ := validateEnvObservationInput_eq_ok.mp hvalid
    rw [hnormal times hvalid] at h
    exact ⟨hkeys, ⟨times⟩, hfinite, (Except.ok.inj h).symm⟩
  · rintro ⟨hkeys, ⟨times⟩, hfinite, rfl⟩
    exact hnormal times (validateEnvObservationInput_eq_ok.mpr ⟨hkeys, ⟨times⟩, hfinite⟩)

/-! ## Identities -/

/-- What is hashed for the identities of an input. -/
def hashedMaterials (input : EnvObservationProjectionInput Value) : List Bytes :=
  [entityIdMaterial .thing [input.podId],
    entityIdMaterial .sensor [input.podId, input.sensorKey],
    entityIdMaterial .observedProperty [input.observedPropertyKey],
    entityIdMaterial .datastream
      [input.podId, input.sensorKey, input.observedPropertyKey, input.streamKey],
    entityIdMaterial .observation
      [(entityIds input).datastreamId, input.podId, toString input.frameCounter]]

/-- Two different byte strings with one hash. -/
def Collide (xs ys : List Bytes) : Prop :=
  ∃ x ∈ xs, ∃ y ∈ ys, x ≠ y ∧ sha256Digest x = sha256Digest y

/-- The identity of each kind that a projection has. -/
def SensorThingsEntityIds.ofKind (ids : SensorThingsEntityIds) :
    SensorThingsEntityKind → Option String
  | .thing => some ids.thingId
  | .sensor => some ids.sensorId
  | .observedProperty => some ids.observedPropertyId
  | .datastream => some ids.datastreamId
  | .observation => some ids.observationId
  | .location => none

/-- The components are equal, so the identities are; the identities are, so the components are, or
else there is a collision. -/
def Separates (collision identities components : Prop) : Prop :=
  (components → identities) ∧ (identities → components ∨ collision)

omit [Sha256] in
theorem toString_frameCounter (n : UInt64) : toString n = String.ofList (Nat.toDigits 10 n.toNat) :=
  Nat.toString_eq_ofList_toDigits

omit [Sha256] in
theorem toString_frameCounter_inj {n m : UInt64} (h : toString n = toString m) : n = m := by
  rw [toString_frameCounter, toString_frameCounter] at h
  have hdigits := congrArg String.toList h
  rw [String.toList_ofList, String.toList_ofList] at hdigits
  rw [← UInt64.toNat_inj, ← Decimal.value_toDigits n.toNat, hdigits, Decimal.value_toDigits]

omit [Sha256] in
theorem fitsMemory_frameCounter (n : UInt64) : FitsMemory (toString n) := by
  have hlength : (Nat.toDigits 10 n.toNat).length ≤ 20 :=
    (Nat.length_toDigits_le_iff (by decide) (by decide)).mpr (Nat.lt_trans n.toNat_lt (by decide))
  rw [FitsMemory, toString_frameCounter, Decimal.utf8Bytes_ascii fun c hc =>
    digit_ascii (Decimal.isDigit_of_mem hc), Decimal.asciiBytes, List.length_map]
  omega

/-- The keys of an input fit in memory. -/
def KeysFit (input : EnvObservationProjectionInput Value) : Prop :=
  ∀ key ∈ [input.podId, input.sensorKey, input.observedPropertyKey, input.streamKey], FitsMemory key

omit [Sha256] in
theorem KeysFit.of_subset {input : EnvObservationProjectionInput Value} (h : KeysFit input)
    {keys : List String}
    (hkeys : keys ⊆ [input.podId, input.sensorKey, input.observedPropertyKey, input.streamKey]) :
    ∀ key ∈ keys, FitsMemory key :=
  fun key hkey => h key (hkeys hkey)

section

variable {a b : EnvObservationProjectionInput Value} (ha : KeysFit a) (hb : KeysFit b)
include ha hb

/-- Identities of one kind, made of keys of the inputs. -/
theorem entityId_separates {kind : SensorThingsEntityKind} {as bs : List String} {components : Prop}
    (has : as ⊆ [a.podId, a.sensorKey, a.observedPropertyKey, a.streamKey])
    (hbs : bs ⊆ [b.podId, b.sensorKey, b.observedPropertyKey, b.streamKey])
    (hlength : as.length ≤ 4 ∧ bs.length ≤ 4) (hamem : entityIdMaterial kind as ∈ hashedMaterials a)
    (hbmem : entityIdMaterial kind bs ∈ hashedMaterials b) (hcomponents : as = bs ↔ components) :
    Separates (Collide (hashedMaterials a) (hashedMaterials b))
    (entityId kind as = entityId kind bs)
      components := by
  constructor
  · intro h
    rw [hcomponents.mpr h]
  · intro h
    rcases components_eq_or_collision (ha.of_subset has) (hb.of_subset hbs) (by omega)
      (by omega) h with
      heq | hcollision
    · exact .inl (hcomponents.mp heq)
    · exact .inr ⟨_, hamem, _, hbmem, hcollision⟩

theorem thingId_separates :
    Separates (Collide (hashedMaterials a) (hashedMaterials b))
      ((entityIds a).thingId = (entityIds b).thingId) (a.podId = b.podId) :=
  entityId_separates ha hb (by simp) (by simp) (by simp) (by simp [hashedMaterials])
    (by simp [hashedMaterials]) (by simp)

theorem sensorId_separates :
    Separates (Collide (hashedMaterials a) (hashedMaterials b))
      ((entityIds a).sensorId = (entityIds b).sensorId)
      (a.podId = b.podId ∧ a.sensorKey = b.sensorKey) :=
  entityId_separates ha hb (by simp) (by simp) (by simp) (by simp [hashedMaterials])
    (by simp [hashedMaterials]) (by simp)

theorem observedPropertyId_separates :
    Separates (Collide (hashedMaterials a) (hashedMaterials b))
      ((entityIds a).observedPropertyId = (entityIds b).observedPropertyId)
      (a.observedPropertyKey = b.observedPropertyKey) :=
  entityId_separates ha hb (by simp) (by simp) (by simp) (by simp [hashedMaterials])
    (by simp [hashedMaterials]) (by simp)

theorem datastreamId_separates :
    Separates (Collide (hashedMaterials a) (hashedMaterials b))
      ((entityIds a).datastreamId = (entityIds b).datastreamId)
      (a.podId = b.podId ∧ a.sensorKey = b.sensorKey ∧ a.observedPropertyKey = b.observedPropertyKey
        ∧ a.streamKey = b.streamKey) :=
  entityId_separates ha hb (List.Subset.refl _) (List.Subset.refl _) (by simp)
    (by simp [hashedMaterials])
    (by simp [hashedMaterials]) (by simp)

/-- Two levels of hashing: the components hold the identity of the datastream. -/
theorem observationId_separates :
    Separates (Collide (hashedMaterials a) (hashedMaterials b))
      ((entityIds a).observationId = (entityIds b).observationId)
      (a.podId = b.podId ∧ a.sensorKey = b.sensorKey ∧ a.observedPropertyKey = b.observedPropertyKey
        ∧ a.streamKey = b.streamKey ∧ a.frameCounter = b.frameCounter) := by
  constructor
  · rintro ⟨hpod, hsensor, hproperty, hstream, hcounter⟩
    simp only [entityIds, hpod, hsensor, hproperty, hstream, hcounter]
  · intro h
    have hfits : ∀ input : EnvObservationProjectionInput Value, KeysFit input →
        ∀ component ∈ [(entityIds input).datastreamId, input.podId, toString input.frameCounter],
          FitsMemory component := by
      intro input hinput
      simp only [List.forall_mem_cons]
      exact ⟨fitsMemory_entityId _ _, hinput _ (by simp), fitsMemory_frameCounter _, by simp⟩
    rcases components_eq_or_collision (hfits a ha) (hfits b hb) (by simp) (by simp) h
      with heq | hcollision
    · simp only [List.cons.injEq, and_true] at heq
      obtain ⟨hdatastream, hpod, hcounter⟩ := heq
      rcases (datastreamId_separates ha hb).2 hdatastream
        with ⟨-, hsensor, hproperty, hstream⟩ | hcollision
      · exact .inl ⟨hpod, hsensor, hproperty, hstream, toString_frameCounter_inj hcounter⟩
      · exact .inr hcollision
    · exact .inr ⟨_, by simp [hashedMaterials], _, by simp [hashedMaterials], hcollision⟩

end

/-- Every identity is one of its kind. -/
theorem entityId_of_ofKind {input : EnvObservationProjectionInput Value}
    {kind : SensorThingsEntityKind}
    {id : String} (h : (entityIds input).ofKind kind = some id) :
    ∃ components, id = entityId kind components := by
  cases kind with
  | location => cases h
  | thing => exact ⟨_, (Option.some.inj h).symm⟩
  | sensor => exact ⟨_, (Option.some.inj h).symm⟩
  | observedProperty => exact ⟨_, (Option.some.inj h).symm⟩
  | datastream => exact ⟨_, (Option.some.inj h).symm⟩
  | observation => exact ⟨_, (Option.some.inj h).symm⟩

/-- Identities of two projections are equal where the components are, or there is a collision among
what was hashed; identities of different kinds never are. -/
theorem identities_separate {a b : EnvObservationProjectionInput Value}
    {pa pb : EnvObservationProjection Value} (hpa : projectEnvObservation a = .ok pa)
    (hpb : projectEnvObservation b = .ok pb) (ha : KeysFit a) (hb : KeysFit b) :
    Separates (Collide (hashedMaterials a) (hashedMaterials b))
        (pa.ids.observationId = pb.ids.observationId)
        (a.podId = b.podId ∧ a.sensorKey = b.sensorKey
          ∧ a.observedPropertyKey = b.observedPropertyKey
          ∧ a.streamKey = b.streamKey ∧ a.frameCounter = b.frameCounter)
      ∧ Separates (Collide (hashedMaterials a) (hashedMaterials b))
        (pa.ids.thingId = pb.ids.thingId) (a.podId = b.podId)
      ∧ Separates (Collide (hashedMaterials a) (hashedMaterials b))
        (pa.ids.sensorId = pb.ids.sensorId) (a.podId = b.podId ∧ a.sensorKey = b.sensorKey)
      ∧ Separates (Collide (hashedMaterials a) (hashedMaterials b))
        (pa.ids.observedPropertyId = pb.ids.observedPropertyId)
        (a.observedPropertyKey = b.observedPropertyKey)
      ∧ Separates (Collide (hashedMaterials a) (hashedMaterials b))
        (pa.ids.datastreamId = pb.ids.datastreamId)
        (a.podId = b.podId ∧ a.sensorKey = b.sensorKey
          ∧ a.observedPropertyKey = b.observedPropertyKey
          ∧ a.streamKey = b.streamKey)
      ∧ ∀ kind kind' id id', kind ≠ kind' → pa.ids.ofKind kind = some id →
        pb.ids.ofKind kind' = some id' →
          id ≠ id' := by
  obtain ⟨-, -, -, rfl⟩ := projectEnvObservation_eq_ok.mp hpa
  obtain ⟨-, -, -, rfl⟩ := projectEnvObservation_eq_ok.mp hpb
  refine ⟨observationId_separates ha hb, thingId_separates ha hb, sensorId_separates ha hb,
    observedPropertyId_separates ha hb, datastreamId_separates ha hb, ?_⟩
  rintro kind kind' id id' hkind hid hid' rfl
  obtain ⟨as, rfl⟩ := entityId_of_ofKind hid
  obtain ⟨bs, heq⟩ := entityId_of_ofKind hid'
  exact hkind (entityId_eq_iff.mp heq).1

end

/-- A stream of a pod; its other key has a separator in it. -/
def sampleInput (streamKey : String) : EnvObservationProjectionInput Unit where
  podId := "0000000000000007"
  frameCounter := 1
  siteId := none
  sensorKey := "shtc3:ambient"
  observedPropertyKey := "temperature_air"
  streamKey
  phenomenonTimeStartRfc3339Utc := "2026-03-06T00:05:01Z"
  phenomenonTimeEndRfc3339Utc := "2026-03-06T00:05:01Z"
  resultTimeRfc3339Utc := "2026-03-06T00:05:01Z"
  result := .structured ()

/-- Two streams of one pod: one thing, which is none of the streams. -/
theorem identities_separate_streams :
    letI := Sha256.fips
    (entityIds (sampleInput "raw")).thingId = (entityIds (sampleInput "summary")).thingId
      ∧ (entityIds (sampleInput "raw")).thingId
        ≠ (entityIds (sampleInput "summary")).datastreamId := by
  let := Sha256.fips
  have hyears : InYears 1772755501 := ⟨by decide +kernel, by decide +kernel⟩
  have htext : "2026-03-06T00:05:01Z" = formatRfc3339Utc 1772755501 := by decide +kernel
  have htimes : ∀ streamKey, ProjectedTimes (sampleInput streamKey) := fun _ =>
    ⟨_, _, _, hyears, hyears, hyears, htext, htext, htext, Int.le_refl _⟩
  have hkeys : ∀ streamKey ∈ ["raw", "summary"],
      HasKeys (sampleInput streamKey) ∧ KeysFit (sampleInput streamKey) := by
    unfold HasKeys KeysFit FitsMemory
    decide +kernel
  obtain ⟨hrawKeys, hrawFit⟩ := hkeys "raw" (by simp)
  obtain ⟨hsummaryKeys, hsummaryFit⟩ := hkeys "summary" (by simp)
  have hraw := projectEnvObservation_eq_ok.mpr ⟨hrawKeys, ⟨htimes "raw"⟩, rfl, rfl⟩
  have hsummary := projectEnvObservation_eq_ok.mpr ⟨hsummaryKeys, ⟨htimes "summary"⟩, rfl, rfl⟩
  obtain ⟨-, hthing, -, -, -, hkinds⟩ := identities_separate hraw hsummary hrawFit hsummaryFit
  exact ⟨hthing.1 rfl, hkinds .thing .datastream _ _ (by decide) rfl rfl⟩

end TrackOne.SensorThings
