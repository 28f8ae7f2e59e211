import TrackOne.Vtl.Basic
import Mathlib.Data.List.Basic

/-!
# Entity identities

`entity_id` of `trackone-sensorthings/src/ids.rs`: the hash of a list of components, each with its
length in front of it, behind the name of the kind.

* `entityIdMaterial_injective`: what is hashed determines the components.
* `entityId_eq_iff`: two identities are equal exactly where the kinds and the hashes are.
-/

namespace TrackOne.SensorThings

inductive SensorThingsEntityKind where
  | thing
  | sensor
  | observedProperty
  | datastream
  | observation
  | location
deriving DecidableEq, Repr

/-- The `prefix` of a kind. -/
def SensorThingsEntityKind.prefixText : SensorThingsEntityKind → String
  | .thing => "thing"
  | .sensor => "sensor"
  | .observedProperty => "observed-property"
  | .datastream => "datastream"
  | .observation => "observation"
  | .location => "location"

def entityIdDomain : Bytes := utf8Bytes "trackone:sensorthings:entity-id:v2"

def appendLengthPrefixed (out value : Bytes) : Bytes := out ++ beBytes 8 value.length ++ value

/-- The `material` of `entity_id`. -/
def entityIdMaterial (kind : SensorThingsEntityKind) (components : List String) : Bytes :=
  let material := appendLengthPrefixed [] entityIdDomain
  let material := appendLengthPrefixed material (utf8Bytes kind.prefixText)
  let material := material ++ beBytes 8 components.length
  components.foldl (fun out component => appendLengthPrefixed out (utf8Bytes component)) material

def entityId [Sha256] (kind : SensorThingsEntityKind) (components : List String) : String :=
  "trackone:" ++ kind.prefixText ++ ":" ++ sha256Hex (entityIdMaterial kind components)

/-! ## What is hashed -/

/-- A text that fits in memory, where no allocation is longer than `isize::MAX`. -/
def FitsMemory (text : String) : Prop := (utf8Bytes text).length < 2 ^ 63

def lengthPrefixed (text : String) : Bytes := beBytes 8 (utf8Bytes text).length ++ utf8Bytes text

theorem foldl_appendLengthPrefixed (out : Bytes) (components : List String) :
    components.foldl (fun out component => appendLengthPrefixed out (utf8Bytes component)) out
      = out ++ components.flatMap lengthPrefixed := by
  induction components generalizing out with
  | nil => rw [List.foldl_nil, List.flatMap_nil, List.append_nil]
  | cons component components ih =>
    rw [List.foldl_cons, ih, List.flatMap_cons, appendLengthPrefixed, lengthPrefixed]
    simp only [List.append_assoc]

theorem beBytes_inj {w n m : Nat} (hn : n < 256 ^ w) (hm : m < 256 ^ w)
    (h : beBytes w n = beBytes w m) :
    n = m := by
  rw [← Nat.mod_eq_of_lt hn, ← ofBeBytes_beBytes, h, ofBeBytes_beBytes, Nat.mod_eq_of_lt hm]

/-- A component is cut off by its length. -/
theorem lengthPrefixed_append_inj {a b : String} {rest rest' : Bytes} (ha : FitsMemory a)
    (hb : FitsMemory b) (h : lengthPrefixed a ++ rest = lengthPrefixed b ++ rest') :
    a = b ∧ rest = rest' := by
  unfold FitsMemory at ha hb
  rw [lengthPrefixed, lengthPrefixed, List.append_assoc, List.append_assoc] at h
  obtain ⟨hlength, h⟩ := List.append_inj h (by rw [length_beBytes, length_beBytes])
  have hlength := beBytes_inj (by omega) (by omega) hlength
  obtain ⟨hbytes, hrest⟩ := List.append_inj h hlength
  refine ⟨?_, hrest⟩
  rw [← Option.some_inj, ← ofUtf8?_utf8Bytes a, hbytes, ofUtf8?_utf8Bytes]

theorem flatMap_lengthPrefixed_inj {as bs : List String} (ha : ∀ a ∈ as, FitsMemory a)
    (hb : ∀ b ∈ bs, FitsMemory b) (hlength : as.length = bs.length)
    (h : as.flatMap lengthPrefixed = bs.flatMap lengthPrefixed) : as = bs := by
  induction as generalizing bs with
  | nil => exact (List.eq_nil_of_length_eq_zero hlength.symm).symm
  | cons a as ih =>
    cases bs with
    | nil => cases hlength
    | cons b bs =>
      obtain ⟨ha, has⟩ := List.forall_mem_cons.mp ha
      obtain ⟨hb, hbs⟩ := List.forall_mem_cons.mp hb
      rw [List.flatMap_cons, List.flatMap_cons] at h
      obtain ⟨rfl, hrest⟩ := lengthPrefixed_append_inj ha hb h
      rw [ih has hbs (Nat.succ.inj hlength) hrest]

/-- What is hashed determines the components; a list has as many as fit in memory. -/
theorem entityIdMaterial_injective {kind : SensorThingsEntityKind} {as bs : List String}
    (ha : ∀ a ∈ as, FitsMemory a) (hb : ∀ b ∈ bs, FitsMemory b) (haLength : as.length < 2 ^ 63)
    (hbLength : bs.length < 2 ^ 63) (h : entityIdMaterial kind as = entityIdMaterial kind bs) :
    as = bs := by
  unfold entityIdMaterial at h
  dsimp only at h
  rw [foldl_appendLengthPrefixed, foldl_appendLengthPrefixed, List.append_assoc, List.append_assoc]
    at h
  have h := List.append_cancel_left h
  obtain ⟨hlength, h⟩ := List.append_inj h (by rw [length_beBytes, length_beBytes])
  exact flatMap_lengthPrefixed_inj ha hb (beBytes_inj (by omega) (by omega) hlength) h

/-! ## Identities -/

theorem prefixText_inj {kind kind' : SensorThingsEntityKind} :
    kind.prefixText = kind'.prefixText → kind = kind' := by
  cases kind <;> cases kind' <;> decide +kernel

theorem colon_notMem (kind : SensorThingsEntityKind) : ':' ∉ kind.prefixText.toList := by
  cases kind <;> decide +kernel

theorem toList_entityId [Sha256] (kind : SensorThingsEntityKind) (components : List String) :
    (entityId kind components).toList = "trackone:".toList ++ (kind.prefixText.toList
      ++ ':' :: (sha256Hex (entityIdMaterial kind components)).toList) := by
  rw [entityId]
  simp only [String.toList_append, List.append_assoc]
  rfl

/-- A kind is what stands before the first colon. -/
theorem takeWhile_kind (kind : SensorThingsEntityKind) (rest : List Char) :
    (kind.prefixText.toList ++ ':' :: rest).takeWhile (· ≠ ':') = kind.prefixText.toList := by
  rw [List.takeWhile_append_of_pos]
  · simp
  · intro c hc
    rw [decide_eq_true_eq]
    rintro rfl
    exact colon_notMem kind hc

/-- Identities are equal where the kinds and the hashes are; no name of a kind has a colon. -/
theorem entityId_eq_iff [Sha256] {kind kind' : SensorThingsEntityKind} {as bs : List String} :
    entityId kind as = entityId kind' bs
      ↔ kind = kind' ∧ sha256Digest (entityIdMaterial kind as)
        = sha256Digest (entityIdMaterial kind' bs) := by
  constructor
  · intro h
    have htext := congrArg String.toList h
    rw [toList_entityId, toList_entityId] at htext
    have hrest := List.append_cancel_left htext
    have hkind := congrArg (List.takeWhile (· ≠ ':')) hrest
    rw [takeWhile_kind, takeWhile_kind] at hkind
    obtain rfl := prefixText_inj (String.toList_inj.mp hkind)
    have hhash := (List.cons.inj (List.append_cancel_left hrest)).2
    exact ⟨rfl, sha256Hex_inj.mp (String.toList_inj.mp hhash)⟩
  · rintro ⟨rfl, hhash⟩
    rw [entityId, entityId, sha256Hex_inj.mpr hhash]

/-- Equal identities of one kind: equal components, or two materials with one hash. -/
theorem components_eq_or_collision [Sha256] {kind : SensorThingsEntityKind} {as bs : List String}
    (ha : ∀ a ∈ as, FitsMemory a) (hb : ∀ b ∈ bs, FitsMemory b) (haLength : as.length < 2 ^ 63)
    (hbLength : bs.length < 2 ^ 63) (h : entityId kind as = entityId kind bs) :
    as = bs ∨ (entityIdMaterial kind as ≠ entityIdMaterial kind bs
      ∧ sha256Digest (entityIdMaterial kind as) = sha256Digest (entityIdMaterial kind bs)) := by
  by_cases hmaterial : entityIdMaterial kind as = entityIdMaterial kind bs
  · exact .inl (entityIdMaterial_injective ha hb haLength hbLength hmaterial)
  · exact .inr ⟨hmaterial, (entityId_eq_iff.mp h).2⟩

theorem utf8Bytes_append (a b : String) : utf8Bytes (a ++ b) = utf8Bytes a ++ utf8Bytes b := by
  rw [utf8Bytes, String.toByteArray_append, ByteArray.data_append, Array.toList_append]
  rfl

theorem fitsMemory_entityId [Sha256] (kind : SensorThingsEntityKind) (components : List String) :
    FitsMemory (entityId kind components) := by
  have hhash := validHex_sha256Hex (entityIdMaterial kind components)
  rw [validHex, Bool.and_eq_true, decide_eq_true_eq] at hhash
  have hkind : (utf8Bytes ("trackone:" ++ kind.prefixText ++ ":")).length ≤ 32 := by
    cases kind <;> decide +kernel
  rw [FitsMemory, entityId, utf8Bytes_append, List.length_append, hhash.1]
  omega

end TrackOne.SensorThings
