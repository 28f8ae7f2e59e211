import TrackOne.Ingest.Frame
import TrackOne.Vtl.CanonicalCbor

/-!
# The deterministic encoding of facts

`trackone-core/src/cbor.rs`: positional arrays with a schema version in front, floats always of 32
bits. The helpers for heads and integers are a copy of those of `trackone-ledger`, and are taken
from there.

* `Fact.toCanonicalCborVec_eq_ok`: the valid facts are encoded, each as the item `Fact.item`.
* `Fact.item_inj`: the item determines a valid fact.
* `canonicalCbor_identifies`: no encoding is a beginning of another one.
-/

namespace TrackOne

open BinaryFloat CCbor DetCbor

/-! ## The encoder -/

/-- `f32::is_nan`. -/
def F32.isNan (x : F32) : Bool := !x.isFinite && single.mantissa x.bits.toNat ≠ 0

/-- The bits that are written: every NaN is the quiet one. -/
def F32.canonicalBits (x : F32) : UInt32 := if x.isNan then 0x7fc00000 else x.bits

namespace FactCbor

def cborBytes (b : Bytes) : Bytes := majorU64 2 (UInt64.ofNat b.length) ++ b

def cborF32 (v : F32) : Bytes := 0xfa :: beBytes 4 v.canonicalBits.toNat

def cborNull : Bytes := [0xf6]

/-- A field, or null for a missing one. -/
def cborOption {α : Type} (write : α → Bytes) : Option α → Bytes
  | some a => write a
  | none => cborNull

end FactCbor

open FactCbor

def schemaVersionProvisioningRecord : UInt64 := 1

def schemaVersionEnvFact : UInt64 := 1

def schemaVersionFact : UInt64 := 1

/-- `heapless::String<32>`. -/
abbrev String32 := { s : String // (utf8Bytes s).length ≤ 32 }

/-- A byte array of fixed length. -/
abbrev ByteArrayOf (n : Nat) := { bytes : Bytes // bytes.length = n }

structure ProvisioningRecord where
  deviceId : PodId
  firmwareVersion : String32
  firmwareHash : ByteArrayOf 32
  identityPubkey : ByteArrayOf 32
  birthCertSig : ByteArrayOf 64
  provisionedAt : Int64
  siteId : Option String32
deriving DecidableEq

def ProvisioningRecord.toCanonicalCborVec (record : ProvisioningRecord) : Except CoreError Bytes :=
  .ok (cborArrayLen 8
    ++ [cborUint schemaVersionProvisioningRecord,
      cborBytes record.deviceId.1,
      cborText record.firmwareVersion.1,
      cborBytes record.firmwareHash.1,
      cborBytes record.identityPubkey.1,
      cborBytes record.birthCertSig.1,
      cborI64 record.provisionedAt,
      cborOption (fun s => cborText s.1) record.siteId].flatten)

def EnvFact.toCanonicalCborVec (fact : EnvFact) : Except CoreError Bytes := do
  fact.validate.mapError .invalidFact
  pure (cborArrayLen 11
    ++ [cborUint schemaVersionEnvFact,
      cborUint fact.sampleType.code.toUInt64,
      cborI64 fact.phenomenonTimeStart,
      cborI64 fact.phenomenonTimeEnd,
      cborOption cborF32 fact.value,
      cborOption cborF32 fact.min,
      cborOption cborF32 fact.max,
      cborOption cborF32 fact.mean,
      cborOption (fun n => cborUint n.toUInt64) fact.count,
      cborOption cborF32 fact.quality,
      cborOption (fun n => cborUint n.toUInt64) fact.sensorChannel].flatten)

/-- The payload: its discriminant, and what it holds. -/
def FactPayload.toCanonicalCborVec : FactPayload → Except CoreError Bytes
  | .env fact => do
    let envBytes ← fact.toCanonicalCborVec
    pure (cborArrayLen 2 ++ [cborUint 0, envBytes].flatten)
  | .custom v => .ok (cborArrayLen 2 ++ [cborUint 1, cborBytes v.1].flatten)

def Fact.toCanonicalCborVec (fact : Fact) : Except CoreError Bytes := do
  fact.validate.mapError .invalidFact
  let payload ← fact.payload.toCanonicalCborVec
  pure (cborArrayLen 7
    ++ [cborUint schemaVersionFact,
      cborBytes fact.podId.1,
      cborUint fact.fc,
      cborI64 fact.ingestTime,
      cborOption cborI64 fact.podTime,
      cborUint fact.kind.code.toUInt64,
      payload].flatten)

/-! ## The items -/

def int64Item (n : Int64) : Item :=
  if 0 ≤ n then .uint n.toUInt64 else .nint (UInt64.ofInt (-1 - n.toInt))

def f32Item (v : F32) : Item := .float (.single v.canonicalBits)

def optionItem {α : Type} (item : α → Item) : Option α → Item
  | some a => item a
  | none => .null

def ProvisioningRecord.item (record : ProvisioningRecord) : Item :=
  .array [.uint schemaVersionProvisioningRecord, .bytes record.deviceId.1,
    .text record.firmwareVersion.1, .bytes record.firmwareHash.1, .bytes record.identityPubkey.1,
    .bytes record.birthCertSig.1,
    int64Item record.provisionedAt, optionItem (fun s => .text s.1) record.siteId]

def EnvFact.item (fact : EnvFact) : Item :=
  .array [.uint schemaVersionEnvFact, .uint fact.sampleType.code.toUInt64,
    int64Item fact.phenomenonTimeStart, int64Item fact.phenomenonTimeEnd,
    optionItem f32Item fact.value, optionItem f32Item fact.min, optionItem f32Item fact.max,
    optionItem f32Item fact.mean,
    optionItem (fun n => .uint n.toUInt64) fact.count, optionItem f32Item fact.quality,
    optionItem (fun n => .uint n.toUInt64) fact.sensorChannel]

def FactPayload.item : FactPayload → Item
  | .env fact => .array [.uint 0, fact.item]
  | .custom v => .array [.uint 1, .bytes v.1]

def Fact.item (fact : Fact) : Item :=
  .array [.uint schemaVersionFact, .bytes fact.podId.1, .uint fact.fc, int64Item fact.ingestTime,
    optionItem int64Item fact.podTime, .uint fact.kind.code.toUInt64, fact.payload.item]

/-! ### Their encodings -/

/-- The writer of numbers writes an unsigned item. -/
theorem cborUint_eq (n : UInt64) : cborUint n = (Item.uint n).encode := majorU64_eq_head 0 n

/-- The writer of bytes writes a byte item. -/
theorem cborBytes_eq (b : Bytes) : cborBytes b = (Item.bytes b).encode := by
  rw [cborBytes, majorU64_eq_head]
  rfl

/-- The writer of texts writes a text item. -/
theorem cborText_eq (s : String) : cborText s = (Item.text s).encode := cborText_eq_encodeText s

/-- The writer of signed numbers writes an unsigned or a negative item. -/
theorem cborI64_eq (n : Int64) : cborI64 n = (int64Item n).encode := by
  rw [cborI64, int64Item]
  split_ifs
  · exact cborUint_eq _
  · exact majorU64_eq_head 1 _

/-- The writer of floats writes a single-precision item, whatever the value. -/
theorem cborF32_eq (v : F32) : cborF32 v = (f32Item v).encode := rfl

/-- The writer of options writes the item or null. -/
theorem cborOption_eq {α : Type} {write : α → Bytes} {item : α → Item}
    (h : ∀ a, write a = (item a).encode)
    (value : Option α) : cborOption write value = (optionItem item value).encode := by
  cases value with
  | none => rfl
  | some a => exact h a

/-- A head and the items after it are an array. -/
theorem array_eq (items : List Item) :
    cborArrayLen items.length ++ (items.map Item.encode).flatten = (Item.array items).encode := by
  have hitems : (items.map Item.encode).flatten = encodeItems items := by
    induction items with
    | nil => rfl
    | cons item items ih => rw [List.map_cons, List.flatten_cons, ih, encodeItems]
  rw [hitems, cborArrayLen, majorU64_eq_head]
  rfl

/-- A provisioning record is always written, as its item. -/
theorem ProvisioningRecord.toCanonicalCborVec_eq (record : ProvisioningRecord) :
    record.toCanonicalCborVec = .ok record.item.encode := by
  rw [toCanonicalCborVec, item, ← array_eq]
  rw [cborOption_eq fun s : String32 => cborText_eq s.1]
  simp only [cborUint_eq, cborBytes_eq, cborText_eq, cborI64_eq]
  rfl

/-- A measurement is written, as its item, when it is valid. -/
theorem EnvFact.toCanonicalCborVec_eq_ok {fact : EnvFact} {bytes : Bytes} :
    fact.toCanonicalCborVec = .ok bytes ↔ fact.validate = .ok () ∧ bytes = fact.item.encode := by
  have hitem : cborArrayLen 11
      ++ [cborUint schemaVersionEnvFact, cborUint fact.sampleType.code.toUInt64,
        cborI64 fact.phenomenonTimeStart, cborI64 fact.phenomenonTimeEnd,
        cborOption cborF32 fact.value, cborOption cborF32 fact.min, cborOption cborF32 fact.max,
        cborOption cborF32 fact.mean,
        cborOption (fun n => cborUint n.toUInt64) fact.count, cborOption cborF32 fact.quality,
        cborOption (fun n => cborUint n.toUInt64) fact.sensorChannel].flatten
          = fact.item.encode := by
    rw [item, ← array_eq]
    rw [cborOption_eq fun n : UInt32 => cborUint_eq n.toUInt64,
      cborOption_eq fun n : UInt8 => cborUint_eq n.toUInt64]
    simp only [cborUint_eq, cborI64_eq, cborOption_eq cborF32_eq]
    rfl
  simp only [toCanonicalCborVec, Except.bind_eq_ok, Except.mapError_eq_ok, hitem]
  constructor
  · rintro ⟨_, hvalid, h⟩
    exact ⟨hvalid, (Except.ok.inj h).symm⟩
  · rintro ⟨hvalid, rfl⟩
    exact ⟨(), hvalid, rfl⟩

/-- A payload is written, as its item, when the measurement in it is valid. -/
theorem FactPayload.toCanonicalCborVec_eq_ok {payload : FactPayload} {bytes : Bytes} :
    payload.toCanonicalCborVec = .ok bytes
      ↔ (∀ fact, payload = .env fact → fact.validate = .ok ()) ∧ bytes = payload.item.encode := by
  cases payload with
  | env fact =>
    have hitem : cborArrayLen 2 ++ [cborUint 0, fact.item.encode].flatten
      = (item (.env fact)).encode := by
      rw [item, ← array_eq, cborUint_eq]
      rfl
    simp only [toCanonicalCborVec, Except.bind_eq_ok, EnvFact.toCanonicalCborVec_eq_ok]
    constructor
    · rintro ⟨_, ⟨hvalid, rfl⟩, h⟩
      rw [hitem] at h
      refine ⟨?_, (Except.ok.inj h).symm⟩
      rintro _ ⟨⟩
      exact hvalid
    · rintro ⟨hvalid, rfl⟩
      refine ⟨_, ⟨hvalid fact rfl, rfl⟩, ?_⟩
      rw [hitem]
      rfl
  | custom v =>
    have hitem : cborArrayLen 2 ++ [cborUint 1, cborBytes v.1].flatten
      = (item (.custom v)).encode := by
      rw [item, ← array_eq, cborUint_eq, cborBytes_eq]
      rfl
    rw [toCanonicalCborVec, hitem]
    constructor
    · intro h
      exact ⟨by rintro _ ⟨⟩, (Except.ok.inj h).symm⟩
    · rintro ⟨-, rfl⟩
      rfl

/-- A fact is valid where its kind goes with the payload, and the payload is valid. -/
theorem Fact.validate_payload {fact : Fact} (h : fact.validate = .ok ()) :
    ∀ env, fact.payload = .env env → env.validate = .ok () := by
  intro env henv
  rw [validate, henv] at h
  cases hkind : fact.kind with
  | env =>
    rw [hkind] at h
    exact h
  | pipeline | health | custom =>
    rw [hkind] at h
    cases h

/-- The valid facts are encoded, each as its item. -/
theorem Fact.toCanonicalCborVec_eq_ok {fact : Fact} {bytes : Bytes} :
    fact.toCanonicalCborVec = .ok bytes ↔ fact.validate = .ok () ∧ bytes = fact.item.encode := by
  have hitem : cborArrayLen 7
      ++ [cborUint schemaVersionFact, cborBytes fact.podId.1, cborUint fact.fc,
        cborI64 fact.ingestTime, cborOption cborI64 fact.podTime, cborUint fact.kind.code.toUInt64,
        fact.payload.item.encode].flatten
      = fact.item.encode := by
    rw [item, ← array_eq]
    simp only [cborUint_eq, cborBytes_eq, cborI64_eq, cborOption_eq cborI64_eq]
    rfl
  simp only [toCanonicalCborVec, Except.bind_eq_ok, Except.mapError_eq_ok,
    FactPayload.toCanonicalCborVec_eq_ok]
  constructor
  · rintro ⟨_, hvalid, _, ⟨-, rfl⟩, h⟩
    rw [hitem] at h
    exact ⟨hvalid, (Except.ok.inj h).symm⟩
  · rintro ⟨hvalid, rfl⟩
    refine ⟨(), hvalid, _, ⟨validate_payload hvalid, rfl⟩, ?_⟩
    rw [hitem]
    rfl

/-! ## Items determine facts -/

/-- A signed number is known from its item. -/
theorem int64Item_inj {n m : Int64} (h : int64Item n = int64Item m) : n = m := by
  unfold int64Item at h
  by_cases hpos : 0 ≤ n
  · by_cases hpos' : 0 ≤ m
    · rw [if_pos hpos, if_pos hpos'] at h
      rw [← Int64.toInt64_toUInt64 n, Item.uint.inj h, Int64.toInt64_toUInt64]
    · rw [if_pos hpos, if_neg hpos'] at h
      cases h
  · by_cases hpos' : 0 ≤ m
    · rw [if_neg hpos, if_pos hpos'] at h
      cases h
    · rw [if_neg hpos, if_neg hpos'] at h
      exact negInt_argument_injective (Int64.not_le.mp hpos) (Int64.not_le.mp hpos')
        (Item.nint.inj h)

/-- An option is known from its item, where no value has the item of null. -/
theorem optionItem_inj {α : Type} {item : α → Item} {P : α → Prop} (hnull : ∀ a, item a ≠ .null)
    (hinj : ∀ a b, P a → P b → item a = item b → a = b) {x y : Option α} (hx : ∀ a ∈ x, P a)
    (hy : ∀ a ∈ y, P a) (h : optionItem item x = optionItem item y) : x = y := by
  cases x with
  | none =>
    cases y with
    | none => rfl
    | some b => exact absurd h.symm (hnull b)
  | some a =>
    cases y with
    | none => exact absurd h (hnull a)
    | some b => rw [hinj a b (hx a rfl) (hy b rfl) h]

/-- A finite float is written with its own bits. -/
theorem canonicalBits_of_isFinite {v : F32} (h : v.isFinite = true) : v.canonicalBits = v.bits := by
  rw [F32.canonicalBits, F32.isNan, h]
  rfl

/-- NaNs apart, a float is determined by what is written for it. -/
theorem f32Item_inj {v w : F32} (hv : v.isFinite = true) (hw : w.isFinite = true)
    (h : f32Item v = f32Item w) : v = w := by
  have hbits := FloatLit.single.inj (Item.float.inj h)
  rw [canonicalBits_of_isFinite hv, canonicalBits_of_isFinite hw] at hbits
  cases v
  cases w
  exact congrArg _ hbits

/-- An optional finite float is known from its item. -/
theorem optionF32_inj {x y : Option F32} (hx : ∀ a ∈ x, a.isFinite = true)
    (hy : ∀ a ∈ y, a.isFinite = true) (h : optionItem f32Item x = optionItem f32Item y) :
    x = y := by
  refine optionItem_inj ?_ (fun a b ha hb => f32Item_inj ha hb) hx hy h
  intro a
  exact Item.noConfusion

/-- An optional number is known from its item. -/
theorem optionUint_inj {α : Type} {word : α → UInt64} (hword : Function.Injective word)
    {x y : Option α}
    (h : optionItem (fun n => .uint (word n)) x = optionItem (fun n => .uint (word n)) y) :
    x = y := by
  refine optionItem_inj (P := fun _ => True) ?_ ?_ (fun _ _ => trivial) (fun _ _ => trivial) h
  · intro a
    exact Item.noConfusion
  · intro a b _ _ hab
    exact hword (Item.uint.inj hab)

/-- A sample type is known from its code. -/
theorem SampleType.code_injective : Function.Injective SampleType.code := by
  intro a b h
  rw [← Option.some_inj, ← ofCode?_code a, h, ofCode?_code]

/-- A kind is known from its code. -/
theorem FactKind.code_injective : Function.Injective FactKind.code := by
  intro a b h
  rw [← Option.some_inj, ← ofCode?_code a, h, ofCode?_code]

theorem toUInt64_injective : Function.Injective UInt8.toUInt64 := by
  intro a b h
  rw [← UInt8.toNat_inj, ← UInt8.toNat_toUInt64, h, UInt8.toNat_toUInt64]

theorem toUInt64_injective32 : Function.Injective UInt32.toUInt64 := by
  intro a b h
  rw [← UInt32.toNat_inj, ← UInt32.toNat_toUInt64, h, UInt32.toNat_toUInt64]

/-- A valid measurement is known from its item. -/
theorem EnvFact.item_inj {a b : EnvFact} (ha : a.validate = .ok ()) (hb : b.validate = .ok ())
    (h : a.item = b.item) : a = b := by
  have hfinite := EnvFact.isFinite_of_validate ha
  have hfinite' := EnvFact.isFinite_of_validate hb
  simp only [List.forall_mem_cons] at hfinite hfinite'
  obtain ⟨hvalue, hmin, hmax, hmean, hquality, -⟩ := hfinite
  obtain ⟨hvalue', hmin', hmax', hmean', hquality', -⟩ := hfinite'
  simp only [item, Item.array.injEq, List.cons.injEq, Item.uint.injEq, and_true, true_and] at h
  obtain ⟨htype, hstart, hstop, hv, hlow, hhigh, hm, hcount, hq, hchannel⟩ := h
  cases a
  cases b
  rw [EnvFact.mk.injEq]
  exact ⟨SampleType.code_injective (toUInt64_injective htype), int64Item_inj hstart,
    int64Item_inj hstop, optionF32_inj hvalue hvalue' hv, optionF32_inj hmin hmin' hlow,
    optionF32_inj hmax hmax' hhigh, optionF32_inj hmean hmean' hm,
    optionUint_inj toUInt64_injective32 hcount, optionF32_inj hquality hquality' hq,
    optionUint_inj toUInt64_injective hchannel⟩

/-- A valid payload is known from its item. -/
theorem FactPayload.item_inj {a b : FactPayload}
    (ha : ∀ fact, a = .env fact → fact.validate = .ok ())
    (hb : ∀ fact, b = .env fact → fact.validate = .ok ()) (h : a.item = b.item) : a = b := by
  cases a with
  | env fact =>
    cases b with
    | env fact' =>
      simp only [item, Item.array.injEq, List.cons.injEq, and_true, true_and] at h
      rw [EnvFact.item_inj (ha fact rfl) (hb fact' rfl) h]
    | custom v => simp [item] at h
  | custom v =>
    cases b with
    | env fact => simp [item] at h
    | custom w =>
      simp only [item, Item.array.injEq, List.cons.injEq, and_true, true_and] at h
      rw [Subtype.ext (Item.bytes.inj h)]

/-- An optional signed number is known from its item. -/
theorem optionInt64_inj {x y : Option Int64} (h : optionItem int64Item x = optionItem int64Item y) :
    x = y := by
  refine optionItem_inj (P := fun _ => True) ?_ (fun _ _ _ _ => int64Item_inj) (fun _ _ => trivial)
    (fun _ _ => trivial) h
  intro n
  unfold int64Item
  split_ifs <;> exact Item.noConfusion

/-- The item determines a valid fact. -/
theorem Fact.item_inj {f g : Fact} (hf : f.validate = .ok ()) (hg : g.validate = .ok ())
    (h : f.item = g.item) : f = g := by
  simp only [item, Item.array.injEq, List.cons.injEq, Item.uint.injEq, Item.bytes.injEq, and_true,
    true_and] at h
  obtain ⟨hpod, hfc, hingest, hpodTime, hkind, hpayload⟩ := h
  have hpayload := FactPayload.item_inj (validate_payload hf) (validate_payload hg) hpayload
  cases f
  cases g
  rw [Fact.mk.injEq]
  exact ⟨Subtype.ext hpod, hfc, int64Item_inj hingest, optionInt64_inj hpodTime,
    FactKind.code_injective (toUInt64_injective hkind), hpayload⟩

/-- A provisioning record is known from its item. -/
theorem ProvisioningRecord.item_inj {r s : ProvisioningRecord} (h : r.item = s.item) : r = s := by
  simp only [item, Item.array.injEq, List.cons.injEq, Item.bytes.injEq, Item.text.injEq, and_true,
    true_and] at h
  obtain ⟨hdevice, hversion, hhash, hkey, hsig, hat, hsite⟩ := h
  have hsite : r.siteId = s.siteId := by
    refine optionItem_inj (P := fun _ => True) ?_ ?_ (fun _ _ => trivial) (fun _ _ => trivial) hsite
    · intro a
      exact Item.noConfusion
    · intro a b _ _ hab
      exact Subtype.ext (Item.text.inj hab)
  cases r
  cases s
  rw [ProvisioningRecord.mk.injEq]
  exact ⟨Subtype.ext hdevice, Subtype.ext hversion, Subtype.ext hhash, Subtype.ext hkey,
    Subtype.ext hsig, int64Item_inj hat, hsite⟩

/-! ## No encoding is a beginning of another one -/

/-- A signed number has an encoding of its own size. -/
theorem sized_int64Item (k : Nat) (n : Int64) : (int64Item n).Sized k := by
  unfold int64Item
  cases k <;> split_ifs <;> trivial

/-- An option has one where its values do. -/
theorem sized_optionItem {α : Type} {item : α → Item} {k : Nat} (h : ∀ a, (item a).Sized k)
    (value : Option α) : (optionItem item value).Sized k := by
  cases value with
  | none => cases k <;> trivial
  | some a => exact h a

/-- The item of a measurement fits its heads, one level deep. -/
theorem EnvFact.sized_item (fact : EnvFact) : fact.item.Sized 1 := by
  have hfloat : ∀ v : F32, (f32Item v).Sized 0 := fun _ => trivial
  have hcount : ∀ n : UInt32, (Item.uint n.toUInt64).Sized 0 := fun _ => trivial
  have hchannel : ∀ n : UInt8, (Item.uint n.toUInt64).Sized 0 := fun _ => trivial
  refine ⟨by simp, ?_⟩
  simp only [List.forall_mem_cons]
  exact ⟨trivial, trivial, sized_int64Item _ _, sized_int64Item _ _, sized_optionItem hfloat _,
    sized_optionItem hfloat _, sized_optionItem hfloat _, sized_optionItem hfloat _,
    sized_optionItem hcount _, sized_optionItem hfloat _, sized_optionItem hchannel _, by simp⟩

/-- The item of a payload fits its heads, two levels deep. -/
theorem FactPayload.sized_item (payload : FactPayload) : payload.item.Sized 2 := by
  cases payload with
  | env fact =>
    refine ⟨by simp, ?_⟩
    simp only [List.forall_mem_cons]
    exact ⟨trivial, fact.sized_item, by simp⟩
  | custom v =>
    refine ⟨by simp, ?_⟩
    simp only [List.forall_mem_cons]
    exact ⟨trivial, Nat.lt_of_le_of_lt v.2 (by decide), by simp⟩

/-- The item of a fact fits its heads, three levels deep. -/
theorem Fact.sized_item (fact : Fact) : fact.item.Sized 3 := by
  refine ⟨by simp, ?_⟩
  simp only [List.forall_mem_cons]
  exact ⟨trivial, Nat.lt_of_le_of_lt (Nat.le_of_eq fact.podId.2) (by decide), trivial,
    sized_int64Item _ _,
    sized_optionItem (sized_int64Item _) _, trivial, fact.payload.sized_item, by simp⟩

/-- The item of a provisioning record fits its heads, one level deep. -/
theorem ProvisioningRecord.sized_item (record : ProvisioningRecord) : record.item.Sized 1 := by
  have hbytes : ∀ {n : Nat} (b : ByteArrayOf n), n < 2 ^ 64 → (Item.bytes b.1).Sized 0 :=
    fun b hn => Nat.lt_of_le_of_lt (Nat.le_of_eq b.2) hn
  have htext : ∀ s : String32, (Item.text s.1).Sized 0 :=
    fun s => Nat.lt_of_le_of_lt s.2 (by decide)
  refine ⟨by simp, ?_⟩
  simp only [List.forall_mem_cons]
  exact ⟨trivial, hbytes record.deviceId (by decide), htext _, hbytes _ (by decide),
    hbytes _ (by decide),
    hbytes _ (by decide), sized_int64Item _ _, sized_optionItem htext _, by simp⟩

/-- No encoding is a proper prefix of another. -/
theorem eq_of_isPrefix {a b : Item} {n : Nat} (ha : a.Sized n) (hb : b.Sized n)
    (h : a.encode <+: b.encode) : a = b := by
  obtain ⟨rest, hrest⟩ := h
  rw [← List.append_nil b.encode] at hrest
  exact (prefixFree_sized n ha hb hrest).1

/-- Facts and provisioning records are determined by what their encodings begin with, and every
valid fact has an encoding. -/
theorem canonicalCbor_identifies :
    (∀ f g : Fact, f.validate = .ok () → g.validate = .ok () →
      ∀ bytes bytes', f.toCanonicalCborVec = .ok bytes → g.toCanonicalCborVec = .ok bytes' →
        bytes <+: bytes' → f = g)
      ∧ (∀ r s : ProvisioningRecord, ∀ bytes bytes', r.toCanonicalCborVec = .ok bytes →
        s.toCanonicalCborVec = .ok bytes' → bytes <+: bytes' → r = s)
      ∧ ∀ f : Fact, f.validate = .ok () → ∃ bytes, f.toCanonicalCborVec = .ok bytes := by
  refine ⟨?_, ?_, ?_⟩
  · intro f g hf hg bytes bytes' hbytes hbytes' h
    obtain ⟨-, rfl⟩ := Fact.toCanonicalCborVec_eq_ok.mp hbytes
    obtain ⟨-, rfl⟩ := Fact.toCanonicalCborVec_eq_ok.mp hbytes'
    exact Fact.item_inj hf hg (eq_of_isPrefix f.sized_item g.sized_item h)
  · intro r s bytes bytes' hbytes hbytes' h
    rw [ProvisioningRecord.toCanonicalCborVec_eq] at hbytes hbytes'
    cases hbytes
    cases hbytes'
    exact ProvisioningRecord.item_inj (eq_of_isPrefix r.sized_item s.sized_item h)
  · intro f hf
    exact ⟨_, Fact.toCanonicalCborVec_eq_ok.mpr ⟨hf, rfl⟩⟩

theorem length_goldenPodId : ([0, 0, 0, 0, 0, 0, 0, 7] : Bytes).length = 8 := rfl

/-- The fact of the golden bytes, with a counter: 25 degrees at one time. -/
def goldenFact (fc : UInt64) : Fact where
  podId := ⟨[0, 0, 0, 0, 0, 0, 0, 7], length_goldenPodId⟩
  fc
  ingestTime := 1700000000
  podTime := none
  kind := .env
  payload := .env
    { sampleType := .ambientAirTemperature
      phenomenonTimeStart := 1700000000
      phenomenonTimeEnd := 1700000000
      value := some ⟨0x41c80000⟩
      min := none
      max := none
      mean := none
      count := some 1
      quality := none
      sensorChannel := none }

/-- At the next head the counter takes a byte more. -/
theorem canonicalCbor_identifies_golden :
    ∃ bytes bytes', (goldenFact 23).toCanonicalCborVec = .ok bytes
      ∧ (goldenFact 24).toCanonicalCborVec = .ok bytes' ∧ ¬ bytes <+: bytes' := by
  have hvalid : (goldenFact 23).validate = .ok () := by decide +kernel
  have hvalid' : (goldenFact 24).validate = .ok () := by decide +kernel
  obtain ⟨bytes, hbytes⟩ := canonicalCbor_identifies.2.2 _ hvalid
  obtain ⟨bytes', hbytes'⟩ := canonicalCbor_identifies.2.2 _ hvalid'
  refine ⟨bytes, bytes', hbytes, hbytes', ?_⟩
  intro h
  have heq := canonicalCbor_identifies.1 _ _ hvalid hvalid' bytes bytes' hbytes hbytes' h
  exact absurd heq (by decide +kernel)

example : (goldenFact 1).toCanonicalCborVec = .ok
    [0x87, 0x01, 0x48, 0x00, 0x00, 0x00, 0x00, 0x00, 0x00, 0x00, 0x07, 0x01, 0x1a, 0x65, 0x53,
      0xf1, 0x00, 0xf6, 0x01, 0x82, 0x00, 0x8b, 0x01, 0x01, 0x1a, 0x65, 0x53, 0xf1, 0x00, 0x1a,
      0x65, 0x53, 0xf1, 0x00,
      0xfa, 0x41, 0xc8, 0x00, 0x00, 0xf6, 0xf6, 0xf6, 0x01, 0xf6, 0xf6] := by decide +kernel

end TrackOne
