import TrackOne.Lib.DetCbor

/-!
# Shortest exact floats

The float encoder of `trackone-ledger/src/c_cbor.rs` and the widening reads of
`trackone-ledger/src/vtl.rs`, on bit patterns: an `f64` is its 64 bits, an `f32` its 32 and a half
its 16.

`tryEncodeAsF16_eq_some` states what the bit manipulation of the source computes: a half is found
exactly when it widens to the given double. `canonicalFloatBytes_eq_ok` follows: the bytes of a
finite double are those of its one shortest float.
-/

namespace TrackOne

open BinaryFloat Format DetCbor

def tryEncodeAsF16 (val : Nat) : Option Nat :=
  let sign := double.sign val
  let exp64 := double.exponent val
  let mant64 := double.mantissa val
  if exp64 = 0 ∧ mant64 = 0 then
    -- the sign of a zero is preserved
    some (half.pack sign 0 0)
  else
    let unbiased : Int := exp64 - 1023
    if ¬ (-24 ≤ unbiased ∧ unbiased ≤ 15) then none
    else if -14 ≤ unbiased then
      -- a normal half: the lower 42 bits of the mantissa must be zero
      if mant64 % 2 ^ 42 ≠ 0 then none
      else some (half.pack sign (unbiased + 15).toNat (mant64 / 2 ^ 42))
    else
      -- a subnormal half, with the implicit leading bit included
      let fullSig := 2 ^ 52 + mant64
      let totalShift := (28 - unbiased).toNat
      if fullSig % 2 ^ totalShift ≠ 0 then none
      else some (half.pack sign 0 (fullSig / 2 ^ totalShift))

/-- `Error` of the canonical CBOR module, as far as floats raise it. -/
inductive CanonicalFloatError where
  | nonFiniteFloat
deriving DecidableEq, Repr

/-- `canonical_float_bytes`, that is `cbor_float`. -/
def canonicalFloatBytes (value : Nat) : Except CanonicalFloatError Bytes :=
  if ¬ double.Finite value then .error .nonFiniteFloat
  else match tryEncodeAsF16 value with
    | some bits => .ok (0xf9 :: beBytes 2 bits)
    | none =>
      let f32Val := narrowSingle value
      if widen single f32Val = value then .ok (0xfa :: beBytes 4 f32Val)
      else .ok (0xfb :: beBytes 8 value)

/-! ## Halves -/

/-- The leading bit of a shifted significand. -/
theorem log2_of_mul_eq {q m t : Nat} (ht : t ≤ 52) (hm : m < 2 ^ 52)
    (h : q * 2 ^ t = 2 ^ 52 + m) : q ≠ 0 ∧ Nat.log2 q = 52 - t := by
  have hq : q ≠ 0 := by
    rintro rfl
    omega
  refine ⟨hq, (Nat.log2_eq_iff hq).mpr ⟨?_, ?_⟩⟩
  · refine Nat.le_of_mul_le_mul_right ?_ (Nat.two_pow_pos t)
    rw [← Nat.pow_add, Nat.sub_add_cancel ht]
    omega
  · refine Nat.lt_of_mul_lt_mul_right (a := 2 ^ t) ?_
    rw [← Nat.pow_add, show 52 - t + 1 + t = 53 by omega]
    omega

/-- A half that the encoder finds widens to the double it was found for. -/
theorem widen_of_tryEncodeAsF16 {val bits : Nat} (h : tryEncodeAsF16 val = some bits) :
    half.Finite bits ∧ widen half bits = val := by
  have hval := double.pack_fields val
  have hmant := double.mantissa_lt val
  rw [show double.mantBits = 52 from rfl] at hmant
  simp only [tryEncodeAsF16] at h
  generalize double.sign val = s at *
  generalize double.exponent val = e at *
  generalize double.mantissa val = m at *
  split_ifs at h with hzero hrange hnormal hbits hbits
  · -- a signed zero
    cases h
    have he : half.exponent (half.pack s 0 0) = 0 := exponent_pack (by decide) (by decide)
    have hm : half.mantissa (half.pack s 0 0) = 0 := mantissa_pack (by decide)
    have hs : half.sign (half.pack s 0 0) = s := sign_pack (by decide) (by decide)
    refine ⟨by rw [Format.Finite, he]; decide, ?_⟩
    rw [widen_zero (by decide) he hm, hs, ← hval, hzero.1, hzero.2]
  · -- a normal half
    cases h
    have hlt : ((e : Int) - 1023 + 15).toNat < 31 := by omega
    have hm' : m / 2 ^ 42 < 2 ^ half.mantBits := by
      rw [show half.mantBits = 10 from rfl]
      -- the exponent is rebiased, and the mantissa loses zeros only
      omega
    generalize hedef : ((e : Int) - 1023 + 15).toNat = e' at *
    have he : half.exponent (half.pack s e' (m / 2 ^ 42)) = e' :=
      exponent_pack (by rw [show half.expBits = 5 from rfl]; omega) hm'
    have hm : half.mantissa (half.pack s e' (m / 2 ^ 42)) = m / 2 ^ 42 := mantissa_pack hm'
    have hs : half.sign (half.pack s e' (m / 2 ^ 42)) = s :=
      sign_pack (by rw [show half.expBits = 5 from rfl]; omega) hm'
    have hfin : half.Finite (half.pack s e' (m / 2 ^ 42)) := by
      rw [Format.Finite, he, show half.maxExponent = 31 from rfl]
      omega
    refine ⟨hfin, ?_⟩
    rw [widen_normal (by decide) (by omega) hfin, he, hm, hs, ← hval,
      show half.bias = 15 from rfl, show half.mantBits = 10 from rfl,
      show e' + 1023 - 15 = e by omega, show m / 2 ^ 42 * 2 ^ (52 - 10) = m by omega]
  · -- a subnormal half: its mantissa is the whole significand, shifted
    cases h
    have hlt : 43 ≤ (28 - ((e : Int) - 1023)).toNat ∧ (28 - ((e : Int) - 1023)).toNat ≤ 52 := by
      omega
    generalize htdef : (28 - ((e : Int) - 1023)).toNat = t at *
    -- the bits shifted out are zeros, so the significand comes back
    have hexact : (2 ^ 52 + m) / 2 ^ t * 2 ^ t = 2 ^ 52 + m :=
      Nat.div_mul_cancel (Nat.dvd_of_mod_eq_zero (not_not.mp hbits))
    generalize (2 ^ 52 + m) / 2 ^ t = q at *
    obtain ⟨hq, hlog⟩ := log2_of_mul_eq hlt.2 hmant hexact
    have hm' : q < 2 ^ half.mantBits := by
      rw [show half.mantBits = 10 from rfl, ← Nat.log2_lt hq, hlog]
      omega
    have he : half.exponent (half.pack s 0 q) = 0 := exponent_pack (by decide) hm'
    have hm : half.mantissa (half.pack s 0 q) = q := mantissa_pack hm'
    have hs : half.sign (half.pack s 0 q) = s := sign_pack (by decide) hm'
    refine ⟨by rw [Format.Finite, he]; decide, ?_⟩
    have hback : (q - 2 ^ (52 - t)) * 2 ^ t = m := by
      rw [Nat.sub_mul, hexact, ← Nat.pow_add, Nat.sub_add_cancel hlt.2]
      omega
    rw [widen_subnormal (by decide) (by decide) he (by rw [hm]; exact hq), hm, hs, hlog,
      show 52 - (52 - t) = t by omega, hback, ← hval,
      show half.bias + half.mantBits = 25 from rfl, show 1024 + (52 - t) - 25 = e by omega]

/-- The encoder finds the half a double was widened from. -/
theorem tryEncodeAsF16_widen {bits : Nat} (hfin : half.Finite bits) :
    tryEncodeAsF16 (widen half bits) = some bits := by
  have hbits := half.pack_fields bits
  have hmant := half.mantissa_lt bits
  have hexp : half.exponent bits < 31 := by
    have hlt : half.exponent bits < 32 := Nat.mod_lt _ (by decide)
    have hne : half.exponent bits ≠ 31 := hfin
    omega
  rw [show half.mantBits = 10 from rfl] at hmant
  simp only [tryEncodeAsF16, sign_widen widens_half hfin, exponent_widen widens_half hfin,
    mantissa_widen widens_half hfin, widenedExponent, widenedMantissa,
    show half.bias = 15 from rfl, show half.mantBits = 10 from rfl, Nat.reduceAdd, Nat.reduceSub]
  generalize half.sign bits = s at *
  generalize half.exponent bits = e at *
  generalize half.mantissa bits = m at *
  subst hbits
  by_cases he : e = 0
  · by_cases hm : m = 0
    · -- a signed zero
      simp [he, hm]
    · -- a subnormal: the shift undoes the normalization
      have hL := (Nat.log2_lt hm).mpr hmant
      have hfull := implicit_bit_add rfl hm (by omega)
      have hshift : (28 - (((1024 + Nat.log2 m - 25 : Nat) : Int) - 1023)).toNat
          = 52 - Nat.log2 m := by omega
      simp only [he, hm, if_true, if_false]
      rw [if_neg (by omega), if_neg (by omega), if_neg (by omega), hshift, hfull,
        if_neg (by simp), Nat.mul_div_cancel _ (Nat.two_pow_pos _)]
  · -- a normal: the mantissa was shifted by 42 bits
    simp only [he, if_false]
    rw [if_neg (by omega), if_neg (by omega), if_pos (by omega), if_neg (by omega),
      show (((e + 1023 - 15 : Nat) : Int) - 1023 + 15).toNat = e by omega,
      Nat.mul_div_cancel _ (Nat.two_pow_pos _)]

theorem tryEncodeAsF16_eq_some {val bits : Nat} :
    tryEncodeAsF16 val = some bits ↔ half.Finite bits ∧ widen half bits = val := by
  constructor
  · exact widen_of_tryEncodeAsF16
  · rintro ⟨hfin, rfl⟩
    exact tryEncodeAsF16_widen hfin

/-! ## The shortest float -/

theorem tryEncodeAsF16_eq_none {val : Nat} (hval : val < 2 ^ 64) :
    tryEncodeAsF16 val = none
      ↔ ∀ bits : UInt16, half.Finite bits.toNat → widen half bits.toNat ≠ val := by
  constructor
  · intro h bits hfin heq
    rw [tryEncodeAsF16_eq_some.mpr ⟨hfin, heq⟩] at h
    cases h
  · intro h
    cases hbits : tryEncodeAsF16 val with
    | none => rfl
    | some bits =>
      obtain ⟨hfin, rfl⟩ := tryEncodeAsF16_eq_some.mp hbits
      have hlt := lt_of_widen_lt widens_half hfin hval
      have hto : (UInt16.ofNat bits).toNat = bits := UInt16.toNat_ofNat_of_lt' hlt
      have hne := h (UInt16.ofNat bits)
      rw [hto] at hne
      exact absurd rfl (hne hfin)

/-- The single the encoder tries is the only one that can be exact. -/
theorem widen_narrowSingle_ne {val : Nat} (hval : val < 2 ^ 64) (hfin : double.Finite val) :
    widen single (narrowSingle val) ≠ val
      ↔ ∀ bits : UInt32, single.Finite bits.toNat → widen single bits.toNat ≠ val := by
  constructor
  · intro h bits hbits heq
    apply h
    rw [← heq, narrowSingle_widen hbits]
  · intro h heq
    have hfin' : single.Finite (narrowSingle val) := finite_of_finite_widen (by rwa [heq])
    have hlt := lt_of_widen_lt widens_single hfin' (by rwa [heq])
    have hto : (UInt32.ofNat (narrowSingle val)).toNat = narrowSingle val :=
      UInt32.toNat_ofNat_of_lt' hlt
    have hne := h (UInt32.ofNat (narrowSingle val))
    rw [hto] at hne
    exact hne hfin' heq

theorem canonicalFloatBytes_of_single {val : Nat} (hfin : double.Finite val)
    (hhalf : tryEncodeAsF16 val = none) (hsingle : widen single (narrowSingle val) = val) :
    canonicalFloatBytes val = .ok (0xfa :: beBytes 4 (narrowSingle val)) := by
  simp only [canonicalFloatBytes, hhalf]
  rw [if_neg (not_not.mpr hfin), if_pos hsingle]

theorem canonicalFloatBytes_of_double {val : Nat} (hfin : double.Finite val)
    (hhalf : tryEncodeAsF16 val = none) (hsingle : widen single (narrowSingle val) ≠ val) :
    canonicalFloatBytes val = .ok (0xfb :: beBytes 8 val) := by
  simp only [canonicalFloatBytes, hhalf]
  rw [if_neg (not_not.mpr hfin), if_neg hsingle]

theorem canonicalFloatBytes_of_half {val bits : Nat} (hfin : double.Finite val)
    (hhalf : tryEncodeAsF16 val = some bits) :
    canonicalFloatBytes val = .ok (0xf9 :: beBytes 2 bits) := by
  simp only [canonicalFloatBytes, hhalf]
  rw [if_neg (not_not.mpr hfin)]

/-- The encoder writes the shortest float of its value as it stands. -/
theorem canonicalFloatBytes_of_shortest {f : FloatLit} (h : f.Shortest) :
    canonicalFloatBytes f.value = .ok f.encode := by
  cases f with
  | half bits =>
    exact canonicalFloatBytes_of_half (finite_widen widens_half h) (tryEncodeAsF16_widen h)
  | single bits =>
    obtain ⟨hfin, hhalf⟩ := h
    have hlt := widen_lt widens_single hfin bits.toNat_lt
    have hnarrow := narrowSingle_widen hfin
    have hbytes := canonicalFloatBytes_of_single (finite_widen widens_single hfin)
      ((tryEncodeAsF16_eq_none hlt).mpr hhalf) (by rw [hnarrow])
    rwa [hnarrow] at hbytes
  | double bits =>
    obtain ⟨hfin, hhalf, hsingle⟩ := h
    exact canonicalFloatBytes_of_double hfin ((tryEncodeAsF16_eq_none bits.toNat_lt).mpr hhalf)
      ((widen_narrowSingle_ne bits.toNat_lt hfin).mpr hsingle)

theorem finite_of_canonicalFloatBytes {val : Nat} {bytes : Bytes}
    (h : canonicalFloatBytes val = .ok bytes) : double.Finite val := by
  by_contra hfin
  rw [canonicalFloatBytes, if_pos hfin] at h
  cases h

/-- A float that the encoder would write as it stands is the shortest of its value: the initial
byte tells which branch of the encoder was taken. -/
theorem shortest_of_canonicalFloatBytes {f : FloatLit}
    (h : canonicalFloatBytes f.value = .ok f.encode) : f.Shortest := by
  have hfin := finite_of_canonicalFloatBytes h
  unfold FloatLit.value at h hfin
  cases f with
  | half bits => exact finite_of_finite_widen hfin
  | single bits =>
    have hsingle : single.Finite bits.toNat := finite_of_finite_widen hfin
    have hlt := widen_lt widens_single hsingle bits.toNat_lt
    refine ⟨hsingle, (tryEncodeAsF16_eq_none hlt).mp ?_⟩
    cases hhalf : tryEncodeAsF16 (widen single bits.toNat) with
    | none => rfl
    | some b =>
      rw [canonicalFloatBytes_of_half hfin hhalf] at h
      simp [FloatLit.encode] at h
  | double bits =>
    have hnone : tryEncodeAsF16 bits.toNat = none := by
      cases hhalf : tryEncodeAsF16 bits.toNat with
      | none => rfl
      | some b =>
        rw [canonicalFloatBytes_of_half hfin hhalf] at h
        simp [FloatLit.encode] at h
    refine ⟨hfin, (tryEncodeAsF16_eq_none bits.toNat_lt).mp hnone,
      (widen_narrowSingle_ne bits.toNat_lt hfin).mp fun heq => ?_⟩
    rw [canonicalFloatBytes_of_single hfin hnone heq] at h
    simp [FloatLit.encode] at h

/-! ## Reading floats -/

/-- `decode_f16`: the products of the source are exact. -/
def decodeF16 (bits : UInt16) : Nat :=
  let sign := half.sign bits.toNat
  let exponent := half.exponent bits.toNat
  let fraction := half.mantissa bits.toNat
  if exponent = 0 then ofDyadic sign fraction (-24)
  else if exponent = 31 then
    if fraction = 0 then double.pack sign 2047 0 else double.pack 0 2047 (2 ^ 51)
  else ofDyadic sign (1024 + fraction) (exponent - 15 - 10)

theorem decodeF16_eq_widen (bits : UInt16) : decodeF16 bits = widen half bits.toNat := by
  simp only [decodeF16, widen, significand, scale, show half.maxExponent = 31 from rfl,
    show half.bias = 15 from rfl, show half.mantBits = 10 from rfl]
  by_cases he : half.exponent bits.toNat = 0
  · simp [he]
  · by_cases hmax : half.exponent bits.toNat = 31
    · simp [hmax]
    · have hexp : max 1 (half.exponent bits.toNat : Int) = half.exponent bits.toNat := by omega
      simp [he, hmax, hexp]

end TrackOne
