import TrackOne.Lib.FloatValue
import TrackOne.Vtl.CanonicalCbor

/-!
# Exact floats

What the float code of `trackone-ledger` means as numbers. A half is found for a double exactly
when the two denote the same signed number, `decode_f16` computes the number a half denotes, and
the encoder and the record validator agree on the shortest of the three widths.

`tryEncodeAsF16_eq_some` of the encoder is about bit patterns; `widen_eq_iff` turns it into one
about values.
-/

namespace TrackOne

open BinaryFloat Format DetCbor CCbor

/-- Some finite half has the exact value of the double. -/
def HalfRepresentable (val : Nat) : Prop :=
  ∃ h : UInt16, half.Finite h.toNat ∧ half.value h.toNat = double.value val

/-- The product `decode_f16` forms for a finite half, in exact arithmetic. -/
def decodeF16Exact (bits : UInt16) : ℚ :=
  let sign : ℚ := if half.sign bits.toNat = 0 then 1 else -1
  let exponent := half.exponent bits.toNat
  let fraction : ℚ := half.mantissa bits.toNat
  if exponent = 0 then sign * fraction * 2 ^ (-24 : Int)
  else sign * (1 + fraction / 1024) * 2 ^ ((exponent : Int) - 15)

/-! ## Halves as numbers -/

/-- A half is found exactly when it denotes the same signed number as the double. -/
theorem tryEncodeAsF16_eq_some_iff_value {val bits : Nat} :
    tryEncodeAsF16 val = some bits
      ↔ half.Finite bits ∧ half.sign bits = double.sign val
        ∧ half.value bits = double.value val := by
  rw [tryEncodeAsF16_eq_some]
  exact and_congr_right fun hfin => widen_eq_iff widens_half hfin

/-- A zero narrows to the zero of its sign. -/
theorem tryEncodeAsF16_of_value_eq_zero {val : Nat} (h : double.value val = 0) :
    (tryEncodeAsF16 val).isSome := by
  rw [← abs_eq_zero, abs_value, magnitude_eq_zero] at h
  simp [tryEncodeAsF16, h.1, h.2]

/-- The sign needs no test of its own: it is part of a value other than zero, and a zero has a half
of either sign. -/
theorem isSome_tryEncodeAsF16 {val : Nat} (hval : val < 2 ^ 64) :
    (tryEncodeAsF16 val).isSome ↔ HalfRepresentable val := by
  constructor
  · intro h
    obtain ⟨bits, hbits⟩ := Option.isSome_iff_exists.mp h
    obtain ⟨hfin, hwiden⟩ := tryEncodeAsF16_eq_some.mp hbits
    have hlt : bits < 2 ^ 16 := lt_of_widen_lt widens_half hfin (by rwa [hwiden])
    refine ⟨UInt16.ofNat bits, ?_⟩
    rw [UInt16.toNat_ofNat_of_lt' hlt]
    exact ⟨hfin, (tryEncodeAsF16_eq_some_iff_value.mp hbits).2.2⟩
  · rintro ⟨h, hfin, hvalue⟩
    by_cases hzero : double.value val = 0
    · exact tryEncodeAsF16_of_value_eq_zero hzero
    · have hsign : half.sign h.toNat = double.sign val := by
        have hmagnitude : half.magnitude h.toNat = double.magnitude val := by
          rw [← abs_value, hvalue, abs_value]
        have hne : double.magnitude val ≠ 0 := by
          rwa [← abs_value, abs_ne_zero]
        refine sign_eq_of_value_eq (Nat.div_lt_of_lt_mul h.toNat_lt)
          (Nat.div_lt_of_lt_mul hval) hne ?_
        rw [Format.value, Format.value, hmagnitude] at hvalue
        exact hvalue
      rw [tryEncodeAsF16_eq_some_iff_value.mpr ⟨hfin, hsign, hvalue⟩]
      rfl

theorem decodeF16Exact_eq_value (bits : UInt16) : decodeF16Exact bits = half.value bits.toNat := by
  have hsign : (-1 : ℚ) ^ half.sign bits.toNat = if half.sign bits.toNat = 0 then 1 else -1 := by
    have hlt : half.sign bits.toNat < 2 := Nat.div_lt_of_lt_mul bits.toNat_lt
    obtain h | h : half.sign bits.toNat = 0 ∨ half.sign bits.toNat = 1 := by omega
    · simp [h]
    · simp [h]
  rw [Format.value, hsign]
  simp only [decodeF16Exact, magnitude, significand, scale, show half.bias = 15 from rfl,
    show half.mantBits = 10 from rfl]
  by_cases he : half.exponent bits.toNat = 0
  · simp only [he, if_true, mul_assoc]
    rfl
  · have hexp : max 1 (half.exponent bits.toNat : Int) - 15 - 10
        = (half.exponent bits.toNat : Int) - 15 + (-10) := by omega
    have hscale : (2 : ℚ) ^ (-10 : Int) = 1 / 1024 := by norm_num
    simp only [he, if_false, Nat.cast_ofNat]
    rw [hexp, zpow_add₀ (by norm_num), hscale]
    push_cast
    ring

/-- A finite half is read as its exact value, and the double that is read narrows to the half. -/
theorem decodeF16_exact {bits : UInt16} (hfin : half.Finite bits.toNat) :
    double.Finite (decodeF16 bits) ∧ double.value (decodeF16 bits) = decodeF16Exact bits
      ∧ tryEncodeAsF16 (decodeF16 bits) = some bits.toNat := by
  rw [decodeF16_eq_widen, decodeF16Exact_eq_value]
  exact ⟨finite_widen widens_half hfin, value_widen widens_half hfin, tryEncodeAsF16_widen hfin⟩

/-! ## The shortest width -/

/-- The shortest float of a value is no longer than any other float of it. -/
theorem length_encode_le {f g : FloatLit} (h : f.Shortest) (heq : g.value = f.value) :
    f.encode.length ≤ g.encode.length := by
  have hfin : double.Finite f.value :=
    finite_of_canonicalFloatBytes (canonicalFloatBytes_of_shortest h)
  rw [← heq] at hfin
  cases f with
  | half bits => cases g <;> simp [FloatLit.encode]
  | single bits =>
    cases g with
    | half other => exact absurd heq (h.2 other (finite_of_finite_widen hfin))
    | single other => simp [FloatLit.encode]
    | double other => simp [FloatLit.encode]
  | double bits =>
    cases g with
    | half other => exact absurd heq (h.2.1 other (finite_of_finite_widen hfin))
    | single other => exact absurd heq (h.2.2 other (finite_of_finite_widen hfin))
    | double other => simp [FloatLit.encode]

/-- A float with a shorter one of the same value is rejected. -/
theorem validateFloatEncoding_of_shorter {f g : FloatLit} (hfin : double.Finite f.value)
    (heq : g.value = f.value) (hlen : g.encode.length < f.encode.length) :
    validateFloatEncoding f.encode f.value
      = .error (.nonCanonical "CBOR float is not encoded at its shortest exact width") := by
  have hlt : f.value < 2 ^ 64 := by
    cases f with
    | half bits => exact widen_lt widens_half (finite_of_finite_widen hfin) bits.toNat_lt
    | single bits => exact widen_lt widens_single (finite_of_finite_widen hfin) bits.toNat_lt
    | double bits => exact bits.toNat_lt
  have hto : (UInt64.ofNat f.value).toNat = f.value := UInt64.toNat_ofNat_of_lt64 hlt
  obtain ⟨hshortest, hvalue, hbytes⟩ :=
    @shortestFloat_spec (UInt64.ofNat f.value) (by rwa [hto])
  rw [hto] at hvalue hbytes
  -- the bytes the encoder writes are those of the shortest float, and `f` is longer than it
  have hne : (shortestFloat (UInt64.ofNat f.value)).encode ≠ f.encode := by
    intro h
    have hle := length_encode_le hshortest (heq.trans hvalue.symm)
    rw [h] at hle
    omega
  simp only [validateFloatEncoding, hbytes, Except.mapError, Except.ok_bind, Except.require, hne,
    decide_false, Bool.false_eq_true, if_false]

/-- So the reader of simple values and floats rejects it, whatever follows. -/
theorem validateSimpleOrFloat_of_shorter {f g : FloatLit} (hfin : double.Finite f.value)
    (heq : g.value = f.value) (hlen : g.encode.length < f.encode.length) (rest : Bytes) :
    ∃ initial bits, f.encode = initial :: bits
      ∧ validateSimpleOrFloat initial (initial &&& 0x1f) (bits ++ rest)
        = .error (.nonCanonical "CBOR float is not encoded at its shortest exact width") := by
  obtain ⟨initial, bits, hencode, -, hread⟩ := validateSimpleOrFloat_encode f rest
  refine ⟨initial, bits, hencode, ?_⟩
  rw [hread, validateFloatEncoding_of_shorter hfin heq hlen]
  rfl

/-- Narrowing is exact on every finite double: a half is found exactly when one has the value, it is
the half of the same sign and value, reading a half back gives its value and the double it is
narrowed from, the encoder writes the shortest float of the double, and a longer one is
rejected. -/
theorem halfPrecision_exact (x : UInt64) (hx : double.Finite x.toNat) :
    ((tryEncodeAsF16 x.toNat).isSome ↔ HalfRepresentable x.toNat)
      ∧ (∀ bits, tryEncodeAsF16 x.toNat = some bits
          ↔ half.Finite bits ∧ half.sign bits = double.sign x.toNat
            ∧ half.value bits = double.value x.toNat)
      ∧ (∀ h : UInt16, half.Finite h.toNat →
          double.Finite (decodeF16 h) ∧ double.value (decodeF16 h) = decodeF16Exact h
            ∧ half.value h.toNat = decodeF16Exact h
            ∧ tryEncodeAsF16 (decodeF16 h) = some h.toNat)
      ∧ (∃ f : FloatLit, canonicalFloatBytes x.toNat = .ok f.encode ∧ f.value = x.toNat
          ∧ ∀ g : FloatLit, g.value = x.toNat → f.encode.length ≤ g.encode.length)
      ∧ ∀ f g : FloatLit, double.Finite f.value → g.value = f.value →
          g.encode.length < f.encode.length →
          validateFloatEncoding f.encode f.value
              = .error (.nonCanonical "CBOR float is not encoded at its shortest exact width")
            ∧ ∀ rest, ∃ initial bits, f.encode = initial :: bits
              ∧ validateSimpleOrFloat initial (initial &&& 0x1f) (bits ++ rest)
                = .error (.nonCanonical
                  "CBOR float is not encoded at its shortest exact width") := by
  obtain ⟨hshortest, hvalue, hbytes⟩ := shortestFloat_spec hx
  refine ⟨isSome_tryEncodeAsF16 x.toNat_lt, fun bits => tryEncodeAsF16_eq_some_iff_value,
    fun h hfin => ?_, ?_, fun f g hfin heq hlen =>
      ⟨validateFloatEncoding_of_shorter hfin heq hlen,
        validateSimpleOrFloat_of_shorter hfin heq hlen⟩⟩
  · obtain ⟨hdouble, hexact, hback⟩ := decodeF16_exact hfin
    exact ⟨hdouble, hexact, (decodeF16Exact_eq_value h).symm, hback⟩
  · exact ⟨shortestFloat x, hbytes, hvalue,
      fun g hg => length_encode_le hshortest (hg.trans hvalue.symm)⟩

/-- One and a half as a half, a single and a double. -/
theorem halfPrecision_exact_sample :
    half.value 0x3e00 = double.value 0x3ff8000000000000
      ∧ double.value (decodeF16 0x3e00) = decodeF16Exact 0x3e00
      ∧ validateFloatEncoding (FloatLit.single 0x3fc00000).encode 0x3ff8000000000000
        = .error (.nonCanonical "CBOR float is not encoded at its shortest exact width") := by
  obtain ⟨-, hnarrow, hread, -, hreject⟩ := halfPrecision_exact 0x3ff8000000000000 (by decide)
  refine ⟨((hnarrow 0x3e00).mp ?_).2.2, (hread 0x3e00 (by decide)).2.1, ?_⟩
  · decide +kernel
  · exact (hreject (.single 0x3fc00000) (.half 0x3e00) (by decide) (by decide) (by decide)).1

end TrackOne
