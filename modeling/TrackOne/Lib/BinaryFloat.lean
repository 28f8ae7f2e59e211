import TrackOne.Lib.Words
import Mathlib.Data.Nat.Log
import Mathlib.Algebra.Order.Group.Nat

/-!
# Binary interchange formats on bit patterns

Half, single and double precision as bit patterns. A finite pattern denotes
`(-1)^sign * significand * 2^scale`; `ofDyadic` writes such a value as a double, `widen` is the
exact conversion of a half or a single to a double, and `narrow` is the conversion of a double to
a shorter format that rounds to nearest, ties to even.

The facts the codecs need are `sign_widen` / `exponent_widen` / `mantissa_widen`, which give the
fields of a widened pattern, `widen_injective`, and `narrow_widen`: rounding a widened pattern gives
the pattern back.
-/

namespace BinaryFloat

/-- The widths of a format's exponent and mantissa fields. -/
structure Format where
  expBits : Nat
  mantBits : Nat

def half : Format := ⟨5, 10⟩

def single : Format := ⟨8, 23⟩

def double : Format := ⟨11, 52⟩

namespace Format

variable (F : Format)

/-- The exponent field of infinities and NaNs. -/
def maxExponent : Nat := 2 ^ F.expBits - 1

/-- The exponent bias. -/
def bias : Nat := 2 ^ (F.expBits - 1) - 1

def sign (bits : Nat) : Nat := bits / 2 ^ (F.expBits + F.mantBits)

def exponent (bits : Nat) : Nat := bits / 2 ^ F.mantBits % 2 ^ F.expBits

def mantissa (bits : Nat) : Nat := bits % 2 ^ F.mantBits

/-- The bit pattern with the given fields. -/
def pack (sign exponent mantissa : Nat) : Nat :=
  sign * 2 ^ (F.expBits + F.mantBits) + exponent * 2 ^ F.mantBits + mantissa

/-- Neither an infinity nor a NaN. -/
def Finite (bits : Nat) : Prop := F.exponent bits ≠ F.maxExponent

instance (bits : Nat) : Decidable (F.Finite bits) := inferInstanceAs (Decidable (_ ≠ _))

/-- The integer significand of a finite pattern, with the implicit bit of a normal one. -/
def significand (bits : Nat) : Nat :=
  if F.exponent bits = 0 then F.mantissa bits else 2 ^ F.mantBits + F.mantissa bits

/-- The power of two the significand is scaled by. -/
def scale (bits : Nat) : Int :=
  max 1 (F.exponent bits : Int) - F.bias - F.mantBits

/-- The mantissa has the bits of its format. -/
theorem mantissa_lt (bits : Nat) : F.mantissa bits < 2 ^ F.mantBits :=
  Nat.mod_lt _ (Nat.two_pow_pos _)

/-- Bits are packed of their fields. -/
theorem pack_fields (bits : Nat) :
    F.pack (F.sign bits) (F.exponent bits) (F.mantissa bits) = bits := by
  have hmant := Nat.div_add_mod' bits (2 ^ F.mantBits)
  have hexp := Nat.div_add_mod' (bits / 2 ^ F.mantBits) (2 ^ F.expBits)
  unfold pack sign exponent mantissa
  rw [Nat.div_div_eq_div_mul, Nat.mul_comm, Nat.mul_comm (2 ^ F.mantBits)] at hexp
  rw [Nat.pow_add]
  calc bits / (2 ^ F.expBits * 2 ^ F.mantBits) * (2 ^ F.expBits * 2 ^ F.mantBits)
        + bits / 2 ^ F.mantBits % 2 ^ F.expBits * 2 ^ F.mantBits + bits % 2 ^ F.mantBits
      = (2 ^ F.expBits * (bits / (2 ^ F.expBits * 2 ^ F.mantBits))
          + bits / 2 ^ F.mantBits % 2 ^ F.expBits) * 2 ^ F.mantBits + bits % 2 ^ F.mantBits := by
        rw [Nat.add_mul]; congr 2
        rw [Nat.mul_comm (2 ^ F.expBits) (bits / _), Nat.mul_assoc]
    _ = bits := by rw [hexp, hmant]

variable {F} in
/-- The mantissa of packed fields. -/
theorem mantissa_pack {s e m : Nat} (hm : m < 2 ^ F.mantBits) :
    F.mantissa (F.pack s e m) = m := by
  unfold mantissa pack
  rw [Nat.pow_add, ← Nat.mul_assoc, ← Nat.add_mul, Nat.add_comm, Nat.add_mul_mod_self_right]
  exact Nat.mod_eq_of_lt hm

variable {F} in
/-- The exponent of packed fields. -/
theorem exponent_pack {s e m : Nat} (he : e < 2 ^ F.expBits) (hm : m < 2 ^ F.mantBits) :
    F.exponent (F.pack s e m) = e := by
  unfold exponent pack
  rw [Nat.pow_add, ← Nat.mul_assoc, ← Nat.add_mul, Nat.add_comm,
    Nat.add_mul_div_right _ _ (Nat.two_pow_pos _), Nat.div_eq_of_lt hm, Nat.zero_add,
    Nat.add_comm, Nat.add_mul_mod_self_right]
  exact Nat.mod_eq_of_lt he

variable {F} in
/-- The sign of packed fields. -/
theorem sign_pack {s e m : Nat} (he : e < 2 ^ F.expBits) (hm : m < 2 ^ F.mantBits) :
    F.sign (F.pack s e m) = s := by
  unfold sign pack
  have hlow : e * 2 ^ F.mantBits + m < 2 ^ (F.expBits + F.mantBits) := by
    rw [Nat.pow_add]
    calc e * 2 ^ F.mantBits + m < e * 2 ^ F.mantBits + 2 ^ F.mantBits := by omega
      _ = (e + 1) * 2 ^ F.mantBits := by rw [Nat.add_mul, Nat.one_mul]
      _ ≤ 2 ^ F.expBits * 2 ^ F.mantBits := Nat.mul_le_mul_right _ he
  rw [Nat.add_assoc, Nat.add_comm, Nat.add_mul_div_right _ _ (Nat.two_pow_pos _),
    Nat.div_eq_of_lt hlow, Nat.zero_add]

end Format

open Format

/-! ## Conversion to double -/

/-- The double with value `(-1)^sign * m * 2^e`, for a significand of at most 53 bits and an
exponent in the normal range. -/
def ofDyadic (sign m : Nat) (e : Int) : Nat :=
  if m = 0 then double.pack sign 0 0
  else
    double.pack sign (1023 + Nat.log2 m + e).toNat ((m - 2 ^ Nat.log2 m) * 2 ^ (52 - Nat.log2 m))

/-- The exact conversion of a half or a single to a double. -/
def widen (F : Format) (bits : Nat) : Nat :=
  if F.exponent bits = F.maxExponent then
    -- an infinity keeps its sign, a NaN becomes the quiet one
    if F.mantissa bits = 0 then double.pack (F.sign bits) 2047 0 else double.pack 0 2047 (2 ^ 51)
  else ofDyadic (F.sign bits) (F.significand bits) (F.scale bits)

/-- The leading bit of a significand does not count towards the mantissa field. -/
theorem mantissa_lt_of_log2 {m L : Nat} (hL : L = Nat.log2 m) (hle : L ≤ 52) :
    (m - 2 ^ L) * 2 ^ (52 - L) < 2 ^ 52 := by
  have hlt : m < 2 ^ (L + 1) := by rw [hL]; exact Nat.lt_log2_self
  have hsub : m - 2 ^ L < 2 ^ L := by
    rw [Nat.pow_succ] at hlt
    omega
  calc (m - 2 ^ L) * 2 ^ (52 - L) < 2 ^ L * 2 ^ (52 - L) :=
        Nat.mul_lt_mul_of_pos_right hsub (Nat.two_pow_pos _)
    _ = 2 ^ 52 := by rw [← Nat.pow_add, Nat.add_sub_cancel' hle]

/-- Restoring the implicit bit of a widened subnormal gives back its scaled significand. -/
theorem implicit_bit_add {m L : Nat} (hL : L = Nat.log2 m) (hm : m ≠ 0) (hle : L ≤ 52) :
    2 ^ 52 + (m - 2 ^ L) * 2 ^ (52 - L) = m * 2 ^ (52 - L) := by
  have hge : 2 ^ L ≤ m := by rw [hL]; exact Nat.log2_self_le hm
  rw [Nat.sub_mul, ← Nat.pow_add, Nat.add_sub_cancel' hle]
  have : 2 ^ 52 ≤ m * 2 ^ (52 - L) := by
    calc 2 ^ 52 = 2 ^ L * 2 ^ (52 - L) := by rw [← Nat.pow_add, Nat.add_sub_cancel' hle]
      _ ≤ m * 2 ^ (52 - L) := Nat.mul_le_mul_right _ hge
  omega

section Widen

variable {F : Format} {bits : Nat}

/-- A zero is widened to a zero. -/
theorem widen_zero (hmax : 0 < F.maxExponent) (he : F.exponent bits = 0)
    (hm : F.mantissa bits = 0) : widen F bits = double.pack (F.sign bits) 0 0 := by
  simp [widen, ofDyadic, significand, he, hm, hmax.ne]

/-- A subnormal is widened to a normal double: its leading bit becomes the hidden one. -/
theorem widen_subnormal (hmax : 0 < F.maxExponent) (hrange : F.bias + F.mantBits ≤ 1023)
    (he : F.exponent bits = 0) (hm : F.mantissa bits ≠ 0) :
    widen F bits = double.pack (F.sign bits)
      (1024 + Nat.log2 (F.mantissa bits) - (F.bias + F.mantBits))
      ((F.mantissa bits - 2 ^ Nat.log2 (F.mantissa bits))
        * 2 ^ (52 - Nat.log2 (F.mantissa bits))) := by
  have hexp : (1023 + (Nat.log2 (F.mantissa bits) : Int) + F.scale bits).toNat
      = 1024 + Nat.log2 (F.mantissa bits) - (F.bias + F.mantBits) := by
    unfold Format.scale
    rw [he]
    omega
  have hsig : F.significand bits = F.mantissa bits := by simp [significand, he]
  unfold widen ofDyadic
  rw [if_neg (by omega), hsig, if_neg hm, hexp]

/-- A normal number is widened with its exponent rebiased and its mantissa shifted. -/
theorem widen_normal (hrange : F.bias ≤ 1023) (he : F.exponent bits ≠ 0)
    (hfin : F.Finite bits) :
    widen F bits = double.pack (F.sign bits) (F.exponent bits + 1023 - F.bias)
      (F.mantissa bits * 2 ^ (52 - F.mantBits)) := by
  have hlt := F.mantissa_lt bits
  have hlog : Nat.log2 (2 ^ F.mantBits + F.mantissa bits) = F.mantBits := by
    rw [Nat.log2_eq_iff (by have := Nat.two_pow_pos F.mantBits; omega)]
    rw [Nat.pow_succ]
    omega
  have hexp : (1023 + (F.mantBits : Int) + F.scale bits).toNat
      = F.exponent bits + 1023 - F.bias := by
    unfold Format.scale
    omega
  have hsig : F.significand bits = 2 ^ F.mantBits + F.mantissa bits := by simp [significand, he]
  unfold widen ofDyadic
  rw [if_neg hfin, hsig, hlog, if_neg (by have := Nat.two_pow_pos F.mantBits; omega), hexp,
    Nat.add_sub_cancel_left]

end Widen

/-! ## Widening is exact -/

/-- The formats whose finite values are all zeros and normals among the doubles. -/
structure Widens (F : Format) : Prop where
  maxExponent_pos : 0 < F.maxExponent
  scale_range : F.bias + F.mantBits ≤ 1023
  mantBits_le : F.mantBits ≤ 52
  exponent_range : F.maxExponent ≤ 1024 + F.bias

/-- A half fits into a double. -/
theorem widens_half : Widens half := ⟨by decide, by decide, by decide, by decide⟩

/-- A single fits into a double. -/
theorem widens_single : Widens single := ⟨by decide, by decide, by decide, by decide⟩

/-- The exponent field of the double a finite pattern widens to. -/
def widenedExponent (F : Format) (bits : Nat) : Nat :=
  if F.exponent bits = 0 then
    if F.mantissa bits = 0 then 0
    else 1024 + Nat.log2 (F.mantissa bits) - (F.bias + F.mantBits)
  else F.exponent bits + 1023 - F.bias

/-- The mantissa field of the double a finite pattern widens to. -/
def widenedMantissa (F : Format) (bits : Nat) : Nat :=
  if F.exponent bits = 0 then
    (F.mantissa bits - 2 ^ Nat.log2 (F.mantissa bits)) * 2 ^ (52 - Nat.log2 (F.mantissa bits))
  else F.mantissa bits * 2 ^ (52 - F.mantBits)

section Exact

variable {F : Format} {bits : Nat}

/-- The leading bit of a mantissa is one of its bits. -/
theorem log2_mantissa_lt (hm : F.mantissa bits ≠ 0) : Nat.log2 (F.mantissa bits) < F.mantBits :=
  (Nat.log2_lt hm).mpr (F.mantissa_lt bits)

/-- A finite number is widened field by field. -/
theorem widen_eq_pack (hF : Widens F) (hfin : F.Finite bits) :
    widen F bits
      = double.pack (F.sign bits) (widenedExponent F bits) (widenedMantissa F bits) := by
  unfold widenedExponent widenedMantissa
  have hrange := hF.scale_range
  by_cases he : F.exponent bits = 0
  · by_cases hm : F.mantissa bits = 0
    · rw [widen_zero hF.maxExponent_pos he hm]
      simp [he, hm]
    · rw [widen_subnormal hF.maxExponent_pos hrange he hm]
      simp [he, hm]
  · rw [widen_normal (by omega) he hfin]
    simp [he]

/-- A finite number stays finite. -/
theorem widenedExponent_lt (hF : Widens F) (hfin : F.Finite bits) :
    widenedExponent F bits < double.maxExponent := by
  have hlt : F.exponent bits < F.maxExponent := by
    have hpow : F.exponent bits < 2 ^ F.expBits := Nat.mod_lt _ (Nat.two_pow_pos _)
    have hne : F.exponent bits ≠ F.maxExponent := hfin
    unfold maxExponent at *
    omega
  have hrange := hF.scale_range
  have hmant := hF.mantBits_le
  have hmax := hF.exponent_range
  rw [show double.maxExponent = 2047 from rfl]
  unfold widenedExponent
  split
  · split
    · omega
    · -- a subnormal loses at most the width of its mantissa from the exponent
      next hm =>
      have := log2_mantissa_lt hm
      omega
  · omega

/-- The widened mantissa has the bits of a double. -/
theorem widenedMantissa_lt (hF : Widens F) : widenedMantissa F bits < 2 ^ double.mantBits := by
  have hmant := hF.mantBits_le
  rw [show double.mantBits = 52 from rfl]
  unfold widenedMantissa
  split
  · by_cases hm : F.mantissa bits = 0
    · simp [hm]
    · have hlog := log2_mantissa_lt hm
      exact mantissa_lt_of_log2 rfl (by omega)
  · calc F.mantissa bits * 2 ^ (52 - F.mantBits)
        < 2 ^ F.mantBits * 2 ^ (52 - F.mantBits) :=
          Nat.mul_lt_mul_of_pos_right (F.mantissa_lt bits) (Nat.two_pow_pos _)
      _ = 2 ^ 52 := by rw [← Nat.pow_add, Nat.add_sub_cancel' hmant]

/-- Widening keeps the sign. -/
theorem sign_widen (hF : Widens F) (hfin : F.Finite bits) :
    double.sign (widen F bits) = F.sign bits := by
  rw [widen_eq_pack hF hfin]
  exact sign_pack (Nat.lt_of_lt_of_le (widenedExponent_lt hF hfin) (by decide))
    (widenedMantissa_lt hF)

/-- The exponent of a widened number. -/
theorem exponent_widen (hF : Widens F) (hfin : F.Finite bits) :
    double.exponent (widen F bits) = widenedExponent F bits := by
  rw [widen_eq_pack hF hfin]
  exact exponent_pack (Nat.lt_of_lt_of_le (widenedExponent_lt hF hfin) (by decide))
    (widenedMantissa_lt hF)

/-- The mantissa of a widened number. -/
theorem mantissa_widen (hF : Widens F) (hfin : F.Finite bits) :
    double.mantissa (widen F bits) = widenedMantissa F bits := by
  rw [widen_eq_pack hF hfin]
  exact mantissa_pack (widenedMantissa_lt hF)

/-- A finite pattern widens to a finite double. -/
theorem finite_widen (hF : Widens F) (hfin : F.Finite bits) : double.Finite (widen F bits) := by
  have hlt := widenedExponent_lt hF hfin
  rw [Format.Finite, exponent_widen hF hfin]
  omega

/-- A pattern of a format's own width widens to 64 bits. -/
theorem widen_lt (hF : Widens F) (hfin : F.Finite bits)
    (h : bits < 2 ^ (F.expBits + F.mantBits + 1)) : widen F bits < 2 ^ 64 := by
  have hsign : F.sign bits < 2 :=
    Nat.div_lt_of_lt_mul (by rwa [← Nat.pow_succ])
  have hexp := widenedExponent_lt hF hfin
  have hmant : widenedMantissa F bits < _ := widenedMantissa_lt hF
  rw [widen_eq_pack hF hfin, Format.pack, show double.expBits = 11 from rfl]
  rw [show double.maxExponent = 2047 from rfl] at hexp
  rw [show double.mantBits = 52 from rfl] at hmant ⊢
  omega

/-- A pattern that widens to 64 bits has one sign bit. -/
theorem lt_of_widen_lt (hF : Widens F) (hfin : F.Finite bits) (h : widen F bits < 2 ^ 64) :
    bits < 2 ^ (F.expBits + F.mantBits + 1) := by
  have hsign : F.sign bits < 2 := by
    rw [← sign_widen hF hfin]
    exact Nat.div_lt_of_lt_mul (by simpa [double] using h)
  rw [Nat.pow_succ, Nat.mul_comm]
  exact Nat.lt_mul_of_div_lt hsign (Nat.two_pow_pos _)

/-- Two finite patterns with the same double are the same pattern. -/
theorem widen_injective (hF : Widens F) {a b : Nat} (ha : F.Finite a) (hb : F.Finite b)
    (h : widen F a = widen F b) : a = b := by
  -- the three fields of the doubles are the same
  have hsign : F.sign a = F.sign b := by
    rw [← sign_widen hF ha, h, sign_widen hF hb]
  have hexp : widenedExponent F a = widenedExponent F b := by
    rw [← exponent_widen hF ha, h, exponent_widen hF hb]
  have hmant : widenedMantissa F a = widenedMantissa F b := by
    rw [← mantissa_widen hF ha, h, mantissa_widen hF hb]
  have hrange := hF.scale_range
  rw [← F.pack_fields a, ← F.pack_fields b, hsign]
  -- the exponent field of the double tells zeros, subnormals and normals apart
  unfold widenedExponent at hexp
  unfold widenedMantissa at hmant
  by_cases hea0 : F.exponent a = 0 <;> by_cases heb0 : F.exponent b = 0
  · -- neither is normal: a zero has exponent zero, a subnormal does not
    rw [hea0, heb0]
    simp only [hea0, heb0, if_true] at hexp hmant
    by_cases hma0 : F.mantissa a = 0 <;> by_cases hmb0 : F.mantissa b = 0
    · rw [hma0, hmb0]
    · simp only [hma0, hmb0, if_true, if_false] at hexp
      omega
    · simp only [hma0, hmb0, if_true, if_false] at hexp
      omega
    · -- two subnormals: equal exponents mean equal leading bits
      simp only [hma0, hmb0, if_false] at hexp
      have hlog : Nat.log2 (F.mantissa a) = Nat.log2 (F.mantissa b) := by omega
      have hlea := Nat.log2_self_le hma0
      have hleb := Nat.log2_self_le hmb0
      rw [hlog] at hmant hlea
      have := Nat.eq_of_mul_eq_mul_right (Nat.two_pow_pos _) hmant
      rw [show F.mantissa a = F.mantissa b by omega]
  -- a subnormal or a zero has a smaller exponent than a normal number
  · simp only [hea0, heb0, if_true, if_false] at hexp
    by_cases hma0 : F.mantissa a = 0
    · simp only [hma0, if_true] at hexp
      omega
    · have := log2_mantissa_lt hma0
      simp only [hma0, if_false] at hexp
      omega
  -- and the other way round
  · simp only [hea0, heb0, if_true, if_false] at hexp
    by_cases hmb0 : F.mantissa b = 0
    · simp only [hmb0, if_true] at hexp
      omega
    · have := log2_mantissa_lt hmb0
      simp only [hmb0, if_false] at hexp
      omega
  · -- two normals keep both fields up to the new bias and the wider mantissa
    simp only [hea0, heb0, if_false] at hexp hmant
    rw [show F.exponent a = F.exponent b by omega,
      Nat.eq_of_mul_eq_mul_right (Nat.two_pow_pos _) hmant]

/-- A pattern that widens to a finite double is finite. -/
theorem finite_of_finite_widen (h : double.Finite (widen F bits)) :
    F.Finite bits := by
  intro hmax
  apply h
  unfold widen
  rw [if_pos hmax]
  split
  · exact exponent_pack (by decide) (by decide)
  · exact exponent_pack (by decide) (by decide)

end Exact

/-! ## Rounding -/

/-- `n / 2^k`, rounded to nearest, ties to even. -/
def roundShift (n k : Nat) : Nat :=
  let q := n / 2 ^ k
  let r := n % 2 ^ k
  if 2 ^ k < 2 * r ∨ (2 * r = 2 ^ k ∧ q % 2 = 1) then q + 1 else q

/-- The conversion of a double to a shorter format, to nearest with ties to even. A carry out of
the mantissa raises the exponent, up to infinity; a double below the subnormal range rounds to a
signed zero. -/
def narrow (F : Format) (x : Nat) : Nat :=
  let s := double.sign x
  let e := double.exponent x
  let m := double.mantissa x
  -- the exponent of the double just below the normal range of the format
  let low := 1023 - F.bias
  let shift := 52 - F.mantBits
  let signed := s * 2 ^ (F.expBits + F.mantBits)
  if e = 2047 then
    if m = 0 then F.pack s F.maxExponent 0 else F.pack s F.maxExponent (2 ^ (F.mantBits - 1))
  else if low + F.maxExponent ≤ e then F.pack s F.maxExponent 0
  else if low + 1 ≤ e then signed + roundShift ((e - low) * 2 ^ 52 + m) shift
  else if e = 0 then signed
  else signed + roundShift (2 ^ 52 + m) (shift + low + 1 - e)

/-- An exact shift does not round. -/
theorem roundShift_mul (n k : Nat) : roundShift (n * 2 ^ k) k = n := by
  have hpos := Nat.two_pow_pos k
  simp only [roundShift, Nat.mul_div_cancel _ hpos, Nat.mul_mod_left]
  rw [if_neg (by omega)]

/-- Rounding a widened finite pattern gives the pattern back. -/
theorem narrow_widen {F : Format} (hF : Widens F) {bits : Nat}
    (hfin : F.Finite bits) : narrow F (widen F bits) = bits := by
  have hbits := F.pack_fields bits
  have hmant := F.mantissa_lt bits
  have hexp : F.exponent bits < F.maxExponent := by
    have hlt : F.exponent bits < 2 ^ F.expBits := Nat.mod_lt _ (Nat.two_pow_pos _)
    have hne : F.exponent bits ≠ F.maxExponent := hfin
    unfold maxExponent at *
    omega
  have hrange := hF.scale_range
  have hmax := hF.exponent_range
  have hle := hF.mantBits_le
  simp only [narrow, sign_widen hF hfin, exponent_widen hF hfin,
    mantissa_widen hF hfin, widenedExponent, widenedMantissa]
  have hpow : ∀ a b c : Nat, a + b = c → 2 ^ a * 2 ^ b = (2 : Nat) ^ c := by
    rintro a b c rfl
    exact (Nat.pow_add 2 a b).symm
  -- from here on the fields are numbers
  simp only [Format.pack] at hbits ⊢
  generalize F.sign bits = s at *
  generalize F.exponent bits = e at *
  generalize F.mantissa bits = m at *
  subst hbits
  by_cases he : e = 0
  · by_cases hm : m = 0
    · -- a signed zero
      simp only [he, hm, if_true]
      rw [if_neg (by omega), if_neg (by omega), if_neg (by omega)]
      omega
    · -- a subnormal: the leading bit of the mantissa is the implicit bit of the double
      have hL := (Nat.log2_lt hm).mpr hmant
      have hfull := implicit_bit_add rfl hm (by omega)
      simp only [he, hm, if_true, if_false]
      rw [if_neg (by omega), if_neg (by omega), if_neg (by omega), if_neg (by omega), hfull,
        show 52 - F.mantBits + (1023 - F.bias) + 1 - (1024 + Nat.log2 m - (F.bias + F.mantBits))
          = 52 - Nat.log2 m from by omega, roundShift_mul]
      omega
  · -- a normal: the exponent is rebiased and the mantissa shifted
    simp only [he, if_false]
    rw [if_neg (by omega), if_neg (by omega), if_pos (by omega),
      show e + 1023 - F.bias - (1023 - F.bias) = e by omega,
      show e * 2 ^ 52 + m * 2 ^ (52 - F.mantBits)
        = (e * 2 ^ F.mantBits + m) * 2 ^ (52 - F.mantBits) from by
          rw [Nat.add_mul, Nat.mul_assoc, hpow _ _ 52 (by omega)],
      roundShift_mul]
    omega

/-- The conversion of a double to a single. A carry out of the mantissa raises the exponent, up
to infinity; a double below the subnormal range rounds to a signed zero. -/
def narrowSingle (x : Nat) : Nat :=
  let s := double.sign x
  let e := double.exponent x
  let m := double.mantissa x
  if e = 2047 then
    if m = 0 then single.pack s 255 0 else single.pack s 255 (2 ^ 22)
  else if 1151 ≤ e then single.pack s 255 0
  else if 897 ≤ e then s * 2 ^ 31 + roundShift ((e - 896) * 2 ^ 52 + m) 29
  else if e = 0 then s * 2 ^ 31
  else s * 2 ^ 31 + roundShift (2 ^ 52 + m) (926 - e)

/-- The source's cast to a single is the narrowing to that format. -/
theorem narrowSingle_eq_narrow (x : Nat) : narrowSingle x = narrow single x := rfl

/-- Rounding a widened finite single gives the single back. -/
theorem narrowSingle_widen {bits : Nat} (hfin : single.Finite bits) :
    narrowSingle (widen single bits) = bits := by
  rw [narrowSingle_eq_narrow, narrow_widen widens_single hfin]

end BinaryFloat
