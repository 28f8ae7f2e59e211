import TrackOne.Lib.BinaryFloat
import Mathlib.Algebra.Order.Field.Power
import Mathlib.Data.Rat.Cast.Order
import Mathlib.Tactic.NormNum
import Mathlib.Tactic.Ring

/-!
# The exact value of a bit pattern

A finite pattern denotes the rational number `(-1)^sign * significand * 2^scale`. The magnitudes of
the patterns of one format are in the order of their exponent and mantissa fields, so a finite
pattern is determined by its sign and its value, and widening to double keeps both: two patterns of
different widths denote the same signed number exactly when one widens to the other.
-/

namespace BinaryFloat

namespace Format

variable (F : Format)

/-- The absolute value of a finite pattern. -/
def magnitude (bits : Nat) : ℚ := F.significand bits * 2 ^ F.scale bits

/-- The value of a finite pattern. -/
def value (bits : Nat) : ℚ := (-1) ^ F.sign bits * F.magnitude bits

variable {F} {a b bits : Nat}

theorem significand_lt (bits : Nat) : F.significand bits < 2 * 2 ^ F.mantBits := by
  have hmant := F.mantissa_lt bits
  unfold significand
  split <;> omega

theorem significand_of_exponent_pos (h : 0 < F.exponent bits) :
    F.significand bits = 2 ^ F.mantBits + F.mantissa bits := by
  rw [significand, if_neg (by omega)]

/-- A pattern with a larger exponent field has a larger magnitude: the bound between the two is the
power of two its implicit bit stands for. -/
theorem magnitude_lt_of_exponent_lt (h : F.exponent a < F.exponent b) :
    F.magnitude a < F.magnitude b := by
  have hpow : (0 : ℚ) < 2 ^ F.scale a := zpow_pos (by norm_num) _
  have hscale : F.scale b
    = F.scale a + (max 1 (F.exponent b : Int) - max 1 (F.exponent a : Int)) := by
    unfold scale
    omega
  have hb : (2 ^ F.mantBits : ℚ) * 2 ^ F.scale b ≤ F.magnitude b := by
    rw [magnitude, significand_of_exponent_pos (by omega)]
    refine mul_le_mul_of_nonneg_right ?_ (zpow_nonneg (by norm_num) _)
    push_cast
    simp
  refine lt_of_lt_of_le ?_ hb
  by_cases ha : F.exponent a = 0
  · -- no implicit bit on the left, and the scales are in order
    have hsig : F.significand a < 2 ^ F.mantBits := by
      rw [significand, if_pos ha]
      exact F.mantissa_lt a
    calc F.magnitude a < 2 ^ F.mantBits * 2 ^ F.scale a := by
          refine mul_lt_mul_of_pos_right ?_ hpow
          exact_mod_cast hsig
      _ ≤ 2 ^ F.mantBits * 2 ^ F.scale b := by
          refine mul_le_mul_of_nonneg_left ?_ (pow_nonneg (by norm_num) _)
          exact zpow_le_zpow_right₀ (by norm_num) (by omega)
  · -- the scale is one larger at least
    calc F.magnitude a < (2 * 2 ^ F.mantBits) * 2 ^ F.scale a := by
          refine mul_lt_mul_of_pos_right ?_ hpow
          exact_mod_cast significand_lt a
      _ = 2 ^ F.mantBits * 2 ^ (F.scale a + 1) := by
          rw [zpow_add_one₀ (by norm_num)]
          ring
      _ ≤ 2 ^ F.mantBits * 2 ^ F.scale b := by
          refine mul_le_mul_of_nonneg_left ?_ (pow_nonneg (by norm_num) _)
          exact zpow_le_zpow_right₀ (by norm_num) (by omega)

theorem exponent_eq_of_magnitude_eq (h : F.magnitude a = F.magnitude b) :
    F.exponent a = F.exponent b := by
  rcases Nat.lt_trichotomy (F.exponent a) (F.exponent b) with hlt | heq | hlt
  · exact absurd h (magnitude_lt_of_exponent_lt hlt).ne
  · exact heq
  · exact absurd h (magnitude_lt_of_exponent_lt hlt).ne'

theorem mantissa_eq_of_magnitude_eq (h : F.magnitude a = F.magnitude b) :
    F.mantissa a = F.mantissa b := by
  have hexp := exponent_eq_of_magnitude_eq h
  have hscale : F.scale a = F.scale b := by rw [scale, scale, hexp]
  have hpow : (2 : ℚ) ^ F.scale b ≠ 0 := (zpow_pos (by norm_num) _).ne'
  rw [magnitude, magnitude, hscale] at h
  have hsig : F.significand a = F.significand b := by
    exact_mod_cast mul_right_cancel₀ hpow h
  simp only [significand, hexp] at hsig
  split at hsig
  · exact hsig
  · omega

/-- A pattern is determined by its sign and its magnitude. -/
theorem eq_of_magnitude_eq (hsign : F.sign a = F.sign b) (h : F.magnitude a = F.magnitude b) :
    a = b := by
  rw [← F.pack_fields a, ← F.pack_fields b, hsign, exponent_eq_of_magnitude_eq h,
    mantissa_eq_of_magnitude_eq h]

theorem magnitude_nonneg (bits : Nat) : 0 ≤ F.magnitude bits :=
  mul_nonneg (Nat.cast_nonneg _) (zpow_nonneg (by norm_num) _)

theorem abs_value (bits : Nat) : |F.value bits| = F.magnitude bits := by
  rw [value, abs_mul, abs_pow, abs_neg, abs_one, one_pow, one_mul,
    abs_of_nonneg (magnitude_nonneg bits)]

theorem eq_of_value_eq (hsign : F.sign a = F.sign b) (h : F.value a = F.value b) : a = b := by
  refine eq_of_magnitude_eq hsign ?_
  rw [← abs_value, h, abs_value]

theorem magnitude_eq_zero :
    F.magnitude bits = 0 ↔ F.exponent bits = 0 ∧ F.mantissa bits = 0 := by
  have hpow : (2 : ℚ) ^ F.scale bits ≠ 0 := (zpow_pos (by norm_num) _).ne'
  have hbit := Nat.two_pow_pos F.mantBits
  rw [magnitude, mul_eq_zero, or_iff_left hpow, Nat.cast_eq_zero, significand]
  split
  · simp [*]
  · simp only [*, false_and, iff_false]
    omega

end Format

open Format

/-! ## Values across formats -/

/-- Two one-bit signs that give a number other than zero the same value are the same. -/
theorem sign_eq_of_value_eq {s t : Nat} (hs : s < 2) (ht : t < 2) {x : ℚ} (hx : x ≠ 0)
    (h : (-1) ^ s * x = (-1) ^ t * x) : s = t := by
  have hpow : (-1 : ℚ) ^ s = (-1) ^ t := mul_right_cancel₀ hx h
  obtain rfl | rfl : s = 0 ∨ s = 1 := by omega
  · obtain rfl | rfl : t = 0 ∨ t = 1 := by omega
    · rfl
    · norm_num at hpow
  · obtain rfl | rfl : t = 0 ∨ t = 1 := by omega
    · norm_num at hpow
    · rfl

section Widen

variable {F : Format} {bits : Nat}

/-- The significand of a widened pattern, scaled back by the bits the double has to spare. -/
theorem magnitude_widen (hF : Widens F) (hfin : F.Finite bits) :
    double.magnitude (widen F bits) = F.magnitude bits := by
  have hrange := hF.scale_range
  have hmant := hF.mantBits_le
  -- both sides as an integer times a power of two, the integers a power of two apart
  have hshift : ∀ (n k : Nat) (e e' : Int), e + k = e' →
      ((n * 2 ^ k : Nat) : ℚ) * 2 ^ e = n * 2 ^ e' := by
    rintro n k e _ rfl
    rw [zpow_add₀ (by norm_num), zpow_natCast]
    push_cast
    ring
  simp only [magnitude, significand, scale, exponent_widen hF hfin, mantissa_widen hF hfin,
    widenedExponent, widenedMantissa, show double.bias = 1023 from rfl,
    show double.mantBits = 52 from rfl]
  by_cases he : F.exponent bits = 0
  · by_cases hm : F.mantissa bits = 0
    · simp [he, hm]
    · have hlog := log2_mantissa_lt hm
      simp only [he, hm, if_true, if_false]
      rw [if_neg (by omega), implicit_bit_add rfl hm (by omega)]
      exact hshift _ _ _ _ (by omega)
  · simp only [he, if_false]
    rw [if_neg (by omega), show 2 ^ 52 + F.mantissa bits * 2 ^ (52 - F.mantBits)
      = (2 ^ F.mantBits + F.mantissa bits) * 2 ^ (52 - F.mantBits) by
        rw [Nat.add_mul, ← Nat.pow_add, Nat.add_sub_cancel' hmant]]
    exact hshift _ _ _ _ (by omega)

theorem value_widen (hF : Widens F) (hfin : F.Finite bits) :
    double.value (widen F bits) = F.value bits := by
  rw [Format.value, Format.value, sign_widen hF hfin, magnitude_widen hF hfin]

/-- A finite pattern widens to a double exactly when the two denote the same signed number. -/
theorem widen_eq_iff (hF : Widens F) (hfin : F.Finite bits) {x : Nat} :
    widen F bits = x ↔ F.sign bits = double.sign x ∧ F.value bits = double.value x := by
  constructor
  · rintro rfl
    exact ⟨(sign_widen hF hfin).symm, (value_widen hF hfin).symm⟩
  · rintro ⟨hsign, hvalue⟩
    exact eq_of_value_eq (by rw [sign_widen hF hfin, hsign]) (by rw [value_widen hF hfin, hvalue])

end Widen

end BinaryFloat
