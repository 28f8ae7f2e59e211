import Mathlib.Algebra.Order.Field.Rat
import Mathlib.Tactic.FieldSimp
import Mathlib.Tactic.Linarith
import Mathlib.Tactic.Positivity
import Mathlib.Tactic.Ring

/-!
# Decimal fractions

Digits behind the point, of any number. `fraction` is the rational number they denote, and
`lexExceeds` compares two of them digit by digit, with zeros behind the shorter one;
`lexExceeds_iff` is that it compares the numbers.
-/

namespace DecimalFraction

/-- The number the digits would denote before the point. -/
def natValue (digits : List Nat) : Nat := digits.foldl (fun n d => 10 * n + d) 0

/-- The number `0.d₁d₂…dₙ`. -/
def fraction (digits : List Nat) : ℚ := natValue digits / 10 ^ digits.length

/-- The first digit at which they differ is larger in the first. -/
def lexExceeds : List Nat → List Nat → Bool
  | [], _ => false
  | a :: as, [] => decide (0 < a) || lexExceeds as []
  | a :: as, b :: bs => decide (b < a) || (decide (a = b) && lexExceeds as bs)

theorem foldl_natValue (start : Nat) (digits : List Nat) :
    digits.foldl (fun n d => 10 * n + d) start = start * 10 ^ digits.length + natValue digits := by
  induction digits using List.reverseRecOn with
  | nil => simp [natValue]
  | append_singleton digits d ih =>
    have hlast : natValue (digits ++ [d]) = 10 * natValue digits + d := by
      rw [natValue, List.foldl_concat, natValue]
    rw [List.foldl_concat, ih, hlast, List.length_append, List.length_singleton, pow_succ]
    ring

@[simp] theorem fraction_nil : fraction [] = 0 := by simp [fraction, natValue]

/-- The first digit counts for tenths, and the others for what is left. -/
theorem fraction_cons (d : Nat) (digits : List Nat) :
    fraction (d :: digits) = (d + fraction digits) / 10 := by
  have hvalue : natValue (d :: digits) = d * 10 ^ digits.length + natValue digits := by
    have := foldl_natValue d digits
    simpa [natValue] using this
  have hpow : (10 : ℚ) ^ digits.length ≠ 0 := by positivity
  rw [fraction, fraction, hvalue, List.length_cons, pow_succ]
  push_cast
  field_simp

theorem fraction_nonneg (digits : List Nat) : 0 ≤ fraction digits := by
  unfold fraction
  positivity

theorem fraction_lt_one {digits : List Nat} (h : ∀ d ∈ digits, d < 10) : fraction digits < 1 := by
  induction digits with
  | nil => simp
  | cons d digits ih =>
    rw [List.forall_mem_cons] at h
    have hd : (d : ℚ) ≤ 9 := by exact_mod_cast Nat.le_of_lt_succ h.1
    have hrest := ih h.2
    rw [fraction_cons]
    linarith

theorem natValue_lt {digits : List Nat} (h : ∀ d ∈ digits, d < 10) :
    natValue digits < 10 ^ digits.length := by
  have hlt := fraction_lt_one h
  rw [fraction, div_lt_one (by positivity)] at hlt
  exact_mod_cast hlt

/-- A digit other than zero makes the fraction positive. -/
theorem fraction_pos {digits : List Nat} {d : Nat} (hmem : d ∈ digits) (hd : 0 < d) :
    0 < fraction digits := by
  induction digits with
  | nil => exact absurd hmem List.not_mem_nil
  | cons e digits ih =>
    rw [fraction_cons]
    rcases List.mem_cons.mp hmem with rfl | hrest
    · have : (0 : ℚ) < d := by exact_mod_cast hd
      have := fraction_nonneg digits
      linarith
    · have := ih hrest
      have : (0 : ℚ) ≤ e := by positivity
      linarith

/-- Comparing digit by digit compares the numbers. -/
theorem lexExceeds_iff {as bs : List Nat} (ha : ∀ d ∈ as, d < 10) (hb : ∀ d ∈ bs, d < 10) :
    lexExceeds as bs = true ↔ fraction bs < fraction as := by
  induction as generalizing bs with
  | nil =>
    have := fraction_nonneg bs
    simp only [lexExceeds, Bool.false_eq_true, fraction_nil, false_iff, not_lt]
    exact this
  | cons a as ih =>
    rw [List.forall_mem_cons] at ha
    cases bs with
    | nil =>
      -- nothing is left of the other number: any digit that is not zero exceeds it
      have hrest := ih ha.2 hb
      have hnonneg := fraction_nonneg as
      have ha' : (0 : ℚ) ≤ a := by positivity
      rw [lexExceeds, Bool.or_eq_true, decide_eq_true_eq, hrest, fraction_nil, fraction_cons]
      constructor
      · rintro (hpos | hpos)
        · have : (0 : ℚ) < a := by exact_mod_cast hpos
          linarith
        · linarith
      · intro hpos
        rcases Nat.eq_zero_or_pos a with rfl | hapos
        · refine .inr ?_
          push_cast at hpos
          linarith
        · exact .inl hapos
    | cons b bs =>
      rw [List.forall_mem_cons] at hb
      have hrest := ih ha.2 hb.2
      have hlow := fraction_nonneg as
      have hlow' := fraction_nonneg bs
      have hhigh := fraction_lt_one ha.2
      have hhigh' := fraction_lt_one hb.2
      rw [lexExceeds, Bool.or_eq_true, Bool.and_eq_true, decide_eq_true_eq,
        decide_eq_true_eq, hrest, fraction_cons, fraction_cons]
      rcases Nat.lt_trichotomy a b with hlt | rfl | hgt
      · -- a smaller digit cannot be made up for
        have : (a : ℚ) + 1 ≤ b := by exact_mod_cast hlt
        refine iff_of_false ?_ (by linarith)
        omega
      -- the same digit: the rest decides
      · constructor
        · rintro (hself | ⟨-, hless⟩)
          · omega
          · linarith
        · intro hless
          exact .inr ⟨rfl, by linarith⟩
      -- a greater digit cannot be caught up
      · have : (b : ℚ) + 1 ≤ a := by exact_mod_cast hgt
        exact iff_of_true (.inl hgt) (by linarith)

end DecimalFraction
