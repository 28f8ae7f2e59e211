import Mathlib.Data.List.Basic

/-!
# Decimal numerals

The digits that `Nat.toDigits 10` writes, read back. `padded` numerals have zeros in front, and a
numeral that is followed by something other than a digit can be cut off again.
-/

namespace Decimal

/-- The value of a digit. -/
def digit (c : Char) : Nat := c.toNat - '0'.toNat

/-- The value of a numeral. -/
def value (numeral : List Char) : Nat := numeral.foldl (fun n c => 10 * n + digit c) 0

theorem digit_digitChar {n : Nat} (h : n < 10) : digit n.digitChar = n := by
  have hall : ∀ k < 10, digit (Nat.digitChar k) = k := by decide
  exact hall n h

theorem digitChar_ne_zero {n : Nat} (hpos : 0 < n) (h : n < 10) : n.digitChar ≠ '0' := by
  have hall : ∀ k < 10, 0 < k → Nat.digitChar k ≠ '0' := by decide
  exact hall n h hpos

theorem value_concat (numeral : List Char) (c : Char) :
    value (numeral ++ [c]) = 10 * value numeral + digit c := by
  simp [value]

/-- A number is the value of its numeral. -/
theorem value_toDigits (n : Nat) : value (Nat.toDigits 10 n) = n := by
  induction n using Nat.strongRecOn with
  | ind n ih =>
    rw [Nat.toDigits_eq_if (by decide)]
    split_ifs with hlt
    · simp [value, digit_digitChar hlt]
    · rw [value_concat, ih (n / 10) (by omega), digit_digitChar (Nat.mod_lt n (by decide))]
      omega

/-- Only zero has a leading zero. -/
theorem head?_toDigits {n : Nat} (hpos : 0 < n) : (Nat.toDigits 10 n).head? ≠ some '0' := by
  induction n using Nat.strongRecOn with
  | ind n ih =>
    rw [Nat.toDigits_eq_if (by decide)]
    split_ifs with hlt
    · simpa using digitChar_ne_zero hpos hlt
    · rw [List.head?_append_of_ne_nil _ Nat.toDigits_ne_nil]
      exact ih (n / 10) (by omega) (by omega)

theorem isDigit_of_mem {n : Nat} {c : Char} (h : c ∈ Nat.toDigits 10 n) : c.isDigit :=
  Nat.isDigit_of_mem_toDigits (by decide) (by decide) h

/-! ## Padding -/

/-- The numeral with zeros in front, up to the given width. -/
def padded (width n : Nat) : List Char :=
  List.replicate (width - (Nat.toDigits 10 n).length) '0' ++ Nat.toDigits 10 n

theorem isDigit_of_mem_padded {width n : Nat} {c : Char} (h : c ∈ padded width n) : c.isDigit := by
  rcases List.mem_append.mp h with hzero | hdigit
  · rw [List.eq_of_mem_replicate hzero]
    decide
  · exact isDigit_of_mem hdigit

theorem value_padded (width n : Nat) : value (padded width n) = n := by
  have hzeros : ∀ k, (List.replicate k '0').foldl (fun n c => 10 * n + digit c) 0 = 0 := by
    intro k
    induction k with
    | zero => rfl
    | succ k ih =>
      rw [List.replicate_succ', List.foldl_concat, ih]
      rfl
  rw [value, padded, List.foldl_append, hzeros]
  exact value_toDigits n

/-! ## Cutting a numeral off -/

/-- Two texts that start with numerals, each ended by something else, start with the same one. -/
theorem append_inj {xs ys rest rest' : List Char} {c d : Char} (hxs : ∀ x ∈ xs, x.isDigit)
    (hys : ∀ y ∈ ys, y.isDigit) (hc : c.isDigit = false) (hd : d.isDigit = false)
    (h : xs ++ c :: rest = ys ++ d :: rest') : xs = ys ∧ c :: rest = d :: rest' := by
  induction xs generalizing ys with
  | nil =>
    cases ys with
    | nil => exact ⟨rfl, h⟩
    | cons y ys =>
      obtain ⟨rfl, -⟩ := List.cons.inj h
      rw [hys c List.mem_cons_self] at hc
      cases hc
  | cons x xs ih =>
    cases ys with
    | nil =>
      obtain ⟨rfl, -⟩ := List.cons.inj h
      rw [hxs x List.mem_cons_self] at hd
      cases hd
    | cons y ys =>
      obtain ⟨rfl, hrest⟩ := List.cons.inj h
      obtain ⟨rfl, heq⟩ := ih (fun z hz => hxs z (List.mem_cons_of_mem _ hz))
        (fun z hz => hys z (List.mem_cons_of_mem _ hz)) hrest
      exact ⟨rfl, heq⟩

end Decimal
