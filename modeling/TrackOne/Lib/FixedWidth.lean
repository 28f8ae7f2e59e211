import TrackOne.Lib.Decimal
import TrackOne.Lib.Words
import Mathlib.Data.List.Induction
import Mathlib.Tactic.Ring

/-!
# Numerals of a fixed width

Numerals of one width are ordered as their values are (`value_lt_iff`), so each is the padded
numeral of its value, and texts that are made of them field by field are ordered field by field.
`field` is the numeral as bytes. -/

namespace Decimal

theorem foldl_value (start : Nat) (numeral : List Char) :
    numeral.foldl (fun n c => 10 * n + digit c) start
      = start * 10 ^ numeral.length + value numeral := by
  induction numeral using List.reverseRecOn with
  | nil => simp [value]
  | append_singleton numeral c ih =>
    rw [List.foldl_concat, ih, value_concat, List.length_append, List.length_singleton,
      Nat.pow_succ]
    ring

theorem value_cons (c : Char) (numeral : List Char) :
    value (c :: numeral) = digit c * 10 ^ numeral.length + value numeral := by
  rw [value, List.foldl_cons, foldl_value, Nat.mul_zero, Nat.zero_add]

/-- The digits are the characters from 48 to 57. -/
theorem toNat_of_isDigit {c : Char} (h : c.isDigit) : c.toNat = digit c + 48 ∧ digit c < 10 := by
  have hzero : '0'.toNat = 48 := rfl
  simp only [Char.isDigit, Bool.and_eq_true, decide_eq_true_eq, UInt32.le_iff_toNat_le] at h
  obtain ⟨hlow, hhigh⟩ := h
  have hvalue : c.val.toNat = c.toNat := rfl
  have hlow : 48 ≤ c.toNat := hlow
  have hhigh : c.toNat ≤ 57 := hhigh
  rw [digit, hzero]
  omega

theorem value_lt {numeral : List Char} (h : ∀ c ∈ numeral, c.isDigit) :
    value numeral < 10 ^ numeral.length := by
  induction numeral with
  | nil => decide
  | cons c numeral ih =>
    obtain ⟨hc, hnumeral⟩ := List.forall_mem_cons.mp h
    have hdigit := (toNat_of_isDigit hc).2
    have hlow := ih hnumeral
    rw [value_cons, List.length_cons, Nat.pow_succ]
    calc digit c * 10 ^ numeral.length + value numeral
        < digit c * 10 ^ numeral.length + 10 ^ numeral.length := Nat.add_lt_add_left hlow _
      _ = (digit c + 1) * 10 ^ numeral.length := by rw [Nat.succ_mul]
      _ ≤ 10 * 10 ^ numeral.length := Nat.mul_le_mul_right _ hdigit
      _ = 10 ^ numeral.length * 10 := Nat.mul_comm _ _

theorem digit_lt_iff {c d : Char} (hc : c.isDigit) (hd : d.isDigit) :
    digit c < digit d ↔ c < d := by
  rw [Char.lt_def, UInt32.lt_iff_toNat_lt]
  have hc := (toNat_of_isDigit hc).1
  have hd := (toNat_of_isDigit hd).1
  show _ ↔ c.toNat < d.toNat
  omega

theorem digit_inj {c d : Char} (hc : c.isDigit) (hd : d.isDigit) (h : digit c = digit d) :
    c = d := by
  have hc := (toNat_of_isDigit hc).1
  have hd := (toNat_of_isDigit hd).1
  exact Char.toNat_inj.mp (by omega)

/-- Numerals of one width are ordered as their values are. -/
theorem value_lt_iff {xs ys : List Char} (hxs : ∀ c ∈ xs, c.isDigit) (hys : ∀ c ∈ ys, c.isDigit)
    (hlength : xs.length = ys.length) : value xs < value ys ↔ xs < ys := by
  induction xs generalizing ys with
  | nil =>
    rw [List.eq_nil_of_length_eq_zero hlength.symm]
    simp [value]
  | cons x xs ih =>
    cases ys with
    | nil => cases hlength
    | cons y ys =>
      obtain ⟨hx, hxs⟩ := List.forall_mem_cons.mp hxs
      obtain ⟨hy, hys⟩ := List.forall_mem_cons.mp hys
      rw [List.length_cons, List.length_cons, Nat.add_right_cancel_iff] at hlength
      have hlow := value_lt hxs
      have hlow' := value_lt hys
      rw [List.cons_lt_cons_iff, value_cons, value_cons, ← ih hxs hys hlength, ← digit_lt_iff hx hy,
        hlength]
      rw [hlength] at hlow
      rcases Nat.lt_trichotomy (digit x) (digit y) with hlt | heq | hgt
      · have := Nat.mul_le_mul_right (10 ^ ys.length) (Nat.succ_le_of_lt hlt)
        rw [Nat.succ_mul] at this
        exact iff_of_true (by omega) (.inl hlt)
      · rw [heq, digit_inj hx hy heq]
        simp
      · have := Nat.mul_le_mul_right (10 ^ ys.length) (Nat.succ_le_of_lt hgt)
        rw [Nat.succ_mul] at this
        refine iff_of_false (by omega) ?_
        rintro (hlt | ⟨rfl, -⟩)
        · omega
        · omega

theorem value_inj {xs ys : List Char} (hxs : ∀ c ∈ xs, c.isDigit) (hys : ∀ c ∈ ys, c.isDigit)
    (hlength : xs.length = ys.length) (h : value xs = value ys) : xs = ys := by
  have hlt := value_lt_iff hxs hys hlength
  have hgt := value_lt_iff hys hxs hlength.symm
  rw [h] at hlt hgt
  exact List.le_antisymm (List.not_lt.mp (hgt.not.mp (Nat.lt_irrefl _)))
    (List.not_lt.mp (hlt.not.mp (Nat.lt_irrefl _)))

/-! ## Padded numerals -/

theorem length_padded {width n : Nat} (hwidth : 0 < width) (h : n < 10 ^ width) :
    (padded width n).length = width := by
  have hle := (Nat.length_toDigits_le_iff (by decide) hwidth).mpr h
  rw [padded, List.length_append, List.length_replicate]
  omega

/-- A numeral is the padded numeral of its value. -/
theorem padded_value {numeral : List Char} (hne : 0 < numeral.length)
    (h : ∀ c ∈ numeral, c.isDigit) :
    padded numeral.length (value numeral) = numeral :=
  value_inj (fun _ hc => isDigit_of_mem_padded hc) h (length_padded hne (value_lt h))
    (value_padded _ _)

theorem padded_lt {width n m : Nat} (hwidth : 0 < width) (hm : m < 10 ^ width) (h : n < m) :
    padded width n < padded width m := by
  rw [← value_lt_iff (fun _ hc => isDigit_of_mem_padded hc) (fun _ hc => isDigit_of_mem_padded hc),
    value_padded, value_padded]
  · exact h
  · rw [length_padded hwidth hm, length_padded hwidth (Nat.lt_trans h hm)]

/-! ## Order of texts -/

theorem append_lt_append {xs ys : List Char} (rest rest' : List Char)
    (hlength : xs.length = ys.length)
    (h : xs < ys) : xs ++ rest < ys ++ rest' := by
  induction xs generalizing ys with
  | nil =>
    rw [List.eq_nil_of_length_eq_zero hlength.symm] at h
    exact absurd h (List.lt_irrefl _)
  | cons x xs ih =>
    cases ys with
    | nil => cases hlength
    | cons y ys =>
      rw [List.length_cons, List.length_cons, Nat.add_right_cancel_iff] at hlength
      rw [List.cons_append, List.cons_append]
      rcases List.cons_lt_cons_iff.mp h with hlt | ⟨rfl, hlt⟩
      · exact List.cons_lt_cons_iff.mpr (.inl hlt)
      · exact List.cons_lt_cons_iff.mpr (.inr ⟨rfl, ih hlength hlt⟩)

theorem append_lt_append_left (xs : List Char) {rest rest' : List Char} (h : rest < rest') :
    xs ++ rest < xs ++ rest' := by
  induction xs with
  | nil => exact h
  | cons x xs ih => exact List.cons_lt_cons_iff.mpr (.inr ⟨rfl, ih⟩)

/-! ## Numerals as bytes -/

/-- A text whose characters are bytes, as bytes. -/
def asciiBytes (text : List Char) : Bytes := text.map fun c => UInt8.ofNat c.toNat

theorem asciiBytes_append (text more : List Char) :
    asciiBytes (text ++ more) = asciiBytes text ++ asciiBytes more := List.map_append

theorem utf8Bytes_ascii {text : List Char} (h : ∀ c ∈ text, c.toNat < 128) :
    utf8Bytes (String.ofList text) = asciiBytes text := by
  rw [utf8Bytes_ofList, asciiBytes]
  induction text with
  | nil => rfl
  | cons c text ih =>
    obtain ⟨hc, htext⟩ := List.forall_mem_cons.mp h
    have hsmall : c.val ≤ 127 := by
      rw [UInt32.le_iff_toNat_le]
      show c.toNat ≤ 127
      omega
    have hsize : c.utf8Size = 1 := if_pos hsmall
    rw [List.flatMap_cons, List.map_cons, ih htext, String.utf8EncodeChar_eq_singleton hsize]
    rfl

def isAsciiDigit (byte : UInt8) : Bool := 48 ≤ byte && byte ≤ 57

theorem isAsciiDigit_iff (byte : UInt8) :
    isAsciiDigit byte = true ↔ 48 ≤ byte.toNat ∧ byte.toNat ≤ 57 := by
  rw [isAsciiDigit, Bool.and_eq_true, decide_eq_true_eq, decide_eq_true_eq, UInt8.le_iff_toNat_le,
    UInt8.le_iff_toNat_le]
  rfl

theorem asciiBytes_digits {numeral : List Char} (h : ∀ c ∈ numeral, c.isDigit) :
    (asciiBytes numeral).all isAsciiDigit = true := by
  rw [asciiBytes, List.all_map, List.all_eq_true]
  intro c hc
  obtain ⟨hvalue, hlt⟩ := toNat_of_isDigit (h c hc)
  rw [Function.comp_apply, isAsciiDigit_iff, UInt8.toNat_ofNat']
  omega

/-- Digits are the bytes of a numeral. -/
theorem exists_numeral {bytes : Bytes} (h : bytes.all isAsciiDigit = true) :
    ∃ numeral, bytes = asciiBytes numeral ∧ ∀ c ∈ numeral, c.isDigit := by
  induction bytes with
  | nil => exact ⟨[], rfl, by simp⟩
  | cons byte bytes ih =>
    rw [List.all_cons, Bool.and_eq_true] at h
    obtain ⟨numeral, rfl, hnumeral⟩ := ih h.2
    have hall : ∀ k < 58, 48 ≤ k → (Char.ofNat k).isDigit = true ∧ (Char.ofNat k).toNat = k := by
      decide
    obtain ⟨hlow, hhigh⟩ := (isAsciiDigit_iff byte).mp h.1
    obtain ⟨hdigit, hvalue⟩ := hall byte.toNat (by omega) hlow
    refine ⟨Char.ofNat byte.toNat :: numeral, ?_, List.forall_mem_cons.mpr ⟨hdigit, hnumeral⟩⟩
    show byte :: asciiBytes numeral = UInt8.ofNat (Char.ofNat byte.toNat).toNat
      :: asciiBytes numeral
    rw [hvalue, UInt8.ofNat_toNat]

/-- The numeral of a number, as bytes. -/
def field (width n : Nat) : Bytes := asciiBytes (padded width n)

theorem length_field {width n : Nat} (hwidth : 0 < width) (h : n < 10 ^ width) :
    (field width n).length = width := by
  rw [field, asciiBytes, List.length_map, length_padded hwidth h]

end Decimal
