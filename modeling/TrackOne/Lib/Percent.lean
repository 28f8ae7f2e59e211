import TrackOne.Lib.Words
import Mathlib.Data.List.Basic

/-!
# Percent-encoding

A byte is written as the character that it is, or as a percent sign and two digits; which bytes may
stand for themselves is a parameter.

* `decode_encode`: the bytes are read back.
* `splitOn_flatMap`: a text that is encoded character by character keeps its separators, where the
  encoding of no other character has one.
-/

namespace Percent

def hexDigit (n : Nat) : Char := "0123456789ABCDEF".toList[n]?.getD '0'

def encodeByte (safe : UInt8 → Bool) (byte : UInt8) : List Char :=
  if safe byte then [Char.ofNat byte.toNat]
  else ['%', hexDigit (byte.toNat / 16), hexDigit (byte.toNat % 16)]

def encode (safe : UInt8 → Bool) (bytes : Bytes) : List Char := bytes.flatMap (encodeByte safe)

def hexValue? (c : Char) : Option Nat :=
  if c.isDigit then some (c.toNat - 48)
  else if 'A' ≤ c ∧ c ≤ 'F' then some (c.toNat - 55)
  else none

/-- The bytes of an encoded text. -/
def decode : List Char → Option Bytes
  | [] => some []
  | '%' :: high :: low :: rest => do
    let high ← hexValue? high
    let low ← hexValue? low
    let bytes ← decode rest
    pure (UInt8.ofNat (16 * high + low) :: bytes)
  | c :: rest =>
    if c = '%' ∨ 128 ≤ c.toNat then none
    else (decode rest).map (UInt8.ofNat c.toNat :: ·)

/-- ASCII characters other than the percent sign may stand for themselves. -/
def Plain (safe : UInt8 → Bool) : Prop := ∀ byte, safe byte = true → byte.toNat < 128 ∧ byte ≠ 0x25

theorem decode_plain {c : Char} (hne : c ≠ '%') (hascii : c.toNat < 128) (rest : List Char) :
    decode (c :: rest) = (decode rest).map (UInt8.ofNat c.toNat :: ·) := by
  rw [decode]
  · rw [if_neg (by simp [hne]; omega)]
  · rintro high low rest' rfl
    exact absurd rfl hne

theorem decode_escape (byte : UInt8) (rest : List Char) :
    decode ('%' :: hexDigit (byte.toNat / 16) :: hexDigit (byte.toNat % 16) :: rest)
      = (decode rest).map (byte :: ·) := by
  have hvalue : ∀ n < 16, hexValue? (hexDigit n) = some n := by decide
  have hlt := byte.toNat_lt
  rw [decode, hvalue _ (by omega), hvalue _ (Nat.mod_lt _ (by decide))]
  have hbyte : UInt8.ofNat (16 * (byte.toNat / 16) + byte.toNat % 16) = byte := by
    rw [Nat.div_add_mod, UInt8.ofNat_toNat]
  simp only [Option.bind_eq_bind, Option.bind_some, hbyte]
  cases decode rest <;> rfl

theorem decode_encode {safe : UInt8 → Bool} (h : Plain safe) (bytes : Bytes) :
    decode (encode safe bytes) = some bytes := by
  induction bytes with
  | nil => rfl
  | cons byte bytes ih =>
    rw [encode, List.flatMap_cons, ← encode, encodeByte]
    split_ifs with hsafe
    · obtain ⟨hascii, hne⟩ := h byte hsafe
      have hchar : ∀ n : Fin 128, UInt8.ofNat n ≠ 0x25 →
          Char.ofNat n ≠ '%' ∧ (Char.ofNat n).toNat = n.val := by decide
      obtain ⟨hpercent, hvalue⟩ := hchar ⟨byte.toNat, hascii⟩ (by simpa using hne)
      rw [List.cons_append, List.nil_append,
        decode_plain hpercent (by rw [hvalue]; exact hascii), ih, hvalue]
      simp
    · rw [List.cons_append, List.cons_append, List.cons_append, List.nil_append, decode_escape, ih]
      rfl

/-- A slash stands for its own byte. -/
theorem slash_notMem_encode {safe : UInt8 → Bool} (h : Plain safe) {bytes : Bytes}
    (hbytes : 0x2f ∉ bytes) :
    '/' ∉ encode safe bytes := by
  rw [encode, List.mem_flatMap]
  rintro ⟨byte, hmem, hslash⟩
  have hdigit : ∀ n < 16, hexDigit n ≠ '/' := by decide
  have hlt := byte.toNat_lt
  rw [encodeByte] at hslash
  split_ifs at hslash with hsafe
  · rw [List.mem_singleton] at hslash
    have hchar : ∀ n : Fin 128, '/' = Char.ofNat n → UInt8.ofNat n = 0x2f := by decide
    have hbyte := hchar ⟨byte.toNat, (h byte hsafe).1⟩ hslash
    rw [UInt8.ofNat_toNat] at hbyte
    exact hbytes (hbyte ▸ hmem)
  · simp only [List.mem_cons, List.not_mem_nil, or_false] at hslash
    rcases hslash with hpercent | hhigh | hlow
    · exact absurd hpercent (by decide)
    · exact hdigit _ (by omega) hhigh.symm
    · exact hdigit _ (Nat.mod_lt _ (by decide)) hlow.symm

/-! ## Separators -/

theorem intercalate_flatMap {α β : Type} {f : α → List β} {separator : α} {mark : β}
    (hmark : f separator = [mark]) (parts : List (List α)) :
    [mark].intercalate (parts.map (List.flatMap f))
      = ([separator].intercalate parts).flatMap f := by
  induction parts with
  | nil => rfl
  | cons part parts ih =>
    cases parts with
    | nil => rw [List.map_singleton, List.intercalate_singleton, List.intercalate_singleton]
    | cons part' parts =>
      rw [List.map_cons, List.map_cons, List.intercalate_cons_cons, ← List.map_cons, ih,
        List.intercalate_cons_cons, List.flatMap_append, List.flatMap_append,
        List.flatMap_singleton, hmark]

theorem notMem_of_mem_splitOn {α : Type} [BEq α] [LawfulBEq α] {separator : α} {text part : List α}
    (h : part ∈ text.splitOn separator) : separator ∉ part := by
  induction text generalizing part with
  | nil =>
    rw [List.splitOn_nil, List.mem_singleton] at h
    rw [h]
    exact List.not_mem_nil
  | cons c text ih =>
    rw [List.splitOn_cons_eq_if_modifyHead] at h
    split_ifs at h with hc
    · rcases List.mem_cons.mp h with rfl | hpart
      · exact List.not_mem_nil
      · exact ih hpart
    · obtain ⟨first, parts, hparts⟩ :=
        List.exists_cons_of_ne_nil (List.splitOn_ne_nil separator text)
      rw [hparts] at h ih
      rcases List.mem_cons.mp h with rfl | hpart
      · intro hmem
        rcases List.mem_cons.mp hmem with rfl | hfirst
        · exact hc (BEq.refl _)
        · exact ih List.mem_cons_self hfirst
      · exact ih (List.mem_cons_of_mem _ hpart)

theorem mem_of_mem_splitOn {α : Type} [BEq α] [LawfulBEq α] {separator c : α} {text part : List α}
    (h : part ∈ text.splitOn separator) (hc : c ∈ part) : c ∈ text := by
  have hparts := @List.intercalate_splitOn α text _ _ separator
  rw [← hparts]
  generalize text.splitOn separator = parts at h
  induction parts with
  | nil => cases h
  | cons first parts ih =>
    cases parts with
    | nil =>
      rw [List.mem_singleton] at h
      rw [List.intercalate_singleton, ← h]
      exact hc
    | cons second parts =>
      rw [List.intercalate_cons_cons, List.mem_append, List.mem_append]
      rcases List.mem_cons.mp h with rfl | hpart
      · exact .inl (.inl hc)
      · exact .inr (ih hpart)

/-- Encoded character by character, a text has the encodings of its parts. -/
theorem splitOn_flatMap {f : Char → List Char} {separator : Char}
    (hmark : f separator = [separator]) (hother : ∀ c, c ≠ separator → separator ∉ f c)
    (text : List Char) :
    (text.flatMap f).splitOn separator = (text.splitOn separator).map (List.flatMap f) := by
  have hparts := @List.intercalate_splitOn Char text _ _ separator
  conv_lhs => rw [← hparts, ← intercalate_flatMap hmark]
  refine List.splitOn_intercalate separator ?_ (by simp)
  intro encoded hencoded hmem
  obtain ⟨part, hpart, rfl⟩ := List.mem_map.mp hencoded
  obtain ⟨c, hc, hcmem⟩ := List.mem_flatMap.mp hmem
  refine hother c ?_ hcmem
  rintro rfl
  exact notMem_of_mem_splitOn hpart hc

end Percent
