import TrackOne.Lib.Words

/-!
# Codecs that compose

A `Codec` writes a value and reads it back from the front of any bytes that begin with it. The law
is a field, so the codec of a record is read back because the codecs of its fields are: `both`,
`opt`, `choice` and `via` build one codec from others.

The atoms are those of compact binary formats: a byte, bytes of a fixed or a bounded number, and
numbers in groups of seven bits (`varint`), with `zigzag` to fold the sign in.
-/

/-- A writer, and a reader that undoes it in front of anything. -/
structure Codec (α : Type) where
  write : α → Bytes
  read : Bytes → Option (α × Bytes)
  read_write : ∀ a rest, read (write a ++ rest) = some (a, rest)

namespace Codec

variable {α β : Type}

def byte : Codec UInt8 where
  write b := [b]
  read
    | [] => none
    | b :: rest => some (b, rest)
  read_write _ _ := rfl

/-- One value, then another. -/
def both (first : Codec α) (second : Codec β) : Codec (α × β) where
  write p := first.write p.1 ++ second.write p.2
  read bytes := do
    let (a, rest) ← first.read bytes
    let (b, rest) ← second.read rest
    pure ((a, b), rest)
  read_write p rest := by
    simp [List.append_assoc, first.read_write, second.read_write]

/-- The values of another type, by what is written for them. -/
def via (codec : Codec α) (into : β → α) (back : α → Option β)
    (h : ∀ b, back (into b) = some b) : Codec β where
  write b := codec.write (into b)
  read bytes := do
    let (a, rest) ← codec.read bytes
    let b ← back a
    pure (b, rest)
  read_write b rest := by
    simp [codec.read_write, h]

/-- A zero for nothing, a one before a value. -/
def opt (codec : Codec α) : Codec (Option α) where
  write
    | none => [0]
    | some a => 1 :: codec.write a
  read
    | [] => none
    | tag :: rest =>
      if tag = 0 then some (none, rest)
      else if tag = 1 then (codec.read rest).map fun (a, rest) => (some a, rest)
      else none
  read_write a rest := by
    cases a with
    | none => rfl
    | some a => simp [codec.read_write]

/-- Exactly so many bytes. -/
def blob (n : Nat) : Codec { bytes : Bytes // bytes.length = n } where
  write bytes := bytes.1
  read bytes :=
    if h : n ≤ bytes.length then some (⟨bytes.take n, by simpa using h⟩, bytes.drop n) else none
  read_write bytes rest := by
    obtain ⟨bytes, rfl⟩ := bytes
    simp

/-! ## Numbers in groups of seven bits -/

/-- The groups of a number, the lowest first; every byte but the last has its highest bit set. -/
def writeVarint (n : Nat) : Bytes :=
  if n < 128 then [UInt8.ofNat n] else UInt8.ofNat (n % 128 + 128) :: writeVarint (n / 128)
termination_by n

def readVarint : Bytes → Option (Nat × Bytes)
  | [] => none
  | b :: rest =>
    if b.toNat < 128 then some (b.toNat, rest)
    else (readVarint rest).map fun (high, rest) => (high * 128 + (b.toNat - 128), rest)

/-- The number of groups. -/
def varintLength (n : Nat) : Nat := if n < 128 then 1 else varintLength (n / 128) + 1
termination_by n

theorem readVarint_writeVarint (n : Nat) (rest : Bytes) :
    readVarint (writeVarint n ++ rest) = some (n, rest) := by
  fun_induction writeVarint n with
  | case1 n hsmall =>
    have hbyte : (UInt8.ofNat n).toNat = n := by
      rw [UInt8.toNat_ofNat']
      omega
    simp [readVarint, hbyte, hsmall]
  | case2 n hlarge ih =>
    have hbyte : (UInt8.ofNat (n % 128 + 128)).toNat = n % 128 + 128 := by
      rw [UInt8.toNat_ofNat']
      omega
    rw [List.cons_append, readVarint, hbyte, if_neg (by omega), ih]
    show some (n / 128 * 128 + (n % 128 + 128 - 128), rest) = some (n, rest)
    rw [Nat.add_sub_cancel, Nat.mul_comm, Nat.div_add_mod]

theorem length_writeVarint (n : Nat) : (writeVarint n).length = varintLength n := by
  fun_induction writeVarint n with
  | case1 n hsmall => rw [varintLength, if_pos hsmall, List.length_singleton]
  | case2 n hlarge ih => rw [varintLength, if_neg hlarge, List.length_cons, ih]

/-- A number of `k` groups of seven bits takes `k` bytes at most. -/
theorem varintLength_le {k n : Nat} (h : n < 128 ^ (k + 1)) : varintLength n ≤ k + 1 := by
  induction k generalizing n with
  | zero => rw [varintLength, if_pos (by simpa using h)]
  | succ k ih =>
    rw [varintLength]
    split_ifs with hsmall
    · omega
    · have hrest : n / 128 < 128 ^ (k + 1) := by
        rw [Nat.div_lt_iff_lt_mul (by decide), ← Nat.pow_succ]
        exact h
      have := ih hrest
      omega

def varint : Codec Nat := ⟨writeVarint, readVarint, readVarint_writeVarint⟩

/-- A number of 64 bits, in at most ten groups. -/
def uint64 : Codec UInt64 :=
  varint.via UInt64.toNat UInt64.ofNat? fun _ => UInt64.ofNat?_eq_some.mpr rfl

/-- A number of 32 bits, in at most five groups. -/
def uint32 : Codec UInt32 :=
  varint.via UInt32.toNat (fun n => if n < 2 ^ 32 then some (UInt32.ofNat n) else none) fun n => by
    rw [if_pos n.toNat_lt, UInt32.ofNat_toNat]

/-- The sign goes to the lowest bit. -/
def zigzag (n : Int64) : Nat :=
  if 0 ≤ n.toInt then 2 * n.toInt.toNat else 2 * (-1 - n.toInt).toNat + 1

def unzigzag (n : Nat) : Int64 :=
  Int64.ofInt (if n % 2 = 0 then (n / 2 : Nat) else -1 - (n / 2 : Nat))

theorem unzigzag_zigzag (n : Int64) : unzigzag (zigzag n) = n := by
  have hvalue : (if zigzag n % 2 = 0 then ((zigzag n / 2 : Nat) : Int)
      else -1 - ((zigzag n / 2 : Nat) : Int)) = n.toInt := by
    unfold zigzag
    split_ifs with hsign heven heven <;> omega
  rw [unzigzag, hvalue, Int64.ofInt_toInt]

theorem zigzag_lt (n : Int64) : zigzag n < 2 ^ 64 := by
  have hlow := n.le_toInt
  have hhigh := n.toInt_lt
  unfold zigzag
  split_ifs <;> omega

def int64 : Codec Int64 := varint.via zigzag (fun n => some (unzigzag n)) fun n => by
  rw [unzigzag_zigzag]

/-! ## Bounded bytes and alternatives -/

/-- The number of the bytes, then the bytes. -/
def bounded (limit : Nat) : Codec { bytes : Bytes // bytes.length ≤ limit } where
  write bytes := writeVarint bytes.1.length ++ bytes.1
  read bytes := do
    let (n, rest) ← readVarint bytes
    if h : n ≤ limit ∧ n ≤ rest.length then
      some (⟨rest.take n, (List.length_take_le n rest).trans h.1⟩, rest.drop n)
    else none
  read_write bytes rest := by
    obtain ⟨bytes, hlimit⟩ := bytes
    simp [List.append_assoc, readVarint_writeVarint, hlimit]

/-- The index of the alternative, then its value. -/
def choice (first : Codec α) (second : Codec β) : Codec (α ⊕ β) where
  write
    | .inl a => writeVarint 0 ++ first.write a
    | .inr b => writeVarint 1 ++ second.write b
  read bytes := do
    let (index, rest) ← readVarint bytes
    if index = 0 then (first.read rest).map fun (a, rest) => (.inl a, rest)
    else if index = 1 then (second.read rest).map fun (b, rest) => (.inr b, rest)
    else none
  read_write value rest := by
    cases value with
    | inl a => simp [List.append_assoc, readVarint_writeVarint, first.read_write]
    | inr b => simp [List.append_assoc, readVarint_writeVarint, second.read_write]

end Codec
