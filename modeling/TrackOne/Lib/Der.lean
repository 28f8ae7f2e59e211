import TrackOne.Lib.Words
import Mathlib.Data.Nat.Digits.Defs
import Mathlib.Data.Nat.Log
import Mathlib.Data.List.Chain

/-!
# Lengths and subidentifiers of the distinguished encoding rules

The length octets of an element, and the base-128 groups that an object identifier is written with.
Both have one shortest form; a longer one has an octet in front that says nothing.

* `LengthField.bytes_of_tight`, `LengthField.length_lt_of_not_tight`: a length with no such octet is
  `lengthOctets` of its value, and any other is longer.
* `continuation_succ`: a subidentifier grows by a group, unless the group is such an octet.
-/

namespace Der

/-! ## Lengths -/

/-- The shortest length octets: one octet, or a count and the octets of the number. -/
def lengthOctets (n : Nat) : Bytes :=
  if n < 128 then [UInt8.ofNat n]
  else UInt8.ofNat (128 + (Nat.log 256 n + 1)) :: beBytes (Nat.log 256 n + 1) n

theorem length_lengthOctets (n : Nat) :
    (lengthOctets n).length = if n < 128 then 1 else Nat.log 256 n + 2 := by
  unfold lengthOctets
  split_ifs with h
  · rfl
  · rw [List.length_cons, length_beBytes]

theorem length_lengthOctets_mono {n m : Nat} (h : n ≤ m) :
    (lengthOctets n).length ≤ (lengthOctets m).length := by
  have hlog : Nat.log 256 n ≤ Nat.log 256 m := Nat.log_mono_right h
  rw [length_lengthOctets, length_lengthOctets]
  split_ifs <;> omega

/-- A length as it is written. -/
inductive LengthField where
  | short (n : UInt8)
  | long (octets : Bytes)

namespace LengthField

def bytes : LengthField → Bytes
  | short n => [n]
  | long octets => UInt8.ofNat (128 + octets.length) :: octets

def value : LengthField → Nat
  | short n => n.toNat
  | long octets => ofBeBytes octets

/-- The short form is for lengths below 128, the long form for the others. -/
def WellFormed : LengthField → Prop
  | short n => n.toNat < 128
  | long octets => 128 ≤ ofBeBytes octets

/-- No octet of a long form is a zero in front. -/
def Tight : LengthField → Prop
  | short _ => True
  | long octets => octets.head? ≠ some 0

instance (field : LengthField) : Decidable field.Tight := by
  cases field
  · exact instDecidableTrue
  · exact inferInstanceAs (Decidable (_ ≠ _))

theorem bytes_of_tight {field : LengthField} (h : field.WellFormed) (htight : field.Tight) :
    field.bytes = lengthOctets field.value := by
  cases field with
  | short n =>
    have hlt : n.toNat < 128 := h
    rw [bytes, value, lengthOctets, if_pos hlt, UInt8.ofNat_toNat]
  | long octets =>
    have hge : 128 ≤ ofBeBytes octets := h
    have hlog : Nat.log 256 (ofBeBytes octets) + 1 = octets.length := by
      cases octets with
      | nil => exact absurd hge (by decide)
      | cons first rest =>
        have hfirst : first ≠ 0 := fun heq => htight (congrArg some heq)
        have hpos : 0 < first.toNat := by
          rw [← UInt8.toNat_inj.ne] at hfirst
          exact Nat.pos_of_ne_zero hfirst
        rw [List.length_cons, Nat.add_right_cancel_iff]
        refine Nat.log_eq_of_pow_le_of_lt_pow ?_ (ofBeBytes_lt (first :: rest))
        calc 256 ^ rest.length ≤ first.toNat * 256 ^ rest.length := Nat.le_mul_of_pos_left _ hpos
          _ ≤ ofBeBytes (first :: rest) := Nat.le_add_right _ _
    rw [bytes, value, lengthOctets, if_neg (Nat.not_lt.mpr hge), hlog, beBytes_ofBeBytes]

theorem length_lt_of_not_tight {field : LengthField} (h : field.WellFormed)
    (hloose : ¬ field.Tight) :
    (lengthOctets field.value).length < field.bytes.length := by
  cases field with
  | short n => exact absurd trivial hloose
  | long octets =>
    have hge : 128 ≤ ofBeBytes octets := h
    obtain ⟨rest, rfl⟩ : ∃ rest, octets = 0 :: rest :=
      List.head?_eq_some_iff.mp (not_not.mp hloose)
    have hvalue : ofBeBytes (0 :: rest) = ofBeBytes rest := by simp [ofBeBytes]
    have hrest : rest.length ≠ 0 := by
      intro hnil
      rw [List.length_eq_zero_iff.mp hnil] at hge
      exact absurd hge (by decide)
    have hlog : Nat.log 256 (ofBeBytes rest) < rest.length :=
      Nat.log_lt_of_lt_pow' hrest (ofBeBytes_lt rest)
    rw [length_lengthOctets, value, if_neg (Nat.not_lt.mpr hge), hvalue, bytes, List.length_cons,
      List.length_cons]
    omega

/-- However it is written, a length takes the shortest octets at least. -/
theorem length_le {field : LengthField} (h : field.WellFormed) :
    (lengthOctets field.value).length ≤ field.bytes.length := by
  by_cases htight : field.Tight
  · rw [bytes_of_tight h htight]
  · exact Nat.le_of_lt (length_lt_of_not_tight h htight)

end LengthField

/-! ## Subidentifiers -/

/-- The groups of a number that go on, the first of them not zero. -/
def continuation (n : Nat) : Bytes :=
  ((Nat.digits 128 n).map fun d => UInt8.ofNat (d + 128)).reverse

/-- The octets of a subidentifier: groups that go on, and the last one. -/
def subidentifier (n : Nat) : Bytes := continuation (n / 128) ++ [UInt8.ofNat (n % 128)]

@[simp] theorem continuation_zero : continuation 0 = [] := by
  simp [continuation]

theorem continuation_succ {n group : Nat} (hgroup : group < 128) (h : n ≠ 0 ∨ group ≠ 0) :
    continuation (n * 128 + group) = continuation n ++ [UInt8.ofNat (group + 128)] := by
  have hpos : 0 < n * 128 + group := by omega
  have hmod : (n * 128 + group) % 128 = group := by omega
  have hdiv : (n * 128 + group) / 128 = n := by omega
  rw [continuation, Nat.digits_def' (by decide) hpos, hmod, hdiv, List.map_cons, List.reverse_cons]
  rfl

theorem subidentifier_succ {n group : Nat} (hgroup : group < 128) :
    subidentifier (n * 128 + group) = continuation n ++ [UInt8.ofNat group] := by
  have hmod : (n * 128 + group) % 128 = group := by omega
  have hdiv : (n * 128 + group) / 128 = n := by omega
  rw [subidentifier, hmod, hdiv]

theorem le_of_mem_continuation {n : Nat} {octet : UInt8} (h : octet ∈ continuation n) :
    128 ≤ octet.toNat := by
  rw [continuation, List.mem_reverse, List.mem_map] at h
  obtain ⟨d, hd, rfl⟩ := h
  have hlt := Nat.digits_lt_base (by decide : 1 < 128) hd
  rw [UInt8.toNat_ofNat']
  omega

/-- The octets that end a subidentifier. -/
def lastOctets (octets : Bytes) : Nat := octets.countP fun octet => octet.toNat < 128

theorem lastOctets_continuation (n : Nat) : lastOctets (continuation n) = 0 := by
  rw [lastOctets, List.countP_eq_zero]
  intro octet hoctet
  have := le_of_mem_continuation hoctet
  simpa using this

theorem lastOctets_subidentifier (n : Nat) : lastOctets (subidentifier n) = 1 := by
  have hlast : n % 128 < 128 := Nat.mod_lt _ (by decide)
  have hcontinuation := lastOctets_continuation (n / 128)
  unfold lastOctets at *
  rw [subidentifier, List.countP_append, hcontinuation]
  simp [UInt8.toNat_ofNat']
  omega

theorem lastOctets_flatMap (components : List Nat) :
    lastOctets (components.flatMap subidentifier) = components.length := by
  induction components with
  | nil => rfl
  | cons component components ih =>
    have hfirst := lastOctets_subidentifier component
    unfold lastOctets at *
    rw [List.flatMap_cons, List.countP_append, hfirst, ih, List.length_cons, Nat.add_comm]

end Der
