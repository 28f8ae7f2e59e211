import Mathlib.Algebra.Order.Group.Nat
import Mathlib.Tactic.Common

/-!
# Machine words and byte strings

The vocabulary every codec below is written in: byte strings as lists, 64-bit counters with
checked arithmetic, big-endian numerals of a fixed width, and UTF-8 text. Nothing here knows
about a particular format.

* `UInt64.checkedAdd` / `UInt64.checkedSub` / `UInt64.ofNat?` are the checked operations; each
  has one `_eq_some` lemma stating it over `toNat`, and callers only use that lemma.
* `beBytes w n` writes the low `w` bytes of `n` big-endian; `ofBeBytes` reads a numeral back.
  `ofBeBytes_beBytes` and `beBytes_ofBeBytes` are the two round trips. `leBytes` and `ofLeBytes` are
  the little-endian numerals.
* `utf8Bytes` / `ofUtf8?` are the two directions of the UTF-8 encoding of a string.
-/

/-- A byte string. -/
abbrev Bytes := List UInt8

/-! ## Checked 64-bit arithmetic -/

namespace UInt64

/-- The value of a length as a 64-bit word, when it fits. -/
def ofNat? (n : Nat) : Option UInt64 :=
  if n < 2 ^ 64 then some (UInt64.ofNat n) else none

/-- Addition that fails on overflow. -/
def checkedAdd (a b : UInt64) : Option UInt64 :=
  ofNat? (a.toNat + b.toNat)

/-- Subtraction that fails below zero. -/
def checkedSub (a b : UInt64) : Option UInt64 :=
  if b.toNat ≤ a.toNat then some (a - b) else none

/-- A number below `2 ^ 64` survives the word. -/
theorem toNat_ofNat_of_lt64 {n : Nat} (h : n < 2 ^ 64) : (UInt64.ofNat n).toNat = n := by
  rw [UInt64.toNat_ofNat']
  exact Nat.mod_eq_of_lt h

/-- The conversion gives the word of the same number, or none. -/
theorem ofNat?_eq_some {n : Nat} {c : UInt64} : ofNat? n = some c ↔ c.toNat = n := by
  unfold ofNat?
  constructor
  · intro h
    split at h
    · next hlt => cases h; exact toNat_ofNat_of_lt64 hlt
    · cases h
  · intro h
    have hlt : n < 2 ^ 64 := by rw [← h]; exact c.toNat_lt
    rw [if_pos hlt, ← h, UInt64.ofNat_toNat]

/-- The conversion fails from `2 ^ 64` on. -/
theorem ofNat?_eq_none {n : Nat} : ofNat? n = none ↔ 2 ^ 64 ≤ n := by
  simp [ofNat?]

/-- Below `2 ^ 64` the conversion is the unchecked one. -/
theorem ofNat?_of_lt {n : Nat} (h : n < 2 ^ 64) : ofNat? n = some (UInt64.ofNat n) := if_pos h

/-- A checked sum is the sum of the numbers. -/
theorem checkedAdd_eq_some {a b c : UInt64} :
    a.checkedAdd b = some c ↔ c.toNat = a.toNat + b.toNat :=
  ofNat?_eq_some

/-- A checked sum fails from `2 ^ 64` on. -/
theorem checkedAdd_eq_none {a b : UInt64} :
    a.checkedAdd b = none ↔ 2 ^ 64 ≤ a.toNat + b.toNat :=
  ofNat?_eq_none

/-- A sum that fits is given. -/
theorem exists_checkedAdd {a b : UInt64} (h : a.toNat + b.toNat < 2 ^ 64) :
    ∃ c, a.checkedAdd b = some c := by
  rw [← Option.ne_none_iff_exists']
  intro hnone
  rw [checkedAdd_eq_none] at hnone
  omega

/-- A checked difference is what the second number lacks of the first. -/
theorem checkedSub_eq_some {a b c : UInt64} :
    a.checkedSub b = some c ↔ a.toNat = b.toNat + c.toNat := by
  unfold checkedSub
  constructor
  · intro h
    split at h
    · next hle =>
      cases h
      rw [UInt64.toNat_sub_of_le _ _ (UInt64.le_iff_toNat_le.mpr hle)]
      omega
    · cases h
  · intro h
    have hle : b.toNat ≤ a.toNat := by omega
    rw [if_pos hle, Option.some.injEq, ← UInt64.toNat_inj,
      UInt64.toNat_sub_of_le _ _ (UInt64.le_iff_toNat_le.mpr hle)]
    omega

/-- The number of leading zero bits. -/
def leadingZeros (x : UInt64) : Nat :=
  if x = 0 then 64 else 63 - Nat.log2 x.toNat

end UInt64

/-! ## Big-endian numerals -/

/-- The low `w` bytes of `n`, most significant first. -/
def beBytes : Nat → Nat → Bytes
  | 0, _ => []
  | w + 1, n => UInt8.ofNat (n / 256 ^ w) :: beBytes w n

/-- The number a big-endian numeral denotes. -/
def ofBeBytes : Bytes → Nat
  | [] => 0
  | b :: bs => b.toNat * 256 ^ bs.length + ofBeBytes bs

/-- A number is written in as many bytes as are asked for. -/
@[simp] theorem length_beBytes (w n : Nat) : (beBytes w n).length = w := by
  induction w with
  | zero => rfl
  | succ w ih => simp [beBytes, ih]

/-- Bytes name a number below the bound of their width. -/
theorem ofBeBytes_lt (bs : Bytes) : ofBeBytes bs < 256 ^ bs.length := by
  induction bs with
  | nil => simp [ofBeBytes]
  | cons b bs ih =>
    have hb : b.toNat < 256 := b.toNat_lt
    calc ofBeBytes (b :: bs) < b.toNat * 256 ^ bs.length + 256 ^ bs.length := by
          simp only [ofBeBytes]; omega
      _ = (b.toNat + 1) * 256 ^ bs.length := by rw [Nat.add_mul, Nat.one_mul]
      _ ≤ 256 * 256 ^ bs.length := Nat.mul_le_mul_right _ hb
      _ = 256 ^ (b :: bs).length := by rw [List.length_cons, Nat.pow_succ, Nat.mul_comm]

/-- What is written is read back, up to the width. -/
theorem ofBeBytes_beBytes (w n : Nat) : ofBeBytes (beBytes w n) = n % 256 ^ w := by
  induction w with
  | zero => simp [beBytes, ofBeBytes, Nat.mod_one]
  | succ w ih =>
    have hdigit : (UInt8.ofNat (n / 256 ^ w)).toNat = n / 256 ^ w % 256 := by
      rw [UInt8.toNat_ofNat']
    simp only [beBytes, ofBeBytes, hdigit, length_beBytes, ih]
    rw [Nat.pow_succ, Nat.mod_mul, Nat.add_comm, Nat.mul_comm]

/-- Only the low digits of the numeral matter. -/
theorem beBytes_add_mul (w k n : Nat) : beBytes w (k * 256 ^ w + n) = beBytes w n := by
  induction w generalizing k with
  | zero => rfl
  | succ w ih =>
    have hsplit : k * 256 ^ (w + 1) + n = (k * 256) * 256 ^ w + n := by
      rw [Nat.pow_succ, Nat.mul_assoc, Nat.mul_comm 256]
    simp only [beBytes]
    rw [hsplit, ih]
    congr 1
    rw [Nat.add_comm, Nat.add_mul_div_right _ _ (Nat.pow_pos (by omega)), ← UInt8.toNat_inj]
    simp only [UInt8.toNat_ofNat']
    omega

/-- Bytes are the only ones of their width for their number. -/
theorem beBytes_ofBeBytes (bs : Bytes) : beBytes bs.length (ofBeBytes bs) = bs := by
  induction bs with
  | nil => rfl
  | cons b bs ih =>
    have hdiv : (b.toNat * 256 ^ bs.length + ofBeBytes bs) / 256 ^ bs.length = b.toNat := by
      rw [Nat.add_comm, Nat.add_mul_div_right _ _ (Nat.pow_pos (by omega)),
        Nat.div_eq_of_lt (ofBeBytes_lt bs), Nat.zero_add]
    simp only [List.length_cons, beBytes, ofBeBytes, hdiv, UInt8.ofNat_toNat, beBytes_add_mul, ih]

/-! ## Little-endian numerals -/

def leBytes (width n : Nat) : Bytes := (beBytes width n).reverse

/-- The number a little-endian numeral denotes. -/
def ofLeBytes (bytes : Bytes) : Nat := ofBeBytes bytes.reverse

/-- A number is written in as many bytes as are asked for. -/
@[simp] theorem length_leBytes (width n : Nat) : (leBytes width n).length = width := by
  simp [leBytes]

/-- Bytes name a number below the bound of their width. -/
theorem ofLeBytes_lt (bytes : Bytes) : ofLeBytes bytes < 256 ^ bytes.length := by
  have h : ofBeBytes bytes.reverse < 256 ^ bytes.reverse.length := ofBeBytes_lt bytes.reverse
  rwa [List.length_reverse] at h

/-- What is written is read back, up to the width. -/
theorem ofLeBytes_leBytes (width n : Nat) : ofLeBytes (leBytes width n) = n % 256 ^ width := by
  rw [ofLeBytes, leBytes, List.reverse_reverse, ofBeBytes_beBytes]

/-- Bytes are the only ones of their width for their number. -/
theorem leBytes_ofLeBytes (bytes : Bytes) : leBytes bytes.length (ofLeBytes bytes) = bytes := by
  have h : beBytes bytes.reverse.length (ofBeBytes bytes.reverse) = bytes.reverse :=
    beBytes_ofBeBytes bytes.reverse
  rw [List.length_reverse] at h
  rw [leBytes, ofLeBytes, h, List.reverse_reverse]

/-! ## UTF-8 text -/

/-- The UTF-8 encoding of a string. -/
def utf8Bytes (s : String) : Bytes := s.toByteArray.data.toList

/-- The string a byte string encodes, when it is UTF-8. -/
def ofUtf8? (bs : Bytes) : Option String := String.fromUTF8? ⟨bs.toArray⟩

/-- A string is written character by character. -/
theorem utf8Bytes_ofList (cs : List Char) :
    utf8Bytes (String.ofList cs) = cs.flatMap String.utf8EncodeChar := by
  rw [utf8Bytes, String.toByteArray_ofList, List.utf8Encode]
  simp

/-- A written string is read back. -/
@[simp] theorem ofUtf8?_utf8Bytes (s : String) : ofUtf8? (utf8Bytes s) = some s := by
  unfold ofUtf8? utf8Bytes String.fromUTF8?
  simp [String.fromUTF8, s.isValidUTF8]

/-- Bytes that are read as a string are what it is written as. -/
theorem utf8Bytes_of_ofUtf8? {bs : Bytes} {s : String} (h : ofUtf8? bs = some s) :
    utf8Bytes s = bs := by
  unfold ofUtf8? String.fromUTF8? at h
  split at h
  · cases h; simp [utf8Bytes, String.fromUTF8]
  · cases h

/-! ## Peeling a fallible computation apart -/

namespace Except

variable {ε α β : Type}

theorem ok_bind (a : α) (f : α → Except ε β) : (Except.ok a >>= f) = f a := rfl

theorem error_bind (e : ε) (f : α → Except ε β) : (Except.error e >>= f) = .error e := rfl

/-- A bind succeeds exactly when both of its halves do. -/
theorem bind_eq_ok {x : Except ε α} {f : α → Except ε β} {b : β} :
    (x >>= f) = .ok b ↔ ∃ a, x = .ok a ∧ f a = .ok b := by
  cases x with
  | error e => simp [bind, Except.bind]
  | ok a => simp [bind, Except.bind]

/-- Two second halves that agree on what the first one gives. -/
theorem bind_congr {x : Except ε α} {f g : α → Except ε β} (h : ∀ a, x = .ok a → f a = g a) :
    x >>= f = x >>= g := by
  cases x with
  | error e => rfl
  | ok a => exact h a rfl

/-- A function of the result moves into the second half of a bind. -/
theorem map_bind {γ : Type} (x : Except ε α) (f : α → Except ε β) (g : β → γ) :
    (x >>= f).map g = x >>= fun a => (f a).map g := by
  cases x <;> rfl

/-- A success has no error to rename. -/
@[simp] theorem mapError_eq_ok {ε' : Type} {x : Except ε α} {f : ε → ε'} {a : α} :
    x.mapError f = .ok a ↔ x = .ok a := by
  cases x <;> simp [Except.mapError]

/-- The success value of an option, or the given error. -/
def ofOption (e : ε) : Option α → Except ε α
  | some a => .ok a
  | none => .error e

/-- `ok_or` succeeds on what is there. -/
@[simp] theorem ofOption_eq_ok {e : ε} {o : Option α} {a : α} :
    ofOption e o = .ok a ↔ o = some a := by
  cases o <;> simp [ofOption]

/-- A guard: proceed when the condition holds, else fail. -/
def require (e : ε) (b : Bool) : Except ε Unit :=
  if b then .ok () else .error e

/-- A guard passes where its condition holds. -/
@[simp] theorem require_eq_ok {e : ε} {b : Bool} {u : Unit} :
    require e b = .ok u ↔ b = true := by
  cases b <;> simp [require]

theorem require_true (e : ε) : require e true = .ok () := rfl

/-- `try_collect` succeeds where every element does, with the results in order. -/
theorem mapM_eq_ok_iff {f : α → Except ε β} {xs : List α} {ys : List β} :
    xs.mapM f = .ok ys ↔ List.Forall₂ (fun x y => f x = .ok y) xs ys := by
  induction xs generalizing ys with
  | nil =>
    constructor
    · intro h
      cases h
      exact .nil
    · intro h
      cases h
      rfl
  | cons x xs ih =>
    simp only [List.mapM_cons, bind_eq_ok, ih, pure, Except.pure, Except.ok.injEq]
    constructor
    · rintro ⟨y, hy, ys', hys, rfl⟩
      exact .cons hy hys
    · intro h
      cases h with
      | cons hy hys => exact ⟨_, hy, _, hys, rfl⟩

/-- Every element of a successful `try_collect` succeeded. -/
theorem exists_ok_of_mapM {f : α → Except ε β} {xs : List α} {ys : List β}
    (h : xs.mapM f = .ok ys) {x : α} (hx : x ∈ xs) : ∃ y, f x = .ok y := by
  rw [mapM_eq_ok_iff] at h
  induction h with
  | nil => cases hx
  | cons hfirst hrest ih =>
    rcases List.mem_cons.mp hx with rfl | hmem
    · exact ⟨_, hfirst⟩
    · exact ih hmem

/-- Lists that are mapped successfully are mapped successfully in a row. -/
theorem mapM_flatMap {γ : Type} {f : β → Except ε γ} {g : α → List β} {xs : List α}
    {yss : List (List γ)} (h : List.Forall₂ (fun x ys => (g x).mapM f = .ok ys) xs yss) :
    (xs.flatMap g).mapM f = .ok yss.flatten := by
  induction h with
  | nil => rfl
  | cons hfirst _ ih =>
    rw [List.flatMap_cons, List.flatten_cons, List.mapM_append, hfirst, ih]
    rfl

/-- A loop without a result succeeds exactly when every round does. -/
theorem forM_eq_ok {xs : List α} {f : α → Except ε Unit} :
    xs.forM f = .ok () ↔ ∀ x ∈ xs, f x = .ok () := by
  induction xs with
  | nil => simp [List.forM, pure, Except.pure]
  | cons x xs ih =>
    rw [List.forall_mem_cons, ← ih]
    cases hx : f x <;> simp [List.forM, hx, bind, Except.bind]

/-- A computation whose result passes a test has a result. -/
theorem exists_ok_of_any {x : Except ε α} {test : α → Bool} (h : x.toOption.any test = true) :
    ∃ a, x = .ok a ∧ test a = true := by
  cases x with
  | error e => cases h
  | ok a => exact ⟨a, rfl, h⟩

/-- An invariant of a fold and of the items it has taken. -/
theorem foldlM_induction {step : β → α → Except ε β} {P : List α → β → Prop} {items : List α}
    {b b' : β} (h : items.foldlM step b = .ok b') (init : P [] b)
    (next : ∀ taken b a b', P taken b → step b a = .ok b' → P (taken ++ [a]) b') : P items b' := by
  have hall : ∀ (items taken : List α) (b : β), P taken b → items.foldlM step b = .ok b' →
      P (taken ++ items) b' := by
    intro items
    induction items with
    | nil =>
      intro taken b htaken h
      cases h
      rwa [List.append_nil]
    | cons a items ih =>
      intro taken b htaken h
      rw [List.foldlM_cons, bind_eq_ok] at h
      obtain ⟨mid, hmid, hrest⟩ := h
      have hlater := ih (taken ++ [a]) mid (next taken b a mid htaken hmid) hrest
      rwa [List.append_assoc] at hlater
  exact hall items [] b init h

/-! ### What a computation can fail with -/

/-- Every error the computation can end in satisfies `P`. -/
def FailsWith (P : ε → Prop) (x : Except ε α) : Prop := ∀ e, x = .error e → P e

variable {P : ε → Prop}

theorem failsWith_ok (a : α) : FailsWith P (.ok a : Except ε α) := by
  intro e h
  cases h

theorem failsWith_error {e : ε} (h : P e) : FailsWith P (.error e : Except ε α) := by
  intro e' he
  cases he
  exact h

/-- Two steps fail only as one of them does. -/
theorem FailsWith.bind {x : Except ε α} {f : α → Except ε β} (hx : FailsWith P x)
    (hf : ∀ a, x = .ok a → FailsWith P (f a)) : FailsWith P (x >>= f) := by
  cases x with
  | error e => exact failsWith_error (hx e rfl)
  | ok a => exact hf a rfl

/-- `ok_or` fails with the error it is given. -/
theorem failsWith_ofOption {e : ε} (h : P e) (o : Option α) : FailsWith P (ofOption e o) := by
  cases o with
  | none => exact failsWith_error h
  | some a => exact failsWith_ok a

/-- A guard fails with the error it is given. -/
theorem failsWith_require {e : ε} (h : P e) (b : Bool) : FailsWith P (require e b) := by
  cases b with
  | false => exact failsWith_error h
  | true => exact failsWith_ok ()

/-- A guard is what its error comes from, where nothing after it fails with that error. -/
theorem require_bind_eq_error {e : ε} {b : Bool} {f : Unit → Except ε β}
    (h : FailsWith (· ≠ e) (f ())) : (require e b >>= f) = .error e ↔ b = false := by
  cases b with
  | false => exact ⟨fun _ => rfl, fun _ => rfl⟩
  | true =>
    constructor
    · intro herror
      exact absurd rfl (h e herror)
    · intro hfalse
      cases hfalse

/-- A renamed error is one of the new names. -/
theorem failsWith_mapError {ε' : Type} {f : ε' → ε} (h : ∀ e, P (f e)) (x : Except ε' α) :
    FailsWith P (x.mapError f) := by
  cases x with
  | error e => exact failsWith_error (h e)
  | ok a => exact failsWith_ok a

/-- A loop fails only as one of its steps does. -/
theorem failsWith_foldlM {step : β → α → Except ε β} (h : ∀ b a, FailsWith P (step b a))
    (items : List α) (b : β) : FailsWith P (items.foldlM step b) := by
  induction items generalizing b with
  | nil => exact failsWith_ok b
  | cons a items ih =>
    rw [List.foldlM_cons]
    exact (h b a).bind fun b' _ => ih b'

/-- `try_collect` fails only as one of its elements does. -/
theorem failsWith_mapM {f : α → Except ε β} (h : ∀ a, FailsWith P (f a)) (items : List α) :
    FailsWith P (items.mapM f) := by
  induction items with
  | nil => exact failsWith_ok []
  | cons a items ih =>
    rw [List.mapM_cons]
    exact (h a).bind fun b _ => ih.bind fun bs _ => failsWith_ok (b :: bs)

end Except
