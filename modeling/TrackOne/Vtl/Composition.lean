import TrackOne.Vtl.Merkle

/-!
# Composition of batch roots without panics

`compose_batch_roots` and `compose_batch_range` of `trackone-ledger/src/vtl/merkle.rs` once more,
with every index, shift, division and subtraction as the partial operation it is. They run on counts
and roots that were decoded from a segment nobody vouches for. `TrackOne.composeBatchRoots` is what
they compute.

* `composeBatchRange_covered`: roots that cover the leaves are cut into roots that cover either
  half, so that no operation of the recursion fails.
* `compose_batch_roots_total`: the composition ends without a panic on every input, and gives a root
  exactly for a valid limit and the right number of roots.
-/

namespace TrackOne.Checked

open SplitTree

/-- What stops a computation. -/
inductive Panic where
  | index
  | shift
  | division
  | overflow
  | outOfSteps
deriving DecidableEq, Repr

def index {α : Type} (items : List α) (i : Nat) : Except Panic α := Except.ofOption .index items[i]?

def sub (a b : UInt64) : Except Panic UInt64 := Except.ofOption .overflow (a.checkedSub b)

def add (a b : UInt64) : Except Panic UInt64 := Except.ofOption .overflow (a.checkedAdd b)

def div (a b : UInt64) : Except Panic UInt64 := if b = 0 then .error .division else .ok (a / b)

/-- `1_u64 << amount`. -/
def shiftOne (amount : Nat) : Except Panic UInt64 :=
  if amount < 64 then .ok ((1 : UInt64) <<< UInt64.ofNat amount) else .error .shift

/-- `63 - n` on `u32`. -/
def subFrom63 (n : Nat) : Except Panic Nat := if n ≤ 63 then .ok (63 - n) else .error .overflow

section

variable [Sha256]

/-- `compose_batch_range`, for a number of nested calls. The argument of `then_some` is evaluated
before the condition is looked at. -/
def composeBatchRange : (steps : Nat) → List Digest → UInt64 → UInt64 →
    Except Panic (Option Digest)
  | 0, _, _, _ => .error .outOfSteps
  | steps + 1, roots, leafCount, batchRecordLimit =>
    if leafCount ≤ batchRecordLimit then do
      let root ← index roots 0
      pure (if roots.length = 1 then some root else none)
    else do
      let last ← sub leafCount 1
      let amount ← subFrom63 last.leadingZeros
      let splitLeafCount ← shiftOne amount
      let splitRoot ← div splitLeafCount batchRecordLimit
      if splitRoot.toNat ≤ roots.length then
        match ← composeBatchRange steps (roots.take splitRoot.toNat) splitLeafCount
            batchRecordLimit with
        | none => pure none
        | some left => do
          let rest ← sub leafCount splitLeafCount
          match ← composeBatchRange steps (roots.drop splitRoot.toNat) rest batchRecordLimit with
          | none => pure none
          | some right => pure (some (nodeHash left right))
      else pure none

def composeBatchRoots (steps : Nat) (batchRoots : List Digest)
    (recordCount batchRecordLimit : UInt64) : Except Panic (Option Digest) :=
  if recordCount = 0 then pure none
  else match ClosurePolicy.validateBatchRecordLimit batchRecordLimit with
    | .error _ => pure none
    | .ok () => do
      let last ← sub recordCount 1
      let full ← div last batchRecordLimit
      let expected ← add 1 full
      if UInt64.ofNat? batchRoots.length ≠ some expected then pure none
      else composeBatchRange steps batchRoots recordCount batchRecordLimit

end

/-! ## The operations that do not fail -/

theorem sub_of_le {a b : UInt64} (h : b.toNat ≤ a.toNat) : sub a b = .ok (a - b) := by
  rw [sub, UInt64.checkedSub, if_pos h]
  rfl

theorem div_of_pos {a b : UInt64} (h : 0 < b.toNat) : div a b = .ok (a / b) := by
  rw [div, if_neg]
  rintro rfl
  simp at h

/-- The three operations that compute the split. -/
theorem split_of_two_le {n : UInt64} (h : 2 ≤ n.toNat) :
    sub n 1 = .ok (n - 1)
      ∧ subFrom63 (n - 1).leadingZeros = .ok (63 - (n - 1).leadingZeros)
      ∧ shiftOne (63 - (n - 1).leadingZeros) = .ok (splitLeafCount n) := by
  have hpred : (n - 1).toNat = n.toNat - 1 := by
    rw [UInt64.toNat_sub_of_le _ _ (by rw [UInt64.le_iff_toNat_le, UInt64.toNat_one]; omega)]
    rfl
  have hne : n - 1 ≠ 0 := by
    intro hzero
    rw [hzero] at hpred
    simp only [UInt64.toNat_zero] at hpred
    omega
  have hzeros : (n - 1).leadingZeros ≤ 63 := by
    rw [UInt64.leadingZeros, if_neg hne]
    omega
  refine ⟨sub_of_le (by rw [UInt64.toNat_one]; omega), ?_, ?_⟩
  · rw [subFrom63, if_pos hzeros]
  · rw [shiftOne, if_pos (by omega)]
    rfl

/-! ## Roots that cover the leaves -/

/-- As many roots as the leaves have batches. -/
def Covers (limit n : Nat) (roots : List Digest) : Prop := roots.length = 1 + (n - 1) / limit

theorem Covers.take_drop {j n : Nat} {roots : List Digest} (hn : 2 ^ j < n)
    (h : Covers (2 ^ j) n roots) :
    splitPoint n / 2 ^ j ≤ roots.length
      ∧ Covers (2 ^ j) (splitPoint n) (roots.take (splitPoint n / 2 ^ j))
      ∧ Covers (2 ^ j) (n - splitPoint n) (roots.drop (splitPoint n / 2 ^ j)) := by
  have hpow : 0 < 2 ^ j := Nat.two_pow_pos j
  have hlt : splitPoint n < n := splitPoint_lt (by omega)
  obtain ⟨q, hq⟩ := dvd_splitPoint hn
  have hqpos : 0 < q := by
    rcases Nat.eq_zero_or_pos q with rfl | hpos
    · have := splitPoint_pos n
      omega
    · exact hpos
  have hdiv : splitPoint n / 2 ^ j = q := by rw [hq, Nat.mul_div_cancel_left q hpow]
  -- The batches of the left half are full, so that they divide evenly.
  have hleft : 1 + (splitPoint n - 1) / 2 ^ j = q := by
    have hpred : splitPoint n - 1 = 2 ^ j * (q - 1) + (2 ^ j - 1) := by
      rw [hq, Nat.mul_sub, Nat.mul_one]
      have : 2 ^ j ≤ 2 ^ j * q := Nat.le_mul_of_pos_right _ hqpos
      omega
    rw [hpred, Nat.mul_add_div hpow, Nat.div_eq_of_lt (by omega : 2 ^ j - 1 < 2 ^ j)]
    omega
  have hright : (n - 1) / 2 ^ j = q + (n - splitPoint n - 1) / 2 ^ j := by
    have hsum : n - 1 = 2 ^ j * q + (n - splitPoint n - 1) := by omega
    rw [hsum, Nat.mul_add_div hpow]
  unfold Covers at h ⊢
  rw [List.length_take, List.length_drop, hdiv, h, hleft, hright]
  generalize (n - splitPoint n - 1) / 2 ^ j = behind
  clear hleft hright
  refine ⟨?_, ?_, ?_⟩
  · omega
  · rw [Nat.min_eq_left (by omega)]
  · omega

section

variable [Sha256]

/-- Down both branches the roots cover the leaves, so nothing fails, and the recursion is the one of
`TrackOne.composeBatchRange`. -/
theorem composeBatchRange_covered {j steps : Nat} {limit n : UInt64} {roots : List Digest}
    (hlimit : limit.toNat = 2 ^ j) (hn : 0 < n.toNat) (h : Covers (2 ^ j) n.toNat roots)
    (hsteps : n.toNat ≤ steps) :
    ∃ root, composeBatchRange steps roots n limit = .ok (some root)
      ∧ TrackOne.composeBatchRange roots n limit = some root := by
  have hpos : 0 < limit.toNat := by rw [hlimit]; exact Nat.two_pow_pos j
  induction steps generalizing roots n with
  | zero => omega
  | succ steps ih =>
    by_cases hle : n ≤ limit
    · -- One batch holds all the leaves.
      have hle' : n.toNat ≤ 2 ^ j := hlimit ▸ UInt64.le_iff_toNat_le.mp hle
      have hone : roots.length = 1 := by
        rw [h, Nat.div_eq_of_lt (by omega)]
      obtain ⟨root, rfl⟩ := List.length_eq_one_iff.mp hone
      refine ⟨root, ?_, ?_⟩
      · rw [composeBatchRange, if_pos hle]
        rfl
      · rw [TrackOne.composeBatchRange, if_pos hle]
        rfl
    -- The checked operations are those of the tree, none of them overflows.
    · have hlt : 2 ^ j < n.toNat := by
        rw [UInt64.le_iff_toNat_le] at hle
        omega
      have htwo : 2 ≤ n.toNat := by
        have := Nat.two_pow_pos j
        omega
      have hsplit : (splitLeafCount n).toNat = splitPoint n.toNat := toNat_splitLeafCount htwo
      have hsplitlt : splitPoint n.toNat < n.toNat := splitPoint_lt htwo
      have hsplitpos : 0 < splitPoint n.toNat := splitPoint_pos n.toNat
      have hroot : (splitLeafCount n / limit).toNat = splitPoint n.toNat / 2 ^ j := by
        rw [UInt64.toNat_div, hsplit, hlimit]
      have hrest : (n - splitLeafCount n).toNat = n.toNat - splitPoint n.toNat := by
        rw [UInt64.toNat_sub_of_le _ _ (by rw [UInt64.le_iff_toNat_le]; omega), hsplit]
      obtain ⟨hfits, htake, hdrop⟩ := h.take_drop hlt
      obtain ⟨left, hleft, hleft'⟩ :=
        @ih (splitLeafCount n) _ (by omega) (by rw [hsplit]; exact htake) (by omega)
      obtain ⟨right, hright, hright'⟩ :=
        @ih (n - splitLeafCount n) _ (by omega) (by rw [hrest]; exact hdrop) (by omega)
      obtain ⟨hlast, hamount, hshift⟩ := split_of_two_le htwo
      refine ⟨nodeHash left right, ?_, ?_⟩
      · rw [composeBatchRange, if_neg hle]
        simp only [hlast, hamount, hshift, div_of_pos hpos, Except.ok_bind, hroot, if_pos hfits,
          hleft, sub_of_le (show (splitLeafCount n).toNat ≤ n.toNat by omega), hright]
        rfl
      · rw [TrackOne.composeBatchRange, if_neg hle, dif_neg (by omega)]
        simp only [hroot, if_pos hfits, hleft', hright']
        rfl

/-- Composition is total: on every list of roots, every count and every limit it ends without a
panic, with the result of `TrackOne.composeBatchRoots`, and that is a root exactly when the count is
positive, the limit a power of two and the number of roots right. -/
theorem compose_batch_roots_total (batchRoots : List Digest)
    (recordCount batchRecordLimit : UInt64) :
    ∃ result, (∀ steps, recordCount.toNat ≤ steps →
        composeBatchRoots steps batchRoots recordCount batchRecordLimit = .ok result)
      ∧ result = TrackOne.composeBatchRoots batchRoots recordCount batchRecordLimit
      ∧ (result.isSome ↔ 0 < recordCount.toNat
          ∧ (∃ j ≤ 63, batchRecordLimit.toNat = 2 ^ j)
          ∧ batchRoots.length = 1 + (recordCount.toNat - 1) / batchRecordLimit.toNat) := by
  -- no records compose to nothing
  by_cases hzero : recordCount = 0
  · subst hzero
    refine ⟨none, fun steps _ => rfl, rfl, ?_⟩
    simp
  · have hpos : 0 < recordCount.toNat := by
      rcases Nat.eq_zero_or_pos recordCount.toNat with h | h
      · exact absurd (UInt64.toNat_inj.mp h) hzero
      · exact h
    cases hvalid : ClosurePolicy.validateBatchRecordLimit batchRecordLimit with
    -- the limit is no power of two
    | error error =>
      refine ⟨none, ?_, ?_, ?_⟩
      · intro steps _
        simp only [composeBatchRoots, if_neg hzero, hvalid]
        rfl
      · simp only [TrackOne.composeBatchRoots, if_neg hzero, hvalid]
      · -- A power of two would have been accepted.
        simp only [Option.isSome_none, Bool.false_eq_true, false_iff]
        rintro ⟨-, ⟨j, hj, hpow⟩, -⟩
        rw [ClosurePolicy.validateBatchRecordLimit_eq_ok.mpr ⟨j, by omega, hpow⟩] at hvalid
        cases hvalid
    | ok accepted =>
      obtain ⟨j, hj, hpow⟩ := ClosurePolicy.validateBatchRecordLimit_eq_ok.mp hvalid
      -- the checked arithmetic before the recursion does not fail
      have hlimit : 0 < batchRecordLimit.toNat := by rw [hpow]; exact Nat.two_pow_pos j
      have hlast : sub recordCount 1 = .ok (recordCount - 1) :=
        sub_of_le (by rw [UInt64.toNat_one]; exact hpos)
      have hexpected : (1 + (recordCount - 1) / batchRecordLimit).toNat
          = 1 + (recordCount.toNat - 1) / batchRecordLimit.toNat :=
        toNat_expectedRoots hzero batchRecordLimit
      have hadd : add 1 ((recordCount - 1) / batchRecordLimit)
          = .ok (1 + (recordCount - 1) / batchRecordLimit) := by
        rw [add, Except.ofOption_eq_ok, UInt64.checkedAdd_eq_some, hexpected, UInt64.toNat_div,
          UInt64.toNat_sub_of_le _ _ (by rw [UInt64.le_iff_toNat_le]; exact hpos), UInt64.toNat_one]
      -- the number of roots decides the rest
      by_cases hcount : UInt64.ofNat? batchRoots.length
          = some (1 + (recordCount - 1) / batchRecordLimit)
      · have hlength : batchRoots.length
            = 1 + (recordCount.toNat - 1) / batchRecordLimit.toNat := by
          rw [← hexpected]
          exact (UInt64.ofNat?_eq_some.mp hcount).symm
        have hcovers : Covers (2 ^ j) recordCount.toNat batchRoots := hpow ▸ hlength
        obtain ⟨root, -, hroot'⟩ :=
          composeBatchRange_covered hpow hpos hcovers (Nat.le_refl _)
        refine ⟨some root, ?_, ?_, ?_⟩
        -- the recursion covers the roots
        · intro steps hsteps
          obtain ⟨root', hroot, hsame⟩ := composeBatchRange_covered hpow hpos hcovers hsteps
          rw [hroot'] at hsame
          cases hsame
          simp only [composeBatchRoots, if_neg hzero, hvalid, hlast, div_of_pos hlimit,
            Except.ok_bind, hadd, hcount, ne_eq, not_true_eq_false, if_false, hroot]
        · simp only [TrackOne.composeBatchRoots, if_neg hzero, hvalid, hcount, ne_eq,
            not_true_eq_false, if_false, hroot']
        · simp only [Option.isSome_some, true_iff]
          exact ⟨hpos, ⟨j, by omega, hpow⟩, hlength⟩
      -- a wrong number of roots is refused
      · refine ⟨none, ?_, ?_, ?_⟩
        · intro steps _
          simp only [composeBatchRoots, if_neg hzero, hvalid, hlast, div_of_pos hlimit,
            Except.ok_bind, hadd, ne_eq, hcount, not_false_eq_true, if_true]
          rfl
        · simp only [TrackOne.composeBatchRoots, if_neg hzero, hvalid, ne_eq, hcount,
            not_false_eq_true, if_true]
        · simp only [Option.isSome_none, Bool.false_eq_true, false_iff]
          rintro ⟨-, -, hlength⟩
          exact hcount (UInt64.ofNat?_eq_some.mpr (hexpected.trans hlength.symm))

end

end TrackOne.Checked
