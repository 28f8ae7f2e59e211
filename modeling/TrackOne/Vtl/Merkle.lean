import TrackOne.Lib.SplitTree
import TrackOne.Vtl.Basic

/-!
# The Merkle commitment

`trackone-ledger/src/vtl/merkle.rs`: records are hashed with a leaf tag, the leaf hashes are
sorted and reduced by the left-full tree of `SplitTree`, and a segment stores one subtree root
per aligned batch.

* `composeBatchRoots_batchRootsFromLeafHashes`: the stored batch roots compose to the root of
  the whole leaf list, for every accepted batch limit.
* `merkleRootFromRecords_binding`: the root depends on the multiset of records only, and binds it
  up to a collision of the hash on inputs that were really hashed.
-/

namespace TrackOne

open SplitTree

/-- The split of `compose_batch_range`: `1 << (63 - (leaf_count - 1).leading_zeros())`. -/
def splitLeafCount (leafCount : UInt64) : UInt64 :=
  (1 : UInt64) <<< UInt64.ofNat (63 - (leafCount - 1).leadingZeros)

theorem toNat_splitLeafCount {n : UInt64} (h : 2 ≤ n.toNat) :
    (splitLeafCount n).toNat = splitPoint n.toNat := by
  have hpred : (n - 1).toNat = n.toNat - 1 := by
    rw [UInt64.toNat_sub_of_le _ _ (by rw [UInt64.le_iff_toNat_le]; simp; omega)]
    rfl
  have hne : n - 1 ≠ 0 := by
    intro h0
    rw [h0] at hpred
    simp at hpred
    omega
  have hlog : Nat.log2 (n.toNat - 1) < 64 := by
    rw [Nat.log2_lt (by omega)]
    have := n.toNat_lt
    omega
  have hshift : 63 - (63 - Nat.log2 (n.toNat - 1)) = Nat.log2 (n.toNat - 1) := by omega
  unfold splitLeafCount UInt64.leadingZeros splitPoint
  rw [if_neg hne, hpred, hshift, UInt64.toNat_shiftLeft]
  have hsmall : (UInt64.ofNat (Nat.log2 (n.toNat - 1))).toNat % 64 = Nat.log2 (n.toNat - 1) := by
    rw [UInt64.toNat_ofNat_of_lt64 (by omega), Nat.mod_eq_of_lt hlog]
  rw [hsmall, Nat.shiftLeft_eq]
  simp only [UInt64.toNat_one, Nat.one_mul]
  exact Nat.mod_eq_of_lt (Nat.pow_lt_pow_right (by omega) hlog)

/-- The number of batch roots the source expects does not wrap. -/
theorem toNat_expectedRoots {n : UInt64} (hn : n ≠ 0) (limit : UInt64) :
    (1 + (n - 1) / limit).toNat = 1 + (n.toNat - 1) / limit.toNat := by
  have hpos : 0 < n.toNat := by
    rcases Nat.eq_zero_or_pos n.toNat with hzero | hpos
    · exact absurd (UInt64.toNat_inj.mp hzero) hn
    · exact hpos
  have hpred : (n - 1).toNat = n.toNat - 1 := by
    rw [UInt64.toNat_sub_of_le _ _ (by rw [UInt64.le_iff_toNat_le]; exact hpos)]
    rfl
  have hdiv : (n.toNat - 1) / limit.toNat ≤ n.toNat - 1 := Nat.div_le_self _ _
  have hlt := n.toNat_lt
  rw [UInt64.toNat_add, UInt64.toNat_div, hpred, UInt64.toNat_one]
  exact Nat.mod_eq_of_lt (by omega)

/-! ## The operations -/

section

variable [Sha256]

def prefixedHash (tag : UInt8) (data : Bytes) : Digest := sha256Digest (tag :: data)

/-- The preimage of an inner node: `0x01`, then the two child hashes. -/
def nodePreimage (left right : Digest) : Bytes := 1 :: (left.bytes ++ right.bytes)

/-- The hash of an inner node. -/
def nodeHash (left right : Digest) : Digest := sha256Digest (nodePreimage left right)

/-- `mth`: the empty list hashes the empty string, a single leaf is its own root, and a longer
list is split at the largest power of two below its length. -/
def mth (leaves : List Digest) : Digest := fold (sha256Digest []) nodeHash leaves

def merkleRootFromLeafHashes (leaves : List Digest) : Digest := mth leaves

structure MerkleResult where
  root : Digest
  leafHashes : List Digest
deriving DecidableEq

def merkleRootFromRecords (records : List Bytes) : MerkleResult :=
  let leafHashes := (records.map (prefixedHash 0)).mergeSort Digest.ble
  { root := mth leafHashes, leafHashes }

def batchRootsFromLeafHashes (leafHashes : List Digest) (batchRecordLimit : UInt64) :
    Option (List Digest) :=
  match ClosurePolicy.validateBatchRecordLimit batchRecordLimit with
  | .error _ => none
  | .ok () => some ((chunks batchRecordLimit.toNat leafHashes).map mth)

/-- `compose_batch_range`. With a positive limit the second branch is never taken; with limit
zero it is the point where the source's `63 - leading_zeros(0)` underflows. -/
def composeBatchRange (roots : List Digest) (leafCount batchRecordLimit : UInt64) :
    Option Digest :=
  if leafCount ≤ batchRecordLimit then
    if roots.length = 1 then roots.head? else none
  else if _h : leafCount.toNat ≤ 1 then none
  else
    let splitRoot := (splitLeafCount leafCount / batchRecordLimit).toNat
    if splitRoot ≤ roots.length then do
      let left ← composeBatchRange (roots.take splitRoot) (splitLeafCount leafCount)
        batchRecordLimit
      let right ← composeBatchRange (roots.drop splitRoot) (leafCount - splitLeafCount leafCount)
        batchRecordLimit
      some (nodeHash left right)
    else none
termination_by leafCount.toNat
decreasing_by
  · rw [toNat_splitLeafCount (n := leafCount) (by omega)]
    exact splitPoint_lt (by omega)
  · have hsplit := toNat_splitLeafCount (n := leafCount) (by omega)
    have hlt := splitPoint_lt (n := leafCount.toNat) (by omega)
    have hpos := splitPoint_pos leafCount.toNat
    rw [UInt64.toNat_sub_of_le _ _ (by rw [UInt64.le_iff_toNat_le]; omega)]
    omega

def composeBatchRoots (batchRoots : List Digest) (recordCount batchRecordLimit : UInt64) :
    Option Digest :=
  if recordCount = 0 then none
  else match ClosurePolicy.validateBatchRecordLimit batchRecordLimit with
    | .error _ => none
    | .ok () =>
      let expected := 1 + ((recordCount - 1) / batchRecordLimit)
      if UInt64.ofNat? batchRoots.length ≠ some expected then none
      else composeBatchRange batchRoots recordCount batchRecordLimit

/-! ## Composition -/

/-- The 64-bit recursion is the library's recursion on the numbers the words denote. -/
theorem composeBatchRange_eq_compose (roots : List Digest) (n limit : UInt64) :
    composeBatchRange roots n limit = compose nodeHash limit.toNat roots n.toNat := by
  induction roots, n using composeBatchRange.induct limit with
  | case1 roots n hle hone =>
    rw [composeBatchRange, if_pos hle, compose_of_le _ _ (UInt64.le_iff_toNat_le.mp hle)]
  | case2 roots n hle hone =>
    rw [composeBatchRange, if_pos hle, compose_of_le _ _ (UInt64.le_iff_toNat_le.mp hle)]
  | case3 roots n hle hsmall =>
    rw [composeBatchRange, if_neg hle, dif_pos hsmall, compose,
      if_neg (by rwa [UInt64.le_iff_toNat_le] at hle), dif_pos hsmall]
  | case4 roots n hle hbig splitRoot hfit ihl ihr =>
    have hlimit : limit.toNat < n.toNat := by rw [UInt64.le_iff_toNat_le] at hle; omega
    have hsplit : (splitLeafCount n).toNat = splitPoint n.toNat :=
      toNat_splitLeafCount (by omega)
    have hlt := splitPoint_lt (n := n.toNat) (by omega)
    have hroot : splitRoot = splitPoint n.toNat / limit.toNat := by
      rw [← hsplit]; exact UInt64.toNat_div _ _
    have hrest : (n - splitLeafCount n).toNat = n.toNat - splitPoint n.toNat := by
      rw [UInt64.toNat_sub_of_le _ _ (by rw [UInt64.le_iff_toNat_le]; omega), hsplit]
    rw [compose_of_lt nodeHash _ hlimit (by omega) (hroot ▸ hfit), ← hroot, ← hsplit, ← ihl,
      hsplit, ← hrest, ← ihr, composeBatchRange, if_neg hle, dif_neg hbig]
    simp only [Option.map_eq_bind]
    exact if_pos hfit
  | case5 roots n hle hbig splitRoot hfit =>
    have hlimit : limit.toNat < n.toNat := by rw [UInt64.le_iff_toNat_le] at hle; omega
    have hroot : splitRoot = splitPoint n.toNat / limit.toNat := by
      rw [← toNat_splitLeafCount (n := n) (by omega)]; exact UInt64.toNat_div _ _
    rw [compose_of_not_fit nodeHash _ hlimit (hroot ▸ hfit), composeBatchRange, if_neg hle,
      dif_neg hbig]
    exact if_neg hfit

/-- **Composition of aligned batch subtrees.** Every non-empty leaf list cut at an accepted batch
limit has `1 + (n - 1) / limit` batch roots, and they compose to the root of the flat tree. -/
theorem composeBatchRoots_batchRootsFromLeafHashes (leaves : List Digest)
    (batchRecordLimit : UInt64) (hne : leaves ≠ [])
    (hlimit : ClosurePolicy.validateBatchRecordLimit batchRecordLimit = .ok ())
    (hlen : leaves.length < 2 ^ 64) :
    ∃ roots, batchRootsFromLeafHashes leaves batchRecordLimit = some roots
      ∧ roots.length = 1 + (leaves.length - 1) / batchRecordLimit.toNat
      ∧ composeBatchRoots roots (UInt64.ofNat leaves.length) batchRecordLimit
          = some (merkleRootFromLeafHashes leaves) := by
  obtain ⟨j, hj, hpow⟩ := ClosurePolicy.validateBatchRecordLimit_eq_ok.mp hlimit
  have hpos : 0 < batchRecordLimit.toNat := by rw [hpow]; exact Nat.two_pow_pos j
  have hcount : (UInt64.ofNat leaves.length).toNat = leaves.length :=
    UInt64.toNat_ofNat_of_lt64 hlen
  have hroots : ((chunks batchRecordLimit.toNat leaves).map mth).length
      = 1 + (leaves.length - 1) / batchRecordLimit.toNat := by
    rw [List.length_map, length_chunks hpos _ leaves rfl hne]
  refine ⟨_, by simp [batchRootsFromLeafHashes, hlimit], hroots, ?_⟩
  have hnz : UInt64.ofNat leaves.length ≠ 0 := by
    intro h
    rw [h] at hcount
    simp at hcount
    exact hne (by simpa using hcount.symm)
  have hexpected : (1 + (UInt64.ofNat leaves.length - 1) / batchRecordLimit).toNat
      = 1 + (leaves.length - 1) / batchRecordLimit.toNat := by
    rw [toNat_expectedRoots hnz, hcount]
  have hcard : UInt64.ofNat? ((chunks batchRecordLimit.toNat leaves).map mth).length
      = some (1 + (UInt64.ofNat leaves.length - 1) / batchRecordLimit) :=
    UInt64.ofNat?_eq_some.mpr (by rw [hexpected, hroots])
  unfold composeBatchRoots
  simp only [hnz, if_false, hlimit, hcard, ne_eq, not_true_eq_false]
  rw [composeBatchRange_eq_compose, hcount]
  exact compose_chunks (sha256Digest []) nodeHash _ hpow _ leaves rfl hne

/-! ## Binding -/

/-- The byte strings `mth` hashes on a leaf list. -/
def mthInputs (leaves : List Digest) : List Bytes :=
  if leaves = [] then [[]] else nodeInputs sha256Digest nodePreimage (sha256Digest []) leaves

/-- The byte strings `merkle_root_from_records` hashes: `0x00` and a record, `0x01` and two child
hashes, or the empty string for the empty list. -/
def hashedInputs (records : List Bytes) : List Bytes :=
  records.map (fun record => 0 :: record) ++ mthInputs (merkleRootFromRecords records).leafHashes

omit [Sha256] in
theorem nodePreimage_inj {a b c d : Digest} (h : nodePreimage a b = nodePreimage c d) :
    a = c ∧ b = d := by
  have happ := List.append_inj (List.cons.inj h).2 (by rw [a.length_eq, c.length_eq])
  exact ⟨Digest.ext happ.1, Digest.ext happ.2⟩

theorem leafHashes_perm (records : List Bytes) :
    (merkleRootFromRecords records).leafHashes.Perm (records.map (prefixedHash 0)) :=
  List.mergeSort_perm _ _

theorem leafHashes_eq_nil {records : List Bytes} :
    (merkleRootFromRecords records).leafHashes = [] ↔ records = [] := by
  constructor
  · intro h
    have hperm := leafHashes_perm records
    rw [h] at hperm
    simpa using hperm.symm.eq_nil
  · rintro rfl
    simp [merkleRootFromRecords]

/-- The leaf list of a permuted record list is the same list: sorting forgets the order. -/
theorem merkleRootFromRecords_congr {as bs : List Bytes} (h : as.Perm bs) :
    merkleRootFromRecords as = merkleRootFromRecords bs := by
  have hsorted : (as.map (prefixedHash 0)).mergeSort Digest.ble
      = (bs.map (prefixedHash 0)).mergeSort Digest.ble := by
    have hperm : ((as.map (prefixedHash 0)).mergeSort Digest.ble).Perm
        ((bs.map (prefixedHash 0)).mergeSort Digest.ble) :=
      ((List.mergeSort_perm _ _).trans (h.map _)).trans (List.mergeSort_perm _ _).symm
    exact hperm.eq_of_pairwise (fun a b _ _ hab hba => Digest.ble_antisymm hab hba)
      (List.pairwise_mergeSort Digest.ble_trans Digest.ble_total _)
      (List.pairwise_mergeSort Digest.ble_trans Digest.ble_total _)
  simp only [merkleRootFromRecords, hsorted]

/-- Leaves that are hashes of tagged records. No tagged record is a node preimage. -/
theorem separated_of_subset {records : List Bytes} {leaves : List Digest}
    (hsub : leaves ⊆ records.map (prefixedHash 0)) :
    Separated sha256Digest nodePreimage (records.map fun record => 0 :: record) leaves := by
  constructor
  · intro a ha
    obtain ⟨record, hr, rfl⟩ := List.mem_map.mp (hsub ha)
    exact ⟨0 :: record, List.mem_map_of_mem hr, rfl⟩
  · intro x hx l r he
    obtain ⟨record, _, rfl⟩ := List.mem_map.mp hx
    simp [nodePreimage] at he

theorem separated_leafHashes {records others : List Bytes} (hsub : records ⊆ others) :
    Separated sha256Digest nodePreimage (others.map fun record => 0 :: record)
      (merkleRootFromRecords records).leafHashes :=
  separated_of_subset (List.Subset.trans (leafHashes_perm records).subset (List.map_subset _ hsub))

/-- The root of a non-empty record list is the hash of a non-empty input. -/
theorem exists_root_input {records : List Bytes} (hne : records ≠ []) :
    ∃ x ∈ hashedInputs records, x ≠ [] ∧ sha256Digest x = (merkleRootFromRecords records).root := by
  have hleaves : (merkleRootFromRecords records).leafHashes ≠ [] := by
    rwa [ne_eq, leafHashes_eq_nil]
  have hroot : (merkleRootFromRecords records).root
      = mth (merkleRootFromRecords records).leafHashes := rfl
  by_cases hlen : 2 ≤ (merkleRootFromRecords records).leafHashes.length
  · refine ⟨nodePreimage _ _, ?_, by simp [nodePreimage],
      (hroot.trans (fold_of_two_le _ _ hlen)).symm⟩
    refine List.mem_append_right _ ?_
    rw [mthInputs, if_neg hleaves, nodeInputs_of_two_le _ _ _ hlen]
    exact List.mem_cons_self
  · obtain ⟨leaf, hleaf⟩ : ∃ leaf, (merkleRootFromRecords records).leafHashes = [leaf] := by
      have hpos := List.length_pos_of_ne_nil hleaves
      exact List.length_eq_one_iff.mp (by omega)
    obtain ⟨x, hx, hxa⟩ := (separated_leafHashes (List.Subset.refl records)).hashed leaf
      (by rw [hleaf]; simp)
    refine ⟨x, List.mem_append_left _ hx, ?_, ?_⟩
    · obtain ⟨record, _, rfl⟩ := List.mem_map.mp hx
      simp
    · rw [hxa, hroot, hleaf, mth, fold_singleton]

/-- **The record commitment is binding and order independent.** A permutation of the records has
the same root and leaf list; two record lists with one root hold the same records with the same
multiplicities, unless two different byte strings hashed on the way collide. -/
theorem merkleRootFromRecords_binding (as bs : List Bytes) :
    (bs.Perm as → merkleRootFromRecords bs = merkleRootFromRecords as)
      ∧ ((merkleRootFromRecords as).root = (merkleRootFromRecords bs).root →
          bs.Perm as ∨ Collides sha256Digest (hashedInputs as ++ hashedInputs bs)) := by
  refine ⟨merkleRootFromRecords_congr, fun hroot => ?_⟩
  -- an empty list hashes the empty string, which no other root input is
  have hempty : ∀ {xs ys : List Bytes}, xs = [] → ys ≠ [] →
      (merkleRootFromRecords xs).root = (merkleRootFromRecords ys).root →
      Collides sha256Digest (hashedInputs xs ++ hashedInputs ys) := by
    rintro xs ys rfl hys heq
    obtain ⟨x, hx, hxne, hxroot⟩ := exists_root_input hys
    refine ⟨[], List.mem_append_left _ ?_, x, List.mem_append_right _ hx, hxne.symm, ?_⟩
    · simp [hashedInputs, mthInputs, merkleRootFromRecords]
    · rw [hxroot, ← heq]
      simp [merkleRootFromRecords, mth]
  by_cases has : as = []
  · by_cases hbs : bs = []
    · exact Or.inl (by rw [has, hbs])
    · exact Or.inr (hempty has hbs hroot)
  by_cases hbs : bs = []
  · refine Or.inr ((hempty hbs has hroot.symm).mono ?_)
    intro x hx
    simp only [List.mem_append] at hx ⊢
    tauto
  -- two proper trees: the leaf lists agree, and then the records do
  have hsa := separated_leafHashes (List.subset_append_left as bs)
  have hsb := separated_leafHashes (List.subset_append_right as bs)
  have hla : (merkleRootFromRecords as).leafHashes ≠ [] := by rwa [ne_eq, leafHashes_eq_nil]
  have hlb : (merkleRootFromRecords bs).leafHashes ≠ [] := by rwa [ne_eq, leafHashes_eq_nil]
  rcases fold_injective_or_collides sha256Digest nodePreimage (sha256Digest [])
      (fun _ _ _ _ => nodePreimage_inj) _ _ _ _ rfl hla hlb hsa hsb hroot with hleaves | hcol
  · have hmap : (bs.map fun record => sha256Digest (0 :: record)).Perm
        (as.map fun record => sha256Digest (0 :: record)) :=
      (leafHashes_perm bs).symm.trans (hleaves ▸ leafHashes_perm as)
    rcases perm_of_map_perm_or_collides (fun x y he => (List.cons.inj he).2) bs as hmap
      with hperm | hcol
    · exact Or.inl hperm
    · refine Or.inr (hcol.mono ?_)
      intro x hx
      simp only [hashedInputs, List.mem_append] at hx ⊢
      tauto
  · refine Or.inr (hcol.mono ?_)
    intro x hx
    simp only [hashedInputs, mthInputs, if_neg hla, if_neg hlb, List.map_append,
      List.mem_append] at hx ⊢
    tauto

end

/-- Three leaves in batches of two. -/
theorem composeBatchRoots_three_leaves :
    letI := Sha256.fips
    ∃ roots, batchRootsFromLeafHashes [Digest.zero, sha256Digest [], Digest.zero] 2 = some roots
      ∧ roots.length = 2
      ∧ composeBatchRoots roots 3 2
          = some (merkleRootFromLeafHashes [Digest.zero, sha256Digest [], Digest.zero]) := by
  let := Sha256.fips
  obtain ⟨roots, hroots, hcount, hcompose⟩ := composeBatchRoots_batchRootsFromLeafHashes
    [Digest.zero, sha256Digest [], Digest.zero] 2 (by simp) (by decide) (by simp)
  exact ⟨roots, hroots, hcount.trans (by decide), hcompose⟩

end TrackOne
