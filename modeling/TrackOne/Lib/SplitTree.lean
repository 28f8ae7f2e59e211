import Mathlib.Tactic.Common
import Mathlib.Data.List.Basic
import Mathlib.Algebra.Order.Group.Nat
import Mathlib.Data.Nat.Log

/-!
# Left-full binary trees over a list

A list of `n ≥ 2` leaves is split at the largest power of two strictly below `n` and the two
halves are reduced recursively. This module owns the facts about that shape which do not depend
on what the leaves are:

* `splitPoint` and its arithmetic (`splitPoint_pos`, `splitPoint_lt`, `le_splitPoint_of_lt`,
  `dvd_splitPoint`);
* `fold`, the reduction, with its one-step equations;
* `chunks`, the aligned cut of a list, and `compose`, the reduction of one root per chunk;
  `compose_chunks` says that composing the chunk roots gives back the root of the whole list, and
  `compose_eq_fold` that it is the plain fold of the roots;
* `perm_of_map_perm_or_collides`: equal multisets of tagged hashes come from equal multisets,
  up to a collision;
* `fold_injective_or_collides`: when the node operation is a hash of an injective pairing, two
  lists with the same root are equal or the hash collides on inputs it was really given.
-/

namespace SplitTree

/-! ## The split point -/

/-- The largest power of two strictly below `n`, for `n ≥ 2`. -/
def splitPoint (n : Nat) : Nat := 2 ^ Nat.log2 (n - 1)

/-- The left half is not empty. -/
theorem splitPoint_pos (n : Nat) : 0 < splitPoint n := Nat.pow_pos (by omega)

/-- The right half is not empty. -/
theorem splitPoint_lt {n : Nat} (h : 2 ≤ n) : splitPoint n < n := by
  have hle : splitPoint n ≤ n - 1 := Nat.log2_self_le (by omega)
  omega

/-- A power of two below `n` is at most the split point. -/
theorem le_splitPoint_of_lt {j n : Nat} (h : 2 ^ j < n) : 2 ^ j ≤ splitPoint n := by
  have hpos := Nat.two_pow_pos j
  apply Nat.pow_le_pow_right (by omega)
  rw [Nat.le_log2 (by omega)]
  omega

/-- Every split point above a power of two is aligned to it. -/
theorem dvd_splitPoint {j n : Nat} (h : 2 ^ j < n) : 2 ^ j ∣ splitPoint n := by
  have hle := le_splitPoint_of_lt h
  exact Nat.pow_dvd_pow 2 ((Nat.pow_le_pow_iff_right (by omega)).mp hle)

variable {α : Type}

/-- The split point of the leaves, in chunks, is the split point of the chunks. -/
theorem splitPoint_div {j n : Nat} (h : 2 ^ j < n) :
    splitPoint n / 2 ^ j = splitPoint (1 + (n - 1) / 2 ^ j) := by
  have hle : j ≤ Nat.log2 (n - 1) := by
    rw [Nat.le_log2 (by have := Nat.two_pow_pos j; omega)]
    omega
  have hlog : Nat.log2 ((n - 1) / 2 ^ j) = Nat.log2 (n - 1) - j := by
    rw [Nat.log2_eq_log_two, Nat.log2_eq_log_two, Nat.log_div_base_pow]
  unfold splitPoint
  rw [Nat.add_sub_cancel_left, hlog, Nat.pow_div hle (by omega)]

/-- A cut strictly inside a list leaves two non-empty parts. -/
theorem take_drop_ne_nil {xs : List α} {k : Nat} (h0 : 0 < k) (hk : k < xs.length) :
    xs.take k ≠ [] ∧ xs.drop k ≠ [] := by
  constructor <;> intro he <;> have hlen := congrArg List.length he
  · simp only [List.length_take, List.length_nil] at hlen; omega
  · simp only [List.length_drop, List.length_nil] at hlen; omega

/-! ## Reducing a list -/

section Fold

variable (empty : α) (node : α → α → α)

/-- Reduce a list of leaves: the empty list has its own value, a single leaf is its own root. -/
def fold (leaves : List α) : α :=
  match leaves with
  | [] => empty
  | [leaf] => leaf
  | a :: b :: rest =>
    let leaves := a :: b :: rest
    let k := splitPoint leaves.length
    node (fold (leaves.take k)) (fold (leaves.drop k))
termination_by leaves.length
decreasing_by
  · have := splitPoint_lt (n := (a :: b :: rest).length) (by simp)
    simp only [List.length_take]
    omega
  · have := splitPoint_pos (a :: b :: rest).length
    have : 0 < (a :: b :: rest).length := by simp
    simp only [List.length_drop]
    omega

/-- The tree of no leaves. -/
@[simp] theorem fold_nil : fold empty node [] = empty := by rw [fold]

/-- The tree of one leaf is the leaf. -/
@[simp] theorem fold_singleton (leaf : α) : fold empty node [leaf] = leaf := by rw [fold]

/-- The tree of two leaves or more is a node over its halves. -/
theorem fold_of_two_le {leaves : List α} (h : 2 ≤ leaves.length) :
    fold empty node leaves =
      node (fold empty node (leaves.take (splitPoint leaves.length)))
        (fold empty node (leaves.drop (splitPoint leaves.length))) := by
  match leaves, h with
  | a :: b :: rest, _ => rw [fold]

end Fold

/-! ## Aligned chunks -/

/-- Cut a list into consecutive pieces of `limit` elements, the last one possibly shorter. -/
def chunks (limit : Nat) (xs : List α) : List (List α) :=
  if _h : limit = 0 ∨ xs = [] then []
  else xs.take limit :: chunks limit (xs.drop limit)
termination_by xs.length
decreasing_by
  have : 0 < xs.length := List.length_pos_of_ne_nil (by tauto)
  simp only [List.length_drop]
  omega

/-- There are no chunks of nothing. -/
@[simp] theorem chunks_nil (limit : Nat) : chunks limit ([] : List α) = [] := by
  rw [chunks]; simp

/-- The first chunk and those of the rest. -/
theorem chunks_of_ne_nil {limit : Nat} {xs : List α} (hlimit : 0 < limit) (hxs : xs ≠ []) :
    chunks limit xs = xs.take limit :: chunks limit (xs.drop limit) := by
  rw [chunks, dif_neg]
  simp [hxs]
  omega

/-- A list within the limit is one chunk. -/
theorem chunks_of_length_le {limit : Nat} {xs : List α} (hxs : xs ≠ [])
    (hle : xs.length ≤ limit) : chunks limit xs = [xs] := by
  have hpos : 0 < xs.length := List.length_pos_of_ne_nil hxs
  rw [chunks_of_ne_nil (by omega) hxs, List.take_of_length_le hle, List.drop_of_length_le hle,
    chunks_nil]

/-- Cutting an aligned prefix off does not move any later cut. -/
theorem chunks_append {limit : Nat} (hlimit : 0 < limit) (ys : List α) :
    ∀ (m : Nat) (xs : List α), xs.length = m * limit →
      chunks limit (xs ++ ys) = chunks limit xs ++ chunks limit ys := by
  intro m
  induction m with
  | zero =>
    intro xs hxs
    have hnil : xs = [] := by simpa using hxs
    simp [hnil]
  | succ m ih =>
    intro xs hxs
    have hle : limit ≤ xs.length := by rw [hxs, Nat.succ_mul]; omega
    have hne : xs ≠ [] := by
      intro h; subst h; simp at hle; omega
    have hdrop : (xs.drop limit).length = m * limit := by
      rw [List.length_drop, hxs, Nat.succ_mul]; omega
    rw [chunks_of_ne_nil hlimit (by simp [hne]), chunks_of_ne_nil hlimit hne,
      List.take_append_of_le_length hle, List.drop_append_of_le_length hle, ih _ hdrop,
      List.cons_append]

/-- The number of chunks. Induction on the length of the list, a chunk at a time. -/
theorem length_chunks {limit : Nat} (hlimit : 0 < limit) :
    ∀ (n : Nat) (xs : List α), xs.length = n → xs ≠ [] →
      (chunks limit xs).length = 1 + (n - 1) / limit := by
  intro n
  induction n using Nat.strong_induction_on with
  | _ n ih =>
    intro xs hn hxs
    have hpos : 0 < xs.length := List.length_pos_of_ne_nil hxs
    by_cases hle : n ≤ limit
    · rw [chunks_of_length_le hxs (by omega), Nat.div_eq_of_lt (by omega)]
      rfl
    · have hdrop : (xs.drop limit).length = n - limit := by rw [List.length_drop, hn]
      have hne : xs.drop limit ≠ [] := by
        intro h; rw [h] at hdrop; simp at hdrop; omega
      rw [chunks_of_ne_nil hlimit hxs, List.length_cons, ih (n - limit) (by omega) _ hdrop hne]
      have hsplit : n - 1 = (n - limit - 1) + limit := by omega
      rw [hsplit, Nat.add_div_right _ hlimit]
      omega

/-- A multiple of the limit is cut into full chunks only. -/
theorem length_chunks_mul {limit m : Nat} (hlimit : 0 < limit) {xs : List α}
    (hxs : xs.length = m * limit) : (chunks limit xs).length = m := by
  rcases Nat.eq_zero_or_pos m with hm | hm
  · have hnil : xs = [] := by simpa [hm] using hxs
    simp [hnil, hm]
  · have hne : xs ≠ [] := by
      intro h
      rw [h, List.length_nil] at hxs
      exact absurd hxs.symm (Nat.mul_pos hm hlimit).ne'
    have hpred : m * limit - 1 = (m - 1) * limit + (limit - 1) := by
      obtain ⟨m', rfl⟩ : ∃ m', m = m' + 1 := ⟨m - 1, by omega⟩
      rw [Nat.succ_mul, Nat.add_sub_cancel]
      omega
    rw [length_chunks hlimit _ xs hxs hne, hpred, Nat.add_comm ((m - 1) * limit),
      Nat.add_mul_div_right _ _ hlimit, Nat.div_eq_of_lt (by omega)]
    omega

/-! ## Composing one root per chunk -/

section Compose

variable (empty : α) (node : α → α → α) (limit : Nat)

/-- Reduce the chunk roots of a list of `n` leaves without the leaves: split where `fold` splits
the leaves, at the root that starts the right half. -/
def compose (roots : List α) (n : Nat) : Option α :=
  if n ≤ limit then
    if roots.length = 1 then roots.head? else none
  else if _h : n ≤ 1 then none
  else
    let k := splitPoint n
    if k / limit ≤ roots.length then do
      let left ← compose (roots.take (k / limit)) k
      let right ← compose (roots.drop (k / limit)) (n - k)
      some (node left right)
    else none
termination_by n
decreasing_by
  · exact splitPoint_lt (by omega)
  · have := splitPoint_pos n
    omega

/-- Within the limit the one root is the answer. -/
theorem compose_of_le {roots : List α} {n : Nat} (h : n ≤ limit) :
    compose node limit roots n = if roots.length = 1 then roots.head? else none := by
  rw [compose, if_pos h]

/-- Past the limit the answer is a node over those of the two halves. -/
theorem compose_of_lt {roots : List α} {n : Nat} (h : limit < n) (hn : 2 ≤ n)
    (hroots : splitPoint n / limit ≤ roots.length) :
    compose node limit roots n =
      (compose node limit (roots.take (splitPoint n / limit)) (splitPoint n)).bind fun left =>
        (compose node limit (roots.drop (splitPoint n / limit)) (n - splitPoint n)).map
          (node left) := by
  rw [compose, if_neg (by omega), dif_neg (by omega)]
  simp only [if_pos hroots, Option.map_eq_bind]
  rfl

/-- With fewer roots than the left half needs there is no answer. -/
theorem compose_of_not_fit {roots : List α} {n : Nat} (h : limit < n)
    (hroots : ¬ splitPoint n / limit ≤ roots.length) : compose node limit roots n = none := by
  rw [compose, if_neg (by omega)]
  simp only [if_neg hroots, dite_eq_ite, ite_self]

/-- **Composition is exact.** The roots of the chunks of a list, composed, are the root of the
list. By strong induction on the length: below the limit there is a single chunk, above it the
split point is a multiple of the limit, so the cut falls between two chunks. -/
theorem compose_chunks {j : Nat} (hlimit : limit = 2 ^ j) :
    ∀ (n : Nat) (leaves : List α), leaves.length = n → leaves ≠ [] →
      compose node limit ((chunks limit leaves).map (fold empty node)) n
        = some (fold empty node leaves) := by
  have hpos : 0 < limit := by rw [hlimit]; exact Nat.pow_pos (by omega)
  intro n
  induction n using Nat.strong_induction_on with
  | _ n ih =>
    intro leaves hn hne
    have hlen : 0 < leaves.length := List.length_pos_of_ne_nil hne
    by_cases hle : n ≤ limit
    · rw [compose_of_le node limit hle, chunks_of_length_le hne (by omega)]
      simp
    · have hlt : 2 ^ j < n := by omega
      have hn2 : 2 ≤ n := by omega
      have hklt : splitPoint n < n := splitPoint_lt hn2
      have hkpos := splitPoint_pos n
      obtain ⟨m, hm⟩ := dvd_splitPoint hlt
      rw [← hlimit, Nat.mul_comm] at hm
      have hkm : splitPoint n / limit = m := by rw [hm, Nat.mul_div_cancel _ hpos]
      -- both halves of the leaves, and what the chunks of the whole list are in terms of them
      have hleft : (leaves.take (splitPoint n)).length = splitPoint n := by
        rw [List.length_take]; omega
      have hright : (leaves.drop (splitPoint n)).length = n - splitPoint n := by
        rw [List.length_drop, hn]
      obtain ⟨hleft_ne, hright_ne⟩ := take_drop_ne_nil hkpos (by omega : _ < leaves.length)
      have hchunks : chunks limit leaves
          = chunks limit (leaves.take (splitPoint n))
            ++ chunks limit (leaves.drop (splitPoint n)) := by
        conv_lhs => rw [← List.take_append_drop (splitPoint n) leaves]
        exact chunks_append hpos _ m _ (by rw [hleft, hm])
      have hcount : ((chunks limit (leaves.take (splitPoint n))).map (fold empty node)).length
          = m := by
        rw [List.length_map, length_chunks_mul hpos (by rw [hleft, hm])]
      have hfit : splitPoint n / limit
          ≤ ((chunks limit leaves).map (fold empty node)).length := by
        rw [hkm, hchunks, List.map_append, List.length_append, hcount]; omega
      rw [compose_of_lt node limit (by omega) hn2 hfit, hkm, hchunks, List.map_append,
        List.take_left' hcount, List.drop_left' hcount, ih _ hklt _ hleft hleft_ne,
        ih _ (by omega) _ hright hright_ne,
        fold_of_two_le empty node (show 2 ≤ leaves.length by omega), hn]
      rfl

/-- Composing the roots of aligned chunks is the fold of the list of roots: the fold splits the
roots where the leaves below them are split. -/
theorem compose_eq_fold {j : Nat} (hlimit : limit = 2 ^ j) (n : Nat) :
    ∀ roots : List α, 0 < n → roots.length = 1 + (n - 1) / limit →
      compose node limit roots n = some (fold empty node roots) := by
  have hpos : 0 < limit := by rw [hlimit]; exact Nat.two_pow_pos j
  induction n using Nat.strongRecOn with
  | _ n ih =>
    intro roots hn hlen
    by_cases hle : n ≤ limit
    · -- one chunk
      have hone : roots.length = 1 := by
        rw [hlen, Nat.div_eq_of_lt (by omega)]
      obtain ⟨root, rfl⟩ := List.length_eq_one_iff.mp hone
      rw [compose_of_le _ _ hle]
      simp
    -- the tree of the roots splits where the tree of the leaves does
    · have hlt : limit < n := by omega
      have hn2 : 2 ≤ n := by omega
      have hsplit : splitPoint n / limit = splitPoint roots.length := by
        rw [hlen, hlimit, splitPoint_div (hlimit ▸ hlt)]
      have hdvd : limit ∣ splitPoint n := hlimit ▸ dvd_splitPoint (hlimit ▸ hlt)
      obtain ⟨k, hk⟩ := hdvd
      have hkroot : k = splitPoint roots.length := by
        rw [← hsplit, hk, Nat.mul_div_cancel_left _ hpos]
      have hspl := splitPoint_lt hn2
      have hsppos := splitPoint_pos n
      have hquot : 1 ≤ (n - 1) / limit := (Nat.one_le_div_iff hpos).mpr (by omega)
      have hlen2 : 2 ≤ roots.length := by omega
      have hrootlt := splitPoint_lt hlen2
      have hrootpos := splitPoint_pos roots.length
      have hkle : k ≤ (n - 1) / limit := by omega
      -- the left half is a whole number of chunks
      have hfull : k = 1 + (limit * k - 1) / limit := by
        rw [show limit * k - 1 = limit * (k - 1) + (limit - 1) by
          rw [Nat.mul_sub, Nat.mul_one]
          have := Nat.le_mul_of_pos_right limit (show 0 < k by omega)
          omega, Nat.mul_add_div hpos, Nat.div_eq_of_lt (by omega)]
        omega
      -- each half is composed by the induction
      have hleft := ih (splitPoint n) hspl (roots.take k) hsppos (by
        rw [List.length_take, Nat.min_eq_left (by omega), hk]
        exact hfull)
      have hright := ih (n - splitPoint n) (by omega) (roots.drop k) (by omega) (by
        rw [List.length_drop, hlen, Nat.sub_right_comm, hk, Nat.sub_mul_div]
        omega)
      rw [compose_of_lt node _ hlt hn2 (by omega), hsplit, ← hkroot, hleft, hright,
        fold_of_two_le _ _ hlen2, ← hkroot]
      rfl

end Compose

/-! ## Binding -/

section Binding

variable {β : Type} (h : β → α) (pair : α → α → β) (empty : α)

/-- The hash maps two different members of the list to one value. -/
def Collides (inputs : List β) : Prop :=
  ∃ x ∈ inputs, ∃ y ∈ inputs, x ≠ y ∧ h x = h y

/-- Among more inputs there are no fewer collisions. -/
theorem Collides.mono {h : β → α} {inputs inputs' : List β} (hsub : inputs ⊆ inputs') :
    Collides h inputs → Collides h inputs' := by
  rintro ⟨x, hx, y, hy, hne, heq⟩
  exact ⟨x, hsub hx, y, hsub hy, hne, heq⟩

/-- Two lists with the same multiset of tagged hashes are permutations of each other, or the
hash collides on the tagged members. Induction on the first list, matching off its head. -/
theorem perm_of_map_perm_or_collides {γ : Type} [DecidableEq γ] {h : β → α} {tag : γ → β}
    (htag : Function.Injective tag) :
    ∀ (as bs : List γ), (as.map fun x => h (tag x)).Perm (bs.map fun x => h (tag x)) →
      as.Perm bs ∨ Collides h (as.map tag ++ bs.map tag) := by
  intro as
  induction as with
  | nil =>
    intro bs hperm
    have hnil : bs = [] := by simpa using hperm.symm.eq_nil
    exact Or.inl (by rw [hnil])
  | cons a as ih =>
    intro bs hperm
    obtain ⟨b, hb, hba⟩ := List.mem_map.mp (hperm.subset List.mem_cons_self)
    by_cases hab : b = a
    · subst hab
      have hbs : bs.Perm (b :: bs.erase b) := List.perm_cons_erase hb
      have htail : (as.map fun x => h (tag x)).Perm ((bs.erase b).map fun x => h (tag x)) :=
        (hperm.trans (hbs.map _)).cons_inv
      rcases ih _ htail with hp | hc
      · exact Or.inl ((hp.cons b).trans hbs.symm)
      · refine Or.inr (hc.mono ?_)
        intro x hx
        rcases List.mem_append.mp hx with hx | hx
        · exact List.mem_append_left _ (List.mem_cons_of_mem _ hx)
        · obtain ⟨y, hy, rfl⟩ := List.mem_map.mp hx
          exact List.mem_append_right _ (List.mem_map_of_mem (List.mem_of_mem_erase hy))
    · refine Or.inr ⟨tag b, ?_, tag a, by simp, fun he => hab (htag he), hba⟩
      exact List.mem_append_right _ (List.mem_map_of_mem hb)

/-- The node preimages hashed while reducing a list. -/
def nodeInputs (leaves : List α) : List β :=
  match leaves with
  | [] => []
  | [_] => []
  | a :: b :: rest =>
    let leaves := a :: b :: rest
    let k := splitPoint leaves.length
    let node := fun l r => h (pair l r)
    pair (fold empty node (leaves.take k)) (fold empty node (leaves.drop k))
      :: (nodeInputs (leaves.take k) ++ nodeInputs (leaves.drop k))
termination_by leaves.length
decreasing_by
  · have := splitPoint_lt (n := (a :: b :: rest).length) (by simp)
    simp only [List.length_take]
    omega
  · have := splitPoint_pos (a :: b :: rest).length
    have : 0 < (a :: b :: rest).length := by simp
    simp only [List.length_drop]
    omega

/-- The hashed inputs of a tree: its root's, and those of its halves. -/
theorem nodeInputs_of_two_le {leaves : List α} (hlen : 2 ≤ leaves.length) :
    nodeInputs h pair empty leaves =
      pair (fold empty (fun l r => h (pair l r)) (leaves.take (splitPoint leaves.length)))
          (fold empty (fun l r => h (pair l r)) (leaves.drop (splitPoint leaves.length)))
        :: (nodeInputs h pair empty (leaves.take (splitPoint leaves.length))
          ++ nodeInputs h pair empty (leaves.drop (splitPoint leaves.length))) := by
  match leaves, hlen with
  | a :: b :: rest, _ => rw [nodeInputs]

/-- A half of a list is reduced on the way to its root. -/
theorem nodeInputs_half_subset {leaves : List α} (hlen : 2 ≤ leaves.length) :
    nodeInputs h pair empty (leaves.take (splitPoint leaves.length))
      ⊆ nodeInputs h pair empty leaves
      ∧ nodeInputs h pair empty (leaves.drop (splitPoint leaves.length))
        ⊆ nodeInputs h pair empty leaves := by
  rw [nodeInputs_of_two_le h pair empty hlen]
  constructor
  · exact fun x hx => List.mem_cons_of_mem _ (List.mem_append_left _ hx)
  · exact fun x hx => List.mem_cons_of_mem _ (List.mem_append_right _ hx)

/-- A collision in two smaller reductions is one in the two they are part of. -/
theorem Collides.widen {h : β → α} {leafInputs xs ys xs' ys' : List β}
    (hc : Collides h (leafInputs ++ (xs ++ ys))) (hxs : xs ⊆ xs') (hys : ys ⊆ ys') :
    Collides h (leafInputs ++ (xs' ++ ys')) := by
  apply hc.mono
  apply List.append_subset_of_subset_of_subset (List.subset_append_left _ _)
  apply List.subset_append_of_subset_right
  exact List.append_subset_of_subset_of_subset (List.subset_append_of_subset_left _ hxs)
    (List.subset_append_of_subset_right _ hys)

/-- Each leaf of `leaves` is the hash of one of `leafInputs`, and none of those is a node
preimage. -/
structure Separated (leafInputs : List β) (leaves : List α) : Prop where
  hashed : ∀ a ∈ leaves, ∃ x ∈ leafInputs, h x = a
  distinct : ∀ x ∈ leafInputs, ∀ l r, x ≠ pair l r

/-- The leaves of the left half are separated as well. -/
theorem Separated.take {h : β → α} {pair : α → α → β} {leafInputs : List β} {leaves : List α}
    (hs : Separated h pair leafInputs leaves) (k : Nat) :
    Separated h pair leafInputs (leaves.take k) :=
  ⟨fun a ha => hs.hashed a (List.mem_of_mem_take ha), hs.distinct⟩

/-- The leaves of the right half are separated as well. -/
theorem Separated.drop {h : β → α} {pair : α → α → β} {leafInputs : List β} {leaves : List α}
    (hs : Separated h pair leafInputs leaves) (k : Nat) :
    Separated h pair leafInputs (leaves.drop k) :=
  ⟨fun a ha => hs.hashed a (List.mem_of_mem_drop ha), hs.distinct⟩

/-- A single leaf against a proper tree: the leaf preimage and the root's node preimage are
different inputs with the same hash. -/
theorem collides_of_leaf_eq_node {leafInputs : List β} {a : α} {bs : List α}
    (ha : Separated h pair leafInputs [a]) (hlen : 2 ≤ bs.length)
    (heq : a = fold empty (fun l r => h (pair l r)) bs) :
    Collides h (leafInputs ++ nodeInputs h pair empty bs) := by
  obtain ⟨x, hx, hxa⟩ := ha.hashed a (by simp)
  rw [fold_of_two_le empty _ hlen] at heq
  refine ⟨x, List.mem_append_left _ hx, _, List.mem_append_right _ ?_, ha.distinct x hx _ _,
    hxa.trans heq⟩
  rw [nodeInputs_of_two_le h pair empty hlen]
  exact List.mem_cons_self

/-- **The root binds the leaves.** Two non-empty lists with one root are equal, or the hash
collides on a leaf or node preimage of the two reductions. Strong induction on the total length;
the two trees are walked from the root, their shapes need not agree. -/
theorem fold_injective_or_collides
    (hpair : ∀ a b c d, pair a b = pair c d → a = c ∧ b = d) (leafInputs : List β) :
    ∀ (n : Nat) (as bs : List α), as.length + bs.length = n → as ≠ [] → bs ≠ [] →
      Separated h pair leafInputs as → Separated h pair leafInputs bs →
      fold empty (fun l r => h (pair l r)) as = fold empty (fun l r => h (pair l r)) bs →
      as = bs ∨ Collides h
        (leafInputs ++ (nodeInputs h pair empty as ++ nodeInputs h pair empty bs)) := by
  intro n
  induction n using Nat.strong_induction_on with
  | _ n ih =>
    intro as bs hn has hbs sa sb hroot
    match as, bs, has, hbs with
    -- two leaves: they are the roots
    | [a], [b], _, _ =>
      left
      simpa using hroot
    -- a leaf with the root of a tree: a node preimage collides with a leaf's
    | [a], b :: b' :: bs, _, _ =>
      right
      have hleaf : a = fold empty (fun l r => h (pair l r)) (b :: b' :: bs) := by simpa using hroot
      have hc : Collides h (leafInputs ++ ([] ++ nodeInputs h pair empty (b :: b' :: bs))) :=
        collides_of_leaf_eq_node h pair empty sa (by simp) hleaf
      exact hc.widen (List.nil_subset _) (List.Subset.refl _)
    -- and the other way round
    | a :: a' :: as, [b], _, _ =>
      right
      have hleaf : b = fold empty (fun l r => h (pair l r)) (a :: a' :: as) := by
        simpa using hroot.symm
      have hc : Collides h (leafInputs ++ (nodeInputs h pair empty (a :: a' :: as) ++ [])) := by
        rw [List.append_nil]
        exact collides_of_leaf_eq_node h pair empty sb (by simp) hleaf
      exact hc.widen (List.Subset.refl _) (List.nil_subset _)
    -- two trees: their roots are hashed of the roots of their halves
    | a :: a' :: as, b :: b' :: bs, _, _ =>
      generalize hA : a :: a' :: as = A at *
      generalize hB : b :: b' :: bs = B at *
      have hA2 : 2 ≤ A.length := by rw [← hA]; simp
      have hB2 : 2 ≤ B.length := by rw [← hB]; simp
      have hAk := splitPoint_lt hA2
      have hBk := splitPoint_lt hB2
      have hAk0 := splitPoint_pos A.length
      have hBk0 := splitPoint_pos B.length
      obtain ⟨hAleft, hAright⟩ := nodeInputs_half_subset h pair empty hA2
      obtain ⟨hBleft, hBright⟩ := nodeInputs_half_subset h pair empty hB2
      rw [fold_of_two_le empty _ hA2, fold_of_two_le empty _ hB2] at hroot
      by_cases hpre : pair (fold empty (fun l r => h (pair l r)) (A.take (splitPoint A.length)))
            (fold empty (fun l r => h (pair l r)) (A.drop (splitPoint A.length)))
          = pair (fold empty (fun l r => h (pair l r)) (B.take (splitPoint B.length)))
            (fold empty (fun l r => h (pair l r)) (B.drop (splitPoint B.length)))
      · -- one node preimage: both halves have equal roots, so the induction goes into both
        obtain ⟨hl, hr⟩ := hpair _ _ _ _ hpre
        obtain ⟨hAt, hAd⟩ := take_drop_ne_nil hAk0 hAk
        obtain ⟨hBt, hBd⟩ := take_drop_ne_nil hBk0 hBk
        have hleft :=
          ih ((A.take (splitPoint A.length)).length + (B.take (splitPoint B.length)).length)
          (by simp only [List.length_take]; omega) _ _ rfl hAt hBt (sa.take _) (sb.take _) hl
        have hright :=
          ih ((A.drop (splitPoint A.length)).length + (B.drop (splitPoint B.length)).length)
          (by simp only [List.length_drop]; omega) _ _ rfl hAd hBd (sa.drop _) (sb.drop _) hr
        rcases hleft with hleft | hleft
        · rcases hright with hright | hright
          · left
            rw [← List.take_append_drop (splitPoint A.length) A, hleft, hright,
              List.take_append_drop]
          · exact Or.inr (hright.widen hAright hBright)
        · exact Or.inr (hleft.widen hAleft hBleft)
      · -- two node preimages with one hash: the roots themselves are the collision
        right
        refine ⟨_, ?_, _, ?_, hpre, hroot⟩
        · rw [nodeInputs_of_two_le h pair empty hA2]; simp
        · rw [nodeInputs_of_two_le h pair empty hB2]; simp

end Binding

end SplitTree
