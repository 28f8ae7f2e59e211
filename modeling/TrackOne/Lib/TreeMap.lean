import Mathlib.Algebra.GroupWithZero.Nat
import Mathlib.Algebra.Order.Group.Nat
import Mathlib.Data.List.Sort

/-!
# Ordered maps built from association lists

`Std.ExtTreeMap.ofList` on a list with distinct keys: lookups are lookups in the list, and taking
keys out one by one leaves the map of the entries that `remaining` names. With these facts a map
that was built from known entries is evaluated on its entries, whatever the values are.

`getElem?_foldl_insert` gives the lookups after a sequence of writes: the last one to a key counts.
`Indexes` is the map of a list that is kept under its positions, as 64-bit keys; by `eq_of_ordered`
its entries in key order are the list. `total` sums a function over the values of a map.
-/

namespace TreeMap

open Std

variable {α β : Type} [DecidableEq α] {cmp : α → α → Ordering} [TransCmp cmp] [LawfulEqCmp cmp]

theorem lookup_eq_some_iff_mem {entries : List (α × β)}
    (hnodup : (entries.map Prod.fst).Nodup) {key : α} {value : β} :
    entries.lookup key = some value ↔ (key, value) ∈ entries := by
  induction entries with
  | nil => simp
  | cons entry entries ih =>
    obtain ⟨hfresh, hrest⟩ := List.nodup_cons.mp hnodup
    rw [List.lookup_cons, List.mem_cons]
    by_cases hkey : key = entry.1
    · subst hkey
      rw [beq_self_eq_true]
      constructor
      · rintro ⟨⟩
        exact .inl rfl
      · rintro (heq | hmem)
        · rw [← heq]
        · exact absurd (List.mem_map_of_mem hmem) hfresh
    · rw [beq_false_of_ne hkey, ih hrest, or_iff_right]
      rintro rfl
      exact hkey rfl

theorem getElem?_ofList {entries : List (α × β)} (hnodup : (entries.map Prod.fst).Nodup) (a : α) :
    (ExtTreeMap.ofList entries cmp)[a]? = entries.lookup a := by
  cases h : entries.lookup a with
  | none =>
    rw [List.lookup_eq_none_iff] at h
    apply ExtTreeMap.getElem?_ofList_of_contains_eq_false
    rw [List.contains_eq_mem, decide_eq_false_iff_not, List.mem_map]
    rintro ⟨entry, hentry, rfl⟩
    simpa using h entry hentry
  | some value =>
    obtain ⟨l₁, l₂, rfl, -⟩ := List.lookup_eq_some_iff.mp h
    apply ExtTreeMap.getElem?_ofList_of_mem ReflCmp.compare_self
    · rw [List.nodup_iff_pairwise_ne, List.pairwise_map] at hnodup
      exact hnodup.imp fun hne heq => hne (LawfulEqCmp.eq_of_compare heq)
    · simp

/-- The map of the entries whose keys have not been taken out yet. -/
def remaining (cmp : α → α → Ordering) (entries : List (α × β)) (taken : List α) :
    ExtTreeMap α β cmp :=
  ExtTreeMap.ofList (entries.filter fun entry => entry.1 ∉ taken) cmp

theorem lookup_filter_not_mem (entries : List (α × β)) (taken : List α) (a : α) :
    (entries.filter fun entry => entry.1 ∉ taken).lookup a
      = if a ∈ taken then none else entries.lookup a := by
  induction entries with
  | nil => simp
  | cons entry entries ih =>
    rw [List.filter_cons, List.lookup_cons]
    by_cases hentry : entry.1 ∈ taken
    · rw [if_neg (by simpa using hentry), ih]
      split_ifs with h
      · rfl
      · rw [beq_eq_false_iff_ne.mpr (show a ≠ entry.1 from fun heq => h (heq ▸ hentry))]
    · rw [if_pos (by simpa using hentry), List.lookup_cons, ih]
      split_ifs with h
      · rw [beq_eq_false_iff_ne.mpr (show a ≠ entry.1 from fun heq => hentry (heq ▸ h))]
      · rfl

section Remaining

variable {entries : List (α × β)} {taken : List α} {a : α}

theorem getElem?_remaining (hnodup : (entries.map Prod.fst).Nodup) :
    (remaining cmp entries taken)[a]? = if a ∈ taken then none else entries.lookup a := by
  have hfilter : ((entries.filter fun entry => entry.1 ∉ taken).map Prod.fst).Nodup :=
    hnodup.sublist (List.filter_sublist.map _)
  rw [remaining, getElem?_ofList hfilter, lookup_filter_not_mem]

theorem erase_remaining (hnodup : (entries.map Prod.fst).Nodup) :
    (remaining cmp entries taken).erase a = remaining cmp entries (a :: taken) := by
  apply ExtTreeMap.ext_getElem?
  intro b
  rw [ExtTreeMap.getElem?_erase, getElem?_remaining hnodup, getElem?_remaining hnodup]
  simp only [LawfulEqCmp.compare_eq_iff_eq, List.mem_cons]
  by_cases hab : a = b
  · simp [hab]
  · simp [hab, Ne.symm hab]

omit [TransCmp cmp] [LawfulEqCmp cmp] in
theorem remaining_nil : remaining cmp entries [] = ExtTreeMap.ofList entries cmp := by
  simp [remaining]

omit [TransCmp cmp] [LawfulEqCmp cmp] in
theorem remaining_eq_empty (h : ∀ entry ∈ entries, entry.1 ∈ taken) :
    remaining cmp entries taken = ∅ := by
  have hnil : (entries.filter fun entry => entry.1 ∉ taken) = [] := by
    rw [List.filter_eq_nil_iff]
    exact fun entry hentry => by simpa using h entry hentry
  rw [remaining, hnil, ExtTreeMap.ofList_nil]

end Remaining

/-! ## Entries in key order -/

omit [DecidableEq α] in
/-- A strictly ordered list of entries is determined by which entries are in it. -/
theorem eq_of_ordered {entries entries' : List (α × β)}
    (h : entries.Pairwise fun a b => cmp a.1 b.1 = .lt)
    (h' : entries'.Pairwise fun a b => cmp a.1 b.1 = .lt)
    (hmem : ∀ entry, entry ∈ entries ↔ entry ∈ entries') : entries = entries' := by
  have hnodup : ∀ {l : List (α × β)}, (l.Pairwise fun a b => cmp a.1 b.1 = .lt) → l.Nodup := by
    intro l hl
    refine hl.imp ?_
    rintro a b hlt rfl
    have heq : cmp a.1 a.1 = .eq := ReflCmp.compare_self
    rw [heq] at hlt
    cases hlt
  have hperm : entries.Perm entries' :=
    (List.perm_ext_iff_of_nodup (hnodup h) (hnodup h')).mpr hmem
  -- no entry is below another one and above it
  refine hperm.eq_of_pairwise ?_ h h'
  intro a b _ _ hab hba
  rw [OrientedCmp.gt_of_lt hba] at hab
  cases hab

/-! ## A sequence of writes -/

/-- The value a sequence of writes leaves at a key: the one of the last write to it. -/
def lastWrite (writes : List (α × β)) (a : α) : Option β := writes.reverse.lookup a

theorem lastWrite_cons (entry : α × β) (writes : List (α × β)) (a : α) :
    lastWrite (entry :: writes) a
      = (lastWrite writes a).or (if entry.1 = a then some entry.2 else none) := by
  unfold lastWrite
  rw [List.reverse_cons, List.lookup_append, List.lookup_cons, List.lookup_nil]
  by_cases h : entry.1 = a
  · rw [if_pos h, beq_iff_eq.mpr h.symm]
  · rw [if_neg h, beq_eq_false_iff_ne.mpr (Ne.symm h)]

/-- Lookups after a sequence of writes. -/
theorem getElem?_foldl_insert (m : ExtTreeMap α β cmp) (writes : List (α × β)) (a : α) :
    (writes.foldl (fun m entry => m.insert entry.1 entry.2) m)[a]?
      = (lastWrite writes a).or m[a]? := by
  induction writes generalizing m with
  | nil => rfl
  | cons entry writes ih =>
    rw [List.foldl_cons, ih, lastWrite_cons, ExtTreeMap.getElem?_insert]
    simp only [LawfulEqCmp.compare_eq_iff_eq]
    cases lastWrite writes a with
    | some b => rfl
    | none => split_ifs <;> rfl

/-- The entries of a map, written one after another, give it back. -/
theorem foldl_insert_toList (m : ExtTreeMap α β cmp) :
    m.toList.foldl (fun m entry => m.insert entry.1 entry.2) ∅ = m := by
  refine ExtTreeMap.ext_getElem? fun a => ?_
  have hlast : lastWrite m.toList a = m[a]? := by
    unfold lastWrite
    cases h : m.toList.reverse.lookup a with
    | some b =>
      obtain ⟨before, after, hsplit, -⟩ := List.lookup_eq_some_iff.mp h
      have hmem : (a, b) ∈ m.toList := by
        rw [← List.mem_reverse, hsplit]
        simp
      exact (ExtTreeMap.mem_toList_iff_getElem?_eq_some.mp hmem).symm
    | none =>
      symm
      rw [Option.eq_none_iff_forall_ne_some]
      intro b hb
      have hmem : (a, b) ∈ m.toList := ExtTreeMap.mem_toList_iff_getElem?_eq_some.mpr hb
      simpa using List.lookup_eq_none_iff.mp h (a, b) (List.mem_reverse.mpr hmem)
  rw [getElem?_foldl_insert, hlast]
  simp

/-! ## Lists under their positions -/

section Indexes

variable {m : ExtTreeMap UInt64 β compare} {l : List β}

/-- The map has every entry of the list at its position and nothing else. -/
def Indexes (m : ExtTreeMap UInt64 β compare) (l : List β) : Prop :=
  ∀ k : UInt64, m[k]? = l[k.toNat]?

theorem indexes_empty : Indexes (∅ : ExtTreeMap UInt64 β compare) [] := by
  intro k
  simp

/-- Lookups after the entry behind the last one is added. -/
theorem getElem?_concat_key {k : UInt64} (hk : k.toNat = l.length) (b : β) (j : UInt64) :
    (l ++ [b])[j.toNat]? = if k = j then some b else l[j.toNat]? := by
  split_ifs with heq
  · rw [← heq, hk, List.getElem?_concat_length]
  · have hne : j.toNat ≠ l.length := by
      intro hlength
      exact heq (UInt64.toNat_inj.mp (hk.trans hlength.symm))
    rcases Nat.lt_or_gt_of_ne hne with hlt | hgt
    · rw [List.getElem?_append_left hlt]
    · rw [List.getElem?_eq_none hgt.le, List.getElem?_eq_none (by simp; omega)]

theorem Indexes.insert (h : Indexes m l) {k : UInt64} (hk : k.toNat = l.length) (b : β) :
    Indexes (m.insert k b) (l ++ [b]) := by
  intro j
  rw [ExtTreeMap.getElem?_insert, h j, getElem?_concat_key hk]
  simp only [LawfulEqCmp.compare_eq_iff_eq]

/-- Entries in the order of their keys that have the list at its positions carry the list. -/
theorem map_snd_eq {entries : List (UInt64 × β)} (hlength : l.length ≤ 2 ^ 64)
    (hordered : entries.Pairwise fun a b => compare a.1 b.1 = .lt)
    (hmem : ∀ k b, (k, b) ∈ entries ↔ l[k.toNat]? = some b) : entries.map Prod.snd = l := by
  have hkey : ∀ i, i < l.length → (UInt64.ofNat i).toNat = i := by
    intro i hi
    exact UInt64.toNat_ofNat_of_lt' (Nat.lt_of_lt_of_le hi hlength)
  have hentries : entries = l.zipIdx.map fun entry => (UInt64.ofNat entry.2, entry.1) := by
    apply eq_of_ordered hordered
    · rw [List.pairwise_map, List.pairwise_iff_getElem]
      intro i j hi hj hij
      rw [List.length_zipIdx] at hi hj
      simp only [List.getElem_zipIdx, Nat.zero_add, compare_eq_lt]
      rw [UInt64.lt_iff_toNat_lt, hkey i hi, hkey j hj]
      exact hij
    · rintro ⟨k, b⟩
      rw [hmem, List.mem_map]
      constructor
      · intro hb
        refine ⟨(b, k.toNat), List.mem_zipIdx_iff_getElem?.mpr hb, ?_⟩
        simp
      · rintro ⟨⟨b', i⟩, hi, heq⟩
        rw [List.mem_zipIdx_iff_getElem?] at hi
        obtain ⟨rfl, rfl⟩ := Prod.mk.inj heq
        have hlt : i < l.length := (List.getElem?_eq_some_iff.mp hi).1
        rw [hkey i hlt]
        exact hi
  rw [hentries, List.map_map]
  exact List.zipIdx_map_fst 0 l

theorem Indexes.map_snd_toList (h : Indexes m l) (hlength : l.length ≤ 2 ^ 64) :
    m.toList.map Prod.snd = l := by
  apply map_snd_eq hlength ExtTreeMap.ordered_keys_toList
  intro k b
  rw [ExtTreeMap.mem_toList_iff_getElem?_eq_some, h k]

theorem Indexes.size_eq (h : Indexes m l) (hlength : l.length ≤ 2 ^ 64) : m.size = l.length := by
  rw [← ExtTreeMap.length_toList, ← List.length_map, h.map_snd_toList hlength]

end Indexes

/-! ## Totals -/

section Totals

variable {α β : Type} {cmp : α → α → Ordering} [DecidableEq α] [TransCmp cmp] [LawfulEqCmp cmp]

/-- The sum of a function over the values of a map. -/
def total (f : β → Nat) (m : ExtTreeMap α β cmp) : Nat := (m.toList.map fun entry => f entry.2).sum

omit [DecidableEq α] in
theorem nodup_toList (m : ExtTreeMap α β cmp) : m.toList.Nodup := by
  refine ExtTreeMap.distinct_keys_toList.imp ?_
  rintro a b hne rfl
  exact hne ReflCmp.compare_self

/-- The entries of a map, the one of a given key first. -/
theorem perm_toList {m : ExtTreeMap α β cmp} {a : α} {b : β} (h : m[a]? = some b) :
    m.toList.Perm ((a, b) :: m.toList.filter fun entry => entry.1 ≠ a) := by
  have hnodup : ((a, b) :: m.toList.filter fun entry => entry.1 ≠ a).Nodup :=
    List.nodup_cons.mpr ⟨by simp, (nodup_toList m).filter _⟩
  rw [List.perm_ext_iff_of_nodup (nodup_toList m) hnodup]
  rintro ⟨a', b'⟩
  simp only [List.mem_cons, List.mem_filter, decide_eq_true_eq, Prod.mk.injEq,
    ExtTreeMap.mem_toList_iff_getElem?_eq_some]
  by_cases heq : a' = a
  · subst heq
    simp [h, eq_comm]
  · simp [heq]

theorem filter_toList_insert (m : ExtTreeMap α β cmp) (a : α) (b : β) :
    ((m.insert a b).toList.filter fun entry => entry.1 ≠ a).Perm
      (m.toList.filter fun entry => entry.1 ≠ a) := by
  rw [List.perm_ext_iff_of_nodup ((nodup_toList _).filter _) ((nodup_toList _).filter _)]
  rintro ⟨a', b'⟩
  simp only [List.mem_filter, decide_eq_true_eq, ExtTreeMap.mem_toList_iff_getElem?_eq_some,
    ExtTreeMap.getElem?_insert, LawfulEqCmp.compare_eq_iff_eq, and_congr_left_iff]
  intro hne
  rw [if_neg (Ne.symm hne)]

theorem total_eq (f : β → Nat) {m : ExtTreeMap α β cmp} {a : α} {b : β} (h : m[a]? = some b) :
    total f m = f b
      + ((m.toList.filter fun entry => entry.1 ≠ a).map fun entry => f entry.2).sum := by
  unfold total
  rw [((perm_toList h).map _).sum_nat, List.map_cons, List.sum_cons]

/-- A value that is replaced. -/
theorem total_insert_of_getElem? (f : β → Nat) {m : ExtTreeMap α β cmp} {a : α} {old : β}
    (h : m[a]? = some old) (b : β) : total f (m.insert a b) + f old = total f m + f b := by
  rw [total_eq f h, total_eq f (ExtTreeMap.getElem?_insert_self),
    ((filter_toList_insert m a b).map _).sum_nat]
  omega

/-- A value under a new key. -/
theorem total_insert_of_notMem (f : β → Nat) {m : ExtTreeMap α β cmp} {a : α} (h : a ∉ m) (b : β) :
    total f (m.insert a b) = total f m + f b := by
  have hfilter : (m.toList.filter fun entry => entry.1 ≠ a) = m.toList := by
    rw [List.filter_eq_self]
    rintro ⟨a', b'⟩ hmem
    simp only [decide_eq_true_eq]
    rintro rfl
    rw [ExtTreeMap.mem_toList_iff_getElem?_eq_some] at hmem
    exact h (by rw [ExtTreeMap.mem_iff_isSome_getElem?, hmem]; rfl)
  rw [total_eq f (ExtTreeMap.getElem?_insert_self),
    ((filter_toList_insert m a b).map _).sum_nat, hfilter, Nat.add_comm]
  rfl

end Totals

end TreeMap
