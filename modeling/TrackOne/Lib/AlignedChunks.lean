import TrackOne.Lib.SplitTree

/-!
# Aligned chunks of a sorted list

A list can be handed over in chunks of a fixed size, the last one shorter. This file says when
pieces that arrive separately are the chunks of one list, and when that list is sorted.

* `chunkLength` is the size of the `i`-th chunk, and `getElem?_chunks` the chunk itself.
* `chunks_flatten`: pieces of the right sizes are the chunks of their concatenation.
* `pairwise_flatten_of_neighbours`: sorted pieces in which every neighbour starts after the one
  before it ends form a sorted list.
-/

namespace SplitTree

variable {α : Type}

/-! ## Sizes -/

/-- The number of chunks of a list of `total` elements. -/
def chunkCount (limit total : Nat) : Nat :=
  if total = 0 then 0 else 1 + (total - 1) / limit

/-- The size of the chunk at index `i` of a list of `total` elements. -/
def chunkLength (limit total i : Nat) : Nat := min limit (total - i * limit)

theorem chunkCount_of_le {limit total : Nat} (hpos : 0 < total) (hle : total ≤ limit) :
    chunkCount limit total = 1 := by
  rw [chunkCount, if_neg (by omega), Nat.div_eq_of_lt (by omega)]

theorem chunkCount_of_lt {limit total : Nat} (hlimit : 0 < limit) (hlt : limit < total) :
    chunkCount limit total = 1 + chunkCount limit (total - limit) := by
  have hsplit : total - 1 = (total - limit - 1) + limit := by omega
  rw [chunkCount, chunkCount, if_neg (by omega), if_neg (by omega), hsplit,
    Nat.add_div_right _ hlimit]
  omega

theorem chunkLength_succ (limit total i : Nat) :
    chunkLength limit total (i + 1) = chunkLength limit (total - limit) i := by
  rw [chunkLength, chunkLength, Nat.succ_mul, Nat.add_comm (i * limit) limit, Nat.sub_sub]

/-- The chunks before the last one are full, and the last one is not empty. -/
theorem mul_lt_of_lt_chunkCount {limit total i : Nat} (hi : i < chunkCount limit total) :
    i * limit < total := by
  unfold chunkCount at hi
  split_ifs at hi with htotal
  · omega
  · have hdiv : i * limit ≤ total - 1 := by
      calc i * limit ≤ (total - 1) / limit * limit := Nat.mul_le_mul_right _ (by omega)
        _ ≤ total - 1 := Nat.div_mul_le_self _ _
    omega

theorem chunkLength_pos {limit total i : Nat} (hlimit : 0 < limit)
    (hi : i < chunkCount limit total) : 0 < chunkLength limit total i := by
  have hlt := mul_lt_of_lt_chunkCount hi
  unfold chunkLength
  omega

/-- A chunk that is not the last one is full. -/
theorem chunkLength_of_not_last {limit total i : Nat} (hi : i + 1 < chunkCount limit total) :
    chunkLength limit total i = limit := by
  have hlt := mul_lt_of_lt_chunkCount hi
  rw [Nat.succ_mul] at hlt
  unfold chunkLength
  omega

/-- The last chunk has what is left. -/
theorem chunkLength_of_last {limit total i : Nat} (hlimit : 0 < limit)
    (hi : i + 1 = chunkCount limit total) : chunkLength limit total i = total - i * limit := by
  unfold chunkCount at hi
  split_ifs at hi with htotal
  have hquotient : i = (total - 1) / limit := by omega
  have hmod := Nat.div_add_mod' (total - 1) limit
  have hlt := Nat.mod_lt (total - 1) hlimit
  rw [← hquotient] at hmod
  unfold chunkLength
  omega

theorem length_chunks_eq {limit : Nat} (hlimit : 0 < limit) (xs : List α) :
    (chunks limit xs).length = chunkCount limit xs.length := by
  by_cases hxs : xs = []
  · rw [hxs, chunks_nil]
    rfl
  · have hpos := List.length_pos_of_ne_nil hxs
    rw [length_chunks hlimit _ xs rfl hxs, chunkCount, if_neg (by omega)]

/-- The chunk at an index. -/
theorem getElem?_chunks {limit : Nat} (hlimit : 0 < limit) (xs : List α) (i : Nat) :
    (chunks limit xs)[i]?
      = if i * limit < xs.length then some ((xs.drop (i * limit)).take limit) else none := by
  induction i generalizing xs with
  | zero =>
    by_cases hxs : xs = []
    · simp [hxs]
    · have hpos := List.length_pos_of_ne_nil hxs
      rw [chunks_of_ne_nil hlimit hxs, if_pos (by omega)]
      simp
  | succ i ih =>
    by_cases hxs : xs = []
    · simp [hxs]
    · rw [chunks_of_ne_nil hlimit hxs, List.getElem?_cons_succ, ih, List.length_drop, Nat.succ_mul,
        List.drop_drop, Nat.add_comm limit (i * limit)]
      by_cases hlt : i * limit + limit < xs.length
      · rw [if_pos hlt, if_pos (by omega)]
      · rw [if_neg hlt, if_neg (by omega)]

theorem length_of_getElem?_chunks {limit : Nat} (hlimit : 0 < limit) {xs piece : List α} {i : Nat}
    (h : (chunks limit xs)[i]? = some piece) : piece.length = chunkLength limit xs.length i := by
  rw [getElem?_chunks hlimit] at h
  split_ifs at h
  cases h
  rw [List.length_take, List.length_drop, chunkLength]

theorem ne_nil_of_getElem?_chunks {limit : Nat} (hlimit : 0 < limit) {xs piece : List α} {i : Nat}
    (h : (chunks limit xs)[i]? = some piece) : piece ≠ [] := by
  obtain ⟨hlt, -⟩ := List.getElem?_eq_some_iff.mp h
  rw [length_chunks_eq hlimit] at hlt
  apply List.ne_nil_of_length_pos
  rw [length_of_getElem?_chunks hlimit h]
  exact chunkLength_pos hlimit hlt

/-- The chunks are the list. -/
theorem flatten_chunks {limit : Nat} (hlimit : 0 < limit) (xs : List α) :
    (chunks limit xs).flatten = xs := by
  induction hn : xs.length using Nat.strong_induction_on generalizing xs with
  | _ n ih =>
    by_cases hxs : xs = []
    · simp [hxs]
    · have hpos := List.length_pos_of_ne_nil hxs
      rw [chunks_of_ne_nil hlimit hxs, List.flatten_cons,
        ih (xs.drop limit).length (by rw [List.length_drop]; omega) _ rfl, List.take_append_drop]

/-- Chunks commute with a function on the elements. -/
theorem chunks_map {β : Type} {limit : Nat} (hlimit : 0 < limit) (f : α → β) (xs : List α) :
    chunks limit (xs.map f) = (chunks limit xs).map (List.map f) := by
  apply List.ext_getElem?
  intro i
  rw [List.getElem?_map, getElem?_chunks hlimit, getElem?_chunks hlimit, List.length_map]
  split_ifs
  · simp [List.map_take, List.map_drop]
  · rfl

/-- Pieces of the right sizes are the chunks of their concatenation. By induction on the pieces: the
first one is full unless it is the last. -/
theorem chunks_flatten {limit : Nat} (hlimit : 0 < limit) {pieces : List (List α)} {total : Nat}
    (hcount : pieces.length = chunkCount limit total)
    (hlength : ∀ i piece, pieces[i]? = some piece → piece.length = chunkLength limit total i) :
    pieces.flatten.length = total ∧ chunks limit pieces.flatten = pieces := by
  induction pieces generalizing total with
  | nil =>
    have htotal : total = 0 := by
      by_contra hne
      rw [chunkCount, if_neg hne, List.length_nil, Nat.add_comm] at hcount
      exact Nat.succ_ne_zero _ hcount.symm
    simp [htotal]
  | cons piece pieces ih =>
    have hpos : 0 < total := by
      rcases Nat.eq_zero_or_pos total with rfl | hpos
      · simp [chunkCount] at hcount
      · exact hpos
    have hfirst : piece.length = min limit total := by
      have hzero := hlength 0 piece rfl
      rwa [chunkLength, Nat.zero_mul, Nat.sub_zero] at hzero
    -- one piece is all
    by_cases hle : total ≤ limit
    · rw [chunkCount_of_le hpos hle, List.length_cons] at hcount
      obtain rfl : pieces = [] := List.length_eq_zero_iff.mp (by omega)
      have hlen : piece.length = total := by omega
      have hne : piece ≠ [] := List.ne_nil_of_length_pos (by omega)
      simp only [List.flatten_cons, List.flatten_nil, List.append_nil]
      exact ⟨hlen, chunks_of_length_le hne (by omega)⟩
    -- a full piece, and the induction on the rest
    · rw [chunkCount_of_lt hlimit (by omega), List.length_cons] at hcount
      have hlater : ∀ i piece, pieces[i]? = some piece →
          piece.length = chunkLength limit (total - limit) i := by
        intro i later hi
        rw [← chunkLength_succ]
        exact hlength (i + 1) later hi
      obtain ⟨hrest, hchunks⟩ := ih (by omega) hlater
      have hfull : piece.length = limit := by omega
      refine ⟨by rw [List.flatten_cons, List.length_append, hrest]; omega, ?_⟩
      have hne : piece ≠ [] := List.ne_nil_of_length_pos (by omega)
      rw [List.flatten_cons, chunks_append hlimit _ 1 piece (by omega), hchunks,
        chunks_of_length_le hne (by omega)]
      rfl

/-! ## Order -/

/-- Two pieces that follow each other: the last element of the first is related to the first
element of the second. -/
def InOrder (r : α → α → Prop) (left right : List α) : Prop :=
  ∀ x ∈ left.getLast?, ∀ y ∈ right.head?, r x y

/-- Sorted pieces, each in order with the next, form a sorted list. -/
theorem pairwise_flatten_of_neighbours {r : α → α → Prop} (htrans : ∀ a b c, r a b → r b c → r a c)
    {pieces : List (List α)} (hne : ∀ piece ∈ pieces, piece ≠ [])
    (hsorted : ∀ piece ∈ pieces, piece.Pairwise r)
    (hneighbours : ∀ pair ∈ pieces.zip pieces.tail, InOrder r pair.1 pair.2) :
    pieces.flatten.Pairwise r := by
  induction pieces with
  | nil => simp
  | cons piece pieces ih =>
    obtain ⟨hpiece, hsortedRest⟩ := List.forall_mem_cons.mp hsorted
    obtain ⟨hnepiece, hneRest⟩ := List.forall_mem_cons.mp hne
    cases pieces with
    | nil => simpa using hpiece
    | cons next pieces =>
      rw [List.tail_cons, List.zip_cons_cons, List.forall_mem_cons] at hneighbours
      obtain ⟨hfirst, hlater⟩ := hneighbours
      have hrest := ih hneRest hsortedRest hlater
      rw [List.flatten_cons, List.pairwise_append]
      refine ⟨hpiece, hrest, ?_⟩
      -- every element is before the last one, which is before the first of the rest
      obtain ⟨last, hlast⟩ := List.getLast?_isSome.mpr hnepiece |> Option.isSome_iff_exists.mp
      obtain ⟨head, tail, rfl⟩ := List.exists_cons_of_ne_nil (hneRest next (by simp))
      have hedge : r last head := hfirst last hlast head rfl
      have hbefore : ∀ x ∈ piece, x = last ∨ r x last := by
        intro x hx
        obtain ⟨init, rfl⟩ := List.getLast?_eq_some_iff.mp hlast
        rcases List.mem_append.mp hx with hinit | hend
        · exact .inr ((List.pairwise_append.mp hpiece).2.2 x hinit last (by simp))
        · exact .inl (List.mem_singleton.mp hend)
      have hafter : ∀ y ∈ ((head :: tail) :: pieces).flatten, y = head ∨ r head y := by
        intro y hy
        rw [List.flatten_cons, List.cons_append, List.mem_cons] at hy
        rw [List.flatten_cons, List.cons_append, List.pairwise_cons] at hrest
        exact hy.imp id (hrest.1 y)
      intro x hx y hy
      rcases hbefore x hx with rfl | hxlast
      · rcases hafter y hy with rfl | hhead
        · exact hedge
        · exact htrans _ _ _ hedge hhead
      · rcases hafter y hy with rfl | hhead
        · exact htrans _ _ _ hxlast hedge
        · exact htrans _ _ _ hxlast (htrans _ _ _ hedge hhead)

end SplitTree
