import Mathlib.Data.List.Basic
import Mathlib.Tactic.Common

/-!
# Segmented logs

An append-only log that is cut into numbered segments: the closed ones, in order, and the current
one. Entries are appended to the current segment; closing it starts the next one. Over an arbitrary
type of entries.

* `SegLog.placed` lists every entry with the number of the segment that holds it.
* `SegLog.Steps l added l'`: `l'` is reached from `l` by closings and by appending `added`, each
  entry paired with the number of the current segment at that time. `Steps.placed_eq` says that
  this number is where the entry stays: closing a segment never moves an entry.
* `Steps.segment_eq` says the same from the segments' side: a segment holds what it held before and
  then the entries placed at its number, in order.
-/

/-- The closed segments and the current one. -/
structure SegLog (α : Type) where
  closed : List (List α)
  current : List α

namespace SegLog

variable {α : Type}

/-- The entries of the segments numbered from `n` on, with their numbers. -/
def placedFrom (n : Nat) : List (List α) → List (α × Nat)
  | [] => []
  | segment :: segments => segment.map (·, n) ++ placedFrom (n + 1) segments

/-- All entries in order, each with the number of its segment. -/
def placed (l : SegLog α) : List (α × Nat) :=
  placedFrom 0 l.closed ++ l.current.map (·, l.closed.length)

/-- Append an entry to the current segment. -/
def append (l : SegLog α) (a : α) : SegLog α := { l with current := l.current ++ [a] }

/-- Close the current segment. -/
def close (l : SegLog α) : SegLog α := { closed := l.closed ++ [l.current], current := [] }

/-- Appends and closings, with the entries appended and where each one went. -/
inductive Steps : SegLog α → List (α × Nat) → SegLog α → Prop where
  | refl (l : SegLog α) : Steps l [] l
  | append {l l' : SegLog α} {added : List (α × Nat)} (h : Steps l added l') (a : α) :
      Steps l (added ++ [(a, l'.closed.length)]) (l'.append a)
  | close {l l' : SegLog α} {added : List (α × Nat)} (h : Steps l added l') :
      Steps l added l'.close

theorem placedFrom_concat (n : Nat) (segments : List (List α)) (segment : List α) :
    placedFrom n (segments ++ [segment])
      = placedFrom n segments ++ segment.map (·, n + segments.length) := by
  induction segments generalizing n with
  | nil => simp [placedFrom]
  | cons s segments ih =>
    rw [List.cons_append, placedFrom, ih, placedFrom, List.append_assoc, List.length_cons]
    rw [Nat.add_assoc, Nat.add_comm 1]

/-- An appended entry is placed in the current segment. -/
theorem placed_append (l : SegLog α) (a : α) :
    (l.append a).placed = l.placed ++ [(a, l.closed.length)] := by
  simp [placed, append]

/-- Closing a segment keeps every entry in its place. -/
theorem placed_close (l : SegLog α) : l.close.placed = l.placed := by
  simp [placed, close, placedFrom_concat]

theorem Steps.placed_eq {l l' : SegLog α} {added : List (α × Nat)} (h : Steps l added l') :
    l'.placed = l.placed ++ added := by
  induction h with
  | refl => simp
  | append _ a ih => rw [placed_append, ih, List.append_assoc]
  | close _ ih => rw [placed_close, ih]

/-! ## The contents of one segment -/

/-- The entries of the segment with the given number; a segment that is still to come is empty. -/
def segment (l : SegLog α) (n : Nat) : List α := (l.closed ++ [l.current])[n]?.getD []

theorem segment_current (l : SegLog α) : l.segment l.closed.length = l.current := by
  simp [segment]

theorem segment_closed {l : SegLog α} {n : Nat} {entries : List α}
    (h : l.closed[n]? = some entries) :
    l.segment n = entries := by
  obtain ⟨hlt, -⟩ := List.getElem?_eq_some_iff.mp h
  rw [segment, List.getElem?_append_left hlt, h, Option.getD_some]

theorem segment_of_length_lt {l : SegLog α} {n : Nat} (h : l.closed.length < n) :
    l.segment n = [] := by
  rw [segment, List.getElem?_eq_none (by simp; omega), Option.getD_none]

/-- Only the current segment grows. -/
theorem segment_append (l : SegLog α) (a : α) (n : Nat) :
    (l.append a).segment n = l.segment n ++ if l.closed.length = n then [a] else [] := by
  rcases Nat.lt_trichotomy n l.closed.length with hlt | heq | hgt
  · rw [if_neg (by omega), List.append_nil, segment, segment, append,
      List.getElem?_append_left hlt, List.getElem?_append_left hlt]
  · subst heq
    rw [if_pos rfl, segment_current]
    exact segment_current (l.append a)
  · rw [if_neg (by omega), List.append_nil, segment_of_length_lt hgt]
    exact segment_of_length_lt (l := l.append a) hgt

theorem segment_close (l : SegLog α) (n : Nat) : l.close.segment n = l.segment n := by
  rcases Nat.lt_trichotomy n (l.closed.length + 1) with hlt | heq | hgt
  · rw [segment, segment, close, List.getElem?_append_left (by simpa using hlt)]
  · subst heq
    rw [segment_of_length_lt (Nat.lt_succ_self _)]
    simp [segment, close]
  · have hclosed : l.close.closed.length < n := by simpa [close] using hgt
    rw [segment_of_length_lt hclosed, segment_of_length_lt (by omega)]

theorem Steps.segment_eq {l l' : SegLog α} {added : List (α × Nat)} (h : Steps l added l')
    (n : Nat) :
    l'.segment n = l.segment n ++ (added.filter fun entry => entry.2 = n).map Prod.fst := by
  induction h with
  | refl => simp
  | @append l' added _ a ih =>
    rw [segment_append, ih, List.filter_append, List.map_append, List.append_assoc]
    by_cases hn : l'.closed.length = n
    · simp [hn]
    · simp [hn]
  | close _ ih => rw [segment_close, ih]

/-- Entries go to the segments from the one that was current to the one that is. -/
theorem Steps.mem_range {l l' : SegLog α} {added : List (α × Nat)} (h : Steps l added l') :
    l.closed.length ≤ l'.closed.length
      ∧ ∀ entry ∈ added, l.closed.length ≤ entry.2 ∧ entry.2 ≤ l'.closed.length := by
  induction h with
  | refl => simp
  | @append l' added _ a ih =>
    refine ⟨ih.1, ?_⟩
    intro entry hentry
    rcases List.mem_append.mp hentry with hold | hnew
    · exact ih.2 entry hold
    · rw [List.mem_singleton.mp hnew]
      exact ⟨ih.1, Nat.le_refl _⟩
  | @close l' added _ ih =>
    have hlength : l'.close.closed.length = l'.closed.length + 1 := by simp [SegLog.close]
    rw [hlength]
    refine ⟨by omega, ?_⟩
    intro entry hentry
    have hrange := ih.2 entry hentry
    exact ⟨hrange.1, by omega⟩

end SegLog
