import TrackOne.Lib.Words

/-!
# Slices and offsets

Offsets into a byte string as 64-bit numbers: an addition that may overflow and a range that may lie
outside. A cursor is a split of the bytes: those before the offset, and the input from there on;
`getRange_cursor` reads a range from the front of the input.
-/

/-- `checked_add` on the 64-bit `usize`. -/
def checkedAddUsize (a b : Nat) : Option Nat :=
  if a + b < 2 ^ 64 then some (a + b) else none

/-- `bytes.get(start..stop)`. -/
def getRange (bytes : Bytes) (start stop : Nat) : Option Bytes :=
  if start ≤ stop ∧ stop ≤ bytes.length then some ((bytes.take stop).drop start) else none

theorem checkedAddUsize_eq_some {a b c : Nat} :
    checkedAddUsize a b = some c ↔ a + b < 2 ^ 64 ∧ a + b = c := by
  simp [checkedAddUsize]

theorem getRange_eq_some {bytes : Bytes} {start stop : Nat} {slice : Bytes}
    (h : getRange bytes start stop = some slice) :
    start ≤ stop ∧ stop ≤ bytes.length ∧ slice.length = stop - start := by
  unfold getRange at h
  split_ifs at h with hrange
  cases h
  refine ⟨hrange.1, hrange.2, ?_⟩
  rw [List.length_drop, List.length_take]
  omega

theorem getRange_cursor {before input : Bytes} {length : Nat} {slice : Bytes} :
    getRange (before ++ input) before.length (before.length + length) = some slice
      ↔ ∃ rest, input = slice ++ rest ∧ slice.length = length := by
  unfold getRange
  rw [List.length_append]
  constructor
  · intro h
    split_ifs at h with hrange
    obtain rfl := Option.some.inj h
    refine ⟨input.drop length, ?_, ?_⟩
    · rw [List.take_length_add_append, List.drop_left, List.take_append_drop]
    · rw [List.take_length_add_append, List.drop_left, List.length_take]
      omega
  · rintro ⟨rest, rfl, rfl⟩
    rw [List.length_append, if_pos (by omega), List.take_length_add_append, List.drop_left,
      List.take_left]
