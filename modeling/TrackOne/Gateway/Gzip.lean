import TrackOne.Gateway.GzipHeader

/-!
# Gzip expansion

`expand_gzip` of `trackone-gateway-svc/src/service.rs`: the body of a request is inflated under a
limit. The inflater is a state machine outside the code; `Inflater.Bounded` is what it must keep to,
and `Inflater.Decodes` that it makes its way through a stream.

* `ExpandInvariant`: what holds at the head of the loop; `extend_spec` is one iteration.
* `expandLoop_ends`: the totals of the inflater bound the iterations.
* `expand_gzip_bounded`: expansion ends, within the limit and within its buffers, and gives the data
  of every stream that is well formed.
-/

namespace TrackOne

/-! ## The expansion -/

/-- `Status` of the inflater. -/
inductive InflateStatus where
  | ok
  | bufError
  | streamEnd
deriving DecidableEq, Repr

/-- `Decompress`: a call gets the rest of the input and a buffer, and gives the buffer back. -/
structure Inflater where
  State : Type
  new : State
  totalIn : State → UInt64
  totalOut : State → UInt64
  decompress : State → (input buffer : Bytes) → Except Unit (State × InflateStatus × Bytes)

def scratchLen : Nat := 8192

/-- What the loop carries: the inflater, what the checksum was fed with, the output and the scratch
buffer. -/
structure ExpandState (inflater : Inflater) where
  decompressor : inflater.State
  crc : Bytes
  output : Bytes
  scratch : Bytes

section

variable (inflater : Inflater) (crc32 : Bytes → UInt32) (input : Bytes) (limit offset : Nat)

def expandStart : ExpandState inflater :=
  ⟨inflater.new, [], [], List.replicate scratchLen 0⟩

variable {inflater}

/-- The room that is offered: one byte more than the limit leaves, and no more than the buffer. -/
def outputWidth (state : ExpandState inflater) : Nat :=
  min (min (limit - state.output.length + 1) (2 ^ 64 - 1)) scratchLen

/-- The first half of an iteration: the inflater is called, and what it produced is appended. -/
def extend (state : ExpandState inflater) :
    Except GzipFailure (ExpandState inflater × InflateStatus) := do
  let width := outputWidth limit state
  let inputOffset ← orMalformed "gzip member length overflows"
    (checkedAddUsize offset (inflater.totalIn state.decompressor).toNat)
  let given ← orMalformed "truncated gzip stream" (getRange input inputOffset input.length)
  let buffer ← indexRange state.scratch 0 width
  let (decompressor, status, buffer)
    ← (inflater.decompress state.decompressor given buffer).mapError
    fun _ => .envelope (.malformed "malformed gzip deflate stream")
  let scratch := buffer ++ state.scratch.drop width
  let produced ← Except.ofOption .panicked
    ((inflater.totalOut decompressor).checkedSub (inflater.totalOut state.decompressor))
  let written ← indexRange scratch 0 produced.toNat
  pure ({ decompressor, crc := state.crc ++ written, output := state.output ++ written, scratch },
    status)

/-- The inflater neither read nor wrote. -/
def Stalled (state next : ExpandState inflater) : Prop :=
  inflater.totalIn next.decompressor = inflater.totalIn state.decompressor
    ∧ inflater.totalOut next.decompressor = inflater.totalOut state.decompressor

instance (state next : ExpandState inflater) : Decidable (Stalled state next) :=
  inferInstanceAs (Decidable (_ ∧ _))

/-- The loop, for a number of iterations; nothing when they do not suffice. -/
def expandLoop : (iterations : Nat) → ExpandState inflater →
    Option (Except GzipFailure (ExpandState inflater))
  | 0, _ => none
  | iterations + 1, state =>
    match extend input limit offset state with
    | .error failure => some (.error failure)
    | .ok (next, status) =>
      if limit < next.output.length then some (.error (.envelope .limit))
      else if status = .streamEnd then some (.ok next)
      else if Stalled state next then
        some (.error (.envelope (.malformed "truncated gzip deflate stream")))
      else expandLoop iterations next

/-- The checks of the trailer. -/
def checkTrailer (state : ExpandState inflater) : Except GzipFailure Bytes := do
  let trailer ← orMalformed "gzip member length overflows"
    (checkedAddUsize offset (inflater.totalIn state.decompressor).toNat)
  let stop ← orMalformed "gzip member length overflows" (checkedAddUsize trailer 8)
  requireGzip "gzip body has trailing data or multiple members" (stop = input.length)
  let middle ← addUsize trailer 4
  let expectedCrc ← indexRange input trailer middle
  let expectedSize ← indexRange input middle stop
  requireGzip "gzip data checksum or size is invalid"
    ((crc32 state.crc).toNat = ofLeBytes expectedCrc
      && state.crc.length % 2 ^ 32 = ofLeBytes expectedSize)
  pure state.output

variable (inflater)

def expandGzip (iterations : Nat) : Option (Except GzipFailure Bytes) :=
  match gzipDeflateOffset crc32 input with
  | .error failure => some (.error failure)
  | .ok offset =>
    match expandLoop input limit offset iterations (expandStart inflater) with
    | none => none
    | some (.error failure) => some (.error failure)
    | some (.ok state) => some (checkTrailer crc32 input offset state)

end

/-! ## What is asked of the inflater -/

/-- A call reads at most the bytes it is given and writes at most the buffer it is given, and the
totals count both. -/
structure Inflater.Bounded (inflater : Inflater) : Prop where
  totalIn_new : inflater.totalIn inflater.new = 0
  totalOut_new : inflater.totalOut inflater.new = 0
  decompress : ∀ {state next : inflater.State} {input buffer filled : Bytes}
    {status : InflateStatus},
    inflater.decompress state input buffer = .ok (next, status, filled) →
      filled.length = buffer.length
      ∧ (∃ read ≤ input.length,
          inflater.totalIn next = inflater.totalIn state + UInt64.ofNat read)
      ∧ ∃ written ≤ buffer.length,
          inflater.totalOut next = inflater.totalOut state + UInt64.ofNat written

/-- The states an inflater goes through before the end of a stream, with buffers of any size. -/
inductive Inflater.Reached (inflater : Inflater) (given : Bytes) : inflater.State → Prop where
  | new : inflater.Reached given inflater.new
  | step {state next : inflater.State} {buffer filled : Bytes} {status : InflateStatus}
      (hstate : inflater.Reached given state) (hbuffer : buffer ≠ [])
      (hcall : inflater.decompress state (given.drop (inflater.totalIn state).toNat) buffer
        = .ok (next, status, filled))
      (hstatus : status ≠ .streamEnd) : inflater.Reached given next

/-- The stream inflates to the data, whatever follows it: every call writes the next bytes of the
data, and makes progress or reports the end, with all of the stream read and all of the data
written. -/
def Inflater.Decodes (inflater : Inflater) (stream rest data : Bytes) : Prop :=
  ∀ (state : inflater.State) (buffer : Bytes), inflater.Reached (stream ++ rest) state →
    buffer ≠ [] → ∃ next status filled,
      inflater.decompress state ((stream ++ rest).drop (inflater.totalIn state).toNat) buffer
        = .ok (next, status, filled)
      ∧ (inflater.totalOut next).toNat ≤ data.length
      ∧ filled.take ((inflater.totalOut next).toNat - (inflater.totalOut state).toNat)
        = (data.drop (inflater.totalOut state).toNat).take
          ((inflater.totalOut next).toNat - (inflater.totalOut state).toNat)
      ∧ (status = .streamEnd → (inflater.totalIn next).toNat = stream.length
          ∧ (inflater.totalOut next).toNat = data.length)
      ∧ (status ≠ .streamEnd → inflater.totalIn next ≠ inflater.totalIn state
          ∨ inflater.totalOut next ≠ inflater.totalOut state)

/-! ## One iteration -/

section

variable {inflater : Inflater} {input : Bytes} {limit offset bound : Nat}

/-- What holds of the loop's state, for a bound on the output. -/
structure ExpandInvariant (input : Bytes) (offset bound : Nat) (state : ExpandState inflater) :
    Prop where
  crc_eq : state.crc = state.output
  length_scratch : state.scratch.length = scratchLen
  read_le : offset + (inflater.totalIn state.decompressor).toNat ≤ input.length
  totalOut_eq : (inflater.totalOut state.decompressor).toNat = state.output.length
  output_le : state.output.length ≤ bound

/-- The state at the head of the loop, in any iteration. -/
inductive LoopHead (inflater : Inflater) (input : Bytes) (limit offset : Nat) :
    ExpandState inflater → Prop where
  | start : LoopHead inflater input limit offset (expandStart inflater)
  | next {state next : ExpandState inflater} {status : InflateStatus}
      (hstate : LoopHead inflater input limit offset state)
      (hextend : extend input limit offset state = .ok (next, status))
      (hlimit : ¬ limit < next.output.length) (hstatus : status ≠ .streamEnd)
      (hprogress : ¬ Stalled state next) : LoopHead inflater input limit offset next

/-- Before the first call nothing is read and nothing written. -/
theorem expandInvariant_start (hinflater : inflater.Bounded) (hoffset : offset ≤ input.length) :
    ExpandInvariant input offset bound (expandStart inflater) where
  crc_eq := rfl
  length_scratch := List.length_replicate
  read_le := by
    show offset + (inflater.totalIn inflater.new).toNat ≤ input.length
    rw [hinflater.totalIn_new]
    exact hoffset
  totalOut_eq := by
    show (inflater.totalOut inflater.new).toNat = 0
    rw [hinflater.totalOut_new]
    rfl
  output_le := Nat.zero_le _

variable {state next : ExpandState inflater} {status : InflateStatus}

/-- The inflater always gets room to write to. -/
theorem outputWidth_pos : 0 < outputWidth limit state := by
  unfold outputWidth scratchLen
  omega

/-- The room is within the scratch buffer. -/
theorem outputWidth_le : outputWidth limit state ≤ scratchLen := by
  unfold outputWidth
  omega

/-- The room is one byte past the limit at most. -/
theorem outputWidth_le_room : outputWidth limit state ≤ limit - state.output.length + 1 := by
  unfold outputWidth
  omega

/-- What the inflater is called with, and what a failure of it gives. -/
theorem extend_error (hinput : input.length < 2 ^ 63) (h : ExpandInvariant input offset bound state)
    {failure : Unit}
    (hcall : inflater.decompress state.decompressor
      (input.drop (offset + (inflater.totalIn state.decompressor).toNat))
      (state.scratch.take (outputWidth limit state)) = .error failure) :
    extend input limit offset state
      = .error (.envelope (.malformed "malformed gzip deflate stream")) := by
  have hread := h.read_le
  have hwidth : outputWidth limit state ≤ state.scratch.length :=
    h.length_scratch.symm ▸ outputWidth_le
  unfold extend orMalformed
  rw [checkedAddUsize, if_pos (by omega)]
  simp only [Except.ofOption, Except.ok_bind]
  rw [getRange, if_pos ⟨hread, Nat.le_refl _⟩, List.take_length]
  simp only [Except.ok_bind]
  rw [indexRange_of_le (Nat.zero_le _) hwidth, Except.ok_bind, List.drop_zero, hcall]
  rfl

/-- One call of the inflater keeps the invariant, with a byte past the limit at most, and moves
neither count back. -/
theorem extend_ok (hinflater : inflater.Bounded) (hinput : input.length < 2 ^ 63)
    (hlimit : limit < 2 ^ 64 - 1) (h : ExpandInvariant input offset limit state)
    {decompressor : inflater.State} {filled : Bytes}
    (hcall : inflater.decompress state.decompressor
      (input.drop (offset + (inflater.totalIn state.decompressor).toNat))
      (state.scratch.take (outputWidth limit state)) = .ok (decompressor, status, filled)) :
    ∃ next, extend input limit offset state = .ok (next, status)
      ∧ ExpandInvariant input offset (limit + 1) next
      ∧ next.decompressor = decompressor
      ∧ next.output = state.output ++ filled.take ((inflater.totalOut decompressor).toNat
          - (inflater.totalOut state.decompressor).toNat)
      ∧ (inflater.totalIn state.decompressor).toNat ≤ (inflater.totalIn decompressor).toNat
      ∧ (inflater.totalOut state.decompressor).toNat ≤ (inflater.totalOut decompressor).toNat := by
  -- the call gets no more than the scratch buffer, and a byte past the limit at most
  have hwidth : outputWidth limit state ≤ state.scratch.length :=
    h.length_scratch.symm ▸ outputWidth_le
  have hroom : outputWidth limit state ≤ limit - state.output.length + 1 := outputWidth_le_room
  have hread := h.read_le
  have hwritten := h.totalOut_eq
  have hbound := h.output_le
  obtain ⟨hfilled, ⟨read, hreadle, hin⟩, written, hwrittenle, hout⟩ := hinflater.decompress hcall
  rw [List.length_take, Nat.min_eq_left hwidth] at hfilled hwrittenle
  rw [List.length_drop] at hreadle
  -- Neither total wraps: one is bounded by the input, the other by the limit.
  have hin' : (inflater.totalIn decompressor).toNat
      = (inflater.totalIn state.decompressor).toNat + read := by
    rw [hin, UInt64.toNat_add, UInt64.toNat_ofNat', Nat.add_mod_mod, Nat.mod_eq_of_lt (by omega)]
  have hout' : (inflater.totalOut decompressor).toNat
      = (inflater.totalOut state.decompressor).toNat + written := by
    rw [hout, UInt64.toNat_add, UInt64.toNat_ofNat', Nat.add_mod_mod, Nat.mod_eq_of_lt (by omega)]
  -- what it wrote is the difference of its totals
  have hproduced : (inflater.totalOut decompressor).toNat
      - (inflater.totalOut state.decompressor).toNat = written := by omega
  have hsub : (inflater.totalOut decompressor).checkedSub (inflater.totalOut state.decompressor)
      = some (UInt64.ofNat written) := by
    rw [UInt64.checkedSub_eq_some, UInt64.toNat_ofNat_of_lt64 (by omega), hout']
  have htake : (filled ++ state.scratch.drop (outputWidth limit state)).take written
      = filled.take written := List.take_append_of_le_length (by omega)
  refine ⟨⟨decompressor, state.crc ++ filled.take written, state.output ++ filled.take written,
    filled ++ state.scratch.drop (outputWidth limit state)⟩, ?_, ?_, rfl, ?_, by omega, by omega⟩
  -- no index of the step is out of range
  · unfold extend orMalformed
    rw [checkedAddUsize, if_pos (by omega)]
    simp only [Except.ofOption, Except.ok_bind]
    rw [getRange, if_pos ⟨hread, Nat.le_refl _⟩, List.take_length]
    simp only [Except.ok_bind]
    rw [indexRange_of_le (Nat.zero_le _) hwidth, Except.ok_bind, List.drop_zero, hcall]
    have hword : (UInt64.ofNat written).toNat = written := UInt64.toNat_ofNat_of_lt64 (by omega)
    simp only [Except.mapError, Except.ok_bind, hsub, hword]
    rw [indexRange_of_le (Nat.zero_le _) (by rw [List.length_append]; omega), List.drop_zero, htake]
    rfl
  · have hlength : (filled.take written).length = written := by
      rw [List.length_take]
      omega
    -- the invariant after the call
    constructor
    · show state.crc ++ _ = state.output ++ _
      rw [h.crc_eq]
    · show (filled ++ state.scratch.drop (outputWidth limit state)).length = scratchLen
      rw [List.length_append, List.length_drop, h.length_scratch]
      have := h.length_scratch
      omega
    · show offset + (inflater.totalIn decompressor).toNat ≤ input.length
      omega
    · show (inflater.totalOut decompressor).toNat = (state.output ++ filled.take written).length
      rw [List.length_append, hlength]
      omega
    · show (state.output ++ filled.take written).length ≤ limit + 1
      rw [List.length_append, hlength]
      omega
  · rw [hproduced]

/-- One iteration: the inflater refuses the bytes, or both totals grow and the output has at most
one byte too many. -/
theorem extend_spec (hinflater : inflater.Bounded) (hinput : input.length < 2 ^ 63)
    (hlimit : limit < 2 ^ 64 - 1) (h : ExpandInvariant input offset limit state) :
    extend input limit offset state
      = .error (.envelope (.malformed "malformed gzip deflate stream"))
      ∨ ∃ next status, extend input limit offset state = .ok (next, status)
        ∧ ExpandInvariant input offset (limit + 1) next
        ∧ (inflater.totalIn state.decompressor).toNat ≤ (inflater.totalIn next.decompressor).toNat
        ∧ (inflater.totalOut state.decompressor).toNat
          ≤ (inflater.totalOut next.decompressor).toNat := by
  cases hcall : inflater.decompress state.decompressor
      (input.drop (offset + (inflater.totalIn state.decompressor).toNat))
      (state.scratch.take (outputWidth limit state)) with
  | error failure => exact Or.inl (extend_error hinput h hcall)
  | ok result =>
    obtain ⟨decompressor, status, filled⟩ := result
    obtain ⟨next, hnext, hinvariant, rfl, -, hin, hout⟩ :=
      extend_ok hinflater hinput hlimit h hcall
    exact Or.inr ⟨next, status, hnext, hinvariant, hin, hout⟩

/-! ## The loop -/

/-- What is left to read and to write, with the byte beyond the limit. -/
def expandMeasure (input : Bytes) (limit offset : Nat) (state : ExpandState inflater) : Nat :=
  (input.length - offset - (inflater.totalIn state.decompressor).toNat)
    + (limit + 1 - state.output.length)

/-- An output within the limit keeps the invariant for it. -/
theorem ExpandInvariant.within (h : ExpandInvariant input offset bound next)
    (hlimit : next.output.length ≤ limit) : ExpandInvariant input offset limit next :=
  ⟨h.crc_eq, h.length_scratch, h.read_le, h.totalOut_eq, hlimit⟩

/-- A call that does not stall makes the measure smaller. -/
theorem expandMeasure_lt (h : ExpandInvariant input offset limit state)
    (hnext : ExpandInvariant input offset limit next)
    (hin : (inflater.totalIn state.decompressor).toNat ≤ (inflater.totalIn next.decompressor).toNat)
    (hout : (inflater.totalOut state.decompressor).toNat
      ≤ (inflater.totalOut next.decompressor).toNat)
    (hprogress : ¬ Stalled state next) :
    expandMeasure input limit offset next < expandMeasure input limit offset state := by
  have hmoved : (inflater.totalIn next.decompressor).toNat
        ≠ (inflater.totalIn state.decompressor).toNat
      ∨ (inflater.totalOut next.decompressor).toNat
        ≠ (inflater.totalOut state.decompressor).toNat := by
    by_contra hsame
    rw [not_or, not_not, not_not] at hsame
    exact hprogress ⟨UInt64.toNat_inj.mp hsame.1, UInt64.toNat_inj.mp hsame.2⟩
  have hread := hnext.read_le
  have hroom := hnext.output_le
  have hwritten := h.totalOut_eq
  have hwritten' := hnext.totalOut_eq
  unfold expandMeasure
  omega

/-- A call that fails ends the loop. -/
theorem expandLoop_error {failure : GzipFailure} {iterations : Nat}
    (h : extend input limit offset state = .error failure) :
    expandLoop input limit offset (iterations + 1) state = some (.error failure) := by
  rw [expandLoop, h]

/-- After a call the loop ends past the limit, at the end of the stream or where it stalls, and else
goes on. -/
theorem expandLoop_ok {iterations : Nat}
    (h : extend input limit offset state = .ok (next, status)) :
    expandLoop input limit offset (iterations + 1) state
      = if limit < next.output.length then some (.error (.envelope .limit))
        else if status = .streamEnd then some (.ok next)
        else if Stalled state next then
          some (.error (.envelope (.malformed "truncated gzip deflate stream")))
        else expandLoop input limit offset iterations next := by
  rw [expandLoop, h]

/-- More iterations change nothing. -/
theorem expandLoop_mono {iterations : Nat} {result : Except GzipFailure (ExpandState inflater)}
    (h : expandLoop input limit offset iterations state = some result) {more : Nat}
    (hmore : iterations ≤ more) : expandLoop input limit offset more state = some result := by
  induction iterations generalizing state more with
  | zero => cases h
  | succ iterations ih =>
    obtain ⟨more, rfl⟩ : ∃ m, more = m + 1 := ⟨more - 1, by omega⟩
    cases hextend : extend input limit offset state with
    | error failure =>
      rw [expandLoop_error hextend] at h ⊢
      exact h
    | ok extended =>
      obtain ⟨next, status⟩ := extended
      rw [expandLoop_ok hextend] at h ⊢
      split_ifs at h ⊢ with hlimit hend hstalled
      · exact h
      · exact h
      · exact h
      · exact ih h (by omega)

/-- With enough iterations the loop ends, in a state of the invariant or with an error that is
returned. -/
theorem expandLoop_ends (hinflater : inflater.Bounded) (hinput : input.length < 2 ^ 63)
    (hlimit : limit < 2 ^ 64 - 1) {iterations : Nat} (h : ExpandInvariant input offset limit state)
    (hiterations : expandMeasure input limit offset state < iterations) :
    ∃ result, expandLoop input limit offset iterations state = some result ∧ Safe result
      ∧ ∀ final, result = .ok final → ExpandInvariant input offset limit final := by
  induction iterations generalizing state with
  | zero => omega
  | succ iterations ih =>
    obtain hextend | ⟨next, status, hextend, hnext, hin, hout⟩ :=
      extend_spec hinflater hinput hlimit h
    · refine ⟨_, expandLoop_error hextend, ?_, ?_⟩
      · intro herror
        cases herror
      · intro final herror
        cases herror
    · rw [expandLoop_ok hextend]
      split_ifs with hover hend hstalled
      · refine ⟨_, rfl, ?_, ?_⟩
        · intro herror
          cases herror
        · intro final herror
          cases herror
      · refine ⟨_, rfl, Safe.ok _, ?_⟩
        intro final hfinal
        cases hfinal
        exact hnext.within (Nat.le_of_not_lt hover)
      · refine ⟨_, rfl, ?_, ?_⟩
        · intro herror
          cases herror
        · intro final herror
          cases herror
      · have hwithin := hnext.within (Nat.le_of_not_lt hover)
        have hless := expandMeasure_lt h hwithin hin hout hstalled
        exact ih hwithin (by omega)

/-- The invariant holds wherever the loop begins again. Induction on the turns so far. -/
theorem LoopHead.invariant (hinflater : inflater.Bounded) (hinput : input.length < 2 ^ 63)
    (hlimit : limit < 2 ^ 64 - 1) (hoffset : offset ≤ input.length)
    (h : LoopHead inflater input limit offset state) :
    ExpandInvariant input offset limit state := by
  induction h with
  | start => exact expandInvariant_start hinflater hoffset
  | next hstate hextend hover hstatus hprogress ih =>
    obtain herror | ⟨next, status, hok, hnext, -, -⟩ := extend_spec hinflater hinput hlimit ih
    · rw [hextend] at herror
      cases herror
    · rw [hextend] at hok
      cases hok
      exact hnext.within (Nat.le_of_not_lt hover)

/-- Through a stream that inflates to at most the limit, the loop gives its data. -/
theorem expandLoop_decodes (hinflater : inflater.Bounded) (hinput : input.length < 2 ^ 63)
    (hlimit : limit < 2 ^ 64 - 1) {stream rest data : Bytes}
    (hstream : input.drop offset = stream ++ rest) (hdecodes : inflater.Decodes stream rest data)
    (hdata : data.length ≤ limit) {iterations : Nat} (h : ExpandInvariant input offset limit state)
    (hreached : inflater.Reached (stream ++ rest) state.decompressor)
    (houtput : state.output = data.take (inflater.totalOut state.decompressor).toNat)
    (hiterations : expandMeasure input limit offset state < iterations) :
    ∃ final, expandLoop input limit offset iterations state = some (.ok final)
      ∧ ExpandInvariant input offset limit final
      ∧ (inflater.totalIn final.decompressor).toNat = stream.length ∧ final.output = data := by
  induction iterations generalizing state with
  | zero => omega
  | succ iterations ih =>
    have hbuffer : state.scratch.take (outputWidth limit state) ≠ [] := by
      have hpos : 0 < outputWidth limit state := outputWidth_pos
      intro hnil
      rw [List.take_eq_nil_iff] at hnil
      have hscratch := h.length_scratch
      obtain hzero | hempty := hnil
      · omega
      · rw [hempty] at hscratch
        cases hscratch
    obtain ⟨decompressor, status, filled, hcall, hwritten, hbytes, hend, hprogress⟩ :=
      hdecodes state.decompressor _ hreached hbuffer
    have hcall' := hcall
    rw [← hstream, List.drop_drop] at hcall'
    obtain ⟨next, hextend, hnext, rfl, hnextOutput, hin, hout⟩ :=
      extend_ok hinflater hinput hlimit h hcall'
    -- The bytes that are appended are the next ones of the data.
    have houtput' : next.output = data.take (inflater.totalOut next.decompressor).toNat := by
      rw [hnextOutput, houtput, hbytes, ← List.take_add, Nat.add_sub_cancel' hout]
    have hwithin : next.output.length ≤ limit := by
      rw [← hnext.totalOut_eq]
      omega
    rw [expandLoop_ok hextend, if_neg (Nat.not_lt.mpr hwithin)]
    by_cases hstatus : status = .streamEnd
    · rw [if_pos hstatus]
      obtain ⟨hall, hlast⟩ := hend hstatus
      refine ⟨next, rfl, hnext.within hwithin, hall, ?_⟩
      rw [houtput', hlast, List.take_length]
    · have hmoved : ¬ Stalled state next := by
        intro hstalled
        obtain hmoved | hmoved := hprogress hstatus
        · exact hmoved hstalled.1
        · exact hmoved hstalled.2
      rw [if_neg hstatus, if_neg hmoved]
      have hless := expandMeasure_lt h (hnext.within hwithin) hin hout hmoved
      exact ih (hnext.within hwithin) (hreached.step hbuffer hcall hstatus) houtput' (by omega)

/-! ## The trailer -/

/-- The eight bytes behind a stream: the checksum of the data and the length of it. -/
def gzipTrailer (crc32 : Bytes → UInt32) (data : Bytes) : Bytes :=
  leBytes 4 (crc32 data).toNat ++ leBytes 4 data.length

/-- A trailer takes eight bytes. -/
theorem length_gzipTrailer (crc32 : Bytes → UInt32) (data : Bytes) :
    (gzipTrailer crc32 data).length = 8 := by
  simp [gzipTrailer]

/-- Four bytes of the trailer are compared modulo `2 ^ 32`. -/
theorem eq_leBytes_iff {n : Nat} {part : Bytes} (hpart : part.length = 4) :
    n % 2 ^ 32 = ofLeBytes part ↔ part = leBytes 4 n := by
  constructor
  · intro h
    calc part = leBytes part.length (ofLeBytes part) := (leBytes_ofLeBytes part).symm
      _ = leBytes 4 (n % 2 ^ 32) := by rw [hpart, h]
      _ = leBytes 4 (ofLeBytes (leBytes 4 n)) := by
        rw [ofLeBytes_leBytes]
        rfl
      _ = leBytes 4 n := leBytes_ofLeBytes (leBytes 4 n)
  · rintro rfl
    rw [ofLeBytes_leBytes]
    rfl

section

variable {before tail : Bytes} (crc32 : Bytes → UInt32)
  (hinput : (before ++ tail).length < 2 ^ 63)
  (hconsumed : offset + (inflater.totalIn state.decompressor).toNat = before.length)
include hinput hconsumed

/-- The checks of the trailer, when the stream ends before it. -/
theorem checkTrailer_eq :
    checkTrailer crc32 (before ++ tail) offset state
      = if tail.length = 8 ∧ tail = gzipTrailer crc32 state.crc then .ok state.output
        else if tail.length = 8 then
          .error (.envelope (.malformed "gzip data checksum or size is invalid"))
        else .error (.envelope (.malformed "gzip body has trailing data or multiple members")) := by
  rw [List.length_append] at hinput
  unfold checkTrailer orMalformed
  rw [checkedAddUsize, hconsumed, if_pos (by omega)]
  simp only [Except.ofOption, Except.ok_bind]
  rw [checkedAddUsize, if_pos (by omega)]
  simp only [Except.ok_bind]
  -- the trailer must reach the end of the body
  by_cases htail : tail.length = 8
  · have hstop : before.length + 8 = (before ++ tail).length := by rw [List.length_append, htail]
    obtain ⟨first, second, rfl, hfirst, hsecond⟩ : ∃ first second : Bytes, tail = first ++ second
        ∧ first.length = 4 ∧ second.length = 4 :=
      ⟨tail.take 4, tail.drop 4, (List.take_append_drop 4 tail).symm,
        by rw [List.length_take]; omega, by rw [List.length_drop]; omega⟩
    have hcrc : indexRange (before ++ (first ++ second)) before.length (before.length + 4)
        = .ok first := by
      rw [indexRange_eq_ok]
      exact getRange_cursor.mpr ⟨second, rfl, hfirst⟩
    have hsize : indexRange (before ++ (first ++ second)) (before.length + 4) (before.length + 8)
        = .ok second := by
      -- its two numbers are read from four bytes each
      rw [indexRange_eq_ok, ← List.append_assoc,
        show before.length + 4 = (before ++ first).length by rw [List.length_append, hfirst],
        show before.length + 8 = (before ++ first).length + 4 by rw [List.length_append, hfirst]]
      exact getRange_cursor.mpr ⟨[], (List.append_nil second).symm, hsecond⟩
    rw [requireGzip, decide_eq_true hstop, addUsize_of_lt (by omega)]
    simp only [Except.require, if_true, Except.ok_bind, hcrc, hsize]
    -- The two numbers are the ones the trailer of the data has.
    have hvalid : ((crc32 state.crc).toNat = ofLeBytes first
          ∧ state.crc.length % 2 ^ 32 = ofLeBytes second)
        ↔ first ++ second = gzipTrailer crc32 state.crc := by
      rw [← Nat.mod_eq_of_lt (crc32 state.crc).toNat_lt, eq_leBytes_iff hfirst,
        eq_leBytes_iff hsecond, gzipTrailer]
      constructor
      · rintro ⟨rfl, rfl⟩
        rfl
      · intro h
        exact List.append_inj h (by rw [hfirst, length_leBytes])
    by_cases hmatch : first ++ second = gzipTrailer crc32 state.crc
    · rw [if_pos ⟨htail, hmatch⟩, requireGzip]
      obtain ⟨hcrcEq, hsizeEq⟩ := hvalid.mpr hmatch
      rw [decide_eq_true hcrcEq, decide_eq_true hsizeEq]
      rfl
    · rw [if_neg (fun h => hmatch h.2), if_pos htail, requireGzip,
        show (decide ((crc32 state.crc).toNat = ofLeBytes first)
          && decide (state.crc.length % 2 ^ 32 = ofLeBytes second)) = false by
            rw [← Bool.decide_and, decide_eq_false (fun h => hmatch (hvalid.mp h))]]
      rfl
  -- with more or fewer bytes the length is refused
  · have hstop : ¬ before.length + 8 = (before ++ tail).length := by
      rw [List.length_append]
      omega
    rw [if_neg (fun h => htail h.1), if_neg htail, requireGzip, decide_eq_false hstop]
    rfl

/-- The check of the trailer reads within the body. -/
theorem safe_checkTrailer : Safe (checkTrailer crc32 (before ++ tail) offset state) := by
  rw [checkTrailer_eq crc32 hinput hconsumed]
  intro h
  split_ifs at h <;> cases h

/-- The trailer is accepted when it is the one for the output, and then nothing follows it. -/
theorem checkTrailer_eq_ok {out : Bytes} :
    checkTrailer crc32 (before ++ tail) offset state = .ok out
      ↔ tail = gzipTrailer crc32 state.crc ∧ state.output = out := by
  rw [checkTrailer_eq crc32 hinput hconsumed]
  constructor
  · intro h
    split_ifs at h with hvalid
    cases h
    exact ⟨hvalid.2, rfl⟩
  · rintro ⟨rfl, rfl⟩
    rw [if_pos ⟨length_gzipTrailer crc32 _, rfl⟩]

end

end

/-! ## The whole expansion -/

section

variable {inflater : Inflater} {crc32 : Bytes → UInt32} {input : Bytes} {limit offset : Nat}

/-- The measure starts within the turns that the theorem grants. -/
theorem expandMeasure_start :
    expandMeasure input limit offset (expandStart inflater) < input.length + limit + 2 := by
  show _ + (limit + 1 - 0) < _
  omega

/-- A header that is refused ends the expansion. -/
theorem expandGzip_of_error {failure : GzipFailure} {iterations : Nat}
    (h : gzipDeflateOffset crc32 input = .error failure) :
    expandGzip inflater crc32 input limit iterations = some (.error failure) := by
  rw [expandGzip, h]

/-- Past the header the expansion is the loop and then the trailer. -/
theorem expandGzip_of_loop {iterations : Nat} {result : Except GzipFailure (ExpandState inflater)}
    (hoffset : gzipDeflateOffset crc32 input = .ok offset)
    (hloop : expandLoop input limit offset iterations (expandStart inflater) = some result) :
    expandGzip inflater crc32 input limit iterations
      = some (result >>= checkTrailer crc32 input offset) := by
  rw [expandGzip, hoffset]
  simp only [hloop]
  cases result with
  | error failure => rfl
  | ok final => rfl

/-- Every input has one result, which every number of iterations from a bound on gives. -/
theorem expandGzip_ends (hinflater : inflater.Bounded) (hinput : input.length < 2 ^ 63)
    (hlimit : limit < 2 ^ 64 - 1) :
    ∃ result, (∀ iterations, input.length + limit + 2 ≤ iterations →
        expandGzip inflater crc32 input limit iterations = some result) ∧ Safe result
      ∧ ∀ out, result = .ok out → ∃ (header : GzipHeader crc32) (stream : Bytes)
          (final : ExpandState inflater),
        input = header.bytes ++ stream ++ gzipTrailer crc32 out
          ∧ gzipDeflateOffset crc32 input = .ok header.bytes.length
          ∧ expandLoop input limit header.bytes.length (input.length + limit + 2)
            (expandStart inflater) = some (.ok final)
          ∧ (inflater.totalIn final.decompressor).toNat = stream.length ∧ final.output = out
          ∧ out.length ≤ limit := by
  -- the header is refused, or it is read and the loop starts behind it
  cases hoffset : gzipDeflateOffset crc32 input with
  | error failure =>
    refine ⟨.error failure, fun iterations _ => expandGzip_of_error hoffset, ?_, ?_⟩
    · have hsafe := safe_gzipDeflateOffset crc32 hinput
      rw [hoffset] at hsafe
      intro h
      cases h
      exact hsafe rfl
    · intro out h
      cases h
  | ok offset =>
    obtain ⟨header, rest, hheader, -, rfl⟩ := (gzipDeflateOffset_eq_ok crc32 hinput).mp hoffset
    have hstart : ExpandInvariant input header.bytes.length limit (expandStart inflater) :=
      expandInvariant_start hinflater (by rw [hheader, List.length_append]; omega)
    obtain ⟨result, hloop, hsafe, hfinal⟩ :=
      expandLoop_ends hinflater hinput hlimit hstart expandMeasure_start
    refine ⟨result >>= checkTrailer crc32 input header.bytes.length, ?_, ?_⟩
    · intro iterations hiterations
      exact expandGzip_of_loop hoffset (expandLoop_mono hloop hiterations)
    · cases result with
      | error failure =>
        refine ⟨?_, ?_⟩
        · intro h
          cases h
          exact hsafe rfl
        · intro out h
          cases h
      | ok final =>
        have hinvariant := hfinal final rfl
        -- The stream is what the inflater read behind the header.
        obtain ⟨stream, tail, rfl, hstream⟩ : ∃ stream tail : Bytes, rest = stream ++ tail
            ∧ stream.length = (inflater.totalIn final.decompressor).toNat := by
          have hread := hinvariant.read_le
          rw [hheader, List.length_append] at hread
          refine ⟨rest.take (inflater.totalIn final.decompressor).toNat, rest.drop _,
            (List.take_append_drop _ rest).symm, ?_⟩
          rw [List.length_take]
          omega
        rw [← List.append_assoc] at hheader
        have hconsumed : header.bytes.length + (inflater.totalIn final.decompressor).toNat
            = (header.bytes ++ stream).length := by rw [List.length_append, hstream]
        subst hheader
        refine ⟨safe_checkTrailer crc32 hinput hconsumed, ?_⟩
        -- the trailer decides on the output of a stream that ended
        intro out hout
        obtain ⟨rfl, rfl⟩ := (checkTrailer_eq_ok crc32 hinput hconsumed).mp hout
        exact ⟨header, stream, final, by rw [hinvariant.crc_eq], rfl, hloop, hstream.symm, rfl,
          hinvariant.output_le⟩

/-- A member that inflates to at most the limit is expanded to its data. -/
theorem expandGzip_decodes (hinflater : inflater.Bounded) (header : GzipHeader crc32)
    {stream data : Bytes} (hmember : input = header.bytes ++ stream ++ gzipTrailer crc32 data)
    (hinput : input.length < 2 ^ 63) (hlimit : limit < 2 ^ 64 - 1) (hdata : data.length ≤ limit)
    (hdecodes : inflater.Decodes stream (gzipTrailer crc32 data) data) :
    expandGzip inflater crc32 input limit (input.length + limit + 2) = some (.ok data) := by
  have hoffset : gzipDeflateOffset crc32 input = .ok header.bytes.length := by
    rw [gzipDeflateOffset_eq_ok crc32 hinput]
    refine ⟨header, stream ++ gzipTrailer crc32 data, by rw [hmember, List.append_assoc], ?_, rfl⟩
    rw [List.length_append, length_gzipTrailer]
    omega
  have hstart : ExpandInvariant input header.bytes.length limit (expandStart inflater) :=
    expandInvariant_start hinflater (by rw [hmember, List.append_assoc, List.length_append]; omega)
  have hstream : input.drop header.bytes.length = stream ++ gzipTrailer crc32 data := by
    rw [hmember, List.append_assoc, List.drop_left]
  have houtput : (expandStart inflater).output
      = data.take (inflater.totalOut (expandStart inflater).decompressor).toNat := by
    rw [hstart.totalOut_eq]
    rfl
  obtain ⟨final, hloop, hinvariant, hconsumed, rfl⟩ := expandLoop_decodes hinflater hinput hlimit
    hstream hdecodes hdata hstart .new houtput expandMeasure_start
  rw [expandGzip_of_loop hoffset hloop]
  show some (checkTrailer crc32 input header.bytes.length final) = _
  subst hmember
  rw [(checkTrailer_eq_ok crc32 hinput (by rw [List.length_append, hconsumed])).mpr
    ⟨by rw [hinvariant.crc_eq], rfl⟩]

end

/-- Gzip expansion, for every inflater that keeps to what it is given, every input and every limit
below the largest number: it ends, without a panic; no iteration reads or writes beyond the input
and the buffers or holds more than one byte over the limit; what is returned lies within the limit
and is the data of a member that covers the input exactly; and every member that inflates to at most
the limit is expanded. -/
theorem expand_gzip_bounded (inflater : Inflater) (hinflater : inflater.Bounded)
    (crc32 : Bytes → UInt32) (input : SliceBytes) (limit : Nat) (hlimit : limit < 2 ^ 64 - 1) :
    ∃ result, (∀ iterations, input.1.length + limit + 2 ≤ iterations →
        expandGzip inflater crc32 input.1 limit iterations = some result)
      ∧ result ≠ .error .panicked
      ∧ (∀ offset state, gzipDeflateOffset crc32 input.1 = .ok offset →
          LoopHead inflater input.1 limit offset state →
            offset + (inflater.totalIn state.decompressor).toNat ≤ input.1.length
            ∧ outputWidth limit state ≤ state.scratch.length
            ∧ state.output.length ≤ limit
            ∧ ∀ next status, extend input.1 limit offset state = .ok (next, status) →
              offset + (inflater.totalIn next.decompressor).toNat ≤ input.1.length
              ∧ next.output.length ≤ limit + 1)
      ∧ (∀ out, result = .ok out → out.length ≤ limit
          ∧ ∃ (header : GzipHeader crc32) (stream : Bytes) (final : ExpandState inflater),
            input.1 = header.bytes ++ stream ++ gzipTrailer crc32 out
            ∧ gzipDeflateOffset crc32 input.1 = .ok header.bytes.length
            ∧ expandLoop input.1 limit header.bytes.length (input.1.length + limit + 2)
              (expandStart inflater) = some (.ok final)
            ∧ (inflater.totalIn final.decompressor).toNat = stream.length ∧ final.output = out)
      ∧ ∀ (header : GzipHeader crc32) (stream data : Bytes),
          input.1 = header.bytes ++ stream ++ gzipTrailer crc32 data → data.length ≤ limit →
          inflater.Decodes stream (gzipTrailer crc32 data) data → result = .ok data := by
  obtain ⟨result, hends, hsafe, hok⟩ :=
    @expandGzip_ends inflater crc32 input.1 limit hinflater input.2 hlimit
  refine ⟨result, hends, hsafe, ?_, ?_, ?_⟩
  · intro offset state hoffset hhead
    obtain ⟨header, rest, hheader, -, rfl⟩ := (gzipDeflateOffset_eq_ok crc32 input.2).mp hoffset
    have hle : header.bytes.length ≤ input.1.length := by
      rw [hheader, List.length_append]
      omega
    have hinvariant := hhead.invariant hinflater input.2 hlimit hle
    refine ⟨hinvariant.read_le, hinvariant.length_scratch.symm ▸ outputWidth_le,
      hinvariant.output_le, ?_⟩
    intro next status hextend
    obtain herror | ⟨next', status', hok', hnext, -, -⟩ :=
      extend_spec hinflater input.2 hlimit hinvariant
    · rw [hextend] at herror
      cases herror
    · rw [hextend] at hok'
      cases hok'
      exact ⟨hnext.read_le, hnext.output_le⟩
  · intro out hout
    obtain ⟨header, stream, final, hmember, hoffset, hloop, hread, houtput, hle⟩ := hok out hout
    exact ⟨hle, header, stream, final, hmember, hoffset, hloop, hread, houtput⟩
  · intro header stream data hmember hdata hdecodes
    have hdata' := expandGzip_decodes hinflater header hmember input.2 hlimit hdata hdecodes
    rw [hends _ (Nat.le_refl _)] at hdata'
    exact Option.some.inj hdata'

/-! ## A member with a stored block -/

/-- The CRC-32 of gzip, bit by bit. -/
def crc32Ieee (bytes : Bytes) : UInt32 :=
  (bytes.foldl (fun (crc : UInt32) byte =>
    (List.range 8).foldl (fun crc _ =>
      if crc &&& 1 = 1 then (crc >>> 1) ^^^ 0xedb88320 else crc >>> 1) (crc ^^^ byte.toUInt32))
    0xffffffff) ^^^ 0xffffffff

/-- What an inflater of stored blocks keeps: the bytes of the block that are missing, once its head
was read, and the totals. -/
structure StoredState where
  missing : Option Nat
  totalIn : UInt64
  totalOut : UInt64

/-- The next bytes of a block go to the buffer. -/
def StoredState.copy (state : StoredState) (missing head : Nat) (input buffer : Bytes) :
    StoredState × InflateStatus × Bytes :=
  let count := min missing (min input.length buffer.length)
  (⟨some (missing - count), state.totalIn + UInt64.ofNat (head + count),
      state.totalOut + UInt64.ofNat count⟩,
    if missing = count then .streamEnd else .ok, input.take count ++ buffer.drop count)

def StoredState.decompress (state : StoredState) (input buffer : Bytes) :
    Except Unit (StoredState × InflateStatus × Bytes) :=
  match state.missing, input with
  | some missing, input => .ok (state.copy missing 0 input buffer)
  | none, 1 :: low :: high :: low' :: high' :: input =>
    if ofLeBytes [low, high] + ofLeBytes [low', high'] = 0xffff then
      .ok (state.copy (ofLeBytes [low, high]) 5 input buffer)
    else .error ()
  | none, _ => .error ()

/-- The inflater of streams of one stored block. -/
def storedInflater : Inflater where
  State := StoredState
  new := ⟨none, 0, 0⟩
  totalIn := StoredState.totalIn
  totalOut := StoredState.totalOut
  decompress := StoredState.decompress

/-- Copying reads no more than there is and writes no more than there is room for. -/
theorem StoredState.copy_bounded {state next : StoredState} {missing head : Nat}
    {input buffer filled : Bytes} {status : InflateStatus}
    (h : state.copy missing head input buffer = (next, status, filled)) :
    filled.length = buffer.length
      ∧ (∃ read ≤ head + input.length, next.totalIn = state.totalIn + UInt64.ofNat read)
      ∧ ∃ written ≤ buffer.length, next.totalOut = state.totalOut + UInt64.ofNat written := by
  cases h
  refine ⟨?_, ⟨_, ?_, rfl⟩, _, ?_, rfl⟩
  · rw [List.length_append, List.length_take, List.length_drop]
    omega
  · omega
  · omega

/-- The inflater of stored blocks is bounded. -/
theorem storedInflater_bounded : storedInflater.Bounded where
  totalIn_new := rfl
  totalOut_new := rfl
  decompress := by
    intro state next input buffer filled status h
    change state.decompress input buffer = _ at h
    unfold StoredState.decompress at h
    split at h
    · have hbounded := StoredState.copy_bounded (Except.ok.inj h)
      rwa [Nat.zero_add] at hbounded
    · split_ifs at h
      obtain ⟨hfilled, ⟨read, hread, hin⟩, hout⟩ := StoredState.copy_bounded (Except.ok.inj h)
      refine ⟨hfilled, ⟨read, ?_, hin⟩, hout⟩
      simp only [List.length_cons]
      omega
    · cases h

/-- One call inflates a block of one byte. -/
theorem storedInflater_decodes (rest : Bytes) :
    storedInflater.Decodes [1, 1, 0, 254, 255, 0x42] rest [0x42] := by
  have hcall : ∀ first buffer, storedInflater.decompress storedInflater.new
      (([1, 1, 0, 254, 255, 0x42] ++ rest).drop (storedInflater.totalIn storedInflater.new).toNat)
      (first :: buffer) = .ok (⟨some 0, 6, 1⟩, .streamEnd, 0x42 :: buffer) := by
    intro first buffer
    have hzero : (storedInflater.totalIn storedInflater.new).toNat = 0 := by decide
    have hlength : ofLeBytes [1, 0] = 1 := by decide
    have hcheck : 1 + ofLeBytes [254, 255] = 0xffff := by decide +kernel
    have hcount : min 1 (min (0x42 :: rest : Bytes).length (first :: buffer).length) = 1 := by
      simp only [List.length_cons]
      omega
    have hin : (0 : UInt64) + UInt64.ofNat (5 + 1) = 6 := by decide
    have hout : (0 : UInt64) + UInt64.ofNat 1 = 1 := by decide
    rw [hzero, List.drop_zero]
    simp only [List.cons_append, List.nil_append, storedInflater, StoredState.decompress,
      if_pos hcheck, hlength, StoredState.copy, hcount, hin, hout]
    rfl
  intro state buffer hreached hbuffer
  -- The first call ends the stream, so no other state is reached before.
  have hnew : state = storedInflater.new := by
    induction hreached with
    | new => rfl
    | step hstate hbuffer' hstep hstatus ih =>
      obtain rfl := ih
      obtain ⟨first, buffer', rfl⟩ := List.exists_cons_of_ne_nil hbuffer'
      have hend := (hcall first buffer').symm.trans hstep
      cases hend
      exact absurd rfl hstatus
  subst hnew
  obtain ⟨first, buffer, rfl⟩ := List.exists_cons_of_ne_nil hbuffer
  refine ⟨_, _, _, hcall first buffer, ?_, ?_, ?_, ?_⟩
  · decide
  · rfl
  · intro _
    constructor <;> decide
  · intro hstatus
    exact absurd rfl hstatus

/-- Ten bytes, without an optional field. -/
def plainHeader : GzipHeader crc32Ieee where
  flags := 0
  fixed := [0, 0, 0, 0, 0, 0xff]
  extra := []
  name := []
  comment := []
  checksum := []
  flags_reserved := by decide
  length_fixed := rfl
  isExtra := rfl
  isString_name := rfl
  isString_comment := rfl
  isHeaderCrc := rfl

/-- A member of one stored byte. -/
theorem expand_gzip_bounded_stored :
    storedInflater.Bounded ∧ expandGzip storedInflater crc32Ieee
      [0x1f, 0x8b, 8, 0, 0, 0, 0, 0, 0, 0xff, 1, 1, 0, 254, 255, 0x42, 0x31, 0xcf, 0xd0, 0x4a,
        1, 0, 0, 0]
      1 27 = some (.ok [0x42]) := by
  have hmember : [0x1f, 0x8b, 8, 0, 0, 0, 0, 0, 0, 0xff, 1, 1, 0, 254, 255, 0x42, 0x31, 0xcf,
    0xd0, 0x4a,
      1, 0, 0, 0] = plainHeader.bytes ++ [1, 1, 0, 254, 255, 0x42]
        ++ gzipTrailer crc32Ieee [0x42] := by
    decide +kernel
  obtain ⟨result, hends, -, -, -, hdecodes⟩ := expand_gzip_bounded storedInflater
    storedInflater_bounded crc32Ieee
      ⟨_, show List.length [0x1f, 0x8b, 8, 0, 0, 0, 0, 0, 0, 0xff, 1, 1, 0,
      254, 255, 0x42, 0x31, 0xcf, 0xd0, 0x4a, 1, 0, 0, 0] < 2 ^ 63 by decide⟩ 1 (by decide)
  refine ⟨storedInflater_bounded, (hends 27 (by decide)).trans (congrArg some ?_)⟩
  exact hdecodes plainHeader _ [0x42] hmember (by decide) (storedInflater_decodes _)

end TrackOne
