import TrackOne.Gateway.Expiry
import TrackOne.Gateway.Kept

/-!
# The expiry loop in closed form

`close_expired` passes the first interval under the open policy and every later one under the next
policy. How many intervals it passes, and how many segment numbers that takes, can be computed
beforehand.

* `ExpiresIn` is the loop as a relation, with the number of its iterations.
* `Sealable.expiresIn`: a sealable state with enough serials left goes through exactly
  `intervalsPassed` iterations. The induction is on that number: one iteration lowers it by one.
* `World.run_expiry`: the same for every state of a run, with what was sealed on the way.
-/

namespace TrackOne

/-! ## The closed form -/

/-- The number of intervals that have ended: the first has the length of the open policy, the others
that of the next policy. -/
def intervalsPassed (state : ProducerState) (now : UInt64) : Nat :=
  let elapsed := now.toNat - state.openInterval.openedAtMs.toNat
  let first := state.openInterval.policy.intervalMs.toNat
  if elapsed < first then 0 else 1 + (elapsed - first) / state.nextPolicy.intervalMs.toNat

/-- The segment numbers an interval consumes when it ends. -/
def numbersConsumed (records : List Bytes) (policy : ClosurePolicy) : Nat :=
  if policy.emptyMode = .emit ∨ records ≠ [] then 1 else 0

/-- The segment numbers that the intervals which have ended consume together. -/
def numbersNeeded (state : ProducerState) (now : UInt64) : Nat :=
  match intervalsPassed state now with
  | 0 => 0
  | later + 1 => numbersConsumed state.openInterval.records state.openInterval.policy
      + later * numbersConsumed [] state.nextPolicy

theorem numbersConsumed_eq_zero {records : List Bytes} {policy : ClosurePolicy} :
    suppressed records policy .interval ↔ numbersConsumed records policy = 0 := by
  unfold suppressed numbersConsumed
  cases policy.emptyMode <;> simp

/-- After the first interval the next policy is the open one, and the time is a multiple of it. -/
theorem intervalsPassed_of_uniform {state : ProducerState} {now : UInt64}
    (hpolicy : state.openInterval.policy = state.nextPolicy)
    (hpos : 0 < state.nextPolicy.intervalMs.toNat) :
    intervalsPassed state now = (now.toNat - state.openInterval.openedAtMs.toNat)
      / state.nextPolicy.intervalMs.toNat := by
  unfold intervalsPassed
  dsimp only
  rw [hpolicy]
  split_ifs with hlt
  · rw [Nat.div_eq_of_lt hlt]
  · rw [Nat.div_eq_sub_div hpos (Nat.not_lt.mp hlt), Nat.add_comm]

variable [Sha256]

/-! ## The loop with its number of iterations -/

/-- `Expires` with the number of intervals that were closed. -/
inductive ExpiresIn (now : UInt64) :
    Nat → ProducerState → List SealedSegment → ProducerState → Prop where
  | within {state : ProducerState} (h : Within state now) : ExpiresIn now 0 state [] state
  | close {count : Nat} {state mid next : ProducerState} {boundary : UInt64}
      {segment : Option SealedSegment} {sealed : List SealedSegment}
      (hboundary : boundary.toNat = state.openInterval.openedAtMs.toNat
        + state.openInterval.policy.intervalMs.toNat)
      (hle : boundary.toNat ≤ now.toNat)
      (hclose : constructSegment state boundary .interval = .ok (segment, mid))
      (hrest : ExpiresIn now count mid sealed next) :
      ExpiresIn now (count + 1) state (segment.toList ++ sealed) next

theorem ExpiresIn.expires {now : UInt64} {count : Nat} {state next : ProducerState}
    {sealed : List SealedSegment} (h : ExpiresIn now count state sealed next) :
    Expires now state sealed next := by
  induction h with
  | within h => exact .within h
  | close hboundary hle hclose _ ih => exact .close hboundary hle hclose ih

/-- What one iteration does to the state: the interval that ended is empty, the next policy is in
force, and the serial moves on by what the interval consumed. -/
structure Passed (state next : ProducerState) (boundary : UInt64)
    (segment : Option SealedSegment) : Prop where
  records : next.openInterval.records = []
  policy : next.openInterval.policy = state.nextPolicy
  nextPolicy : next.nextPolicy = state.nextPolicy
  openedAtMs : next.openInterval.openedAtMs = boundary
  number : next.nextSegmentNumber.toNat = state.nextSegmentNumber.toNat
    + numbersConsumed state.openInterval.records state.openInterval.policy
  count : segment.toList.length
    = numbersConsumed state.openInterval.records state.openInterval.policy
  sealed : ∀ sealed ∈ segment, sealed.records = state.openInterval.records

theorem passed_of_constructSegment {state next : ProducerState} {boundary : UInt64}
    {segment : Option SealedSegment}
    (h : constructSegment state boundary .interval = .ok (segment, next)) :
    Passed state next boundary segment := by
  have hshown : ∀ sealed, segment = some sealed →
      numbersConsumed state.openInterval.records state.openInterval.policy = 1 := by
    rintro sealed rfl
    have hnot :=
      mt numbersConsumed_eq_zero.mpr (by simpa using not_suppressed_of_constructSegment h)
    unfold numbersConsumed at hnot ⊢
    split_ifs at hnot ⊢
    · rfl
    · exact absurd rfl hnot
  cases constructSegment_closes h with
  | skipped hsuppressed =>
    have hzero := numbersConsumed_eq_zero.mp hsuppressed
    exact ⟨rfl, rfl, rfl, rfl, by rw [hzero]; rfl, by rw [hzero]; rfl, by simp⟩
  | @sealed sealed r number hseals hnumber =>
    have hone := hshown sealed rfl
    refine ⟨rfl, rfl, rfl, rfl, by rw [hone]; exact hnumber, by rw [hone]; rfl, ?_⟩
    rintro _ ⟨rfl⟩
    exact hseals.records

/-! ## What the loop leaves -/

/-- The sealed segments and the state that the loop leaves. -/
structure Expired (state : ProducerState) (now : UInt64) (sealed : List SealedSegment)
    (next : ProducerState) : Prop where
  within : Within next now
  first : ∀ segment, sealed.head? = some segment → segment.records = state.openInterval.records
  later : ∀ segment ∈ sealed.tail, segment.records = []
  count : sealed.length = numbersNeeded state now
  number : next.nextSegmentNumber.toNat = state.nextSegmentNumber.toNat + numbersNeeded state now

omit [Sha256] in
/-- One iteration lowers both counts by what it passed and consumed. -/
theorem Passed.counts {state mid : ProducerState} {boundary now : UInt64}
    {segment : Option SealedSegment} (h : Passed state mid boundary segment)
    (hpos : 0 < state.nextPolicy.intervalMs.toNat)
    (hboundary : boundary.toNat = state.openInterval.openedAtMs.toNat
      + state.openInterval.policy.intervalMs.toNat) (hle : boundary.toNat ≤ now.toNat) :
    intervalsPassed state now = intervalsPassed mid now + 1
      ∧ numbersNeeded state now
        = numbersConsumed state.openInterval.records state.openInterval.policy
          + numbersNeeded mid now := by
  have hmid : intervalsPassed mid now
      = (now.toNat - boundary.toNat) / state.nextPolicy.intervalMs.toNat := by
    rw [intervalsPassed_of_uniform (by rw [h.policy, h.nextPolicy])
      (by rw [h.nextPolicy]; exact hpos), h.openedAtMs, h.nextPolicy]
  have hstate : intervalsPassed state now = intervalsPassed mid now + 1 := by
    rw [hmid, Nat.add_comm]
    unfold intervalsPassed
    dsimp only
    rw [if_neg (by omega), hboundary, Nat.sub_sub]
  refine ⟨hstate, ?_⟩
  -- the intervals after this one are empty and pass under the next policy
  unfold numbersNeeded
  rw [hstate, h.records, h.policy, h.nextPolicy]
  cases intervalsPassed mid now with
  | zero => simp
  | succ later =>
    dsimp only
    rw [Nat.succ_mul, Nat.add_comm (later * _)]

/-- A state that can be sealed goes through as many intervals as have passed. -/
theorem Sealable.expiresIn {state : ProducerState} {now : UInt64} (h : Sealable state)
    (hlength : state.openInterval.records.length < 2 ^ 64)
    (hopened : state.openInterval.openedAtMs.toNat ≤ now.toNat)
    (hserial : state.nextSegmentNumber.toNat + numbersNeeded state now < 2 ^ 64) :
    ∃ sealed next, ExpiresIn now (intervalsPassed state now) state sealed next
      ∧ Expired state now sealed next := by
  induction hcount : intervalsPassed state now generalizing state with
  | zero =>
    -- the interval has not passed
    have hlt : now.toNat - state.openInterval.openedAtMs.toNat
        < state.openInterval.policy.intervalMs.toNat := by
      unfold intervalsPassed at hcount
      dsimp only at hcount
      split_ifs at hcount with hlt
      · exact hlt
      · rw [Nat.add_comm] at hcount
        exact absurd hcount (Nat.succ_ne_zero _)
    have hnone : numbersNeeded state now = 0 := by simp [numbersNeeded, hcount]
    have hwithin : Within state now := ⟨hopened, by omega⟩
    exact ⟨[], state, .within hwithin, hwithin, by simp, by simp, hnone.symm, by rw [hnone]; rfl⟩
  | succ count ih =>
    have hge : state.openInterval.policy.intervalMs.toNat
        ≤ now.toNat - state.openInterval.openedAtMs.toNat := by
      unfold intervalsPassed at hcount
      dsimp only at hcount
      split_ifs at hcount
      omega
    have hnow := now.toNat_lt
    -- the boundary is not after the reading, so it does not overflow
    obtain ⟨boundary, hboundary⟩ : ∃ boundary : UInt64, boundary.toNat
        = state.openInterval.openedAtMs.toNat + state.openInterval.policy.intervalMs.toNat :=
      ⟨UInt64.ofNat _, UInt64.toNat_ofNat_of_lt64 (by omega)⟩
    have hpassedNow : boundary.toNat ≤ now.toNat := by omega
    have hconsumed : ¬ suppressed state.openInterval.records state.openInterval.policy .interval →
        state.nextSegmentNumber.toNat + 1 < 2 ^ 64 := by
      intro hshown
      rw [numbersConsumed_eq_zero] at hshown
      simp only [numbersNeeded, hcount] at hserial
      omega
    -- the first interval is closed at its boundary
    obtain ⟨segment, mid, hclose⟩ :=
      h.constructSegment_ok boundary .interval hlength hconsumed
    have hpassed := passed_of_constructSegment hclose
    have hpos := ClosurePolicy.intervalMs_pos h.policies.nextPolicy
    obtain ⟨hintervals, hneeded⟩ := hpassed.counts hpos hboundary hpassedNow
    have hmid : Sealable mid := h.moves (Moves.refl.close (constructSegment_closes hclose))
    -- and the induction closes the rest
    obtain ⟨sealed, next, hrest, hexpired⟩ := ih hmid (by rw [hpassed.records]; simp)
      (by rw [hpassed.openedAtMs]; omega) (by rw [hpassed.number]; omega) (by omega)
    refine ⟨segment.toList ++ sealed, next, .close hboundary hpassedNow hclose hrest,
      hexpired.within, ?_, ?_, ?_, ?_⟩
    · intro first hfirst
      cases segment with
      | some segment =>
        obtain rfl := Option.some.inj hfirst
        exact hpassed.sealed _ rfl
      | none =>
        -- the interval was skipped because it had no records
        have hempty : state.openInterval.records = [] := by
          have hzero := numbersConsumed_eq_zero.mpr hpassed.count.symm
          simp only [suppressed, decide_eq_true_eq] at hzero
          exact hzero.1
        rw [hexpired.first first hfirst, hpassed.records, hempty]
    -- every later segment is empty
    · intro later hlater
      have hmem : later ∈ sealed := by
        cases segment with
        | some segment => exact hlater
        | none => exact List.mem_of_mem_tail hlater
      obtain ⟨head, tail, rfl⟩ := List.exists_cons_of_ne_nil (List.ne_nil_of_mem hmem)
      rcases List.mem_cons.mp hmem with rfl | htail
      · rw [hexpired.first _ rfl, hpassed.records]
      · exact hexpired.later later htail
    · rw [List.length_append, hpassed.count, hexpired.count, hneeded]
    · rw [hexpired.number, hpassed.number, hneeded, Nat.add_assoc]

namespace World

/-- **Expiry terminates and has a closed form.** In every state of a run whose ledger id is
hexadecimal, at every reading that is not before the opening, and as long as the numbers that are
needed stay below the last one, the loop succeeds after `intervalsPassed` iterations. The reading
then lies in the open interval; only the first sealed segment can have records, and has all that
were open; and the serial has moved by `numbersNeeded`, one for each sealed segment. -/
theorem run_expiry (inputs : List Input) (state : ProducerState)
    (hproducer : (memoryRun inputs).1.producer = some state) (hhex : validHex state.ledgerId 32)
    (now : UInt64) (hopened : state.openInterval.openedAtMs ≤ now)
    (hserial : state.nextSegmentNumber.toNat + numbersNeeded state now < 2 ^ 64) :
    ∃ sealed next, closeExpired state now = .ok (sealed, next)
      ∧ ExpiresIn now (intervalsPassed state now) state sealed next
      ∧ next.openInterval.openedAtMs ≤ now
      ∧ now - next.openInterval.openedAtMs < next.openInterval.policy.intervalMs
      ∧ (∀ segment, sealed.head? = some segment → segment.records = state.openInterval.records)
      ∧ (∀ segment ∈ sealed.tail, segment.records = [])
      ∧ sealed.length = numbersNeeded state now
      ∧ next.nextSegmentNumber.toNat
        = state.nextSegmentNumber.toNat + numbersNeeded state now := by
  have hinvariant := run_invariant inputs
  have hstate := hinvariant.producer state hproducer
  obtain ⟨segments, -, hledger, -⟩ := hinvariant.store.of_state hstate
  have hsealable : Sealable state := ⟨hledger.policies, hhex, segments, hledger.chained⟩
  obtain ⟨sealed, next, hexpires, hexpired⟩ := hsealable.expiresIn
    (run_kept recordsKept inputs state hstate).length_lt (UInt64.le_iff_toNat_le.mp hopened) hserial
  obtain ⟨hnext, hend⟩ := hexpired.within
  have hle : next.openInterval.openedAtMs ≤ now := UInt64.le_iff_toNat_le.mpr hnext
  refine ⟨sealed, next, hexpires.expires.closeExpired_eq hledger.policies, hexpires, hle, ?_,
    hexpired.first, hexpired.later, hexpired.count, hexpired.number⟩
  rw [UInt64.lt_iff_toNat_lt, UInt64.toNat_sub_of_le _ _ hle]
  omega

omit [Sha256] in
/-- The interval of the sample record and two empty ones have ended. -/
theorem run_expiry_sampleInputs :
    letI := Sha256.fips
    ∃ state sealed next, (memoryRun sampleInputs).1.producer = some state
      ∧ intervalsPassed state 1350 = 3
      ∧ closeExpired state 1350 = .ok (sealed, next)
      ∧ sealed.length = 3 := by
  let := Sha256.fips
  have hopen : (memoryRun sampleInputs).1.producer.any (fun state =>
      validHex state.ledgerId 32 && decide (state.openInterval.openedAtMs ≤ 1350)
        && decide (state.nextSegmentNumber.toNat + numbersNeeded state 1350 < 2 ^ 64)
        && decide (intervalsPassed state 1350 = 3) && decide (numbersNeeded state 1350 = 3))
      = true := by
    decide +kernel
  obtain ⟨state, hstate, htest⟩ := (Option.any_eq_true _ _).mp hopen
  simp only [Bool.and_eq_true, decide_eq_true_eq] at htest
  obtain ⟨⟨⟨⟨hhex, hopened⟩, hserial⟩, hpassed⟩, hneeded⟩ := htest
  obtain ⟨sealed, next, hclose, -, -, -, -, -, hcount, -⟩ :=
    run_expiry sampleInputs state hstate hhex 1350 hopened hserial
  exact ⟨state, sealed, next, hstate, hpassed, hclose, hcount.trans hneeded⟩

end World

end TrackOne
