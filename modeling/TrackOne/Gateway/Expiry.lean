import TrackOne.Gateway.Limits
import TrackOne.Gateway.Deltas

/-!
# Expired intervals

An admission and a maintenance tick run the same loop over expired intervals. This file says what
the loop depends on and why it does not matter where the elapsed time is cut.

* `constructSegment_eq` takes `construct_segment` apart: what is sealed depends on the chain, the
  records, the policy and the reason, and on nothing else of the state.
* `Expires` is the loop as a relation (`closeExpired_eq_ok`), and `Expires.split` the reason why the
  moment of a tick does not matter: what is left to expire after a tick is what would have expired
  anyway.
* `recordDeltas_split` says the same of the destinations of admitted records.
-/

namespace TrackOne

/-! ## States up to the revision -/

/-- The same state under another revision. -/
def ProducerState.withRevision (state : ProducerState) (revision : UInt64) : ProducerState :=
  { state with revision }

@[simp] theorem withRevision_openInterval (state : ProducerState) (revision : UInt64) :
    (state.withRevision revision).openInterval = state.openInterval := rfl

@[simp] theorem withRevision_withRevision (state : ProducerState) (revision revision' : UInt64) :
    (state.withRevision revision).withRevision revision' = state.withRevision revision' := rfl

@[simp] theorem withRevision_self (state : ProducerState) :
    state.withRevision state.revision = state := rfl

variable [Sha256]

/-! ## What a segment depends on -/

/-- The part of `construct_segment` that seals: the segment, and the serial after it. -/
def sealSegment (state : ProducerState) (records : List Bytes) (policy : ClosurePolicy)
    (reason : CloseReason) : Except ProducerError (SealedSegment × UInt64) := do
  Except.require .serialExhausted
    (¬ (state.nextSegmentNumber = UInt64.ofNat (2 ^ 64 - 1) ∧ state.predecessorCbor.isSome))
  let merkle := merkleRootFromRecords records
  let batchRoots ← Except.ofOption
    (.invalidConfiguration "batch_record_limit must be a power of two no greater than 2^63")
    (batchRootsFromLeafHashes merkle.leafHashes policy.batchRecordLimit)
  let recordCount ← Except.ofOption (.counterOverflow "segment record")
    (UInt64.ofNat? merkle.leafHashes.length)
  let segment ← (nextSegmentRecord state policy reason recordCount batchRoots merkle.root).mapError
    fun error => ProducerError.construction error.toString
  Except.require .concurrentWriter (segment.segmentNumber = state.nextSegmentNumber)
  let artifactCbor ← segment.canonicalCborBytes.mapError .construction
  let nextSegmentNumber ← Except.ofOption .serialExhausted (state.nextSegmentNumber.checkedAdd 1)
  pure ({
    segmentNumber := segment.segmentNumber
    closeReason := reason
    artifactCbor
    artifactSha256 := sha256Hex artifactCbor
    records }, nextSegmentNumber)

/-- The state after a segment was sealed. -/
def ProducerState.after (state : ProducerState) (nextOpenedAtMs : UInt64)
    (result : SealedSegment × UInt64) : ProducerState :=
  { state.reopened nextOpenedAtMs with
    predecessorCbor := some result.1.artifactCbor, nextSegmentNumber := result.2 }

/-- A segment depends on the chain so far, its records, its policy and the reason. -/
theorem sealSegment_congr {state state' : ProducerState} (records : List Bytes)
    (policy : ClosurePolicy) (reason : CloseReason) (hledger : state.ledgerId = state'.ledgerId)
    (hnumber : state.nextSegmentNumber = state'.nextSegmentNumber)
    (hpredecessor : state.predecessorCbor = state'.predecessorCbor) :
    sealSegment state records policy reason = sealSegment state' records policy reason := by
  simp only [sealSegment, nextSegmentRecord, hledger, hnumber, hpredecessor]

/-- `construct_segment` as a choice between skipping and sealing. -/
theorem constructSegment_eq (state : ProducerState) (nextOpenedAtMs : UInt64)
    (reason : CloseReason) :
    constructSegment state nextOpenedAtMs reason
      = if suppressed state.openInterval.records state.openInterval.policy reason then
          .ok (none, state.reopened nextOpenedAtMs)
        else (sealSegment state state.openInterval.records state.openInterval.policy reason).map
          fun result => (some result.1, state.after nextOpenedAtMs result) := by
  -- the source seals from the reopened state, which differs in nothing that is read
  have hreopened : sealSegment state state.openInterval.records state.openInterval.policy reason
      = sealSegment (state.reopened nextOpenedAtMs) state.openInterval.records
          state.openInterval.policy reason := sealSegment_congr _ _ _ rfl rfl rfl
  rw [hreopened]
  simp only [constructSegment, sealSegment]
  split_ifs
  · rfl
  · simp only [Except.map_bind]
    congr

theorem constructSegment_withRevision (state : ProducerState) (revision nextOpenedAtMs : UInt64)
    (reason : CloseReason) :
    constructSegment (state.withRevision revision) nextOpenedAtMs reason
      = (constructSegment state nextOpenedAtMs reason).map
          fun result => (result.1, result.2.withRevision revision) := by
  have hseal : ∀ records policy, sealSegment (state.withRevision revision) records policy reason
      = sealSegment state records policy reason :=
    fun records policy => sealSegment_congr records policy reason rfl rfl rfl
  simp only [constructSegment_eq, hseal, withRevision_openInterval]
  split_ifs
  · rfl
  · cases sealSegment state _ _ reason <;> rfl

/-! ## The loop over expired intervals -/

/-- What `close_expired` does up to a reading: nothing within the open interval, else it closes the
interval at its boundary and goes on. -/
inductive Expires (now : UInt64) :
    ProducerState → List SealedSegment → ProducerState → Prop where
  | within {state : ProducerState} (h : Within state now) : Expires now state [] state
  | close {state mid next : ProducerState} {boundary : UInt64} {segment : Option SealedSegment}
      {sealed : List SealedSegment}
      (hboundary : boundary.toNat = state.openInterval.openedAtMs.toNat
        + state.openInterval.policy.intervalMs.toNat)
      (hle : boundary.toNat ≤ now.toNat)
      (hclose : constructSegment state boundary .interval = .ok (segment, mid))
      (hrest : Expires now mid sealed next) : Expires now state (segment.toList ++ sealed) next

theorem expires_of_closeExpiredLoop {now : UInt64} {fuel : Nat} {state next : ProducerState}
    {sealed : List SealedSegment} (h : closeExpiredLoop now fuel state = .ok (sealed, next)) :
    Expires now state sealed next := by
  induction fuel generalizing state sealed with
  | zero => cases h
  | succ fuel ih =>
    simp only [closeExpiredLoop, Except.bind_eq_ok, Except.ofOption_eq_ok] at h
    obtain ⟨elapsed, helapsed, h⟩ := h
    rw [UInt64.checkedSub_eq_some] at helapsed
    split at h
    · next hwithin =>
      cases h
      rw [UInt64.lt_iff_toNat_lt] at hwithin
      exact .within ⟨by omega, by omega⟩
    · next hpassed =>
      simp only [Except.bind_eq_ok, Except.ofOption_eq_ok] at h
      obtain ⟨boundary, hboundary, ⟨segment, mid⟩, hclose, ⟨rest, last⟩, hrest, h⟩ := h
      cases h
      rw [UInt64.checkedAdd_eq_some] at hboundary
      rw [UInt64.lt_iff_toNat_lt] at hpassed
      exact .close hboundary (by omega) hclose (ih hrest)

namespace Expires

variable {now earlier : UInt64} {state mid next : ProducerState} {sealed first : List SealedSegment}

theorem moves (h : Expires now state sealed next) : Moves state sealed [] next := by
  induction h with
  | within => exact .refl
  | close _ _ hclose _ ih =>
    have hfirst := Moves.refl.close (constructSegment_closes hclose)
    simpa using hfirst.trans ih

theorem within_next (h : Expires now state sealed next) : Within next now := by
  induction h with
  | within h => exact h
  | close _ _ _ _ ih => exact ih

/-- The source's loop finds what the relation says. -/
theorem closeExpired_eq (h : Expires now state sealed next) (hpolicies : PoliciesValid state) :
    closeExpired state now = .ok (sealed, next) := by
  induction h with
  -- the interval has not elapsed
  | @within state hwithin =>
    obtain ⟨hopened, hend⟩ := hwithin
    have helapsed : now.checkedSub state.openInterval.openedAtMs
        = some (now - state.openInterval.openedAtMs) := by
      rw [UInt64.checkedSub_eq_some,
        UInt64.toNat_sub_of_le _ _ (UInt64.le_iff_toNat_le.mpr hopened)]
      omega
    have hlt : now - state.openInterval.openedAtMs < state.openInterval.policy.intervalMs := by
      rw [UInt64.checkedSub_eq_some] at helapsed
      rw [UInt64.lt_iff_toNat_lt]
      omega
    rw [TrackOne.closeExpired_eq hpolicies, helapsed]
    simp only [Except.ofOption, bind, Except.bind, if_pos hlt]
    rfl
  -- it has elapsed, and the loop goes on from its boundary
  | @close state mid next boundary segment sealed hboundary hle hclose hrest ih =>
    have hmid : PoliciesValid mid :=
      (Moves.refl.close (constructSegment_closes hclose)).policies hpolicies
    have helapsed : now.checkedSub state.openInterval.openedAtMs
        = some (now - state.openInterval.openedAtMs) := by
      rw [UInt64.checkedSub_eq_some,
        UInt64.toNat_sub_of_le _ _ (UInt64.le_iff_toNat_le.mpr (by omega))]
      omega
    have hge : ¬ now - state.openInterval.openedAtMs < state.openInterval.policy.intervalMs := by
      rw [UInt64.checkedSub_eq_some] at helapsed
      rw [UInt64.lt_iff_toNat_lt]
      omega
    rw [TrackOne.closeExpired_eq hpolicies, helapsed,
      UInt64.checkedAdd_eq_some.mpr hboundary]
    simp only [Except.ofOption, bind, Except.bind, if_neg hge, hclose, ih hmid]
    rfl

/-- After a tick the loop goes on where it would have come to without the tick. -/
theorem split (h : Expires earlier state first mid) (hle : earlier.toNat ≤ now.toNat) :
    Expires now state sealed next ↔ ∃ rest, sealed = first ++ rest ∧ Expires now mid rest next := by
  induction h generalizing sealed with
  | within => simp
  | @close state mid last boundary segment first hboundary hpassed hclose hrest ih =>
    constructor
    · rintro (hwithin | ⟨hboundary', hpassed', hclose', hrest'⟩)
      · -- the interval had ended before the tick
        have hend := hwithin.beforeEnd
        omega
      · rename_i mid' boundary' segment' sealed'
        obtain rfl : boundary' = boundary := UInt64.toNat_inj.mp (hboundary'.trans hboundary.symm)
        rw [hclose] at hclose'
        cases hclose'
        obtain ⟨rest, rfl, hrest''⟩ := ih.mp hrest'
        exact ⟨rest, by simp, hrest''⟩
    · rintro ⟨rest, rfl, hlater⟩
      rw [List.append_assoc]
      exact .close hboundary (by omega) hclose (ih.mpr ⟨rest, rfl, hlater⟩)

/-- What expires up to a reading includes what expires up to an earlier one. -/
theorem exists_earlier (h : Expires now state sealed next) (hle : earlier.toNat ≤ now.toNat)
    (hopened : state.openInterval.openedAtMs.toNat ≤ earlier.toNat) :
    ∃ first mid, Expires earlier state first mid := by
  induction h with
  | @within state hwithin =>
    have hend := hwithin.beforeEnd
    exact ⟨[], state, .within ⟨hopened, by omega⟩⟩
  | @close state mid next boundary segment sealed hboundary hpassed hclose hrest ih =>
    by_cases hbefore : boundary.toNat ≤ earlier.toNat
    · have hmid := openedAtMs_of_closes (constructSegment_closes hclose)
      obtain ⟨first, last, hfirst⟩ := ih (by rw [hmid]; exact hbefore)
      exact ⟨segment.toList ++ first, last, .close hboundary hbefore hclose hfirst⟩
    · exact ⟨[], state, .within ⟨hopened, by omega⟩⟩

theorem withRevision (h : Expires now state sealed next) (revision : UInt64) :
    Expires now (state.withRevision revision) sealed (next.withRevision revision) := by
  induction h with
  | within h => exact .within ⟨h.opened, h.beforeEnd⟩
  | close hboundary hpassed hclose _ ih =>
    refine .close hboundary hpassed ?_ ih
    rw [constructSegment_withRevision, hclose]
    rfl

end Expires

theorem closeExpired_eq_ok {now : UInt64} {state next : ProducerState}
    {sealed : List SealedSegment} (hpolicies : PoliciesValid state) :
    closeExpired state now = .ok (sealed, next) ↔ Expires now state sealed next :=
  ⟨expires_of_closeExpiredLoop, fun h => h.closeExpired_eq hpolicies⟩

/-! ## What an admission depends on -/

omit [Sha256] in
theorem pushRecord_withRevision (state : ProducerState) (revision : UInt64) (record : Bytes) :
    pushRecord (state.withRevision revision) record
      = (pushRecord state record).map fun next => next.withRevision revision := by
  simp only [pushRecord, Except.map_bind]
  rfl

theorem closeAtLimit_withRevision (state : ProducerState) (revision now : UInt64) :
    closeAtLimit (state.withRevision revision) now
      = (closeAtLimit state now).map fun result => (result.1, result.2.withRevision revision) := by
  have hlimit : limitReached (state.withRevision revision) = limitReached state := rfl
  rw [closeAtLimit, closeAtLimit, hlimit]
  cases limitReached state with
  | none => rfl
  | some reason => exact constructSegment_withRevision state revision now reason

theorem admitRecords_withRevision (now : UInt64) (records : List Bytes) (state : ProducerState)
    (revision : UInt64) :
    admitRecords now records (state.withRevision revision)
      = (admitRecords now records state).map
          fun result => (result.1, result.2.1, result.2.2.withRevision revision) := by
  induction records generalizing state with
  | nil => rfl
  | cons record records ih =>
    simp only [admitRecords, pushRecord_withRevision]
    cases pushRecord state record with
    | error error => rfl
    | ok pushed =>
      simp only [Except.map, bind, Except.bind, closeAtLimit_withRevision]
      cases closeAtLimit pushed now with
      | error error => rfl
      | ok closed =>
        simp only [ih]
        cases admitRecords now records closed.2 <;> rfl

omit [Sha256] in
/-- The pass of `record_deltas` looks at the segments its records go to, and at no other. -/
theorem recordDeltasLoop_congr {sealedNumbers sealedNumbers' : List UInt64}
    {entries : List (Bytes × UInt64)}
    {sealedOrdinals sealedOrdinals' : Std.ExtTreeMap UInt64 UInt64 compare} {openOrdinal : UInt64}
    (hnumbers : ∀ entry ∈ entries, entry.2 ∈ sealedNumbers ↔ entry.2 ∈ sealedNumbers')
    (hordinals : ∀ entry ∈ entries, sealedOrdinals[entry.2]? = sealedOrdinals'[entry.2]?) :
    recordDeltasLoop sealedNumbers entries sealedOrdinals openOrdinal
      = recordDeltasLoop sealedNumbers' entries sealedOrdinals' openOrdinal := by
  induction entries generalizing sealedOrdinals sealedOrdinals' openOrdinal with
  | nil => rfl
  | cons entry entries ih =>
    obtain ⟨record, number⟩ := entry
    obtain ⟨hnumber, hnumbers⟩ := List.forall_mem_cons.mp hnumbers
    obtain ⟨hordinal, hordinals⟩ := List.forall_mem_cons.mp hordinals
    simp only at hnumber hordinal
    simp only [recordDeltasLoop, recordDelta, ← hnumber, ← hordinal]
    split_ifs
    · cases Except.ofOption (ProducerError.counterOverflow "sealed record")
        ((sealedOrdinals[number]?.getD 0).checkedAdd 1) with
      | error error => rfl
      | ok count =>
        -- the counter of this segment moves on both sides
        have hinserted : ∀ entry ∈ entries, (sealedOrdinals.insert number count)[entry.2]?
            = (sealedOrdinals'.insert number count)[entry.2]? := by
          intro entry hentry
          rw [Std.ExtTreeMap.getElem?_insert, Std.ExtTreeMap.getElem?_insert,
            hordinals entry hentry]
        simp only [bind, Except.bind, pure, Except.pure, ih hnumbers hinserted]
    · cases Except.ofOption (ProducerError.counterOverflow "open record")
        (openOrdinal.checkedAdd 1) with
      | error error => rfl
      | ok count => simp only [bind, Except.bind, pure, Except.pure, ih hnumbers hordinals]

omit [Sha256] in
/-- The counters `record_deltas` starts with say nothing about segments after the open one. -/
theorem startOrdinals_of_length {state : ProducerState} (sealed : List SealedSegment)
    (hlength : state.openInterval.records.length < 2 ^ 64) :
    ∃ sealedOrdinals, startOrdinals state sealed = .ok sealedOrdinals
      ∧ ∀ number : UInt64, number ≠ state.nextSegmentNumber ∨ state.openInterval.records = [] →
          sealedOrdinals[number]? = none := by
  unfold startOrdinals
  simp only
  split_ifs with hsealed
  · refine ⟨_, by rw [UInt64.ofNat?_of_lt hlength]; rfl, ?_⟩
    intro number hnumber
    have hne : number ≠ state.nextSegmentNumber := hnumber.resolve_right hsealed.1
    rw [Std.ExtTreeMap.getElem?_insert, if_neg (by simpa using hne.symm)]
    rfl
  · exact ⟨∅, rfl, fun _ _ => rfl⟩

/-- Closing an interval empties it, and moves on to the next segment if it held records. -/
structure Emptied (state next : ProducerState) : Prop where
  records : next.openInterval.records = []
  countable : state.openInterval.records.length < 2 ^ 64
  number : state.openInterval.records = []
    ∨ state.nextSegmentNumber.toNat < next.nextSegmentNumber.toNat
  active : next.active = state.active
  continuity : next.openInterval.clockContinuityId = state.openInterval.clockContinuityId

theorem Closes.emptied {state next : ProducerState} {nextOpenedAtMs : UInt64}
    {reason : CloseReason} {segment : Option SealedSegment}
    (h : Closes state nextOpenedAtMs reason segment next) : Emptied state next := by
  cases h with
  | skipped hsuppressed =>
    simp only [suppressed, decide_eq_true_eq] at hsuppressed
    have hlength : state.openInterval.records.length < 2 ^ 64 := by
      rw [hsuppressed.1]
      simp
    exact ⟨rfl, hlength, .inl hsuppressed.1, rfl, rfl⟩
  | @sealed segment r number hseals hnumber =>
    have hlength : state.openInterval.records.length < 2 ^ 64 := by
      rw [← hseals.recordCount]
      exact r.recordCount.toNat_lt
    refine ⟨rfl, hlength, .inr ?_, rfl, rfl⟩
    show state.nextSegmentNumber.toNat < number.toNat
    omega

theorem Moves.nextSegmentNumber_le {state next : ProducerState} {sealed : List SealedSegment}
    {admitted : List (Bytes × UInt64)} (h : Moves state sealed admitted next) :
    state.nextSegmentNumber.toNat ≤ next.nextSegmentNumber.toNat := by
  induction h with
  | refl => exact Nat.le_refl _
  | close _ hcloses ih =>
    cases hcloses with
    | skipped => exact ih
    | sealed _ hnumber => exact ih.trans (by simp [hnumber])
  | push _ hpush _ ih =>
    obtain ⟨byteCount, -, rfl⟩ := pushRecord_eq_ok hpush
    exact ih
  | adjust _ hadjusts ih =>
    rw [hadjusts.nextSegmentNumber]
    exact ih

/-- A tick does nothing, or empties the open interval. -/
theorem Expires.emptied {now : UInt64} {state next : ProducerState} {sealed : List SealedSegment}
    (h : Expires now state sealed next) :
    (Within state now ∧ sealed = [] ∧ next = state)
      ∨ (¬ Within state now ∧ Emptied state next) := by
  cases h with
  | within h => exact .inl ⟨h, rfl, rfl⟩
  | @close _ mid _ boundary segment sealed hboundary hpassed hclose hrest =>
    right
    refine ⟨fun hwithin => ?_, ?_⟩
    · have hend := hwithin.beforeEnd
      omega
    · have hfirst := (constructSegment_closes hclose).emptied
      have hle := hrest.moves.nextSegmentNumber_le
      -- the intervals after the first one are empty from the start
      have hlater : next.openInterval.records = [] ∧ next.active = mid.active
          ∧ next.openInterval.clockContinuityId = mid.openInterval.clockContinuityId := by
        have hempty := hfirst.records
        clear hfirst hclose hboundary hle
        induction hrest with
        | within => exact ⟨hempty, rfl, rfl⟩
        | close _ _ hclose _ ih =>
          have hnext := (constructSegment_closes hclose).emptied
          obtain ⟨hrecords, hactive, hcontinuity⟩ := ih hnext.records
          exact ⟨hrecords, hactive.trans hnext.active, hcontinuity.trans hnext.continuity⟩
      exact ⟨hlater.1, hfirst.countable, hfirst.number.imp_right fun hlt => by omega,
        hlater.2.1.trans hfirst.active, hlater.2.2.trans hfirst.continuity⟩

/-- The deltas of an admission are the same whether the expired intervals were closed by it or
before it. -/
theorem recordDeltas_split {earlier : UInt64} {state mid next : ProducerState}
    {segments first rest : List SealedSegment} {records : List Bytes} {numbers : List UInt64}
    (hchained : Chained state segments) (hfirst : Expires earlier state first mid)
    (hmoves : Moves mid rest (records.zip numbers) next) :
    recordDeltas state next (first ++ rest) records numbers
      = recordDeltas mid next rest records numbers := by
  -- nothing expired, or the interval is empty after it
  rcases hfirst.emptied with ⟨-, rfl, rfl⟩ | ⟨-, hemptied⟩
  · rfl
  · have hmid := hfirst.moves.chained hchained
    have hrange := mem_sealedNumbers hchained hfirst.moves
    have hmidnext := hmoves.nextSegmentNumber_le
    -- the records go to segments from `mid` on, so those of the tick are never looked up
    have hafter : ∀ entry ∈ records.zip numbers,
        mid.nextSegmentNumber.toNat ≤ entry.2.toNat := by
      intro entry hentry
      rcases mem_sealedNumbers_or_open hmid hmoves entry hentry with hsealed | hopen
      · exact ((mem_sealedNumbers hmid hmoves entry.2).mp hsealed).1
      · rw [hopen]
        exact hmidnext
    have hmidlength : mid.openInterval.records.length < 2 ^ 64 := by
      rw [hemptied.records]
      simp
    obtain ⟨ordinals, hordinals, hnone⟩ :=
      startOrdinals_of_length (first ++ rest) hemptied.countable
    obtain ⟨ordinals', hordinals', hnone'⟩ := startOrdinals_of_length rest hmidlength
    simp only [recordDeltas, hordinals, hordinals', bind, Except.bind]
    -- the loop looks up the segments of the records only, and finds the same ordinals for them
    have hloop : ∀ openOrdinal,
        recordDeltasLoop ((first ++ rest).map SealedSegment.segmentNumber) (records.zip numbers)
            ordinals openOrdinal
          = recordDeltasLoop (rest.map SealedSegment.segmentNumber) (records.zip numbers)
            ordinals' openOrdinal := by
      intro openOrdinal
      apply recordDeltasLoop_congr
      · intro entry hentry
        have hge := hafter entry hentry
        have hnot : entry.2 ∉ first.map SealedSegment.segmentNumber := by
          rw [hrange]
          omega
        rw [List.map_append, List.mem_append, or_iff_right hnot]
      · intro entry hentry
        have hge := hafter entry hentry
        rw [hnone' entry.2 (.inr hemptied.records)]
        apply hnone
        refine hemptied.number.symm.imp_left fun hlt heq => ?_
        rw [heq] at hge
        omega
    simp only [hloop]

end TrackOne
