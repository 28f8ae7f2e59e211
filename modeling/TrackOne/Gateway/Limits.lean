import Mathlib.Algebra.GroupWithZero.Nat
import TrackOne.Gateway.Sealing

/-!
# Every sealed segment obeys its policy

A closure policy promises an interval, a record limit and a size limit. The producer never looks
back at a segment it has sealed, so the promise has to be kept while the interval is open, by every
operation that touches it.

* A `Stamp` is an admitted record with the clock reading of the call that admitted it. The open
  interval and every sealed segment have their stamps as ghosts: lists that run alongside their
  records.
* `Filled` holds of the open interval at any time, also between a record that reaches a limit and
  the closing that follows; `Bounded` adds that no limit is reached, and holds between operations.
* `Obeys` is what a sealed segment owes to its policy. Closing a filled interval yields it
  (`Filled.constructSegment`), and the loops carry it (`Bounded.closeExpiredLoop`,
  `Bounded.admitRecords`).
* `Carried` says how the stamps are handed on: those of the segments in order, then the open ones,
  are the admissions in order. It composes (`Carried.trans`), so it reaches from one operation to
  whole runs: `World.run_limits`.
-/

namespace TrackOne

/-- An admitted record, and the reading of the clock when it was admitted. -/
structure Stamp where
  record : Bytes
  now : UInt64
  continuityId : BitVec 128

/-- The length of all records together. -/
def totalLength (records : List Bytes) : Nat := (records.map List.length).sum

@[simp] theorem totalLength_nil : totalLength [] = 0 := rfl

@[simp] theorem totalLength_concat (records : List Bytes) (record : Bytes) :
    totalLength (records ++ [record]) = totalLength records + record.length := by
  simp [totalLength]

/-! ## The open interval -/

/-- The records of the open interval were admitted in one window of its length, on one clock, and
no limit was reached before the last of them. -/
structure Filled (state : ProducerState) (stamps : List Stamp) : Prop where
  records : stamps.map Stamp.record = state.openInterval.records
  byteCount : state.openInterval.byteCount.toNat = totalLength state.openInterval.records
  clock : ∀ stamp ∈ stamps, stamp.continuityId = state.openInterval.clockContinuityId
  window : ∀ stamp ∈ stamps, state.openInterval.openedAtMs.toNat ≤ stamp.now.toNat
    ∧ stamp.now.toNat
      < state.openInterval.openedAtMs.toNat + state.openInterval.policy.intervalMs.toNat
  recordLimit : ∀ limit, state.openInterval.policy.recordLimit = some limit →
    state.openInterval.records.length ≤ limit.toNat
  sizeLimit : ∀ limit, state.openInterval.policy.sizeLimitBytes = some limit →
    totalLength state.openInterval.records.dropLast < limit.toNat
  policies : PoliciesValid state

/-- No limit of the open interval is reached. -/
structure Below (state : ProducerState) : Prop where
  recordLimit : ∀ limit, state.openInterval.policy.recordLimit = some limit →
    state.openInterval.records.length < limit.toNat
  sizeLimit : ∀ limit, state.openInterval.policy.sizeLimitBytes = some limit →
    state.openInterval.byteCount < limit

/-- What holds of the open interval between operations. -/
structure Bounded (state : ProducerState) (stamps : List Stamp) : Prop where
  filled : Filled state stamps
  below : Below state
  inactive : state.active = false → state.openInterval.records = []

/-- The positive limits of a valid policy are not reached by nothing. -/
theorem below_of_records_eq_nil {state : ProducerState} (hpolicies : PoliciesValid state)
    (hrecords : state.openInterval.records = []) (hbytes : state.openInterval.byteCount = 0) :
    Below state := by
  obtain ⟨-, -, hrecord, hsize⟩ := ClosurePolicy.validate_eq_ok.mp hpolicies.openPolicy
  have hpos : ∀ {limit? : Option UInt64} {limit : UInt64}, limit? ≠ some 0 → limit? = some limit →
      0 < limit.toNat := by
    rintro _ limit hne rfl
    by_contra hzero
    exact hne (congrArg some (UInt64.toNat_inj.mp (by simpa using hzero)))
  refine ⟨fun limit hlimit => ?_, fun limit hlimit => ?_⟩
  · rw [hrecords]
    exact hpos hrecord hlimit
  · rw [hbytes, UInt64.lt_iff_toNat_lt]
    exact hpos hsize hlimit

/-- An interval that was just opened. -/
theorem bounded_of_records_eq_nil {state : ProducerState} (hpolicies : PoliciesValid state)
    (hrecords : state.openInterval.records = []) (hbytes : state.openInterval.byteCount = 0) :
    Bounded state [] := by
  have hbelow := below_of_records_eq_nil hpolicies hrecords hbytes
  refine ⟨⟨hrecords.symm, ?_, by simp, by simp, ?_, ?_, hpolicies⟩, hbelow, fun _ => hrecords⟩
  · rw [hrecords, hbytes]
    rfl
  · intro limit hlimit
    exact (hbelow.recordLimit limit hlimit).le
  · intro limit hlimit
    have hsize := hbelow.sizeLimit limit hlimit
    rw [hbytes, UInt64.lt_iff_toNat_lt] at hsize
    rw [hrecords]
    exact hsize

variable [Sha256]

/-! ## Sealed segments -/

/-- What a sealed segment with its stamps owes to the policy its artifact carries. -/
structure Obeys (segment : SealedSegment) (r : SegmentRecord) (stamps : List Stamp) : Prop where
  decoded : decodeSegmentRecord segment.artifactCbor = .ok r
  closeReason : r.closeReason = segment.closeReason.asStr
  records : stamps.map Stamp.record = segment.records
  window : ∃ (continuityId : BitVec 128) (start : Nat), ∀ stamp ∈ stamps,
    stamp.continuityId = continuityId
      ∧ start ≤ stamp.now.toNat ∧ stamp.now.toNat < start + r.closurePolicy.intervalMs.toNat
  recordLimit : ∀ limit, r.closurePolicy.recordLimit = some limit →
    segment.records.length ≤ limit.toNat
  sizeLimit : ∀ limit, r.closurePolicy.sizeLimitBytes = some limit →
    totalLength segment.records.dropLast < limit.toNat
  empty : segment.records = [] → r.closurePolicy.emptyMode = .emit
    ∨ segment.closeReason = .shutdown ∨ segment.closeReason = .recovery

/-- What a segment owes in addition to the limit that closed it during an admission. -/
structure LimitReached (segment : SealedSegment) : Prop where
  sizeLimit : segment.closeReason = .sizeLimit →
    ∃ r limit, decodeSegmentRecord segment.artifactCbor = .ok r
      ∧ r.closurePolicy.sizeLimitBytes = some limit ∧ limit.toNat ≤ totalLength segment.records
  recordLimit : segment.closeReason = .recordLimit →
    ∃ r limit, decodeSegmentRecord segment.artifactCbor = .ok r
      ∧ r.closurePolicy.recordLimit = some limit ∧ segment.records.length = limit.toNat
      ∧ ∀ size, r.closurePolicy.sizeLimitBytes = some size →
        totalLength segment.records < size.toNat

/-- From the stamps of an open interval and those of new admissions to the segments sealed and the
stamps that stay open: nothing is dropped and the order is kept. -/
def Carried (stamps new : List Stamp) (sealed : List SealedSegment) (rest : List Stamp) : Prop :=
  ∃ groups : List (List Stamp), groups.flatten ++ rest = stamps ++ new
    ∧ List.Forall₂ (fun segment group => ∃ r, Obeys segment r group) sealed groups

namespace Carried

variable {stamps new new' mid rest : List Stamp} {sealed sealed' : List SealedSegment}

theorem refl (stamps : List Stamp) : Carried stamps [] [] stamps := ⟨[], by simp, .nil⟩

theorem trans (h : Carried stamps new sealed mid) (h' : Carried mid new' sealed' rest) :
    Carried stamps (new ++ new') (sealed ++ sealed') rest := by
  obtain ⟨groups, hflat, hobeys⟩ := h
  obtain ⟨groups', hflat', hobeys'⟩ := h'
  refine ⟨groups ++ groups', ?_, List.rel_append hobeys hobeys'⟩
  calc (groups ++ groups').flatten ++ rest
      = groups.flatten ++ (groups'.flatten ++ rest) := by simp
    _ = groups.flatten ++ mid ++ new' := by rw [hflat', List.append_assoc]
    _ = stamps ++ (new ++ new') := by rw [hflat, List.append_assoc]

/-- Stamps that only join the open interval. -/
theorem push (stamps new : List Stamp) : Carried stamps new [] (stamps ++ new) := ⟨[], rfl, .nil⟩

end Carried

/-! ## Closing -/

variable {state next : ProducerState} {stamps : List Stamp}

/-- A segment is constructed only where it is not suppressed. -/
theorem not_suppressed_of_constructSegment {nextOpenedAtMs : UInt64} {reason : CloseReason}
    {segment : SealedSegment}
    (h : constructSegment state nextOpenedAtMs reason = .ok (some segment, next)) :
    ¬ suppressed state.openInterval.records state.openInterval.policy reason := by
  intro hsuppressed
  simp only [constructSegment, hsuppressed, if_true] at h
  cases h

/-- A constructed segment has the reason of its closure. -/
theorem closeReason_of_constructSegment {nextOpenedAtMs : UInt64} {reason : CloseReason}
    {segment : Option SealedSegment}
    (h : constructSegment state nextOpenedAtMs reason = .ok (segment, next)) :
    ∀ segment' ∈ segment, segment'.closeReason = reason := by
  intro segment' hmem
  cases constructSegment_closes h with
  | skipped => cases hmem
  | sealed hseals _ =>
    cases hmem
    exact hseals.closeReason

/-- The segment of a filled interval obeys its policy. -/
theorem Filled.obeys {reason : CloseReason} {segment : SealedSegment} {r : SegmentRecord}
    (h : Filled state stamps) (hseals : Seals state reason segment r)
    (hshown : ¬ suppressed state.openInterval.records state.openInterval.policy reason) :
    Obeys segment r stamps where
  decoded := hseals.decoded
  closeReason := by rw [hseals.reason, hseals.closeReason]
  records := by rw [h.records, hseals.records]
  window := by
    refine ⟨state.openInterval.clockContinuityId, state.openInterval.openedAtMs.toNat, ?_⟩
    intro stamp hstamp
    rw [hseals.policy]
    exact ⟨h.clock stamp hstamp, h.window stamp hstamp⟩
  recordLimit := by
    rw [hseals.policy, hseals.records]
    exact h.recordLimit
  sizeLimit := by
    rw [hseals.policy, hseals.records]
    exact h.sizeLimit
  empty := by
    intro hempty
    rw [hseals.policy, hseals.closeReason]
    rw [hseals.records] at hempty
    cases hmode : state.openInterval.policy.emptyMode with
    | emit => exact .inl rfl
    | suppress =>
      simp only [suppressed, hempty, hmode, true_and, decide_not, Bool.not_eq_true',
        decide_eq_false_iff_not, not_not] at hshown
      exact .inr hshown

/-- Closing hands the stamps of the interval to the segment and opens an empty interval. -/
theorem Filled.constructSegment {nextOpenedAtMs : UInt64} {reason : CloseReason}
    {segment : Option SealedSegment} (h : Filled state stamps)
    (hclose : constructSegment state nextOpenedAtMs reason = .ok (segment, next)) :
    Carried stamps [] segment.toList [] ∧ Bounded next []
      ∧ next.openInterval.openedAtMs = nextOpenedAtMs
      ∧ next.openInterval.clockContinuityId = state.openInterval.clockContinuityId
      ∧ next.active = state.active := by
  have hcloses := constructSegment_closes hclose
  have hpolicies : PoliciesValid next := (Moves.refl.close hcloses).policies h.policies
  cases hcloses with
  | skipped hsuppressed =>
    simp only [suppressed, decide_eq_true_eq] at hsuppressed
    have hstamps : stamps = [] := by
      rw [← List.map_eq_nil_iff, h.records]
      exact hsuppressed.1
    subst hstamps
    exact ⟨.refl [], bounded_of_records_eq_nil hpolicies rfl rfl, rfl, rfl, rfl⟩
  | @sealed segment r number hseals hnumber =>
    have hobeys := h.obeys hseals (not_suppressed_of_constructSegment hclose)
    refine ⟨⟨[stamps], by simp, ?_⟩, bounded_of_records_eq_nil hpolicies rfl rfl, rfl, rfl, rfl⟩
    exact .cons ⟨r, hobeys⟩ .nil

/-- The reading lies in the open interval. -/
structure Within (state : ProducerState) (now : UInt64) : Prop where
  opened : state.openInterval.openedAtMs.toNat ≤ now.toNat
  beforeEnd : now.toNat
    < state.openInterval.openedAtMs.toNat + state.openInterval.policy.intervalMs.toNat

/-- The loop over expired intervals ends in the interval of the reading. -/
theorem Bounded.closeExpiredLoop {now : UInt64} {fuel : Nat} {sealed : List SealedSegment}
    (h : Bounded state stamps) (hloop : closeExpiredLoop now fuel state = .ok (sealed, next)) :
    ∃ rest, Carried stamps [] sealed rest ∧ Bounded next rest ∧ Within next now
      ∧ next.openInterval.clockContinuityId = state.openInterval.clockContinuityId
      ∧ next.active = state.active
      ∧ ∀ segment ∈ sealed, segment.closeReason = .interval := by
  induction fuel generalizing state stamps sealed with
  | zero => cases hloop
  | succ fuel ih =>
    simp only [TrackOne.closeExpiredLoop, Except.bind_eq_ok, Except.ofOption_eq_ok] at hloop
    obtain ⟨elapsed, helapsed, hloop⟩ := hloop
    rw [UInt64.checkedSub_eq_some] at helapsed
    split_ifs at hloop with hwithin
    · cases hloop
      rw [UInt64.lt_iff_toNat_lt] at hwithin
      exact ⟨stamps, .refl stamps, h, ⟨by omega, by omega⟩, rfl, rfl, by simp⟩
    · simp only [Except.bind_eq_ok, Except.ofOption_eq_ok] at hloop
      obtain ⟨boundary, -, ⟨segment, mid⟩, hclose, ⟨rest, last⟩, hrest, hloop⟩ := hloop
      cases hloop
      obtain ⟨hcarried, hmid, -, hclock, hactive⟩ := h.filled.constructSegment hclose
      obtain ⟨left, hcarried', hnext, hin, hclock', hactive', hreasons⟩ := ih hmid hrest
      refine ⟨left, hcarried.trans hcarried', hnext, hin, hclock'.trans hclock,
        hactive'.trans hactive, ?_⟩
      intro segment' hmem
      rcases List.mem_append.mp hmem with hfirst | hlater
      · exact closeReason_of_constructSegment hclose segment' (by simpa using hfirst)
      · exact hreasons segment' hlater

/-! ## Admitting -/

omit [Sha256] in
/-- A record joins an interval whose limits are not reached: it is the last one that may. -/
theorem Bounded.pushRecord {now : UInt64} {record : Bytes} (h : Bounded state stamps)
    (hin : Within state now) (hpush : pushRecord state record = .ok next) :
    Filled next (stamps ++ [⟨record, now, state.openInterval.clockContinuityId⟩])
      ∧ Within next now
      ∧ next.openInterval.clockContinuityId = state.openInterval.clockContinuityId
      ∧ next.active = state.active := by
  obtain ⟨byteCount, hbytes, rfl⟩ := pushRecord_eq_ok hpush
  refine ⟨⟨?_, ?_, ?_, ?_, ?_, ?_, ?_⟩, ⟨hin.opened, hin.beforeEnd⟩, rfl, rfl⟩
  · simp [h.filled.records]
  · simp [hbytes, h.filled.byteCount]
  · intro stamp hstamp
    rcases List.mem_append.mp hstamp with hold | hnew
    · exact h.filled.clock stamp hold
    · rw [List.mem_singleton.mp hnew]
  · intro stamp hstamp
    rcases List.mem_append.mp hstamp with hold | hnew
    · exact h.filled.window stamp hold
    · rw [List.mem_singleton.mp hnew]
      exact ⟨hin.opened, hin.beforeEnd⟩
  · intro limit hlimit
    have hlt := h.below.recordLimit limit hlimit
    simp only [List.length_append, List.length_cons, List.length_nil]
    omega
  · intro limit hlimit
    have hlt := h.below.sizeLimit limit hlimit
    rw [UInt64.lt_iff_toNat_lt, h.filled.byteCount] at hlt
    simpa using hlt
  · exact ⟨h.filled.policies.openPolicy, h.filled.policies.nextPolicy⟩

omit [Sha256] in
/-- Whether a limit is reached, as the source computes it. -/
def sizeReached (state : ProducerState) : Prop :=
  ∃ limit, state.openInterval.policy.sizeLimitBytes = some limit
    ∧ limit ≤ state.openInterval.byteCount

omit [Sha256] in
/-- The record limit is reached. -/
def recordsReached (state : ProducerState) : Prop :=
  ∃ limit, state.openInterval.policy.recordLimit = some limit
    ∧ limit.toNat ≤ state.openInterval.records.length

omit [Sha256] in
/-- The size limit comes before the record limit, and without either the interval stays open. -/
theorem limitReached_cases (state : ProducerState) :
    (sizeReached state ∧ limitReached state = some .sizeLimit)
      ∨ (¬ sizeReached state ∧ recordsReached state ∧ limitReached state = some .recordLimit)
      ∨ (¬ sizeReached state ∧ ¬ recordsReached state ∧ limitReached state = none) := by
  have hsize : (state.openInterval.policy.sizeLimitBytes.any
      fun limit => decide (limit ≤ state.openInterval.byteCount)) = true ↔ sizeReached state := by
    simp [sizeReached, Option.any_eq_true]
  have hrecords : (state.openInterval.policy.recordLimit.any
      fun limit => decide (limit.toNat ≤ state.openInterval.records.length)) = true
        ↔ recordsReached state := by
    simp [recordsReached, Option.any_eq_true]
  by_cases hs : sizeReached state
  · refine .inl ⟨hs, ?_⟩
    by_cases hr : recordsReached state <;>
      simp [limitReached, hsize, hrecords, hs, hr, CloseReason.highest, CloseReason.precedence]
  · by_cases hr : recordsReached state
    · refine .inr (.inl ⟨hs, hr, ?_⟩)
      simp [limitReached, hsize, hrecords, hs, hr, CloseReason.highest]
    · refine .inr (.inr ⟨hs, hr, ?_⟩)
      simp [limitReached, hsize, hrecords, hs, hr, CloseReason.highest]

/-- The closing after a record: either no limit is reached, or the segment shows the one that is. -/
theorem Filled.closeAtLimit {now : UInt64} {segment : Option SealedSegment}
    (h : Filled state stamps) (hin : Within state now) (hactive : state.active = true)
    (hclose : closeAtLimit state now = .ok (segment, next)) :
    ∃ rest, Carried stamps [] segment.toList rest ∧ Bounded next rest ∧ Within next now
      ∧ next.openInterval.clockContinuityId = state.openInterval.clockContinuityId
      ∧ next.active = true ∧ ∀ segment' ∈ segment, LimitReached segment' := by
  -- a closing at `now` opens an interval that contains `now`
  have hclosed : ∀ reason, TrackOne.constructSegment state now reason = .ok (segment, next) →
      Carried stamps [] segment.toList [] ∧ Bounded next [] ∧ Within next now
        ∧ next.openInterval.clockContinuityId = state.openInterval.clockContinuityId
        ∧ next.active = true := by
    intro reason hconstruct
    obtain ⟨hcarried, hnext, hopened, hclock, hsame⟩ := h.constructSegment hconstruct
    have hpos := ClosurePolicy.intervalMs_pos hnext.filled.policies.openPolicy
    exact ⟨hcarried, hnext, ⟨by rw [hopened], by rw [hopened]; omega⟩, hclock, hsame.trans hactive⟩
  unfold TrackOne.closeAtLimit at hclose
  rcases limitReached_cases state with ⟨hsize, hlimit⟩ | ⟨hsize, hrecords, hlimit⟩
    | ⟨hsize, hrecords, hlimit⟩
  -- the size limit is reached: the segment has the bytes
  · rw [hlimit] at hclose
    obtain ⟨hcarried, hnext, hwithin, hclock, hactive'⟩ := hclosed _ hclose
    refine ⟨[], hcarried, hnext, hwithin, hclock, hactive', ?_⟩
    intro segment' hmem
    cases constructSegment_closes hclose with
    | skipped => cases hmem
    | sealed hseals _ =>
      cases hmem
      obtain ⟨limit, hpolicy, hle⟩ := hsize
      rw [UInt64.le_iff_toNat_le, h.byteCount] at hle
      refine ⟨fun _ => ⟨_, limit, hseals.decoded, ?_, ?_⟩, fun hreason => ?_⟩
      · rw [hseals.policy, hpolicy]
      · rw [hseals.records]
        exact hle
      · rw [hseals.closeReason] at hreason
        cases hreason
  -- the record limit is reached, and the size limit is not
  · rw [hlimit] at hclose
    obtain ⟨hcarried, hnext, hwithin, hclock, hactive'⟩ := hclosed _ hclose
    refine ⟨[], hcarried, hnext, hwithin, hclock, hactive', ?_⟩
    intro segment' hmem
    cases constructSegment_closes hclose with
    | skipped => cases hmem
    | sealed hseals _ =>
      cases hmem
      obtain ⟨limit, hpolicy, hle⟩ := hrecords
      have hexact : state.openInterval.records.length = limit.toNat :=
        le_antisymm (h.recordLimit limit hpolicy) hle
      refine ⟨fun hreason => ?_, fun _ => ⟨_, limit, hseals.decoded, ?_, ?_, ?_⟩⟩
      · rw [hseals.closeReason] at hreason
        cases hreason
      · rw [hseals.policy, hpolicy]
      · rw [hseals.records, hexact]
      · intro size hsome
        rw [hseals.policy] at hsome
        rw [hseals.records, ← h.byteCount]
        by_contra hge
        exact hsize ⟨size, hsome, UInt64.le_iff_toNat_le.mpr (by omega)⟩
  -- no limit is reached: the interval stays open
  · rw [hlimit] at hclose
    cases hclose
    have hbelow : Below state := by
      refine ⟨fun limit hpolicy => ?_, fun limit hpolicy => ?_⟩
      · by_contra hge
        exact hrecords ⟨limit, hpolicy, by omega⟩
      · by_contra hge
        exact hsize ⟨limit, hpolicy, UInt64.not_lt.mp hge⟩
    exact ⟨stamps, .refl stamps, ⟨h, hbelow, by simp [hactive]⟩, hin, rfl, hactive, by simp⟩

/-- The records of an admission, stamped with its reading. -/
theorem Bounded.admitRecords {now : UInt64} {records : List Bytes} {sealed : List SealedSegment}
    {numbers : List UInt64} (h : Bounded state stamps) (hin : Within state now)
    (hactive : state.active = true)
    (hadmits : admitRecords now records state = .ok (sealed, numbers, next)) :
    ∃ rest, Carried stamps
        (records.map fun record => ⟨record, now, state.openInterval.clockContinuityId⟩) sealed rest
      ∧ Bounded next rest ∧ ∀ segment ∈ sealed, LimitReached segment := by
  induction records generalizing state stamps sealed numbers with
  | nil =>
    cases hadmits
    exact ⟨stamps, .refl stamps, h, by simp⟩
  | cons record records ih =>
    simp only [TrackOne.admitRecords, Except.bind_eq_ok] at hadmits
    obtain ⟨pushed, hpush, ⟨segment, mid⟩, hclose, ⟨later, numbers', last⟩, hlater, hadmits⟩ :=
      hadmits
    cases hadmits
    obtain ⟨hfilled, hwithin, hclock, hsame⟩ := h.pushRecord hin hpush
    obtain ⟨left, hcarried, hmid, hwithin', hclock', hactive', hreached⟩ :=
      hfilled.closeAtLimit hwithin (hsame.trans hactive) hclose
    obtain ⟨rest, hcarried', hnext, hreached'⟩ := ih hmid hwithin' hactive' hlater
    rw [hclock', hclock] at hcarried'
    refine ⟨rest, ?_, hnext, ?_⟩
    · have hpushed := Carried.push stamps [⟨record, now, state.openInterval.clockContinuityId⟩]
      have hall := (hpushed.trans hcarried).trans hcarried'
      simpa using hall
    · intro segment' hmem
      rcases List.mem_append.mp hmem with hfirst | hrest
      · exact hreached segment' (by simpa using hfirst)
      · exact hreached' segment' hrest

/-! ## Operations -/

omit [Sha256] in
/-- The clock is safe when the producer is active, the clock continues and does not run
backwards. -/
theorem safeNow_eq_ok {clock : ClockReadings} {now : UInt64} :
    safeNow state clock = .ok now ↔ state.active = true ∧ clock.nowMs = .ok now
      ∧ state.openInterval.clockContinuityId = clock.continuityId
      ∧ state.openInterval.openedAtMs ≤ now := by
  simp only [safeNow, Except.bind_eq_ok, Except.require_eq_ok, decide_eq_true_eq, pure,
    Except.pure, Except.ok.injEq, UInt64.not_lt]
  constructor
  · rintro ⟨-, hactive, now', hnow, -, hclock, rfl⟩
    exact ⟨hactive, hnow, hclock⟩
  · rintro ⟨hactive, hnow, hclock⟩
    exact ⟨(), hactive, now, hnow, (), hclock, rfl⟩

/-- The admissions of an answer, stamped with the reading of its call. -/
def stampsBy (clock : ClockReadings) (op : Operation) (reply : Reply) : List Stamp :=
  (acceptedBy op reply).flatMap fun call =>
    match clock.nowMs with
    | .ok now => call.records.map fun record => ⟨record, now, clock.continuityId⟩
    | .error _ => []

omit [Sha256] in
/-- An empty interval stays one when the clock or the policies are adjusted. -/
theorem Bounded.adjusts (h : Bounded state []) (hadjusts : Adjusts state next) :
    Bounded next [] := by
  have hrecords : state.openInterval.records = [] := h.filled.records.symm
  have hbytes : state.openInterval.byteCount = 0 := by
    apply UInt64.toNat_inj.mp
    rw [h.filled.byteCount, hrecords]
    rfl
  exact bounded_of_records_eq_nil (hadjusts.policies h.filled.policies)
    (hadjusts.records.trans hrecords) (hadjusts.byteCount.trans hbytes)

omit [Sha256] in
/-- The revision of a state is not part of its interval. -/
theorem Bounded.withRevision {rest : List Stamp} (h : Bounded next rest) (revision : UInt64) :
    Bounded { next with revision } rest :=
  ⟨⟨h.filled.records, h.filled.byteCount, h.filled.clock, h.filled.window, h.filled.recordLimit,
    h.filled.sizeLimit, ⟨h.filled.policies.openPolicy, h.filled.policies.nextPolicy⟩⟩,
    ⟨h.below.recordLimit, h.below.sizeLimit⟩, h.inactive⟩

/-- What a plan does to the stamps. -/
def KeepsLimits (clock : ClockReadings) (op : Operation) (stamps : List Stamp) : Plan → Prop
  | .done _ reply => stampsBy clock op reply = [] ∧ ∀ outcome, reply = .admitted outcome →
      outcome.sealed = []
  | .commit _ t reply =>
    (∃ rest, Carried stamps (stampsBy clock op reply) t.sealed rest ∧ Bounded t.nextState rest)
      ∧ ∀ outcome, reply = .admitted outcome → ∀ segment ∈ outcome.sealed, LimitReached segment

variable {clock : ClockReadings} {op : Operation} {plan : Plan}

/-- A commit of a method that admits nothing. -/
theorem keepsLimits_of_prepareCommit {sealed : List SealedSegment} {reply : Reply}
    {rest : List Stamp} (hop : op.admission = none) (hreply : ∀ outcome, reply ≠ .admitted outcome)
    (hcarried : Carried stamps [] sealed rest) (hnext : Bounded next rest)
    (h : prepareCommit state next sealed none [] (fun _ => reply) = .ok plan) :
    KeepsLimits clock op stamps plan := by
  obtain ⟨revision, count, -, -, -, rfl⟩ := prepareCommit_eq_ok h
  have hstamps : stampsBy clock op reply = [] := by
    simp [stampsBy, acceptedBy, hop]
  refine ⟨⟨rest, ?_, hnext.withRevision revision⟩, fun outcome houtcome => ?_⟩
  · rw [hstamps]
    exact hcarried
  · exact absurd houtcome (hreply outcome)

/-- A transition closes the open interval within the limits. -/
theorem Bounded.transition {now : UInt64} {reason : CloseReason}
    {replacementPolicy : Option ClosurePolicy} (h : Bounded state stamps)
    (hop : op.admission = none)
    (hpolicy : ∀ policy, replacementPolicy = some policy → policy.validate = .ok ())
    (hplan : transition state clock now reason replacementPolicy = .ok plan) :
    KeepsLimits clock op stamps plan := by
  simp only [transition_eq, Except.bind_eq_ok] at hplan
  obtain ⟨-, -, ⟨segment, mid⟩, hclose, hplan⟩ := hplan
  obtain ⟨hcarried, hmid, -⟩ := h.filled.constructSegment hclose
  exact keepsLimits_of_prepareCommit hop (by simp) hcarried
    (hmid.adjusts (adjusts_transitioned hpolicy)) hplan

/-- A producer that is shut down has an empty interval, so its clock can be set. -/
theorem Bounded.reactivate (h : Bounded state stamps)
    (hplan : reactivate state clock = .ok plan) : KeepsLimits clock .reactivate stamps plan := by
  unfold TrackOne.reactivate at hplan
  split_ifs at hplan with hactive
  · cases hplan
    exact ⟨rfl, by simp⟩
  · simp only [Except.bind_eq_ok] at hplan
    obtain ⟨now, -, hplan⟩ := hplan
    have hrecords := h.inactive (Bool.eq_false_of_not_eq_true hactive)
    have hstamps : stamps = [] := by
      rw [← List.map_eq_nil_iff, h.filled.records]
      exact hrecords
    subst hstamps
    refine keepsLimits_of_prepareCommit rfl (by simp) (.refl []) (h.adjusts ?_) hplan
    exact ⟨rfl, rfl, rfl, rfl, rfl, rfl, rfl, fun hvalid => ⟨hvalid.1, hvalid.2⟩⟩

/-- A change of the policy keeps the limits, deferred or immediate. -/
theorem Bounded.updatePolicy {policy : ClosurePolicy} {immediate : Bool} (h : Bounded state stamps)
    (hplan : updatePolicy state clock policy immediate = .ok plan) :
    KeepsLimits clock (.updatePolicy policy immediate) stamps plan := by
  simp only [TrackOne.updatePolicy, Except.bind_eq_ok, validatePolicy_eq_ok] at hplan
  obtain ⟨-, hvalid, now, -, hplan⟩ := hplan
  split_ifs at hplan with himmediate
  · exact h.transition rfl (by simpa using hvalid) hplan
  · -- a deferred policy waits until the interval is closed
    refine keepsLimits_of_prepareCommit rfl (by simp) (.refl stamps) ?_ hplan
    exact ⟨⟨h.filled.records, h.filled.byteCount, h.filled.clock, h.filled.window,
      h.filled.recordLimit, h.filled.sizeLimit, ⟨h.filled.policies.openPolicy, hvalid⟩⟩,
      ⟨h.below.recordLimit, h.below.sizeLimit⟩, h.inactive⟩

/-- An interval that expired needs no limit reached. -/
theorem limitReached_of_interval {segment : SealedSegment} (h : segment.closeReason = .interval) :
    LimitReached segment := by
  constructor <;> intro hreason <;> rw [h] at hreason <;> cases hreason

/-- The expiry of intervals keeps the limits. -/
theorem Bounded.sealExpiredIntervals (h : Bounded state stamps)
    (hplan : sealExpiredIntervals state clock = .ok plan) :
    KeepsLimits clock .sealExpiredIntervals stamps plan := by
  simp only [TrackOne.sealExpiredIntervals, Except.bind_eq_ok] at hplan
  obtain ⟨now, -, hplan⟩ := hplan
  split_ifs at hplan with hwithin
  · cases hplan
    exact ⟨rfl, by simp⟩
  · simp only [Except.bind_eq_ok] at hplan
    obtain ⟨⟨sealed, next⟩, hclose, hplan⟩ := hplan
    obtain ⟨rest, hcarried, hnext, -⟩ := h.closeExpiredLoop hclose
    dsimp only at hplan
    split_ifs at hplan with hopened
    · exact keepsLimits_of_prepareCommit rfl (by simp) hcarried hnext hplan
    · cases hplan
      exact ⟨rfl, by simp⟩

/-- A new admission: the expired intervals are closed first, so its reading lies in the interval
that takes the records. -/
theorem Bounded.admitBatchInner {records : List Bytes} {request : Option (String × String)}
    (h : Bounded state stamps) (hop : op.admission = some (records, request))
    (hplan : admitBatchInner state clock records request = .ok plan) :
    KeepsLimits clock op stamps plan := by
  simp only [TrackOne.admitBatchInner, Except.bind_eq_ok, Except.require_eq_ok] at hplan
  obtain ⟨-, hactive, -, -, -, -, now, hnow, ⟨expired, mid⟩, hexpired, ⟨limited, numbers, next⟩,
    hadmits, runs, -, count, -, deltas, -, admission, -, hplan⟩ := hplan
  obtain ⟨-, hreading, hcontinuity, -⟩ := safeNow_eq_ok.mp hnow
  obtain ⟨left, hcarried, hmid, hwithin, hclock, hsame, hinterval⟩ := h.closeExpiredLoop hexpired
  obtain ⟨rest, hcarried', hnext, hreached⟩ :=
    hmid.admitRecords hwithin (hsame.trans hactive) hadmits
  obtain ⟨revision, openCount, -, -, -, rfl⟩ := prepareCommit_eq_ok hplan
  refine ⟨⟨rest, ?_, hnext.withRevision revision⟩, ?_⟩
  · have hall := hcarried.trans hcarried'
    rw [hclock, hcontinuity] at hall
    simpa [stampsBy, acceptedBy, hop, hreading] using hall
  · rintro _ ⟨rfl⟩ segment hmem
    rcases List.mem_append.mp hmem with hold | hnew
    · exact limitReached_of_interval (hinterval segment hold)
    · exact hreached segment hnew

/-- An idempotent batch keeps the limits, and a replay changes nothing. -/
theorem Bounded.admitBatchIdempotentDigest
    {lookup : String → Except ProducerError (Option IdempotencyRecord)} {key digest : String}
    {records : List Bytes} (h : Bounded state stamps)
    (hop : op.admission = some (records, some (key, digest)))
    (hplan : admitBatchIdempotentDigest lookup state clock key records digest = .ok plan) :
    KeepsLimits clock op stamps plan := by
  simp only [TrackOne.admitBatchIdempotentDigest, Except.bind_eq_ok] at hplan
  obtain ⟨-, -, existing, -, hplan⟩ := hplan
  cases existing with
  | none => exact h.admitBatchInner hop hplan
  | some existing =>
    dsimp only at hplan
    split at hplan
    · cases hplan
    · simp only [replayedOutcome, Except.bind_eq_ok] at hplan
      obtain ⟨outcome, ⟨runs, -, count, -, houtcome⟩, hplan⟩ := hplan
      cases houtcome
      cases hplan
      refine ⟨by simp [stampsBy, acceptedBy, hop], ?_⟩
      rintro _ ⟨rfl⟩
      rfl

/-- One lemma for all operations. -/
theorem Bounded.keepsLimits {lookup : String → Except ProducerError (Option IdempotencyRecord)}
    (h : Bounded state stamps) (hplan : op.plan lookup state clock = .ok plan) :
    KeepsLimits clock op stamps plan := by
  cases op with
  | admitRecord record => exact h.admitBatchInner rfl hplan
  | admitIdempotent key record =>
    simp only [Operation.plan, TrackOne.admitIdempotent, Except.bind_eq_ok] at hplan
    obtain ⟨-, -, hplan⟩ := hplan
    exact h.admitBatchIdempotentDigest rfl hplan
  | admitBatchIdempotent key records canonicalEnvelope =>
    exact h.admitBatchIdempotentDigest rfl hplan
  | close reason =>
    simp only [Operation.plan, TrackOne.close, Except.bind_eq_ok] at hplan
    obtain ⟨now, -, hplan⟩ := hplan
    exact h.transition rfl (by simp) hplan
  | updatePolicy policy immediate => exact h.updatePolicy hplan
  | recover =>
    simp only [Operation.plan, TrackOne.recover, Except.bind_eq_ok] at hplan
    obtain ⟨-, -, now, -, hplan⟩ := hplan
    exact h.transition rfl (by simp) hplan
  | reactivate => exact h.reactivate hplan
  | sealExpiredIntervals => exact h.sealExpiredIntervals hplan

/-! ## Runs -/

/-- The admissions of a trace, in order. -/
def stampsOf (trace : List (Input × Answer)) : List Stamp :=
  trace.flatMap fun entry =>
    match entry with
    | (.call clock op, some (.ok reply)) => stampsBy clock op reply
    | _ => []

/-- A committed transition appends its segments to the stored ones. -/
theorem StoreInvariant.segments_apply {store : MemoryLedgerStore} {accepted : List AcceptedCall}
    {t : LedgerTransition} {admitted : List (Bytes × UInt64)} (h : StoreInvariant store accepted)
    (hstate : store.state = some state) (hcommits : Commits state admitted t) :
    (store.apply t).segments = store.segments ++ t.sealed := by
  obtain ⟨segments, hindexes, hledger, -⟩ := h.of_state hstate
  have hnext := hcommits.chained hledger.chained
  have hafter : TreeMap.Indexes (store.apply t).sealed (segments ++ t.sealed) :=
    indexes_foldl_insert hindexes fun i segment hi => hnext.chain.segmentNumber hi
  have hbefore : store.segments = segments := by
    apply hindexes.map_snd_toList
    rw [← hledger.chained.nextSegmentNumber]
    exact state.nextSegmentNumber.toNat_lt.le
  rw [hbefore]
  apply hafter.map_snd_toList
  rw [← hnext.nextSegmentNumber]
  exact t.nextState.nextSegmentNumber.toNat_lt.le

/-- The stored segments and the open interval carry the admissions of the trace, and the segments
that admissions answered with show the limits they reached. -/
structure LimitsKept (store : MemoryLedgerStore) (trace : List (Input × Answer)) : Prop where
  carried : ∃ rest, Carried [] (stampsOf trace) store.segments rest
    ∧ (store.state = none → rest = []) ∧ ∀ state, store.state = some state → Bounded state rest
  reached : ∀ entry ∈ trace, ∀ outcome, entry.2 = some (.ok (.admitted outcome)) →
    ∀ segment ∈ outcome.sealed, LimitReached segment

/-- An entry that admits nothing and leaves the store alone. -/
theorem LimitsKept.concat {store : MemoryLedgerStore} {trace : List (Input × Answer)}
    {entry : Input × Answer} (h : LimitsKept store trace) (hstamps : stampsOf [entry] = [])
    (hreached : ∀ outcome, entry.2 = some (.ok (.admitted outcome)) → outcome.sealed = []) :
    LimitsKept store (trace ++ [entry]) := by
  refine ⟨?_, ?_⟩
  · have hsame : stampsOf (trace ++ [entry]) = stampsOf trace ++ stampsOf [entry] := by
      simp [stampsOf]
    rw [hsame, hstamps, List.append_nil]
    exact h.carried
  · intro entry' hentry outcome houtcome segment hsegment
    rcases List.mem_append.mp hentry with hold | hnew
    · exact h.reached entry' hold outcome houtcome segment hsegment
    · rw [List.mem_singleton.mp hnew] at houtcome
      rw [hreached outcome houtcome] at hsegment
      cases hsegment

/-- An executed plan that keeps the limits. -/
theorem LimitsKept.execute {store store' : MemoryLedgerStore} {trace : List (Input × Answer)}
    {accepted : List AcceptedCall} {input : Input} {reply : Reply}
    (clock : ClockReadings) (h : LimitsKept store trace) (hstore : StoreInvariant store accepted)
    (hstate : store.state = some state)
    (hstamps : stampsOf [(input, some (.ok reply))] = stampsBy clock op reply)
    (hplanned : Planned (LedgerStore.lookupIdempotency store) state op plan)
    (hplan : ∀ stamps, Bounded state stamps → KeepsLimits clock op stamps plan)
    (hexecute : plan.execute store = (.ok (next, reply), store')) :
    LimitsKept store' (trace ++ [(input, some (.ok reply))]) := by
  obtain ⟨rest, hcarried, -, hbounded⟩ := h.carried
  have hkeeps := hplan rest (hbounded state hstate)
  cases plan with
  | done next' reply' =>
    obtain ⟨rfl, -⟩ := hplanned.of_done
    cases hexecute
    refine h.concat (hstamps.trans hkeeps.1) ?_
    intro outcome houtcome
    exact hkeeps.2 outcome (by simpa using houtcome)
  | commit expected t reply' =>
    obtain ⟨-, -, rfl, rfl, rfl⟩ := execute_commit hexecute
    obtain ⟨-, admitted, hcommits⟩ := hplanned.of_commit
    obtain ⟨⟨rest', hcarried', hnext⟩, hreached⟩ := hkeeps
    refine ⟨⟨rest', ?_, by simp [MemoryLedgerStore.apply], ?_⟩, ?_⟩
    · have hsplit : stampsOf (trace ++ [(input, some (.ok reply))])
          = stampsOf trace ++ stampsBy clock op reply := by
        rw [← hstamps]
        simp [stampsOf]
      rw [hsplit, hstore.segments_apply hstate hcommits]
      exact hcarried.trans hcarried'
    · rintro _ ⟨rfl⟩
      exact hnext
    · intro entry hentry outcome houtcome segment hsegment
      rcases List.mem_append.mp hentry with hold | hnew
      · exact h.reached entry hold outcome houtcome segment hsegment
      · rw [List.mem_singleton.mp hnew] at houtcome
        exact hreached outcome (by simpa using houtcome) segment hsegment

/-- A new ledger has no segments and an empty interval. -/
theorem LimitsKept.created {store : MemoryLedgerStore} {trace : List (Input × Answer)}
    {config : LedgerConfig} {now : UInt64} {continuityId : BitVec 128} {input : Input}
    (h : LimitsKept store trace) (hnone : store.state = none)
    (hpolicy : config.policy.validate = .ok ())
    (hstamps : stampsOf [(input, some (.ok .unit))] = []) :
    LimitsKept (store.apply (creation config now continuityId))
      (trace ++ [(input, some (.ok .unit))]) := by
  obtain ⟨rest, hcarried, hrest, -⟩ := h.carried
  obtain rfl := hrest hnone
  have hsegments : (store.apply (creation config now continuityId)).segments = store.segments := rfl
  refine LimitsKept.concat ⟨⟨[], ?_, by simp [MemoryLedgerStore.apply], ?_⟩, h.reached⟩ hstamps
    (by simp)
  · rw [hsegments]
    exact hcarried
  · rintro _ ⟨rfl⟩
    exact bounded_of_records_eq_nil ⟨hpolicy, hpolicy⟩ rfl rfl

/-- Every input keeps the limits. -/
theorem LimitsKept.step {w : World MemoryLedgerStore} {trace : List (Input × Answer)}
    (h : LimitsKept w.store trace) (hw : WorldInvariant w trace) (input : Input) :
    LimitsKept (w.step input).2.store (trace ++ [(input, (w.step input).1)]) := by
  generalize hafter : (w.step input).2 = after
  generalize hanswer : (w.step input).1 = answer
  have hstepped := w.step_stepped input
  rw [hafter, hanswer] at hstepped
  cases hstepped with
  | absent => exact h.concat rfl (by simp)
  | failed => exact h.concat rfl (by simp)
  | called hproducer hplan hexecute =>
    refine h.execute _ hw.store (hw.producer _ hproducer) ?_ (Operation.plan_planned hplan)
      (fun stamps hbounded => hbounded.keepsLimits hplan) hexecute
    simp [stampsOf]
  | refused => exact h.concat rfl (by simp)
  | @opened clock config next plan reply store hplan hexecute =>
    rcases openOrCreate_eq_ok hplan with ⟨state, hloaded, -, hreactivate⟩
      | ⟨hloaded, hpolicy, now, rfl⟩
    · have hstate : w.store.state = some state := by
        simpa [LedgerStore.load] using hloaded
      have hplanned : Planned (LedgerStore.lookupIdempotency w.store) state .reactivate plan :=
        reactivate_planned rfl hreactivate
      refine h.execute clock hw.store hstate ?_ hplanned
        (fun stamps hbounded => hbounded.reactivate hreactivate) hexecute
      rfl
    · have hnone : w.store.state = none := by
        simpa [LedgerStore.load] using hloaded
      obtain ⟨-, -, rfl, rfl, rfl⟩ := execute_commit hexecute
      exact h.created hnone hpolicy rfl

namespace World

/-- Every sealed segment obeys the policy it commits to. After any run, with any clock readings, the
admissions of the trace are, in order, those of the stored segments and then the open ones. The
stamps of a segment lie on one clock in one half-open window of the length of its policy's interval;
it has at most as many records as the record limit, its records without the last are below the size
limit, and it is empty only if its policy emits empty intervals or it was closed by shutdown or
recovery. A segment that an admission closed at a limit has reached that limit. The open interval
counts its bytes, is below both limits of its policy, and is empty when the producer is inactive. -/
theorem run_limits (inputs : List Input) :
    (∃ rest, Carried [] (stampsOf (memoryRun inputs).2) (memoryRun inputs).1.store.segments rest
        ∧ ∀ state, (memoryRun inputs).1.store.state = some state →
          rest.map Stamp.record = state.openInterval.records)
      ∧ (∀ entry ∈ (memoryRun inputs).2, ∀ outcome, entry.2 = some (.ok (.admitted outcome)) →
          ∀ segment ∈ outcome.sealed, LimitReached segment)
      ∧ ∀ state, (memoryRun inputs).1.producer = some state
            ∨ (memoryRun inputs).1.store.state = some state →
          state.openInterval.byteCount.toNat = totalLength state.openInterval.records
          ∧ Below state ∧ (state.active = false → state.openInterval.records = []) := by
  have hrun : WorldInvariant (memoryRun inputs).1 (memoryRun inputs).2
      ∧ LimitsKept (memoryRun inputs).1.store (memoryRun inputs).2 := by
    refine runTrace_induction
      (P := fun w trace => WorldInvariant w trace ∧ LimitsKept w.store trace) ?_ ?_ inputs
    · refine ⟨run_invariant [], ⟨[], ?_, by simp, by simp [MemoryLedgerStore.empty]⟩, by simp⟩
      exact .refl []
    · rintro w trace input ⟨hinvariant, hkept⟩
      exact ⟨hinvariant.step input, hkept.step hinvariant input⟩
  obtain ⟨hinvariant, hkept⟩ := hrun
  obtain ⟨rest, hcarried, -, hbounded⟩ := hkept.carried
  refine ⟨⟨rest, hcarried, fun state hstate => (hbounded state hstate).filled.records⟩,
    hkept.reached, ?_⟩
  intro state hstate
  have hbound : Bounded state rest :=
    hbounded state (hstate.elim (hinvariant.producer state) id)
  exact ⟨hbound.filled.byteCount, hbound.below, hbound.inactive⟩

end World

end TrackOne
