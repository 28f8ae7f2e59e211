import TrackOne.Gateway.Kept
import TrackOne.Gateway.Maintenance

/-!
# Batches and single records

`admit_batch_inner` keeps one state through a whole batch, over every limit seal and policy swap on
the way. A call for each record starts again from a committed state and looks for expired intervals
before each record. At one clock reading both do the same.

* `recordDeltas_single`: one record always finds its destination.
* `closeAtLimit_within`: a limit seal opens an interval that contains the reading, whatever the
  length the new policy gives it, so that there is nothing to expire before the next record.
* `Running.singles`: single calls go through the batch record by record.
* `World.run_batch`: what that means for every run. The one difference is the revision: the single
  calls need as many of them as there are records, and can run out.
-/

namespace TrackOne

variable [Sha256]

/-! ## Single records -/

section Single

variable {state mid next : ProducerState} {sealed segments : List SealedSegment}

omit [Sha256] in
/-- The ordinals to start from can be computed for a countable interval. -/
theorem startOrdinals_of_countable (sealed : List SealedSegment)
    (hcountable : state.openInterval.records.length < 2 ^ 64) :
    ∃ ordinals, startOrdinals state sealed = .ok ordinals := by
  unfold startOrdinals
  dsimp only
  split_ifs
  · rw [UInt64.ofNat?_of_lt hcountable]
    exact ⟨_, rfl⟩
  · exact ⟨_, rfl⟩

/-- The destination of a single record is computed: every segment has fewer records than its
counter can count. -/
theorem recordDeltas_single {record : Bytes} {number : UInt64} (hchained : Chained state segments)
    (hmoves : Moves state sealed [(record, number)] next)
    (hcountable : state.openInterval.records.length < 2 ^ 64)
    (hopen : next.openInterval.records.length < 2 ^ 64) :
    ∃ deltas, recordDeltas state next sealed [record] [number] = .ok deltas := by
  obtain ⟨ordinals, hordinals⟩ := startOrdinals_of_countable sealed hcountable
  have hstart := startOrdinals_eq_ok hchained hmoves hordinals
  have hrecords := congrArg List.length (pushAll_open hchained hmoves)
  rw [Contents.pushAll_apply, List.length_append, List.length_map] at hrecords
  have hcount : [number].count next.nextSegmentNumber
      = ([(record, number)].filter fun entry => entry.2 = next.nextSegmentNumber).length :=
    @count_eq_length_filter [record] [number] rfl next.nextSegmentNumber
  have hle : [number].count next.nextSegmentNumber ≤ next.openInterval.records.length := by omega
  simp only [recordDeltas, hordinals, Except.require, hle, decide_true, if_true,
    UInt64.ofNat?_of_lt (Nat.lt_of_le_of_lt (Nat.sub_le _ _) hopen), Except.ofOption, bind,
    Except.bind, List.zip_cons_cons, List.zip_nil_right, recordDeltasLoop, recordDelta]
  split_ifs with hmem
  · -- the record ends the segment it was sealed in
    obtain ⟨segment, hsegment, hnumber⟩ := List.mem_map.mp hmem
    have hlength := congrArg List.length (pushAll_sealed hchained hmoves hsegment)
    rw [Contents.pushAll_apply, List.length_append, hnumber, ← hstart number hmem] at hlength
    obtain ⟨i, hi⟩ := List.mem_iff_getElem?.mp (List.mem_append_right segments hsegment)
    obtain ⟨r, hr⟩ := (hmoves.chained hchained).chain i segment hi
    have hcounted := r.recordCount.toNat_lt
    rw [hr.recordCount, ← hlength] at hcounted
    simp only [List.length_map, List.filter_cons, decide_true, if_true, List.filter_nil,
      List.length_singleton] at hcounted
    obtain ⟨after, hafter⟩ : ∃ after, (ordinals[number]?.getD 0).checkedAdd 1 = some after :=
      UInt64.exists_checkedAdd hcounted
    rw [hafter]
    exact ⟨_, rfl⟩
  · -- or it is the last of the open ones
    have heq : number = next.nextSegmentNumber :=
      (mem_sealedNumbers_or_open hchained hmoves (record, number) (by simp)).resolve_left hmem
    have hone : [number].count next.nextSegmentNumber = 1 := by simp [heq]
    rw [hone] at hle ⊢
    have hordinal : (UInt64.ofNat (next.openInterval.records.length - 1)).toNat + 1 < 2 ^ 64 := by
      rw [UInt64.toNat_ofNat_of_lt64 (by omega)]
      omega
    obtain ⟨after, hafter⟩ : ∃ after,
        (UInt64.ofNat (next.openInterval.records.length - 1)).checkedAdd 1 = some after :=
      UInt64.exists_checkedAdd hordinal
    rw [hafter]
    exact ⟨_, rfl⟩

/-- After a limit seal the reading is in the open interval: it was opened at the reading, and an
interval has a positive length under every valid policy. -/
theorem closeAtLimit_within {now : UInt64} {segment : Option SealedSegment}
    (hwithin : Within state now) (hpolicies : PoliciesValid state)
    (h : closeAtLimit state now = .ok (segment, next)) :
    Within next now ∧ next.active = state.active
      ∧ next.openInterval.clockContinuityId = state.openInterval.clockContinuityId := by
  unfold closeAtLimit at h
  split at h
  · cases h
    exact ⟨hwithin, rfl, rfl⟩
  · have hpos := ClosurePolicy.intervalMs_pos hpolicies.nextPolicy
    have hopened : ∀ reopened : ProducerState, reopened.openInterval.openedAtMs = now →
        reopened.openInterval.policy = state.nextPolicy → Within reopened now := by
      intro reopened hopened hpolicy
      exact ⟨by rw [hopened], by rw [hopened, hpolicy]; omega⟩
    cases constructSegment_closes h with
    | skipped => exact ⟨hopened _ rfl rfl, rfl, rfl⟩
    | sealed => exact ⟨hopened _ rfl rfl, rfl, rfl⟩

/-- The first record of a batch, and the rest of it. -/
theorem admitRecords_cons {now : UInt64} {record : Bytes} {records : List Bytes}
    {numbers : List UInt64} (hwithin : Within state now) (hpolicies : PoliciesValid state)
    (h : admitRecords now (record :: records) state = .ok (sealed, numbers, next)) :
    ∃ first later numbers' mid, admitRecords now [record] state
        = .ok (first, [state.nextSegmentNumber], mid)
      ∧ admitRecords now records mid = .ok (later, numbers', next)
      ∧ sealed = first ++ later ∧ numbers = state.nextSegmentNumber :: numbers'
      ∧ Within mid now ∧ mid.active = state.active
      ∧ mid.openInterval.clockContinuityId = state.openInterval.clockContinuityId := by
  simp only [admitRecords, Except.bind_eq_ok] at h
  obtain ⟨pushed, hpush, ⟨segment, mid⟩, hlimit, ⟨later, numbers', last⟩, hlater, h⟩ := h
  cases h
  have hsingle : admitRecords now [record] state
      = .ok (segment.toList, [state.nextSegmentNumber], mid) := by
    simp [admitRecords, hpush, hlimit, bind, Except.bind, pure, Except.pure]
  obtain ⟨byteCount, -, hpushed⟩ := pushRecord_eq_ok hpush
  have hwithin' : Within pushed now := by
    rw [hpushed]
    exact ⟨hwithin.opened, hwithin.beforeEnd⟩
  have hpolicies' : PoliciesValid pushed := by
    rw [hpushed]
    exact ⟨hpolicies.openPolicy, hpolicies.nextPolicy⟩
  obtain ⟨hmid, hactive, hcontinuity⟩ := closeAtLimit_within hwithin' hpolicies' hlimit
  rw [hpushed] at hactive hcontinuity
  exact ⟨segment.toList, later, numbers', mid, hsingle, hlater, rfl, rfl, hmid, hactive,
    hcontinuity⟩

end Single

/-! ## Single calls -/

/-- An admission reads the clock's time and continuity id only. -/
theorem Operation.plan_clock {op : Operation} (hop : op.admission.isSome)
    (lookup : String → Except ProducerError (Option IdempotencyRecord)) (state : ProducerState)
    {clock : ClockReadings} {now : UInt64} (hnow : clock.nowMs = .ok now) :
    op.plan lookup state clock = op.plan lookup state (clockOf clock.continuityId now) := by
  have hsafe : safeNow state clock = safeNow state (clockOf clock.continuityId now) := by
    simp only [safeNow, hnow, clockOf]
    rfl
  have hinner : ∀ records request, admitBatchInner state clock records request
      = admitBatchInner state (clockOf clock.continuityId now) records request := by
    intro records request
    simp only [admitBatchInner, hsafe]
  cases op with
  | admitRecord record => exact hinner [record] none
  | admitIdempotent key record =>
    simp only [Operation.plan, TrackOne.admitIdempotent, admitBatchIdempotentDigest, hinner]
  | admitBatchIdempotent key records canonicalEnvelope =>
    simp only [Operation.plan, TrackOne.admitBatchIdempotent, admitBatchIdempotentDigest, hinner]
  | _ => cases hop

theorem World.step_clock (w : World MemoryLedgerStore) (op : Operation) (hop : op.admission.isSome)
    {clock : ClockReadings} {now : UInt64} (hnow : clock.nowMs = .ok now) :
    w.step (.call clock op) = w.step (.call (clockOf clock.continuityId now) op) := by
  unfold World.step
  cases w.producer with
  | none => rfl
  | some state => simp only [Operation.plan_clock hop _ state hnow]

/-- One call for each of the records, all with the same clock reading. -/
def singleCalls (clock : ClockReadings) (records : List Bytes) : List Input :=
  records.map fun record => .call clock (.admitRecord record)

/-- What single calls do to a world: the segments they seal, the numbers of the segments their
records were admitted to and the state at the end. -/
structure AdmitsSingly (w : World MemoryLedgerStore) (calls : List Input)
    (sealed : List SealedSegment) (numbers : List UInt64) (next : ProducerState) : Prop where
  reports : ∃ parts : List (List SealedSegment × List AdmissionRun),
    (runTrace World.step w calls).2.map (fun entry => reported entry.2) = parts.map some
      ∧ parts.flatMap Prod.fst = sealed
      ∧ parts.flatMap (fun part => expandRuns part.2) = numbers
  producer : (runTrace World.step w calls).1.producer = some next
  stored : (runTrace World.step w calls).1.store.sealed = insertAll w.store.sealed sealed

/-- A call in front of the others. -/
theorem AdmitsSingly.cons {w : World MemoryLedgerStore} {call : Input} {calls : List Input}
    {sealed first later : List SealedSegment} {runs : List AdmissionRun} {numbers : List UInt64}
    {next : ProducerState} (hreport : reported (w.step call).1 = some (first, runs))
    (hstored : (w.step call).2.store.sealed = insertAll w.store.sealed first)
    (h : AdmitsSingly (w.step call).2 calls later numbers next)
    (hsealed : sealed = first ++ later) :
    AdmitsSingly w (call :: calls) sealed (expandRuns runs ++ numbers) next := by
  obtain ⟨parts, hparts, hlater, hnumbers⟩ := h.reports
  refine ⟨⟨(first, runs) :: parts, ?_, ?_, ?_⟩, ?_, ?_⟩
  · rw [runTrace_cons, List.map_cons, List.map_cons, hparts, hreport]
  · rw [List.flatMap_cons, hlater, hsealed]
  · rw [List.flatMap_cons, hnumbers]
  · rw [runTrace_cons]
    exact h.producer
  · rw [runTrace_cons, hsealed, insertAll_append, ← hstored]
    exact h.stored

namespace Running

open World

variable {inputs : List Input} {continuityId : BitVec 128} {state mid next : ProducerState}
  {sealed expired limited : List SealedSegment} {numbers : List UInt64} {clock : ClockReadings}
  {now : UInt64}

/-- A record that the batch takes is taken by a call of its own. -/
theorem settles_single {record : Bytes} {number : UInt64}
    (h : Running (memoryRun inputs).1 (memoryRun inputs).2 state continuityId)
    (hvalid : Canonical record) (hexpires : Expires now state expired mid)
    (hadmits : admitRecords now [record] mid = .ok (limited, [number], next)) :
    ∃ runs, expandRuns runs = [number]
      ∧ Settles (memoryRun inputs).1.store now state (.admitRecord record) (expired ++ limited) runs
          next := by
  obtain ⟨segments, accepted, hledger⟩ := h.ledger
  have hkept := run_kept recordsKept inputs state (h.invariant.producer state h.producer)
  have hrecords : ∀ record' ∈ [record], ∃ m, validateCanonicalRecord record' = .ok m :=
    List.forall_mem_singleton.mpr hvalid
  have hmoves : Moves state (expired ++ limited) [(record, number)] next :=
    hexpires.moves.trans (admitRecords_moves hrecords hadmits).2
  obtain ⟨deltas, hdeltas⟩ := recordDeltas_single hledger.chained hmoves hkept.length_lt
    (hkept.moves hmoves).length_lt
  have hruns : admissionRuns [number] = .ok [⟨number, 1⟩] := rfl
  have hvalidated : validateRecords 0 [record] = .ok () := by
    obtain ⟨m, hm⟩ := hvalid
    simp [validateRecords, hm, Except.mapError, bind, Except.bind]
  exact ⟨_, expandRuns_admissionRuns hruns, .admission rfl (by simp) (by simp) hvalidated
    hkept.length_lt hexpires hadmits hruns (by simp) hdeltas⟩

/-- The single calls go through the batch record by record, unless they run out of revisions. By
induction on the records: after the first one there is nothing to expire at the same reading, so
that the second call starts where the batch goes on. -/
theorem singles {records : List Bytes} (hnow : clock.nowMs = .ok now)
    (h : Running (memoryRun inputs).1 (memoryRun inputs).2 state clock.continuityId)
    (hvalid : ∀ record ∈ records, Canonical record) (hexpires : Expires now state expired mid)
    (hadmits : admitRecords now records mid = .ok (limited, numbers, next))
    (hsome : records ≠ [] ∨ expired = [] ∧ mid = state) :
    (2 ^ 64 ≤ state.revision.toNat + records.length
        ∧ ∃ entry ∈ (runTrace World.step (memoryRun inputs).1 (singleCalls clock records)).2,
          entry.2 = some (.error revisionOverflow))
      ∨ ∃ revision : UInt64, revision.toNat = state.revision.toNat + records.length
        ∧ AdmitsSingly (memoryRun inputs).1 (singleCalls clock records) (expired ++ limited) numbers
            (next.withRevision revision) := by
  induction records generalizing inputs state expired mid limited numbers next with
  | nil =>
    -- no record: nothing is admitted
    obtain ⟨rfl, rfl⟩ : expired = [] ∧ mid = state := hsome.resolve_left (fun hne => hne rfl)
    cases hadmits
    exact .inr ⟨_, rfl, ⟨[], rfl, rfl, rfl⟩, h.producer, rfl⟩
  | cons record records ih =>
    obtain ⟨hfirst, hlater⟩ := List.forall_mem_cons.mp hvalid
    obtain ⟨segments, accepted, hledger⟩ := h.ledger
    have hpolicies : PoliciesValid mid := hexpires.moves.policies hledger.policies
    obtain ⟨first, later, numbers', after, hsingle, hrest, rfl, rfl, hwithin, hactive,
      hcontinuity⟩ := admitRecords_cons hexpires.within_next hpolicies hadmits
    -- the first record is admitted by itself
    obtain ⟨runs, hruns, hsettles⟩ := h.settles_single hfirst hexpires hsingle
    have hopened : state.openInterval.openedAtMs.toNat ≤ now.toNat := by
      cases hexpires with
      | within hwithin => exact hwithin.opened
      | close hboundary hle => omega
    -- closing what has expired changes neither the clock's continuity nor the activity
    have hkept : mid.active = state.active
        ∧ mid.openInterval.clockContinuityId = state.openInterval.clockContinuityId := by
      rcases hexpires.emptied with ⟨-, -, rfl⟩ | ⟨-, hemptied⟩
      · exact ⟨rfl, rfl⟩
      · exact ⟨hemptied.active, hemptied.continuity⟩
    have hclock := World.step_clock (memoryRun inputs).1 (.admitRecord record) rfl hnow
    have hstep := h.step_settles hsettles hopened
    rw [← hclock] at hstep
    simp only [List.length_cons, singleCalls, List.map_cons]
    rcases hstep with ⟨hnone, herror⟩
      | ⟨-, hreport, ⟨revision, -, hrevision, hproducer⟩, hstored, -⟩
    · -- the first call has no revision left
      have hlast : 2 ^ 64 ≤ state.revision.toNat + 1 := by
        by_contra hroom
        exact hnone (.inr (by omega))
      refine .inl ⟨by omega, (.call clock (.admitRecord record), _), ?_, herror⟩
      rw [runTrace_cons]
      exact List.mem_cons_self
    · have hrevision := hrevision rfl
      have hconcat : (memoryRun (inputs ++ [.call clock (.admitRecord record)])).1
          = ((memoryRun inputs).1.step (.call clock (.admitRecord record))).2 :=
        congrArg Prod.fst (runTrace_concat ..)
      -- the producer after the first call runs on, with one record less to admit
      have hrunning : Running (memoryRun (inputs ++ [.call clock (.admitRecord record)])).1
          (memoryRun (inputs ++ [.call clock (.admitRecord record)])).2
          (after.withRevision revision) clock.continuityId := by
        refine ⟨run_invariant _, ?_, ?_, ?_⟩
        · rw [hconcat]
          exact hproducer
        · exact hactive.trans (hkept.1.trans h.active)
        · exact hcontinuity.trans (hkept.2.trans h.continuity)
      have hnext : admitRecords now records (after.withRevision revision)
          = .ok (later, numbers', next.withRevision revision) := by
        rw [admitRecords_withRevision, hrest]
        rfl
      rcases ih hrunning hlater (.within ⟨hwithin.opened, hwithin.beforeEnd⟩) hnext
          (.inr ⟨rfl, rfl⟩) with ⟨hover, entry, hentry, herror⟩ | ⟨revision', hrevision', hsingly⟩
      -- the revision ran out at a later call
      · rw [hconcat] at hentry
        refine .inl ⟨?_, entry, ?_, herror⟩
        · have hover' : 2 ^ 64 ≤ revision.toNat + records.length := hover
          omega
        · rw [runTrace_cons]
          exact List.mem_cons_of_mem _ hentry
      -- the calls after the first do what the rest of the batch does
      · rw [hconcat] at hsingly
        refine .inr ⟨revision', ?_, ?_⟩
        · have hrevision'' : revision'.toNat = revision.toNat + records.length := hrevision'
          omega
        · have hall : AdmitsSingly _ _ _ (expandRuns runs ++ numbers') _ :=
            hsingly.cons hreport hstored (by rw [List.nil_append, List.append_assoc])
          rw [hruns] at hall
          exact hall

end Running

/-- A new admission has read a clock that continues the open interval. -/
theorem safeNow_of_plan {op : Operation} {state : ProducerState} {clock : ClockReadings}
    {lookup : String → Except ProducerError (Option IdempotencyRecord)} {plan : Plan}
    {sealed : List SealedSegment} {runs : List AdmissionRun} (hop : op.admission.isSome)
    (hplan : op.plan lookup state clock = .ok plan)
    (hreport : plan.reply.report = some (sealed, runs)) :
    ∃ now, safeNow state clock = .ok now := by
  obtain ⟨⟨records, request⟩, hop⟩ := Option.isSome_iff_exists.mp hop
  rcases Operation.plan_admission hop hplan with ⟨-, hinner⟩ | ⟨outcome, rfl, hreplayed⟩
  · simp only [admitBatchInner, Except.bind_eq_ok] at hinner
    obtain ⟨-, -, -, -, -, -, now, hnow, -⟩ := hinner
    exact ⟨now, hnow⟩
  · simp [Plan.reply, Reply.report, hreplayed] at hreport

/-- What a new admission at a reading and the single calls for its records do. -/
theorem Running.batch {inputs : List Input} {state : ProducerState} {op : Operation}
    {records : List Bytes} {request : Option (String × String)} {clock : ClockReadings}
    {sealed : List SealedSegment} {runs : List AdmissionRun}
    (hproducer : (World.memoryRun inputs).1.producer = some state)
    (hop : op.admission = some (records, request))
    (hbatch : reported ((World.memoryRun inputs).1.step (.call clock op)).1 = some (sealed, runs)) :
    ∃ (next : ProducerState) (revision : UInt64), revision.toNat = state.revision.toNat + 1
      ∧ ((World.memoryRun inputs).1.step (.call clock op)).2.producer
        = some (next.withRevision revision)
      ∧ ((World.memoryRun inputs).1.step (.call clock op)).2.store.sealed
        = insertAll (World.memoryRun inputs).1.store.sealed sealed
      ∧ ((2 ^ 64 ≤ state.revision.toNat + records.length
          ∧ ∃ entry ∈ (runTrace World.step (World.memoryRun inputs).1
              (singleCalls clock records)).2,
            entry.2 = some (.error revisionOverflow))
        ∨ ∃ revision' : UInt64, revision'.toNat = state.revision.toNat + records.length
          ∧ AdmitsSingly (World.memoryRun inputs).1 (singleCalls clock records) sealed
              (expandRuns runs) (next.withRevision revision')) := by
  have hadmission : op.admission.isSome := by rw [hop]; rfl
  have hinvariant := World.run_invariant inputs
  obtain ⟨now, hsafe⟩ : ∃ now, safeNow state clock = .ok now := by
    rw [hinvariant.step_plan hproducer] at hbatch
    cases hplan : op.plan (LedgerStore.lookupIdempotency (World.memoryRun inputs).1.store) state
        clock with
    | error error =>
      rw [hplan] at hbatch
      cases hbatch
    | ok plan =>
      rw [hplan] at hbatch
      exact safeNow_of_plan hadmission hplan hbatch
  -- the clock is safe, so that the batch settles at its reading
  obtain ⟨hactive, hnow, hcontinuity, hopened⟩ := safeNow_eq_ok.mp hsafe
  have h : Running (World.memoryRun inputs).1 (World.memoryRun inputs).2 state
      clock.continuityId := ⟨hinvariant, hproducer, hactive, hcontinuity⟩
  rw [World.step_clock _ op hadmission hnow] at hbatch ⊢
  obtain ⟨next, hsettles⟩ := h.settles_of_reported (.inr hadmission) hbatch
  rcases h.step_settles hsettles (UInt64.le_iff_toNat_le.mp hopened) with
    ⟨-, herror⟩ | ⟨-, -, ⟨revision, -, hrevision, hnext⟩, hstored, -⟩
  · rw [herror] at hbatch
    cases hbatch
  cases hsettles with
  | tick => cases hadmission
  | @admission _ records' _ expired limited numbers _ _ mid _ hop' _ hne hvalid _ hexpires hadmits
      hruns =>
    rw [hop] at hop'
    cases hop'
    -- and each record alone settles the same
    have hsingles := h.singles hnow (validateRecords_eq_ok hvalid) hexpires hadmits (.inl hne)
    rw [← expandRuns_admissionRuns hruns] at hsingles
    exact ⟨next, revision, hrevision hadmission, hnext, hstored, hsingles⟩

namespace World

/-- A batch admits like its records one by one. In every reachable state and at every clock reading,
when a batch is admitted, a single call for each of its records does the same: the segments sealed,
the numbers of the segments the records were admitted to, the stored segments and the final state,
with one revision for each record and not one for all. Only when there are not as many revisions
left, one of the single calls is refused. -/
theorem run_batch (inputs : List Input) (state : ProducerState)
    (hproducer : (memoryRun inputs).1.producer = some state) (op : Operation) (records : List Bytes)
    (request : Option (String × String)) (hop : op.admission = some (records, request))
    (clock : ClockReadings) (sealed : List SealedSegment) (runs : List AdmissionRun)
    (hbatch : reported ((memoryRun inputs).1.step (.call clock op)).1 = some (sealed, runs)) :
    let w := (memoryRun inputs).1
    let batch := (w.step (.call clock op)).2
    if state.revision.toNat + records.length < 2 ^ 64 then
      ∃ (next : ProducerState) (revision revision' : UInt64),
        revision.toNat = state.revision.toNat + 1
          ∧ revision'.toNat = state.revision.toNat + records.length
          ∧ batch.producer = some (next.withRevision revision)
          ∧ batch.store.sealed = insertAll w.store.sealed sealed
          ∧ AdmitsSingly w (singleCalls clock records) sealed (expandRuns runs)
              (next.withRevision revision')
    else ∃ entry ∈ (runTrace World.step w (singleCalls clock records)).2,
      entry.2 = some (.error revisionOverflow) := by
  intro w batch
  obtain ⟨next, revision, hrevision, hnext, hstored, hsingles⟩ :=
    Running.batch hproducer hop hbatch
  split_ifs with hroom
  · rcases hsingles with ⟨hover, -⟩ | ⟨revision', hrevision', hsingly⟩
    · omega
    · exact ⟨next, revision, revision', hrevision, hrevision', hnext, hstored, hsingly⟩
  · rcases hsingles with ⟨-, hrefused⟩ | ⟨revision', hrevision', -⟩
    · exact hrefused
    · have hlt := revision'.toNat_lt
      omega

omit [Sha256] in
/-- Two records that come two intervals after the sample record. -/
theorem run_batch_sampleInputs :
    letI := Sha256.fips
    ∃ (sealed : List SealedSegment) (runs : List AdmissionRun) (next : ProducerState),
      reported ((memoryRun sampleInputs).1.step (.call (clockOf 7 1250)
        (.admitBatchIdempotent "pair" [sampleRecord, sampleRecord] []))).1 = some (sealed, runs)
        ∧ AdmitsSingly (memoryRun sampleInputs).1
            (singleCalls (clockOf 7 1250) [sampleRecord, sampleRecord]) sealed (expandRuns runs)
            next := by
  let := Sha256.fips
  have hstate : (memoryRun sampleInputs).1.producer.any (fun state =>
      decide (state.revision.toNat + 2 < 2 ^ 64)) = true := by
    decide +kernel
  have hbatch : (reported ((memoryRun sampleInputs).1.step (.call (clockOf 7 1250)
      (.admitBatchIdempotent "pair" [sampleRecord, sampleRecord] []))).1).isSome := by
    decide +kernel
  obtain ⟨state, hproducer, hroom⟩ := (Option.any_eq_true _ _).mp hstate
  obtain ⟨⟨sealed, runs⟩, hbatch⟩ := Option.isSome_iff_exists.mp hbatch
  have hbatches := run_batch sampleInputs state hproducer _ [sampleRecord, sampleRecord] _ rfl
    (clockOf 7 1250) sealed runs hbatch
  have hroom' : state.revision.toNat + [sampleRecord, sampleRecord].length < 2 ^ 64 :=
    of_decide_eq_true hroom
  simp only [if_pos hroom'] at hbatches
  obtain ⟨next, -, revision', -, -, -, -, hsingly⟩ := hbatches
  exact ⟨sealed, runs, next.withRevision revision', hbatch, hsingly⟩

/-! ## The last revisions -/

/-- The state of a producer that was opened on an empty store. -/
def openedState : ProducerState :=
  createdState {
    ledgerId := "b7a1d5e40c6f438e9a75db27c96f31aa"
    siteId := "an-001"
    policy := {
      intervalMs := 100, batchRecordLimit := 2, recordLimit := none, sizeLimitBytes := none
      emptyMode := .emit } } 1000 7

/-- The producer is opened, and its policy is replaced by the same one again and again: each time
under a new revision. -/
def updateInputs (count : Nat) : List Input :=
  .restart (clockOf 7 1000) {
      ledgerId := openedState.ledgerId, siteId := openedState.siteId
      policy := openedState.nextPolicy }
    :: List.replicate count
      (.call (clockOf 7 1000) (.updatePolicy openedState.nextPolicy false))

/-- A deferred update commits the same state under the next revision. -/
theorem updatePolicy_openedState {revision after : UInt64}
    (hafter : revision.checkedAdd 1 = some after) :
    ∃ t reply, updatePolicy (openedState.withRevision revision) (clockOf 7 1000)
        openedState.nextPolicy false = .ok (.commit (some revision) t reply)
      ∧ t.nextState = openedState.withRevision after ∧ t.idempotency = none := by
  have hpolicy : validatePolicy openedState.nextPolicy = .ok () := by decide
  have hsafe : safeNow (openedState.withRevision revision) (clockOf 7 1000) = .ok 1000 := by
    rw [safeNow_eq_ok]
    exact ⟨rfl, rfl, rfl, UInt64.le_refl _⟩
  have hrevision : (openedState.withRevision revision).revision.checkedAdd 1 = some after := hafter
  simp only [updatePolicy, hpolicy, hsafe, prepareCommit, hrevision, bind, Except.bind,
    Except.ofOption]
  exact ⟨_, _, rfl, rfl, rfl⟩

/-- As many revisions as there are can be used up without sealing anything. -/
theorem run_updateInputs (count : Nat) (hcount : count < 2 ^ 64) :
    (memoryRun (updateInputs count)).1.producer
        = some (openedState.withRevision (UInt64.ofNat count))
      ∧ (memoryRun (updateInputs count)).1.store.idempotency = ∅ := by
  induction count with
  | zero => exact ⟨rfl, rfl⟩
  | succ count ih =>
    obtain ⟨hproducer, hidempotency⟩ := ih (by omega)
    have hinputs : updateInputs (count + 1) = updateInputs count
        ++ [.call (clockOf 7 1000) (.updatePolicy openedState.nextPolicy false)] := by
      rw [updateInputs, List.replicate_succ']
      rfl
    have hnext : (UInt64.ofNat count).checkedAdd 1 = some (UInt64.ofNat (count + 1)) := by
      rw [UInt64.checkedAdd_eq_some, UInt64.toNat_ofNat_of_lt64 hcount,
        UInt64.toNat_ofNat_of_lt64 (by omega)]
      rfl
    obtain ⟨t, reply, hplan, hstate, hnone⟩ := updatePolicy_openedState hnext
    have hstep := (run_invariant (updateInputs count)).step_plan hproducer (clockOf 7 1000)
      (.updatePolicy openedState.nextPolicy false)
    rw [show Operation.plan _ _ _ (.updatePolicy openedState.nextPolicy false)
      = updatePolicy _ _ openedState.nextPolicy false from rfl, hplan] at hstep
    have hrun : (memoryRun (updateInputs (count + 1))).1
        = ((memoryRun (updateInputs count)).1.step (.call (clockOf 7 1000)
            (.updatePolicy openedState.nextPolicy false))).2 := by
      rw [hinputs]
      exact congrArg Prod.fst (runTrace_concat ..)
    rw [hrun, hstep]
    refine ⟨congrArg some hstate, ?_⟩
    simp [Plan.applied, MemoryLedgerStore.apply, hnone, hidempotency]

omit [Sha256] in
/-- One revision is left for a batch of two records: the batch is admitted, and the second of the
single calls is refused. -/
theorem run_batch_lastRevision :
    letI := Sha256.fips
    ∃ (inputs : List Input) (state : ProducerState) (clock : ClockReadings) (records : List Bytes),
      (memoryRun inputs).1.producer = some state ∧ state.active = true
        ∧ (reported ((memoryRun inputs).1.step
            (.call clock (.admitBatchIdempotent "pair" records []))).1).isSome
        ∧ ∃ entry ∈ (runTrace World.step (memoryRun inputs).1 (singleCalls clock records)).2,
          entry.2 = some (.error revisionOverflow) := by
  let := Sha256.fips
  obtain ⟨count, hcount⟩ : ∃ count : Nat, count = 2 ^ 64 - 2 := ⟨_, rfl⟩
  obtain ⟨hproducer, hidempotency⟩ := run_updateInputs count (by omega)
  have hlookup : LedgerStore.lookupIdempotency (memoryRun (updateInputs count)).1.store
      = LedgerStore.lookupIdempotency MemoryLedgerStore.empty := by
    funext key
    simp only [LedgerStore.lookupIdempotency, hidempotency]
    rfl
  have hbatch : (reported ((memoryRun (updateInputs count)).1.step (.call (clockOf 7 1000)
      (.admitBatchIdempotent "pair" [sampleRecord, sampleRecord] []))).1).isSome := by
    rw [(run_invariant _).step_plan hproducer, hlookup, hcount]
    decide +kernel
  refine ⟨updateInputs count, openedState.withRevision (UInt64.ofNat count), clockOf 7 1000,
    [sampleRecord, sampleRecord], hproducer, rfl, hbatch, ?_⟩
  obtain ⟨⟨sealed, runs⟩, hreport⟩ := Option.isSome_iff_exists.mp hbatch
  obtain ⟨next, revision, -, -, -, ⟨-, hrefused⟩ | ⟨revision', hrevision', -⟩⟩ :=
    Running.batch hproducer rfl hreport
  · exact hrefused
  · have hlt := revision'.toNat_lt
    have hlast : revision'.toNat = (UInt64.ofNat count).toNat + 2 := hrevision'
    rw [UInt64.toNat_ofNat_of_lt64 (by omega)] at hlast
    omega

end World

end TrackOne
