import TrackOne.Gateway.Limits

/-!
# Properties that every commit keeps

A property of a producer state and its sealed segments that a new ledger has and that every
committed transition keeps holds after every run, on either store (`World.run_kept` here,
`World.postgres_invariant` for the tables).

`RecordsKept` is such a property: every record of the ledger is canonical, and the open interval
counts its bytes. A canonical record is not empty, so that the open records can be counted in 64
bits.
-/

namespace TrackOne

variable [Sha256]

/-- A property of a state and its sealed segments that a new ledger has and every committed
transition keeps. -/
structure KeptByCommits (P : ProducerState → List SealedSegment → Prop) : Prop where
  created : ∀ (config : LedgerConfig) (now : UInt64) (continuityId : BitVec 128),
    P (createdState config now continuityId) []
  commits : ∀ {state : ProducerState} {segments : List SealedSegment}
    {admitted : List (Bytes × UInt64)} {t : LedgerTransition}, P state segments →
    Commits state admitted t → P t.nextState (segments ++ t.sealed)

/-! ## Runs on the in-memory store -/

section

variable {P : ProducerState → List SealedSegment → Prop} {store store' : MemoryLedgerStore}
  {state next : ProducerState} {op : Operation} {plan : Plan} {reply : Reply}
  {accepted : List AcceptedCall}

/-- An executed plan keeps the property. -/
theorem KeptByCommits.execute (hP : KeptByCommits P) (hstore : StoreInvariant store accepted)
    (hstate : store.state = some state) (h : P state store.segments)
    (hplanned : Planned (LedgerStore.lookupIdempotency store) state op plan)
    (hexecute : plan.execute store = (.ok (next, reply), store')) :
    ∀ state', store'.state = some state' → P state' store'.segments := by
  intro state' hstate'
  cases plan with
  | done next' reply' =>
    cases hexecute
    rw [hstate] at hstate'
    cases hstate'
    exact h
  | commit expected t reply' =>
    obtain ⟨-, -, -, -, rfl⟩ := execute_commit hexecute
    obtain ⟨-, admitted, hcommits⟩ := hplanned.of_commit
    rw [hstore.segments_apply hstate hcommits]
    cases hstate'
    exact hP.commits h hcommits

theorem KeptByCommits.step (hP : KeptByCommits P) {w : World MemoryLedgerStore}
    {trace : List (Input × Answer)} (hw : WorldInvariant w trace)
    (h : ∀ state, w.store.state = some state → P state w.store.segments) (input : Input) :
    ∀ state, (w.step input).2.store.state = some state →
      P state (w.step input).2.store.segments := by
  generalize hafter : (w.step input).2 = after
  generalize hanswer : (w.step input).1 = answer
  have hstepped := w.step_stepped input
  rw [hafter, hanswer] at hstepped
  cases hstepped with
  | absent => exact h
  | failed => exact h
  | refused => exact h
  | @called _ _ state _ _ _ _ hproducer hplan hexecute =>
    have hstate := hw.producer state hproducer
    exact hP.execute hw.store hstate (h state hstate) (Operation.plan_planned hplan) hexecute
  | @opened clock config next plan reply store hplan hexecute =>
    rcases openOrCreate_eq_ok hplan with ⟨state, hloaded, -, hreactivate⟩
      | ⟨hloaded, hpolicy, now, rfl⟩
    · have hstate : w.store.state = some state := by
        simpa [LedgerStore.load] using hloaded
      have hplanned : Planned (LedgerStore.lookupIdempotency w.store) state .reactivate plan :=
        reactivate_planned rfl hreactivate
      exact hP.execute hw.store hstate (h state hstate) hplanned hexecute
    · have hnone : w.store.state = none := by
        simpa [LedgerStore.load] using hloaded
      obtain ⟨-, -, rfl, rfl, rfl⟩ := execute_commit hexecute
      -- a ledger that is created is the first one
      have hsegments : (w.store.apply (creation config now clock.reopenContinuityId)).segments
          = [] := by
        have hsealed := (hw.store.of_none hnone).1
        simp [MemoryLedgerStore.segments, MemoryLedgerStore.apply, creation, hsealed]
      intro state hstate
      cases hstate
      rw [hsegments]
      exact hP.created config now clock.reopenContinuityId

end

/-- The property holds after every run. -/
theorem World.run_kept {P : ProducerState → List SealedSegment → Prop} (hP : KeptByCommits P)
    (inputs : List Input) (state : ProducerState)
    (hstate : (memoryRun inputs).1.store.state = some state) :
    P state (memoryRun inputs).1.store.segments := by
  have hrun : WorldInvariant (memoryRun inputs).1 (memoryRun inputs).2
      ∧ ∀ state, (memoryRun inputs).1.store.state = some state →
        P state (memoryRun inputs).1.store.segments := by
    refine runTrace_induction (P := fun (w : World MemoryLedgerStore) trace =>
      WorldInvariant w trace ∧ ∀ state, w.store.state = some state → P state w.store.segments)
      ?_ ?_ inputs
    · exact ⟨run_invariant [], by simp [MemoryLedgerStore.empty]⟩
    · rintro w trace input ⟨hinvariant, hkept⟩
      exact ⟨hinvariant.step input, hP.step hinvariant hkept input⟩
  exact hrun.2 state hstate

/-! ## The records of a ledger -/

omit [Sha256] in
/-- The bytes are a canonical record. -/
def Canonical (record : Bytes) : Prop := ∃ metadata, validateCanonicalRecord record = .ok metadata

omit [Sha256] in
theorem Canonical.length_pos {record : Bytes} (h : Canonical record) : 0 < record.length := by
  apply List.length_pos_of_ne_nil
  rintro rfl
  obtain ⟨metadata, hmetadata⟩ := h
  cases hmetadata

omit [Sha256] in
/-- Every record of the ledger is canonical, and the open interval counts its bytes. -/
structure RecordsKept (state : ProducerState) (segments : List SealedSegment) : Prop where
  openRecords : ∀ record ∈ state.openInterval.records, Canonical record
  sealedRecords : ∀ segment ∈ segments, ∀ record ∈ segment.records, Canonical record
  byteCount : state.openInterval.byteCount.toNat = totalLength state.openInterval.records

theorem RecordsKept.closes {state next : ProducerState} {nextOpenedAtMs : UInt64}
    {reason : CloseReason} {segment : Option SealedSegment} {segments : List SealedSegment}
    (h : RecordsKept state segments) (hcloses : Closes state nextOpenedAtMs reason segment next) :
    RecordsKept next (segments ++ segment.toList) := by
  cases hcloses with
  | skipped => exact ⟨by simp [ProducerState.reopened], by simpa using h.sealedRecords, rfl⟩
  | @sealed segment r number hseals hnumber =>
    refine ⟨by simp [ProducerState.reopened], ?_, rfl⟩
    intro segment' hmem
    rcases List.mem_append.mp hmem with hold | hnew
    · exact h.sealedRecords segment' hold
    · obtain rfl : segment' = segment := by simpa using hnew
      rw [hseals.records]
      exact h.openRecords

theorem RecordsKept.moves {state next : ProducerState} {sealed segments : List SealedSegment}
    {admitted : List (Bytes × UInt64)} (h : RecordsKept state segments)
    (hmoves : Moves state sealed admitted next) : RecordsKept next (segments ++ sealed) := by
  induction hmoves with
  | refl => simpa using h
  | close _ hcloses ih =>
    rw [← List.append_assoc]
    exact ih.closes hcloses
  | @push _ _ _ _ record m _ hpush hvalid ih =>
    obtain ⟨byteCount, hbytes, rfl⟩ := pushRecord_eq_ok hpush
    refine ⟨?_, ih.sealedRecords, ?_⟩
    · intro record' hrecord
      rcases List.mem_append.mp hrecord with hold | hnew
      · exact ih.openRecords record' hold
      · exact List.mem_singleton.mp hnew ▸ ⟨m, hvalid⟩
    · rw [hbytes, ih.byteCount, totalLength_concat]
  | adjust _ hadjusts ih =>
    refine ⟨?_, ih.sealedRecords, ?_⟩
    · rw [hadjusts.records]
      exact ih.openRecords
    · rw [hadjusts.records, hadjusts.byteCount]
      exact ih.byteCount

theorem recordsKept : KeptByCommits RecordsKept where
  created _ _ _ := ⟨by simp [createdState], by simp, rfl⟩
  commits h hcommits := by
    obtain ⟨hopen, hsealed, hbytes⟩ := h.moves hcommits.moves
    exact ⟨hopen, hsealed, hbytes⟩

omit [Sha256] in
/-- The open records can be counted in 64 bits. -/
theorem RecordsKept.length_lt {state : ProducerState} {segments : List SealedSegment}
    (h : RecordsKept state segments) : state.openInterval.records.length < 2 ^ 64 := by
  have hle : state.openInterval.records.length ≤ totalLength state.openInterval.records := by
    have hpos : ∀ record ∈ state.openInterval.records, 0 < record.length :=
      fun record hrecord => (h.openRecords record hrecord).length_pos
    generalize state.openInterval.records = records at hpos
    induction records with
    | nil => simp
    | cons record records ih =>
      obtain ⟨hfirst, hlater⟩ := List.forall_mem_cons.mp hpos
      have hih := ih hlater
      simp only [totalLength, List.map_cons, List.sum_cons, List.length_cons] at hih ⊢
      omega
  have hbytes := state.openInterval.byteCount.toNat_lt
  rw [h.byteCount] at hbytes
  omega

end TrackOne
