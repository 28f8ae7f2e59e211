import TrackOne.Gateway.Runs

/-!
# Which ledgers can be sealed

A producer acknowledges records long before it seals the first segment. What a segment must satisfy
is checked when the interval closes, by `validate_detailed` on the record `construct_segment` built;
what a configuration must satisfy is checked once, by `open_or_create`. This module compares the
two.

* `validateDetailed_atPosition`: a record built from the open interval is valid as soon as the
  policy is, the ledger id is hexadecimal and the interval is not one that is skipped.
* `Sealable` is what a producer state needs so that every closing passes. It survives every move
  (`Sealable.moves`), so no operation of a sealable ledger fails with a construction error
  (`Sealable.plan_failsWith`).
* `open_or_create` asks for 32 bytes of ledger id, not for hexadecimal digits. With an id that has
  32 other bytes the ledger is accepted, takes records, and no segment of it can ever be sealed:
  `World.run_sealable_iff`.
-/

namespace TrackOne

variable [Sha256]

/-! ## The record of an open interval -/

/-- The cardinality and composition checks pass for roots computed from the same records. -/
theorem roots_of_records {records : List Bytes} {limit count : UInt64} {roots : List Digest}
    (hne : records ≠ [])
    (hroots : batchRootsFromLeafHashes (merkleRootFromRecords records).leafHashes limit
      = some roots)
    (hlimit : ClosurePolicy.validateBatchRecordLimit limit = .ok ())
    (hcount : UInt64.ofNat? (merkleRootFromRecords records).leafHashes.length = some count) :
    UInt64.ofNat? roots.length = some (1 + (count - 1) / limit)
      ∧ composeBatchRoots roots count limit = some (merkleRootFromRecords records).root := by
  have hlength := UInt64.ofNat?_eq_some.mp hcount
  have hlt : (merkleRootFromRecords records).leafHashes.length < 2 ^ 64 := by
    rw [← hlength]
    exact count.toNat_lt
  have hleaves : (merkleRootFromRecords records).leafHashes ≠ [] := by
    rwa [ne_eq, leafHashes_eq_nil]
  obtain ⟨roots', hroots', -, hcompose⟩ :=
    composeBatchRoots_batchRootsFromLeafHashes _ limit hleaves hlimit hlt
  rw [hroots] at hroots'
  cases hroots'
  have hofNat : UInt64.ofNat (merkleRootFromRecords records).leafHashes.length = count := by
    rw [← hlength, UInt64.ofNat_toNat]
  rw [hofNat] at hcompose
  refine ⟨?_, hcompose⟩
  -- `compose_batch_roots` makes the cardinality check itself before it composes
  unfold composeBatchRoots at hcompose
  split_ifs at hcompose
  rw [hlimit] at hcompose
  dsimp only at hcompose
  split_ifs at hcompose with hcard
  exact not_not.mp hcard

/-- Nothing to batch: there is no root. -/
theorem roots_of_nil {limit : UInt64} {roots : List Digest}
    (hroots : batchRootsFromLeafHashes (merkleRootFromRecords []).leafHashes limit = some roots) :
    roots = [] := by
  unfold batchRootsFromLeafHashes at hroots
  split at hroots
  · cases hroots
  · simpa [merkleRootFromRecords, SplitTree.chunks] using hroots.symm

omit [Sha256] in
/-- The reasons that seal an interval even when it is empty, by their names in the artifact. -/
theorem asStr_shutdown_or_recovery (reason : CloseReason) :
    (reason.asStr = "shutdown" ∨ reason.asStr = "recovery")
      ↔ (reason = .shutdown ∨ reason = .recovery) := by
  cases reason <;> decide

/-- A record built from an interval that is not skipped is valid. -/
theorem validateDetailed_atPosition (position : SegmentChainPosition) {policy : ClosurePolicy}
    {reason : CloseReason} {records : List Bytes} {count : UInt64} {roots : List Digest}
    (hledger : validHex position.ledgerId 32) (hpolicy : policy.validate = .ok ())
    (hepoch : position.segmentNumber = 0 → position.predecessorSha256 = Digest.zero)
    (hshown : ¬ suppressed records policy reason)
    (hroots : batchRootsFromLeafHashes (merkleRootFromRecords records).leafHashes
      policy.batchRecordLimit = some roots)
    (hcount : UInt64.ofNat? (merkleRootFromRecords records).leafHashes.length = some count) :
    (SegmentRecord.atPosition position policy reason.asStr count roots
      (merkleRootFromRecords records).root).validateDetailed = .ok () := by
  have hlimit := (ClosurePolicy.validate_eq_ok.mp hpolicy).2.1
  have hreason := reason.validCloseReason_asStr
  have hlength := UInt64.ofNat?_eq_some.mp hcount
  rw [length_leafHashes] at hlength
  have hidentity : ¬ (TrackOne.commitmentProfileId ≠ TrackOne.commitmentProfileId
      ∨ policy.validate ≠ .ok () ∨ ¬ validCloseReason reason.asStr) := by
    simp [hpolicy, hreason]
  have hfirst : ¬ (position.segmentNumber = 0 ∧ position.predecessorSha256 ≠ Digest.zero) :=
    fun hzero => hzero.2 (hepoch hzero.1)
  unfold SegmentRecord.validateDetailed SegmentRecord.atPosition
  dsimp only
  rw [if_neg (not_not.mpr hledger), if_neg hidentity, if_neg hfirst]
  by_cases hempty : records = []
  · -- an empty interval that is sealed was emitted, or closed by shutdown or recovery
    subst hempty
    have hzero : count = 0 := UInt64.toNat_inj.mp hlength
    have hmode : policy.emptyMode = .emit ∨ reason = .shutdown ∨ reason = .recovery := by
      cases hmode : policy.emptyMode with
      | emit => exact .inl rfl
      | suppress => simpa [suppressed, hmode, or_iff_not_imp_left] using hshown
    rw [if_pos hzero, if_neg]
    rw [asStr_shutdown_or_recovery]
    simp only [roots_of_nil hroots, merkleRootFromRecords, mth, not_or, not_and, not_not]
    exact ⟨by simp, by simp, fun hne => (hmode.resolve_left hne).resolve_left⟩
  · have hnonzero : count ≠ 0 := by
      rintro rfl
      exact hempty (List.length_eq_zero_iff.mp hlength.symm)
    obtain ⟨hcard, hcompose⟩ := roots_of_records hempty hroots hlimit hcount
    rw [if_neg hnonzero, if_neg (not_not.mpr hcard), if_neg (not_not.mpr hcompose)]

/-- A record that is valid at its position is constructed. -/
theorem newAtPosition_of_valid {position : SegmentChainPosition} {policy : ClosurePolicy}
    {reason : String} {count : UInt64} {roots : List Digest} {root : Digest}
    (h : (SegmentRecord.atPosition position policy reason count roots root).validateDetailed
      = .ok ()) :
    SegmentRecord.newAtPosition position policy reason count roots root
      = .ok (SegmentRecord.atPosition position policy reason count roots root) := by
  simp only [SegmentRecord.newAtPosition, h]
  rfl

/-! ## States whose intervals can be sealed -/

/-- What a producer state needs so that every closing of an interval passes its checks. -/
structure Sealable (state : ProducerState) : Prop where
  policies : PoliciesValid state
  ledgerId : validHex state.ledgerId 32
  chained : ∃ segments, Chained state segments

/-- What can be sealed can be after any closures and admissions. -/
theorem Sealable.moves {state next : ProducerState} {sealed : List SealedSegment}
    {admitted : List (Bytes × UInt64)} (h : Sealable state)
    (hmoves : Moves state sealed admitted next) : Sealable next := by
  obtain ⟨segments, hchained⟩ := h.chained
  refine ⟨hmoves.policies h.policies, ?_, segments ++ sealed, hmoves.chained hchained⟩
  rw [hmoves.identity.2.1]
  exact h.ledgerId

/-- The artifact a producer continues decodes to the record before the next serial. -/
theorem Chained.predecessor {state : ProducerState} {segments : List SealedSegment}
    (h : Chained state segments) {predecessor : Bytes}
    (hpredecessor : state.predecessorCbor = some predecessor) :
    ∃ p, decodeSegmentRecord predecessor = .ok p ∧ p.ledgerId = state.ledgerId
      ∧ state.nextSegmentNumber.toNat = p.segmentNumber.toNat + 1 := by
  rw [h.predecessorCbor, lastArtifact, Option.map_eq_some_iff] at hpredecessor
  obtain ⟨segment, hsegment, rfl⟩ := hpredecessor
  rw [List.getLast?_eq_getElem?] at hsegment
  obtain ⟨p, hp⟩ := h.chain _ segment hsegment
  have hlength : segments.length - 1 < segments.length := (List.getElem?_eq_some_iff.mp hsegment).1
  refine ⟨p, hp.decoded, hp.ledgerId, ?_⟩
  rw [hp.number, h.nextSegmentNumber]
  omega

/-- The next record of a sealable state can be built, and has the next serial. -/
theorem Sealable.nextSegmentRecord {state : ProducerState} {policy : ClosurePolicy}
    {reason : CloseReason} {records : List Bytes} {count : UInt64} {roots : List Digest}
    (h : Sealable state) (hpolicy : policy.validate = .ok ())
    (hshown : ¬ suppressed records policy reason)
    (hroots : batchRootsFromLeafHashes (merkleRootFromRecords records).leafHashes
      policy.batchRecordLimit = some roots)
    (hcount : UInt64.ofNat? (merkleRootFromRecords records).leafHashes.length = some count) :
    ∃ r, nextSegmentRecord state policy reason count roots (merkleRootFromRecords records).root
        = .ok r
      ∧ r.validateDetailed = .ok () ∧ r.segmentNumber = state.nextSegmentNumber := by
  obtain ⟨segments, hchained⟩ := h.chained
  unfold TrackOne.nextSegmentRecord
  cases hpred : state.predecessorCbor with
  | none =>
    -- the first segment of the chain
    have hzero : state.nextSegmentNumber = 0 := by
      have hlast := hchained.predecessorCbor
      rw [hpred, eq_comm, lastArtifact, Option.map_eq_none_iff, List.getLast?_eq_none_iff] at hlast
      have hnumber := hchained.nextSegmentNumber
      rw [hlast, List.length_nil] at hnumber
      exact UInt64.toNat_inj.mp hnumber
    have hvalid := validateDetailed_atPosition ⟨state.ledgerId, 0, Digest.zero⟩ h.ledgerId hpolicy
      (fun _ => rfl) hshown hroots hcount
    exact ⟨_, newAtPosition_of_valid hvalid, hvalid, hzero.symm⟩
  | some predecessor =>
    obtain ⟨p, hp, hledger, hnumber⟩ := hchained.predecessor hpred
    have hnext : p.segmentNumber.checkedAdd 1 = some state.nextSegmentNumber :=
      UInt64.checkedAdd_eq_some.mpr hnumber
    have hepoch : state.nextSegmentNumber = 0 → sha256Digest predecessor = Digest.zero := by
      intro hzero
      rw [hzero] at hnumber
      simp at hnumber
    have hvalid := validateDetailed_atPosition
      ⟨p.ledgerId, state.nextSegmentNumber, sha256Digest predecessor⟩
      (by rw [hledger]; exact h.ledgerId) hpolicy hepoch hshown hroots hcount
    refine ⟨_, ?_, hvalid, rfl⟩
    dsimp only
    rw [SegmentRecord.newSuccessor_eq_newAtPosition (decodeSegmentRecord_eq_ok.mp hp), hnext]
    exact newAtPosition_of_valid hvalid

/-- What can be sealed can be in its next interval. -/
theorem Sealable.reopened {state : ProducerState} (h : Sealable state) (nextOpenedAtMs : UInt64) :
    Sealable (state.reopened nextOpenedAtMs) := by
  obtain ⟨segments, hchained⟩ := h.chained
  exact ⟨⟨h.policies.nextPolicy, h.policies.nextPolicy⟩, h.ledgerId, segments,
    ⟨hchained.chain, hchained.nextSegmentNumber, hchained.predecessorCbor⟩⟩

/-- An interval of a sealable state is closed, as long as its records can be counted and there is a
serial for the segment. -/
theorem Sealable.constructSegment_ok {state : ProducerState} (h : Sealable state)
    (nextOpenedAtMs : UInt64) (reason : CloseReason)
    (hlength : state.openInterval.records.length < 2 ^ 64)
    (hserial : ¬ suppressed state.openInterval.records state.openInterval.policy reason →
      state.nextSegmentNumber.toNat + 1 < 2 ^ 64) :
    ∃ segment next, constructSegment state nextOpenedAtMs reason = .ok (segment, next) := by
  simp only [constructSegment]
  split_ifs with hsuppressed
  · exact ⟨_, _, rfl⟩
  · have hnext := hserial hsuppressed
    obtain ⟨-, hlimit, -, -⟩ := ClosurePolicy.validate_eq_ok.mp h.policies.openPolicy
    obtain ⟨roots, hroots⟩ : ∃ roots, batchRootsFromLeafHashes
        (merkleRootFromRecords state.openInterval.records).leafHashes
        state.openInterval.policy.batchRecordLimit = some roots := by
      unfold batchRootsFromLeafHashes
      rw [hlimit]
      exact ⟨_, rfl⟩
    have hcount := UInt64.ofNat?_of_lt
      (n := (merkleRootFromRecords state.openInterval.records).leafHashes.length)
      (by rw [length_leafHashes]; exact hlength)
    obtain ⟨r, hr, hvalid, hnumber⟩ := (h.reopened nextOpenedAtMs).nextSegmentRecord
      h.policies.openPolicy hsuppressed hroots hcount
    have hbytes : r.canonicalCborBytes = .ok r.cborBody :=
      SegmentRecord.canonicalCborBytes_eq_ok.mpr ⟨hvalid, rfl⟩
    have hlast : state.nextSegmentNumber ≠ UInt64.ofNat (2 ^ 64 - 1) := by
      intro hmax
      rw [hmax] at hnext
      exact absurd hnext (by decide)
    have hserial' : state.nextSegmentNumber.checkedAdd 1 = some (state.nextSegmentNumber + 1) := by
      rw [UInt64.checkedAdd_eq_some, UInt64.toNat_add]
      exact Nat.mod_eq_of_lt hnext
    simp only [Except.bind_eq_ok, Except.require_eq_ok, Except.ofOption_eq_ok,
      Except.mapError_eq_ok, decide_eq_true_eq]
    exact ⟨_, _, (), fun hmax => hlast hmax.1, roots, hroots, _, hcount, r, hr, (), hnumber,
      r.cborBody, hbytes, _, hserial', rfl⟩

/-! ## No construction error -/

omit [Sha256] in
/-- The error is not `Construction`. -/
def NotConstruction (error : ProducerError) : Prop := ∀ message, error ≠ .construction message

variable {state : ProducerState}

/-- The open interval can be sealed: its segment is constructed. -/
theorem Sealable.constructSegment_failsWith (h : Sealable state) (nextOpenedAtMs : UInt64)
    (reason : CloseReason) :
    Except.FailsWith NotConstruction (constructSegment state nextOpenedAtMs reason) := by
  simp only [constructSegment]
  split_ifs with hsuppressed
  · exact Except.failsWith_ok _
  · have hreopened := h.reopened nextOpenedAtMs
    refine (Except.failsWith_require (by simp [NotConstruction]) _).bind fun _ _ => ?_
    refine (Except.failsWith_ofOption (by simp [NotConstruction]) _).bind fun roots hroots => ?_
    refine (Except.failsWith_ofOption (by simp [NotConstruction]) _).bind fun count hcount => ?_
    rw [Except.ofOption_eq_ok] at hroots hcount
    obtain ⟨r, hr, hvalid, -⟩ :=
      hreopened.nextSegmentRecord h.policies.openPolicy hsuppressed hroots hcount
    rw [hr]
    refine Except.FailsWith.bind (Except.failsWith_ok r) fun r' hr' => ?_
    cases hr'
    refine (Except.failsWith_require (by simp [NotConstruction]) _).bind fun _ _ => ?_
    have hbytes : r.canonicalCborBytes = .ok r.cborBody :=
      SegmentRecord.canonicalCborBytes_eq_ok.mpr ⟨hvalid, rfl⟩
    rw [hbytes]
    refine Except.FailsWith.bind (Except.failsWith_ok r.cborBody) fun _ _ => ?_
    refine (Except.failsWith_ofOption (by simp [NotConstruction]) _).bind fun _ _ => ?_
    exact Except.failsWith_ok _

/-- Every expired interval can be sealed, one after the other. -/
theorem Sealable.closeExpiredLoop_failsWith {now : UInt64} {fuel : Nat} (h : Sealable state) :
    Except.FailsWith NotConstruction (closeExpiredLoop now fuel state) := by
  induction fuel generalizing state with
  | zero => exact Except.failsWith_error (by simp [NotConstruction])
  | succ fuel ih =>
    refine (Except.failsWith_ofOption (by simp [NotConstruction]) _).bind fun elapsed _ => ?_
    split_ifs with hwithin
    · exact Except.failsWith_ok _
    · refine (Except.failsWith_ofOption (by simp [NotConstruction]) _).bind fun boundary _ => ?_
      refine (h.constructSegment_failsWith boundary .interval).bind fun result hclose => ?_
      have hnext := h.moves (Moves.refl.close (constructSegment_closes hclose))
      exact (ih hnext).bind fun _ _ => Except.failsWith_ok _

omit [Sha256] in
/-- Taking a record constructs nothing. -/
theorem pushRecord_failsWith (record : Bytes) :
    Except.FailsWith NotConstruction (pushRecord state record) := by
  refine (Except.failsWith_ofOption (by simp [NotConstruction]) _).bind fun length _ => ?_
  refine (Except.failsWith_ofOption (by simp [NotConstruction]) _).bind fun byteCount _ => ?_
  exact Except.failsWith_ok _

/-- A full interval can be sealed. -/
theorem Sealable.closeAtLimit_failsWith {now : UInt64} (h : Sealable state) :
    Except.FailsWith NotConstruction (closeAtLimit state now) := by
  unfold closeAtLimit
  split
  · exact Except.failsWith_ok _
  · exact h.constructSegment_failsWith now _

/-- Once a full interval is closed the next one can be sealed. -/
theorem Sealable.closeAtLimit {now : UInt64} {next : ProducerState} {segment : Option SealedSegment}
    (h : Sealable state) (hclose : closeAtLimit state now = .ok (segment, next)) :
    Sealable next := by
  unfold TrackOne.closeAtLimit at hclose
  split at hclose
  · cases hclose
    exact h
  · exact h.moves (Moves.refl.close (constructSegment_closes hclose))

/-- An interval can be sealed with one record more. -/
theorem Sealable.pushRecord {record : Bytes} {next : ProducerState} (h : Sealable state)
    (hpush : pushRecord state record = .ok next) : Sealable next := by
  obtain ⟨byteCount, -, rfl⟩ := pushRecord_eq_ok hpush
  obtain ⟨segments, hchained⟩ := h.chained
  exact ⟨⟨h.policies.openPolicy, h.policies.nextPolicy⟩, h.ledgerId, segments,
    ⟨hchained.chain, hchained.nextSegmentNumber, hchained.predecessorCbor⟩⟩

/-- Every segment that an admission closes can be sealed. -/
theorem Sealable.admitRecords_failsWith {now : UInt64} {records : List Bytes}
    (h : Sealable state) : Except.FailsWith NotConstruction (admitRecords now records state) := by
  induction records generalizing state with
  | nil => exact Except.failsWith_ok _
  | cons record records ih =>
    refine (pushRecord_failsWith record).bind fun pushed hpush => ?_
    have hpushed := h.pushRecord hpush
    refine hpushed.closeAtLimit_failsWith.bind fun result hclose => ?_
    exact (ih (hpushed.closeAtLimit hclose)).bind fun _ _ => Except.failsWith_ok _

/-! ## The operations -/

omit [Sha256] in
/-- The runs of an admission construct nothing. -/
theorem admissionRuns_failsWith (numbers : List UInt64) :
    Except.FailsWith NotConstruction (admissionRuns numbers) := by
  refine Except.failsWith_foldlM (fun runs number => ?_) numbers []
  unfold admissionRunsStep
  split
  · split_ifs
    · refine (Except.failsWith_ofOption (by simp [NotConstruction]) _).bind fun _ _ => ?_
      exact Except.failsWith_ok _
    · exact Except.failsWith_ok _
  · exact Except.failsWith_ok _

omit [Sha256] in
/-- The deltas of an admission construct nothing. -/
theorem recordDeltasLoop_failsWith (sealedNumbers : List UInt64) (entries : List (Bytes × UInt64))
    (sealedOrdinals : Std.ExtTreeMap UInt64 UInt64 compare) (openOrdinal : UInt64) :
    Except.FailsWith NotConstruction
      (recordDeltasLoop sealedNumbers entries sealedOrdinals openOrdinal) := by
  induction entries generalizing sealedOrdinals openOrdinal with
  | nil => exact Except.failsWith_ok _
  | cons entry entries ih =>
    have hfirst : Except.FailsWith NotConstruction
        (recordDelta sealedNumbers entry.1 entry.2 sealedOrdinals openOrdinal) := by
      unfold recordDelta
      split_ifs
      · refine (Except.failsWith_ofOption (by simp [NotConstruction]) _).bind fun _ _ => ?_
        exact Except.failsWith_ok _
      · refine (Except.failsWith_ofOption (by simp [NotConstruction]) _).bind fun _ _ => ?_
        exact Except.failsWith_ok _
    refine hfirst.bind fun result _ => ?_
    exact (ih result.2.1 result.2.2).bind fun _ _ => Except.failsWith_ok _

omit [Sha256] in
/-- The deltas of an admission construct nothing. -/
theorem recordDeltas_failsWith (previous next : ProducerState) (sealed : List SealedSegment)
    (records : List Bytes) (numbers : List UInt64) :
    Except.FailsWith NotConstruction (recordDeltas previous next sealed records numbers) := by
  have hstart : Except.FailsWith NotConstruction (startOrdinals previous sealed) := by
    unfold startOrdinals
    dsimp only
    split_ifs
    · refine (Except.failsWith_ofOption (by simp [NotConstruction]) _).bind fun _ _ => ?_
      exact Except.failsWith_ok _
    · exact Except.failsWith_ok _
  refine hstart.bind fun _ _ => ?_
  refine (Except.failsWith_require (by simp [NotConstruction]) _).bind fun _ _ => ?_
  refine (Except.failsWith_ofOption (by simp [NotConstruction]) _).bind fun _ _ => ?_
  exact recordDeltasLoop_failsWith _ _ _ _

omit [Sha256] in
/-- A record that is refused is no failed construction. -/
theorem validateRecords_failsWith (index : Nat) (records : List Bytes) :
    Except.FailsWith NotConstruction (validateRecords index records) := by
  induction records generalizing index with
  | nil => exact Except.failsWith_ok _
  | cons record records ih =>
    refine (Except.failsWith_mapError (by simp [NotConstruction]) _).bind fun _ _ => ?_
    exact ih (index + 1)

omit [Sha256] in
/-- A revision that runs out is no failed construction. -/
theorem prepareCommit_failsWith (next : ProducerState) (sealed : List SealedSegment)
    (admission : Option IdempotencyRecord) (deltas : List AdmittedRecordDelta)
    (reply : UInt64 → Reply) :
    Except.FailsWith NotConstruction
      (prepareCommit state next sealed admission deltas reply) := by
  refine (Except.failsWith_ofOption (by simp [NotConstruction]) _).bind fun _ _ => ?_
  refine (Except.failsWith_ofOption (by simp [NotConstruction]) _).bind fun _ _ => ?_
  exact Except.failsWith_ok _

omit [Sha256] in
/-- The record of an admission constructs nothing. -/
theorem admissionRecord_failsWith (next : ProducerState) (sealed : List SealedSegment)
    (numbers : List UInt64) (request : Option (String × String)) :
    Except.FailsWith NotConstruction (admissionRecord next sealed numbers request) := by
  cases request with
  | none => exact Except.failsWith_ok _
  | some request =>
    refine (Except.failsWith_ofOption (by simp [NotConstruction]) _).bind fun _ _ => ?_
    exact Except.failsWith_ok _

/-- What an `ElapsedClock` fails with: `SystemElapsedClock` has no other error. -/
def ClockReadings.FailsAsClock (clock : ClockReadings) : Prop :=
  Except.FailsWith (fun error => ∃ message, error = ProducerError.clock message) clock.nowMs

variable {clock : ClockReadings}

omit [Sha256] in
/-- A clock that fails is no failed construction. -/
theorem ClockReadings.FailsAsClock.failsWith (h : clock.FailsAsClock) :
    Except.FailsWith NotConstruction clock.nowMs := by
  intro error herror message
  obtain ⟨clockMessage, rfl⟩ := h error herror
  simp

omit [Sha256] in
/-- A clock that runs backwards is no failed construction. -/
theorem safeNow_failsWith (hclock : clock.FailsAsClock) :
    Except.FailsWith NotConstruction (safeNow state clock) := by
  refine (Except.failsWith_require (by simp [NotConstruction]) _).bind fun _ _ => ?_
  refine hclock.failsWith.bind fun _ _ => ?_
  refine (Except.failsWith_require (by simp [NotConstruction]) _).bind fun _ _ => ?_
  exact Except.failsWith_ok _

/-- The closure that a transition makes can be sealed. -/
theorem Sealable.transition_failsWith (h : Sealable state) (now : UInt64) (reason : CloseReason)
    (replacementPolicy : Option ClosurePolicy) :
    Except.FailsWith NotConstruction (transition state clock now reason replacementPolicy) := by
  refine (Except.failsWith_require (by simp [NotConstruction]) _).bind fun _ _ => ?_
  refine (h.constructSegment_failsWith now reason).bind fun _ _ => ?_
  exact prepareCommit_failsWith _ _ _ _ _

omit [Sha256] in
/-- A reactivation constructs nothing. -/
theorem reactivate_failsWith (hclock : clock.FailsAsClock) :
    Except.FailsWith NotConstruction (reactivate state clock) := by
  unfold reactivate
  split_ifs
  · exact Except.failsWith_ok _
  · refine hclock.failsWith.bind fun _ _ => ?_
    exact prepareCommit_failsWith _ _ _ _ _

/-- Every segment that a batch closes can be sealed. -/
theorem Sealable.admitBatchInner_failsWith (h : Sealable state) (hclock : clock.FailsAsClock)
    (records : List Bytes) (request : Option (String × String)) :
    Except.FailsWith NotConstruction (admitBatchInner state clock records request) := by
  refine (Except.failsWith_require (by simp [NotConstruction]) _).bind fun _ _ => ?_
  refine (Except.failsWith_require (by simp [NotConstruction]) _).bind fun _ _ => ?_
  refine (validateRecords_failsWith 0 records).bind fun _ _ => ?_
  refine (safeNow_failsWith hclock).bind fun now _ => ?_
  refine h.closeExpiredLoop_failsWith.bind fun expired hexpired => ?_
  have hnext := h.moves (closeExpired_moves hexpired)
  refine hnext.admitRecords_failsWith.bind fun result _ => ?_
  refine (admissionRuns_failsWith _).bind fun _ _ => ?_
  refine (Except.failsWith_ofOption (by simp [NotConstruction]) _).bind fun _ _ => ?_
  refine (recordDeltas_failsWith _ _ _ _ _).bind fun _ _ => ?_
  refine (admissionRecord_failsWith _ _ _ _).bind fun _ _ => ?_
  exact prepareCommit_failsWith _ _ _ _ _

/-- A replay constructs nothing, and a new request what its batch does. -/
theorem Sealable.admitBatchIdempotentDigest_failsWith
    {lookup : String → Except ProducerError (Option IdempotencyRecord)} (h : Sealable state)
    (hclock : clock.FailsAsClock) (hlookup : ∀ key, Except.FailsWith NotConstruction (lookup key))
    (key : String) (records : List Bytes) (digest : String) :
    Except.FailsWith NotConstruction
      (admitBatchIdempotentDigest lookup state clock key records digest) := by
  refine (Except.failsWith_require (by simp [NotConstruction]) _).bind fun _ _ => ?_
  refine (hlookup key).bind fun existing _ => ?_
  cases existing with
  | none => exact h.admitBatchInner_failsWith hclock records _
  | some existing =>
    dsimp only
    split_ifs
    · exact Except.failsWith_error (by simp [NotConstruction])
    · have hreplay : Except.FailsWith NotConstruction (replayedOutcome existing) := by
        refine (admissionRuns_failsWith _).bind fun _ _ => ?_
        refine (Except.failsWith_ofOption (by simp [NotConstruction]) _).bind fun _ _ => ?_
        exact Except.failsWith_ok _
      exact hreplay.bind fun _ _ => Except.failsWith_ok _

/-- No operation of a sealable ledger fails with a construction error. -/
theorem Sealable.plan_failsWith
    {lookup : String → Except ProducerError (Option IdempotencyRecord)} (h : Sealable state)
    (hclock : clock.FailsAsClock) (hlookup : ∀ key, Except.FailsWith NotConstruction (lookup key))
    (op : Operation) : Except.FailsWith NotConstruction (op.plan lookup state clock) := by
  cases op with
  -- an admission fails for its records, its key or its clock
  | admitRecord record => exact h.admitBatchInner_failsWith hclock [record] none
  | admitIdempotent key record =>
    refine (Except.failsWith_require (by simp [NotConstruction]) _).bind fun _ _ => ?_
    exact h.admitBatchIdempotentDigest_failsWith hclock hlookup key [record] _
  | admitBatchIdempotent key records canonicalEnvelope =>
    exact h.admitBatchIdempotentDigest_failsWith hclock hlookup key records _
  -- so does a closing
  | close reason =>
    refine (safeNow_failsWith hclock).bind fun now _ => ?_
    exact h.transition_failsWith now reason none
  | updatePolicy policy immediate =>
    refine (Except.failsWith_mapError (by simp [NotConstruction]) _).bind fun _ _ => ?_
    refine (safeNow_failsWith hclock).bind fun now _ => ?_
    split_ifs
    · exact h.transition_failsWith now .reconfigure (some policy)
    · exact prepareCommit_failsWith _ _ _ _ _
  | recover =>
    refine (Except.failsWith_require (by simp [NotConstruction]) _).bind fun _ _ => ?_
    refine hclock.failsWith.bind fun now _ => ?_
    exact h.transition_failsWith now .recovery none
  | reactivate => exact reactivate_failsWith hclock
  | sealExpiredIntervals =>
    refine (safeNow_failsWith hclock).bind fun now _ => ?_
    split_ifs
    · exact Except.failsWith_ok _
    · refine h.closeExpiredLoop_failsWith.bind fun result _ => ?_
      dsimp only
      split_ifs
      · exact prepareCommit_failsWith _ _ _ _ _
      · exact Except.failsWith_ok _

omit [Sha256] in
/-- Opening a ledger constructs nothing. -/
theorem openOrCreate_failsWith {store : MemoryLedgerStore} (hclock : clock.FailsAsClock)
    (config : LedgerConfig) :
    Except.FailsWith NotConstruction (openOrCreate (LedgerStore.load store) clock config) := by
  refine (Except.failsWith_mapError (by simp [NotConstruction]) _).bind fun _ _ => ?_
  refine (Except.failsWith_require (by simp [NotConstruction]) _).bind fun _ _ => ?_
  refine Except.FailsWith.bind (Except.failsWith_ok store.state) fun stored _ => ?_
  cases stored with
  | none => exact hclock.failsWith.bind fun _ _ => Except.failsWith_ok _
  | some state =>
    refine (Except.failsWith_mapError (by simp [NotConstruction]) _).bind fun _ _ => ?_
    refine (Except.failsWith_mapError (by simp [NotConstruction]) _).bind fun _ _ => ?_
    refine (Except.failsWith_require (by simp [NotConstruction]) _).bind fun _ _ => ?_
    split_ifs
    · exact Except.failsWith_ok _
    · exact reactivate_failsWith hclock

/-! ## Runs -/

omit [Sha256] in
/-- The clock an input is handled with. -/
def Input.readings : Input → ClockReadings
  | .call clock _ => clock
  | .restart clock _ => clock

omit [Sha256] in
/-- The in-memory store refuses with one error only. -/
theorem executePlan_failsWith {store : MemoryLedgerStore} {plan : Except ProducerError Plan}
    (h : Except.FailsWith NotConstruction plan) :
    Except.FailsWith NotConstruction (executePlan store plan).1 := by
  cases plan with
  | error error => exact Except.failsWith_error (h error rfl)
  | ok plan =>
    cases plan with
    | done state reply => exact Except.failsWith_ok _
    | commit expected t reply =>
      simp only [executePlan, Plan.execute, LedgerStore.compareAndSwap]
      rcases compareAndSwap_cases store expected t with hcas | ⟨hcas, -, -⟩
      · rw [hcas]
        exact Except.failsWith_error (by simp [NotConstruction])
      · rw [hcas]
        exact Except.failsWith_ok _

omit [Sha256] in
/-- What cannot fail to construct is not answered as if it had. -/
theorem settle_ne_construction {S : Type} {before : Option ProducerState}
    {result : Except ProducerError (ProducerState × Reply) × S}
    (h : Except.FailsWith NotConstruction result.1) (message : String) :
    (World.settle before result).1 ≠ some (.error (.construction message)) := by
  obtain ⟨answer, store⟩ := result
  cases answer with
  | ok r => simp [World.settle]
  | error error =>
    have hne := h error rfl message
    simpa [World.settle] using hne

omit [Sha256] in
/-- Every successful opening of the trace was for a ledger with a hexadecimal id. -/
def OpenedHex (trace : List (Input × Answer)) : Prop :=
  ∀ clock config reply, (Input.restart clock config, some (.ok reply)) ∈ trace →
    validHex config.ledgerId 32

omit [Sha256] in
/-- All successful openings of a run are for one ledger. -/
theorem Opened.same_ledger {store : MemoryLedgerStore} {trace : List (Input × Answer)}
    {clock clock' : ClockReadings} {config config' : LedgerConfig} {reply reply' : Reply}
    (h : Opened store trace) (hin : (Input.restart clock config, some (.ok reply)) ∈ trace)
    (hin' : (Input.restart clock' config', some (.ok reply')) ∈ trace) :
    config'.ledgerId = config.ledgerId := by
  unfold Opened at h
  cases hstate : store.state with
  | none =>
    rw [hstate] at h
    exact absurd hin (h clock config reply)
  | some state =>
    rw [hstate] at h
    rw [h.configured clock config reply hin, h.configured clock' config' reply' hin']

/-- The producer of a reachable world can seal its open interval. -/
theorem WorldInvariant.sealable {w : World MemoryLedgerStore} {trace : List (Input × Answer)}
    (h : WorldInvariant w trace) (hhex : OpenedHex trace)
    (hproducer : w.producer = some state) : Sealable state := by
  have hstate := h.producer state hproducer
  obtain ⟨segments, -, hledger, -⟩ := h.store.of_state hstate
  have hopened := h.opened
  simp only [Opened, hstate] at hopened
  obtain ⟨clock, config, reply, hin⟩ := hopened.opened
  refine ⟨hledger.policies, ?_, segments, hledger.chained⟩
  rw [← hopened.configured clock config reply hin]
  exact hhex clock config reply hin

/-- A step of a run never ends in a construction error if the ledger id is hexadecimal. -/
theorem WorldInvariant.step_ne_construction {w : World MemoryLedgerStore}
    {trace : List (Input × Answer)} (h : WorldInvariant w trace) (hhex : OpenedHex trace)
    {input : Input} (hclock : input.readings.FailsAsClock) (message : String) :
    (w.step input).1 ≠ some (.error (.construction message)) := by
  cases input with
  | restart clock config =>
    exact settle_ne_construction
      (executePlan_failsWith (openOrCreate_failsWith hclock config)) message
  | call clock op =>
    unfold World.step
    cases hproducer : w.producer with
    | none => simp
    | some state =>
      have hsealable := h.sealable hhex hproducer
      have hlookup : ∀ key, Except.FailsWith NotConstruction
          (LedgerStore.lookupIdempotency w.store key) := fun key => Except.failsWith_ok _
      exact settle_ne_construction
        (executePlan_failsWith (hsealable.plan_failsWith hclock hlookup op)) message

namespace World

/-- With hexadecimal ids, and clocks that fail as clocks do, no answer is a construction error. -/
def ConstructionFree (trace : List (Input × Answer)) : Prop :=
  OpenedHex trace →
  (∀ entry ∈ trace, (∃ reply, entry.2 = some (.ok reply)) ∨ entry.1.readings.FailsAsClock) →
  ∀ entry ∈ trace, ∀ message, entry.2 ≠ some (.error (.construction message))

/-- The run lemma, along the invariant of the ledger. -/
theorem run_constructionFree (inputs : List Input) : ConstructionFree (memoryRun inputs).2 := by
  have hrun : WorldInvariant (memoryRun inputs).1 (memoryRun inputs).2
      ∧ ConstructionFree (memoryRun inputs).2 := by
    refine runTrace_induction (P := fun w trace => WorldInvariant w trace ∧ ConstructionFree trace)
      ⟨run_invariant [], by simp [ConstructionFree]⟩ ?_ inputs
    rintro w trace input ⟨hinvariant, ih⟩
    refine ⟨hinvariant.step input, ?_⟩
    intro hhex hclock entry hentry message
    have hbefore : OpenedHex trace := fun clock config reply hin =>
      hhex clock config reply (List.mem_append_left _ hin)
    rcases List.mem_append.mp hentry with hold | hnew
    · exact ih hbefore (fun e he => hclock e (List.mem_append_left _ he)) entry hold message
    · -- the new entry: an answer that is a reply is no error at all
      rcases hclock entry hentry with ⟨reply, hreply⟩ | hfails
      · rw [hreply]
        simp
      · rw [List.mem_singleton.mp hnew] at hfails ⊢
        exact hinvariant.step_ne_construction hbefore hfails message
  exact hrun.2

/-- Where a new ledger is opened, it is the one that was configured. -/
theorem step_restart_empty {clock : ClockReadings} {config : LedgerConfig} {reply : Reply}
    (h : (step ⟨MemoryLedgerStore.empty, none⟩ (.restart clock config)).1 = some (.ok reply)) :
    config.policy.validate = .ok ()
      ∧ ∃ now, (step ⟨MemoryLedgerStore.empty, none⟩ (.restart clock config)).2.producer
          = some (createdState config now clock.reopenContinuityId) := by
  have hload : LedgerStore.load MemoryLedgerStore.empty = .ok none := rfl
  simp only [step, hload] at h ⊢
  cases hplan : openOrCreate (.ok none) clock config with
  | error error =>
    rw [hplan] at h
    cases h
  | ok plan =>
    rcases openOrCreate_eq_ok hplan with ⟨state, hstate, -⟩ | ⟨-, hpolicy, now, rfl⟩
    · cases hstate
    · exact ⟨hpolicy, now, rfl⟩

/-- Without hexadecimal digits in the ledger id the first closing fails, whatever was admitted: here
a shutdown right after the opening. -/
theorem close_of_not_validHex {config : LedgerConfig} (now : UInt64) (continuityId : BitVec 128)
    (hpolicy : config.policy.validate = .ok ()) (hhex : ¬ validHex config.ledgerId 32) :
    close (createdState config now continuityId) ⟨.ok now, continuityId, continuityId⟩ .shutdown
      = .error (.construction SegmentInvariantError.segmentHexField.toString) := by
  have hlimit := (ClosurePolicy.validate_eq_ok.mp hpolicy).2.1
  have hnow : safeNow (createdState config now continuityId)
      ⟨.ok now, continuityId, continuityId⟩ = .ok now := by
    simp [safeNow, createdState, Except.require, bind, Except.bind, pure, Except.pure]
  have hinvalid : ∀ roots root, (SegmentRecord.atPosition ⟨config.ledgerId, 0, Digest.zero⟩
      config.policy CloseReason.shutdown.asStr 0 roots root).validateDetailed
        = .error .segmentHexField := by
    intro roots root
    simp only [SegmentRecord.validateDetailed, SegmentRecord.atPosition, if_pos hhex]
  have hconstruct : constructSegment (createdState config now continuityId) now .shutdown
      = .error (.construction SegmentInvariantError.segmentHexField.toString) := by
    simp [constructSegment, suppressed, createdState, ProducerState.reopened, Except.require,
      batchRootsFromLeafHashes, hlimit, Except.ofOption, UInt64.ofNat?, merkleRootFromRecords,
      nextSegmentRecord, SegmentRecord.newEpoch, SegmentRecord.newAtPosition, hinvalid, bind,
      Except.bind, Except.mapError]
    rfl
  simp only [close, hnow, bind, Except.bind, transition, hconstruct]
  rfl

/-- Exactly the ledgers with a hexadecimal id can be sealed. For every configuration that
`open_or_create` accepts on an empty store: no operation of any later run returns a construction
error, and every stored predecessor decodes, if and only if the ledger id is 16 bytes of lowercase
hexadecimal digits. -/
theorem run_sealable_iff (clock : ClockReadings) (config : LedgerConfig) (reply : Reply)
    (hopen : (step ⟨MemoryLedgerStore.empty, none⟩ (.restart clock config)).1 = some (.ok reply)) :
    (∀ inputs : List Input, (∀ input ∈ inputs, input.readings.FailsAsClock) →
      (∀ entry ∈ (memoryRun (.restart clock config :: inputs)).2, ∀ message,
        entry.2 ≠ some (.error (.construction message)))
      ∧ ∀ state predecessor,
        (memoryRun (.restart clock config :: inputs)).1.store.state = some state →
        state.predecessorCbor = some predecessor →
        ∃ r, decodeSegmentRecord predecessor = .ok r)
      ↔ validHex config.ledgerId 32 := by
  have hfirst : ∀ inputs, (memoryRun (.restart clock config :: inputs)).2
      = (.restart clock config, some (.ok reply))
        :: (runTrace step (step ⟨MemoryLedgerStore.empty, none⟩ (.restart clock config)).2
          inputs).2 := by
    intro inputs
    rw [memoryRun, run, runTrace_cons, hopen]
  constructor
  · -- otherwise the first closing of the run fails
    intro hall
    by_contra hhex
    obtain ⟨hpolicy, now, hproducer⟩ := step_restart_empty hopen
    let readings : ClockReadings := ⟨.ok now, clock.reopenContinuityId, clock.reopenContinuityId⟩
    have hclose : close (createdState config now clock.reopenContinuityId) readings .shutdown
        = .error _ := close_of_not_validHex now clock.reopenContinuityId hpolicy hhex
    have hentry : (Input.call readings (.close .shutdown),
        some (.error (.construction SegmentInvariantError.segmentHexField.toString)))
          ∈ (memoryRun [.restart clock config, .call readings (.close .shutdown)]).2 := by
      rw [hfirst, runTrace_cons]
      simp only [step.eq_1, hproducer, Operation.plan, hclose, executePlan, settle]
      simp
    have hreadings : ∀ input ∈ [Input.call readings (.close .shutdown)],
        input.readings.FailsAsClock := by
      simp only [List.mem_singleton, forall_eq]
      exact Except.failsWith_ok now
    exact (hall _ hreadings).1 _ hentry _ rfl
  -- with an id of lowercase digits every segment is a valid record
  · intro hhex inputs hclocks
    have hinvariant := run_invariant (.restart clock config :: inputs)
    have hentry : (Input.restart clock config, some (.ok reply))
        ∈ (memoryRun (.restart clock config :: inputs)).2 := by
      rw [hfirst]
      exact List.mem_cons_self
    have hopened : OpenedHex (memoryRun (.restart clock config :: inputs)).2 := by
      intro clock' config' reply' hin
      rw [hinvariant.opened.same_ledger hentry hin]
      exact hhex
    refine ⟨run_constructionFree _ hopened ?_, ?_⟩
    -- the entries of the run are the opening and the later ones
    · intro entry hin
      rw [hfirst, List.mem_cons] at hin
      rcases hin with rfl | hlater
      · exact .inl ⟨reply, rfl⟩
      · refine .inr (hclocks entry.1 ?_)
        have hmem := List.mem_map_of_mem (f := Prod.fst) hlater
        rwa [map_fst_runTrace] at hmem
    -- the last segment is decoded again as the predecessor
    · intro state predecessor hstate hpredecessor
      obtain ⟨segments, -, hledger, -⟩ := hinvariant.store.of_state hstate
      obtain ⟨r, hr, -⟩ := hledger.chained.predecessor hpredecessor
      exact ⟨r, hr⟩

omit [Sha256] in
/-- A configuration that differs from others in its ledger id only. -/
def configFor (ledgerId : String) : LedgerConfig where
  ledgerId := ledgerId
  siteId := "an-001"
  policy := {
    intervalMs := 100, batchRecordLimit := 2, recordLimit := none, sizeLimitBytes := none
    emptyMode := .emit }

omit [Sha256] in
/-- A ledger with a hexadecimal id, and every run of it. -/
theorem run_sealable_lowercase :
    letI := Sha256.fips
    let opening : Input := .restart ⟨.ok 1000, 7, 7⟩ (configFor "b7a1d5e40c6f438e9a75db27c96f31aa")
    ∀ inputs : List Input, (∀ input ∈ inputs, input.readings.FailsAsClock) →
      ∀ entry ∈ (memoryRun (opening :: inputs)).2, ∀ message,
        entry.2 ≠ some (.error (.construction message)) := by
  let := Sha256.fips
  intro opening inputs hclocks
  have hall := (run_sealable_iff ⟨.ok 1000, 7, 7⟩ (configFor "b7a1d5e40c6f438e9a75db27c96f31aa")
    .unit rfl).mpr (by decide +kernel)
  exact (hall inputs hclocks).1

omit [Sha256] in
/-- The same id in capitals is accepted, a record is acknowledged, and its segment cannot be
sealed. -/
theorem run_uppercase :
    letI := Sha256.fips
    let clock : ClockReadings := ⟨.ok 1000, 7, 7⟩
    let run := memoryRun [
      .restart clock (configFor "B7A1D5E40C6F438E9A75DB27C96F31AA"),
      .call clock (.admitRecord sampleRecord),
      .call clock (.close .manual)]
    run.2.map Prod.snd
      = [some (.ok .unit),
        some (.ok (.admitted {
          stateRevision := 1, admittedSegmentNumber := 0, admittedRecordCount := 1
          admissionRuns := [⟨0, 1⟩], sealed := [], sealedSegmentNumbers := [], replayed :=
            false })),
        some (.error (.construction "segment hex field is invalid"))] := by
  decide +kernel

end World

end TrackOne
