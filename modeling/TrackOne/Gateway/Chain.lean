import TrackOne.Lib.SegLog
import TrackOne.Gateway.Store

/-!
# What an operation does to the ledger

An operation turns the producer state into the one it commits by closing intervals, pushing records
and adjusting clocks and policies. `Closes` says once what closing can do, `Moves` what a whole
operation can do; every invariant of the ledger is proved along `Moves`.

* `Chain` is the invariant of the sealed segments: each one decodes to a record with its number, its
  predecessor's hash and the roots of its records. `Moves.chained` carries it over an operation.
* `Moves.steps` says that the sealed segments and the open interval form a segmented log
  (`SegLog`), and that the operation's records were appended to it at the numbers it reported.
* `closeExpired_eq` unfolds the loop over expired intervals without its bound.
-/

namespace TrackOne

variable [Sha256]

/-! ## Closing an interval -/

/-- The segment that `construct_segment` seals, and the record its artifact decodes to. -/
structure Seals (state : ProducerState) (reason : CloseReason) (sealed : SealedSegment)
    (r : SegmentRecord) : Prop where
  segmentNumber : sealed.segmentNumber = state.nextSegmentNumber
  closeReason : sealed.closeReason = reason
  records : sealed.records = state.openInterval.records
  artifactSha256 : sealed.artifactSha256 = sha256Hex sealed.artifactCbor
  decoded : decodeSegmentRecord sealed.artifactCbor = .ok r
  number : r.segmentNumber = state.nextSegmentNumber
  reason : r.closeReason = reason.asStr
  policy : r.closurePolicy = state.openInterval.policy
  recordCount : r.recordCount.toNat = state.openInterval.records.length
  segmentRoot : r.segmentRoot = (merkleRootFromRecords state.openInterval.records).root
  batchRoots :
    batchRootsFromLeafHashes (merkleRootFromRecords state.openInterval.records).leafHashes
      state.openInterval.policy.batchRecordLimit = some r.batchRoots
  epoch : state.predecessorCbor = none →
    r.ledgerId = state.ledgerId ∧ r.prevSegmentSha256 = Digest.zero
  successor : ∀ predecessor, state.predecessorCbor = some predecessor →
    r.prevSegmentSha256 = sha256Digest predecessor
      ∧ ∃ p, decodeSegmentRecord predecessor = .ok p ∧ r.ledgerId = p.ledgerId

/-- What `construct_segment` can do: skip an empty interval, or seal the open records under the
next serial. -/
inductive Closes (state : ProducerState) (nextOpenedAtMs : UInt64) (reason : CloseReason) :
    Option SealedSegment → ProducerState → Prop where
  | skipped (h : suppressed state.openInterval.records state.openInterval.policy reason) :
      Closes state nextOpenedAtMs reason none (state.reopened nextOpenedAtMs)
  | sealed {sealed : SealedSegment} {r : SegmentRecord} {number : UInt64}
      (h : Seals state reason sealed r) (hnumber : number.toNat
        = state.nextSegmentNumber.toNat + 1) :
      Closes state nextOpenedAtMs reason (some sealed)
        { state.reopened nextOpenedAtMs with
          predecessorCbor := some sealed.artifactCbor, nextSegmentNumber := number }

theorem length_leafHashes (records : List Bytes) :
    (merkleRootFromRecords records).leafHashes.length = records.length := by
  simp [merkleRootFromRecords]

/-- The record that is built sits at the next position of the chain. -/
theorem nextSegmentRecord_eq_ok {state : ProducerState} {policy : ClosurePolicy}
    {reason : CloseReason} {recordCount : UInt64} {batchRoots : List Digest} {root : Digest}
    {r : SegmentRecord}
    (h : nextSegmentRecord state policy reason recordCount batchRoots root = .ok r) :
    r.validateDetailed = .ok () ∧ r.closurePolicy = policy ∧ r.closeReason = reason.asStr
      ∧ r.recordCount = recordCount ∧ r.batchRoots = batchRoots ∧ r.segmentRoot = root
      ∧ (state.predecessorCbor = none →
          r.ledgerId = state.ledgerId ∧ r.prevSegmentSha256 = Digest.zero)
      ∧ ∀ predecessor, state.predecessorCbor = some predecessor →
          r.prevSegmentSha256 = sha256Digest predecessor
            ∧ ∃ p, decodeSegmentRecord predecessor = .ok p ∧ r.ledgerId = p.ledgerId := by
  unfold nextSegmentRecord at h
  cases hpred : state.predecessorCbor with
  | none =>
    rw [hpred] at h
    obtain ⟨hr, hvalid⟩ := SegmentRecord.newAtPosition_eq_ok h
    exact ⟨hvalid, by rw [hr]; rfl, by rw [hr]; rfl, by rw [hr]; rfl, by rw [hr]; rfl,
      by rw [hr]; rfl, fun _ => by rw [hr]; exact ⟨rfl, rfl⟩, by simp⟩
  | some predecessor =>
    rw [hpred] at h
    simp only [SegmentRecord.newSuccessor, Except.bind_eq_ok, Except.mapError_eq_ok,
      Except.ofOption_eq_ok] at h
    obtain ⟨p, hp, number, -, h⟩ := h
    obtain ⟨hr, hvalid⟩ := SegmentRecord.newAtPosition_eq_ok h
    refine ⟨hvalid, by rw [hr]; rfl, by rw [hr]; rfl, by rw [hr]; rfl, by rw [hr]; rfl,
      by rw [hr]; rfl, by simp, ?_⟩
    rintro _ ⟨rfl⟩
    exact ⟨by rw [hr]; rfl, p, hp, by rw [hr]; rfl⟩

/-- Inversion of `construct_segment`. -/
theorem constructSegment_closes {state next : ProducerState} {nextOpenedAtMs : UInt64}
    {reason : CloseReason} {segment : Option SealedSegment}
    (h : constructSegment state nextOpenedAtMs reason = .ok (segment, next)) :
    Closes state nextOpenedAtMs reason segment next := by
  simp only [constructSegment] at h
  split at h
  · next hsuppressed =>
    cases h
    exact .skipped hsuppressed
  · simp only [Except.bind_eq_ok, Except.require_eq_ok, Except.ofOption_eq_ok,
      Except.mapError_eq_ok, decide_eq_true_eq] at h
    obtain ⟨-, -, batchRoots, hroots, recordCount, hcount, r, hr, -, hnumber, artifact, hartifact,
      number, hnext, h⟩ := h
    cases h
    obtain ⟨-, hpolicy, hreason, hrecords, hbatch, hroot, hepoch, hsuccessor⟩ :=
      nextSegmentRecord_eq_ok hr
    refine .sealed (r := r) ?_ (UInt64.checkedAdd_eq_some.mp hnext)
    exact {
      segmentNumber := hnumber
      closeReason := rfl
      records := rfl
      artifactSha256 := rfl
      decoded := decodeSegmentRecord_eq_ok.mpr hartifact
      number := hnumber
      reason := hreason
      policy := hpolicy
      recordCount := by
        rw [hrecords, UInt64.ofNat?_eq_some.mp hcount, length_leafHashes]
      segmentRoot := hroot
      batchRoots := by rw [hbatch]; exact hroots
      epoch := hepoch
      successor := hsuccessor }

/-! ## The chain -/

/-- The hash a segment carries of its predecessor: zeros for the first one. -/
def predecessorHash : Option Bytes → Digest
  | none => Digest.zero
  | some artifact => sha256Digest artifact

/-- A stored segment and the record its artifact decodes to, at the given position of a ledger. -/
structure SegmentAt (ledgerId : String) (predecessor : Option Bytes) (position : Nat)
    (segment : SealedSegment) (r : SegmentRecord) : Prop where
  decoded : decodeSegmentRecord segment.artifactCbor = .ok r
  stored : segment.segmentNumber = r.segmentNumber
  number : r.segmentNumber.toNat = position
  ledgerId : r.ledgerId = ledgerId
  recordCount : r.recordCount.toNat = segment.records.length
  segmentRoot : r.segmentRoot = (merkleRootFromRecords segment.records).root
  batchRoots :
    batchRootsFromLeafHashes (merkleRootFromRecords segment.records).leafHashes
      r.closurePolicy.batchRecordLimit = some r.batchRoots
  prevSegmentSha256 : r.prevSegmentSha256 = predecessorHash predecessor
  artifactSha256 : segment.artifactSha256 = sha256Hex segment.artifactCbor

/-- The artifact of the last of the segments. -/
def lastArtifact (segments : List SealedSegment) : Option Bytes :=
  segments.getLast?.map SealedSegment.artifactCbor

/-- Every segment is at its position, after the artifact of the one before it. -/
def Chain (ledgerId : String) (segments : List SealedSegment) : Prop :=
  ∀ i segment, segments[i]? = some segment →
    ∃ r, SegmentAt ledgerId (lastArtifact (segments.take i)) i segment r

/-- The producer continues the chain of the sealed segments. -/
structure Chained (state : ProducerState) (segments : List SealedSegment) : Prop where
  chain : Chain state.ledgerId segments
  nextSegmentNumber : state.nextSegmentNumber.toNat = segments.length
  predecessorCbor : state.predecessorCbor = lastArtifact segments

theorem Chain.concat {ledgerId : String} {segments : List SealedSegment} {segment : SealedSegment}
    {r : SegmentRecord} (h : Chain ledgerId segments)
    (hlast : SegmentAt ledgerId (lastArtifact segments) segments.length segment r) :
    Chain ledgerId (segments ++ [segment]) := by
  intro i segment' hi
  by_cases hlt : i < segments.length
  · rw [List.getElem?_append_left hlt] at hi
    rw [List.take_append_of_le_length hlt.le]
    exact h i segment' hi
  · have hlen : i < segments.length + 1 := by
      simpa using (List.getElem?_eq_some_iff.mp hi).1
    obtain rfl : i = segments.length := by omega
    simp only [List.getElem?_concat_length, Option.some.injEq] at hi
    subst hi
    exact ⟨r, by simpa using hlast⟩

/-- The number a segment is stored under is its position. -/
theorem Chain.segmentNumber {ledgerId : String} {segments : List SealedSegment} {i : Nat}
    {segment : SealedSegment} (h : Chain ledgerId segments) (hi : segments[i]? = some segment) :
    segment.segmentNumber.toNat = i := by
  obtain ⟨r, hr⟩ := h i segment hi
  rw [hr.stored, hr.number]

/-- The ledger of the artifact the producer continues is its own. -/
theorem Chained.ledgerId_of_predecessor {state : ProducerState} {segments : List SealedSegment}
    (h : Chained state segments) {predecessor : Bytes} {p : SegmentRecord}
    (hpredecessor : state.predecessorCbor = some predecessor)
    (hp : decodeSegmentRecord predecessor = .ok p) : p.ledgerId = state.ledgerId := by
  rw [h.predecessorCbor, lastArtifact, Option.map_eq_some_iff] at hpredecessor
  obtain ⟨segment, hsegment, rfl⟩ := hpredecessor
  rw [List.getLast?_eq_getElem?] at hsegment
  obtain ⟨r, hr⟩ := h.chain _ segment hsegment
  rw [hr.decoded] at hp
  cases hp
  exact hr.ledgerId

/-- Closing an interval extends the chain by the segment it seals, if any. -/
theorem Closes.chained {state next : ProducerState} {nextOpenedAtMs : UInt64}
    {reason : CloseReason} {segment : Option SealedSegment} {segments : List SealedSegment}
    (hcloses : Closes state nextOpenedAtMs reason segment next) (h : Chained state segments) :
    Chained next (segments ++ segment.toList) := by
  cases hcloses with
  | skipped => simpa using ⟨h.chain, h.nextSegmentNumber, h.predecessorCbor⟩
  | @sealed segment r number hseals hnumber =>
    have hledger : r.ledgerId = state.ledgerId := by
      cases hpred : state.predecessorCbor with
      | none => exact (hseals.epoch hpred).1
      | some predecessor =>
        obtain ⟨-, p, hp, hledger⟩ := hseals.successor predecessor hpred
        rw [hledger, h.ledgerId_of_predecessor hpred hp]
    have hprev : r.prevSegmentSha256 = predecessorHash (lastArtifact segments) := by
      rw [← h.predecessorCbor]
      cases hpred : state.predecessorCbor with
      | none => exact (hseals.epoch hpred).2
      | some predecessor => exact (hseals.successor predecessor hpred).1
    have hat : SegmentAt state.ledgerId (lastArtifact segments) segments.length segment r := {
      decoded := hseals.decoded
      stored := by rw [hseals.segmentNumber, hseals.number]
      number := by rw [hseals.number, h.nextSegmentNumber]
      ledgerId := hledger
      recordCount := by rw [hseals.records, hseals.recordCount]
      segmentRoot := by rw [hseals.records, hseals.segmentRoot]
      batchRoots := by rw [hseals.records, hseals.policy, hseals.batchRoots]
      prevSegmentSha256 := hprev
      artifactSha256 := hseals.artifactSha256 }
    exact {
      chain := h.chain.concat hat
      nextSegmentNumber := by simp [hnumber, h.nextSegmentNumber]
      predecessorCbor := by simp [lastArtifact] }

/-! ## What an operation can do -/

omit [Sha256] in
/-- Both policies of a producer state are valid ones. -/
structure PoliciesValid (state : ProducerState) : Prop where
  openPolicy : state.openInterval.policy.validate = .ok ()
  nextPolicy : state.nextPolicy.validate = .ok ()

/-- Only the activity, the clock and the policies change, and valid policies stay valid. -/
structure Adjusts (state next : ProducerState) : Prop where
  revision : next.revision = state.revision
  ledgerId : next.ledgerId = state.ledgerId
  siteId : next.siteId = state.siteId
  nextSegmentNumber : next.nextSegmentNumber = state.nextSegmentNumber
  predecessorCbor : next.predecessorCbor = state.predecessorCbor
  records : next.openInterval.records = state.openInterval.records
  byteCount : next.openInterval.byteCount = state.openInterval.byteCount
  policies : PoliciesValid state → PoliciesValid next

/-- The moves of one operation from `state`: the segments it seals, and the records it admits with
the number of the segment that is open at that time. -/
inductive Moves (state : ProducerState) :
    List SealedSegment → List (Bytes × UInt64) → ProducerState → Prop where
  | refl : Moves state [] [] state
  | close {sealed : List SealedSegment} {admitted : List (Bytes × UInt64)}
      {mid next : ProducerState} {nextOpenedAtMs : UInt64} {reason : CloseReason}
      {segment : Option SealedSegment} (h : Moves state sealed admitted mid)
      (hcloses : Closes mid nextOpenedAtMs reason segment next) :
      Moves state (sealed ++ segment.toList) admitted next
  | push {sealed : List SealedSegment} {admitted : List (Bytes × UInt64)}
      {mid next : ProducerState} {record : Bytes} {m : CanonicalRecordMetadataV1}
      (h : Moves state sealed admitted mid) (hpush : pushRecord mid record = .ok next)
      (hvalid : validateCanonicalRecord record = .ok m) :
      Moves state sealed (admitted ++ [(record, mid.nextSegmentNumber)]) next
  | adjust {sealed : List SealedSegment} {admitted : List (Bytes × UInt64)}
      {mid next : ProducerState} (h : Moves state sealed admitted mid)
      (hadjusts : Adjusts mid next) : Moves state sealed admitted next

omit [Sha256] in
theorem pushRecord_eq_ok {state next : ProducerState} {record : Bytes}
    (h : pushRecord state record = .ok next) :
    ∃ byteCount : UInt64,
      byteCount.toNat = state.openInterval.byteCount.toNat + record.length
      ∧ next = { state with
          openInterval := { state.openInterval with
            byteCount, records := state.openInterval.records ++ [record] } } := by
  simp only [pushRecord, Except.bind_eq_ok, Except.ofOption_eq_ok] at h
  obtain ⟨length, hlength, byteCount, hbytes, h⟩ := h
  cases h
  rw [UInt64.ofNat?_eq_some] at hlength
  rw [UInt64.checkedAdd_eq_some, hlength] at hbytes
  exact ⟨byteCount, hbytes, rfl⟩

namespace Moves

variable {state mid next : ProducerState} {sealed sealed' segments : List SealedSegment}
  {admitted admitted' : List (Bytes × UInt64)}

theorem trans (h : Moves state sealed admitted mid) (h' : Moves mid sealed' admitted' next) :
    Moves state (sealed ++ sealed') (admitted ++ admitted') next := by
  induction h' with
  | refl => simpa using h
  | close _ hcloses ih =>
    rw [← List.append_assoc]
    exact ih.close hcloses
  | push _ hpush hvalid ih =>
    rw [← List.append_assoc]
    exact ih.push hpush hvalid
  | adjust _ hadjusts ih => exact ih.adjust hadjusts

/-- The identity of the ledger and the revision are not touched before the commit. -/
theorem identity (h : Moves state sealed admitted next) :
    next.revision = state.revision ∧ next.ledgerId = state.ledgerId
      ∧ next.siteId = state.siteId := by
  induction h with
  | refl => exact ⟨rfl, rfl, rfl⟩
  | close _ hcloses ih => cases hcloses <;> exact ih
  | push _ hpush _ ih =>
    obtain ⟨byteCount, -, rfl⟩ := pushRecord_eq_ok hpush
    exact ih
  | adjust _ hadjusts ih =>
    rw [hadjusts.revision, hadjusts.ledgerId, hadjusts.siteId]
    exact ih

/-- An interval is closed under a valid policy and reopened under one. -/
theorem policies (h : Moves state sealed admitted next) (hvalid : PoliciesValid state) :
    PoliciesValid next := by
  induction h with
  | refl => exact hvalid
  | close _ hcloses ih => cases hcloses <;> exact ⟨ih.nextPolicy, ih.nextPolicy⟩
  | push _ hpush _ ih =>
    obtain ⟨byteCount, -, rfl⟩ := pushRecord_eq_ok hpush
    exact ⟨ih.openPolicy, ih.nextPolicy⟩
  | adjust _ hadjusts ih => exact hadjusts.policies ih

/-- Only canonical records are admitted. -/
theorem canonical (h : Moves state sealed admitted next) :
    ∀ entry ∈ admitted, ∃ m, validateCanonicalRecord entry.1 = .ok m := by
  induction h with
  | refl => simp
  | close _ _ ih => exact ih
  | @push _ admitted mid next record m _ _ hvalid ih =>
    intro entry hentry
    rcases List.mem_append.mp hentry with hold | hnew
    · exact ih entry hold
    · rw [List.mem_singleton.mp hnew]
      exact ⟨m, hvalid⟩
  | adjust _ _ ih => exact ih

/-- An operation extends the chain by the segments it seals. -/
theorem chained (h : Moves state sealed admitted next) (hchained : Chained state segments) :
    Chained next (segments ++ sealed) := by
  induction h with
  | refl => simpa using hchained
  | close _ hcloses ih =>
    rw [← List.append_assoc]
    exact hcloses.chained ih
  | push _ hpush _ ih =>
    obtain ⟨byteCount, -, rfl⟩ := pushRecord_eq_ok hpush
    exact ⟨ih.chain, ih.nextSegmentNumber, ih.predecessorCbor⟩
  | adjust _ hadjusts ih =>
    refine ⟨?_, ?_, ?_⟩
    · rw [hadjusts.ledgerId]
      exact ih.chain
    · rw [hadjusts.nextSegmentNumber]
      exact ih.nextSegmentNumber
    · rw [hadjusts.predecessorCbor]
      exact ih.predecessorCbor

end Moves

/-! ## The ledger as a segmented log -/

omit [Sha256] in
/-- The records of a ledger: those of the sealed segments and the open ones. -/
def ledgerLog (segments : List SealedSegment) (state : ProducerState) : SegLog Bytes where
  closed := segments.map SealedSegment.records
  current := state.openInterval.records

omit [Sha256] in
/-- Admitted records with the numbers of their segments as numbers. -/
def placements (admitted : List (Bytes × UInt64)) : List (Bytes × Nat) :=
  admitted.map fun entry => (entry.1, entry.2.toNat)

/-- An operation appends its records to the segmented log, each at the number it reports. -/
theorem Moves.steps {state next : ProducerState} {sealed segments : List SealedSegment}
    {admitted : List (Bytes × UInt64)} (h : Moves state sealed admitted next)
    (hchained : Chained state segments) :
    SegLog.Steps (ledgerLog segments state) (placements admitted)
      (ledgerLog (segments ++ sealed) next) := by
  induction h with
  | refl =>
    rw [List.append_nil]
    exact .refl _
  | close _ hcloses ih =>
    cases hcloses with
    | @skipped hsuppressed =>
      -- an interval that is skipped is empty, so the log does not change
      simp only [suppressed, decide_eq_true_eq] at hsuppressed
      simpa [ledgerLog, ProducerState.reopened, hsuppressed.1] using ih
    | @sealed segment r number hseals hnumber =>
      have hclose := ih.close
      simpa [SegLog.close, ledgerLog, ProducerState.reopened, hseals.records] using hclose
  | @push sealed admitted mid next record m hmoves hpush _ ih =>
    obtain ⟨byteCount, -, rfl⟩ := pushRecord_eq_ok hpush
    have hnumber := (hmoves.chained hchained).nextSegmentNumber
    have happend := ih.append record
    simpa [placements, SegLog.append, ledgerLog, hnumber] using happend
  | adjust _ hadjusts ih =>
    unfold ledgerLog at ih ⊢
    rw [hadjusts.records]
    exact ih

/-! ## Expired intervals -/

theorem closeExpiredLoop_moves {now : UInt64} {fuel : Nat} {state next : ProducerState}
    {sealed : List SealedSegment}
    (h : closeExpiredLoop now fuel state = .ok (sealed, next)) : Moves state sealed [] next := by
  induction fuel generalizing state sealed with
  | zero => cases h
  | succ fuel ih =>
    simp only [closeExpiredLoop, Except.bind_eq_ok, Except.ofOption_eq_ok] at h
    obtain ⟨elapsed, -, h⟩ := h
    split at h
    · cases h
      exact .refl
    · simp only [Except.bind_eq_ok, Except.ofOption_eq_ok] at h
      obtain ⟨boundary, -, ⟨segment, mid⟩, hclose, ⟨rest, last⟩, hrest, h⟩ := h
      cases h
      have hfirst : Moves state segment.toList [] mid := by
        simpa using Moves.refl.close (constructSegment_closes hclose)
      simpa using hfirst.trans (ih hrest)

theorem closeExpired_moves {now : UInt64} {state next : ProducerState}
    {sealed : List SealedSegment} (h : closeExpired state now = .ok (sealed, next)) :
    Moves state sealed [] next :=
  closeExpiredLoop_moves h

theorem openedAtMs_of_closes {state next : ProducerState} {nextOpenedAtMs : UInt64}
    {reason : CloseReason} {segment : Option SealedSegment}
    (h : Closes state nextOpenedAtMs reason segment next) :
    next.openInterval.openedAtMs = nextOpenedAtMs := by
  cases h <;> rfl

/-- With valid policies the loop takes at most one iteration for each millisecond that has
elapsed: more fuel changes nothing. -/
theorem closeExpiredLoop_fuel {now : UInt64} {fuel fuel' : Nat} {state : ProducerState}
    (hpolicies : PoliciesValid state)
    (hfuel : now.toNat - state.openInterval.openedAtMs.toNat < fuel)
    (hfuel' : now.toNat - state.openInterval.openedAtMs.toNat < fuel') :
    closeExpiredLoop now fuel state = closeExpiredLoop now fuel' state := by
  induction fuel generalizing fuel' state with
  | zero => omega
  | succ fuel ih =>
    obtain ⟨fuel', rfl⟩ : ∃ f, fuel' = f + 1 := ⟨fuel' - 1, by omega⟩
    simp only [closeExpiredLoop]
    cases helapsed : now.checkedSub state.openInterval.openedAtMs with
    | none => rfl
    | some elapsed =>
      rw [UInt64.checkedSub_eq_some] at helapsed
      simp only [Except.ofOption, bind, Except.bind]
      split
      · rfl
      · next hge =>
        rw [UInt64.lt_iff_toNat_lt, Nat.not_lt] at hge
        cases hboundary : state.openInterval.openedAtMs.checkedAdd
            state.openInterval.policy.intervalMs with
        | none => rfl
        | some boundary =>
          rw [UInt64.checkedAdd_eq_some] at hboundary
          cases hclose : constructSegment state boundary .interval with
          | error e => simp only [hclose]
          | ok result =>
            obtain ⟨segment, mid⟩ := result
            have hcloses := constructSegment_closes hclose
            have hopened := openedAtMs_of_closes hcloses
            have hmid : PoliciesValid mid := (Moves.refl.close hcloses).policies hpolicies
            have hpos := ClosurePolicy.intervalMs_pos hpolicies.openPolicy
            -- the interval is positive, so the boundary lies after the opening
            have hrec : closeExpiredLoop now fuel mid = closeExpiredLoop now fuel' mid :=
              ih hmid (by rw [hopened]; omega) (by rw [hopened]; omega)
            simp only [hclose, hrec]

/-- The loop of the source: an expired interval is closed at its boundary, and the loop goes on
with the interval that follows. -/
theorem closeExpired_eq {now : UInt64} {state : ProducerState} (hpolicies : PoliciesValid state) :
    closeExpired state now = (do
      let elapsed ← Except.ofOption .clockDiscontinuity
        (now.checkedSub state.openInterval.openedAtMs)
      if elapsed < state.openInterval.policy.intervalMs then
        pure ([], state)
      else do
        let boundary ← Except.ofOption .clockDiscontinuity
          (state.openInterval.openedAtMs.checkedAdd state.openInterval.policy.intervalMs)
        let (segment, next) ← constructSegment state boundary .interval
        let (sealed, next) ← closeExpired next now
        pure (segment.toList ++ sealed, next)) := by
  have hmore : closeExpired state now
      = closeExpiredLoop now (now.toNat + 2) state :=
    closeExpiredLoop_fuel hpolicies (by omega) (by omega)
  rw [hmore, closeExpiredLoop]
  refine bind_congr fun elapsed => ?_
  split
  · rfl
  · refine bind_congr fun boundary => ?_
    cases hclose : constructSegment state boundary .interval with
    | error e => rfl
    | ok result =>
      obtain ⟨segment, mid⟩ := result
      have hmid : PoliciesValid mid :=
        (Moves.refl.close (constructSegment_closes hclose)).policies hpolicies
      have hless : closeExpiredLoop now (now.toNat + 1) mid = closeExpired mid now :=
        closeExpiredLoop_fuel hmid (by omega) (by omega)
      simp only [bind, Except.bind, hless]

/-! ## Admission -/

omit [Sha256] in
theorem validateRecords_eq_ok {index : Nat} {records : List Bytes} {u : Unit}
    (h : validateRecords index records = .ok u) :
    ∀ record ∈ records, ∃ m, validateCanonicalRecord record = .ok m := by
  induction records generalizing index with
  | nil => simp
  | cons record records ih =>
    simp only [validateRecords, Except.bind_eq_ok, Except.mapError_eq_ok] at h
    obtain ⟨m, hm, h⟩ := h
    exact List.forall_mem_cons.mpr ⟨⟨m, hm⟩, ih h⟩

theorem admitRecords_moves {now : UInt64} {records : List Bytes} {state next : ProducerState}
    {sealed : List SealedSegment} {numbers : List UInt64}
    (hvalid : ∀ record ∈ records, ∃ m, validateCanonicalRecord record = .ok m)
    (h : admitRecords now records state = .ok (sealed, numbers, next)) :
    numbers.length = records.length ∧ Moves state sealed (records.zip numbers) next := by
  induction records generalizing state sealed numbers with
  | nil =>
    cases h
    exact ⟨rfl, .refl⟩
  | cons record records ih =>
    obtain ⟨⟨m, hm⟩, hrest⟩ := List.forall_mem_cons.mp hvalid
    simp only [admitRecords, Except.bind_eq_ok] at h
    obtain ⟨pushed, hpush, ⟨segment, mid⟩, hlimit, ⟨sealed', numbers', last⟩, hlater, h⟩ := h
    cases h
    obtain ⟨hlength, hmoves⟩ := ih hrest hlater
    have hfirst : Moves state segment.toList [(record, state.nextSegmentNumber)] mid := by
      have hpushed := Moves.refl.push hpush hm
      unfold closeAtLimit at hlimit
      split at hlimit
      · cases hlimit
        exact hpushed
      · exact hpushed.close (constructSegment_closes hlimit)
    exact ⟨by simp [hlength], hfirst.trans hmoves⟩

end TrackOne
