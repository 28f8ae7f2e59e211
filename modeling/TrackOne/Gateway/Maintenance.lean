import TrackOne.Gateway.Expiry

/-!
# Background maintenance

The readiness sampler calls `seal_expired_intervals` between requests, at times nobody controls. An
admission closes the expired intervals itself before it takes its records, so that it can be
compared with a tick and an admission after it.

* `Settles` is a tick or a new admission without the revision it is committed under, and
  `Settles.split` moves it over a tick, in both directions.
* `Settles.carried` and `settles_of_plan` relate it to the plans of the operations, and
  `WorldInvariant.step_plan` to what the store does with them.
* `World.run_maintenance`: any number of ticks before an admission, or before another tick, seal in
  total what it would have sealed alone, and end in the same state up to the revision.
-/

namespace TrackOne

variable [Sha256]

/-! ## Ticks and new admissions, up to the revision -/

/-- What a tick or a new admission at a reading does, without the revision it is committed under:
the segments it seals, the runs it reports and the state after it. -/
inductive Settles (store : MemoryLedgerStore) (now : UInt64) (state : ProducerState) :
    Operation → List SealedSegment → List AdmissionRun → ProducerState → Prop where
  | tick {sealed : List SealedSegment} {next : ProducerState} (h : Expires now state sealed next) :
      Settles store now state .sealExpiredIntervals sealed [] next
  | admission {op : Operation} {records : List Bytes} {request : Option (String × String)}
      {expired limited : List SealedSegment} {numbers : List UInt64} {runs : List AdmissionRun}
      {deltas : List AdmittedRecordDelta} {mid next : ProducerState}
      (hop : op.admission = some (records, request))
      (hkey : ∀ key digest, request = some (key, digest) →
        validateKey key = .ok () ∧ store.idempotency[key]? = none)
      (hrecords : records ≠ []) (hvalid : validateRecords 0 records = .ok ())
      (hcountable : state.openInterval.records.length < 2 ^ 64)
      (hexpires : Expires now state expired mid)
      (hadmits : admitRecords now records mid = .ok (limited, numbers, next))
      (hruns : admissionRuns numbers = .ok runs) (hnumbers : numbers.length < 2 ^ 64)
      (hdeltas : recordDeltas state next (expired ++ limited) records numbers = .ok deltas) :
      Settles store now state op (expired ++ limited) runs next

namespace Settles

variable {store store' : MemoryLedgerStore} {now earlier : UInt64} {state mid next : ProducerState}
  {op : Operation} {sealed first rest segments : List SealedSegment} {runs : List AdmissionRun}

/-- Before a tick or a new admission there may as well have been an earlier tick. -/
theorem exists_earlier (h : Settles store now state op sealed runs next)
    (hle : earlier.toNat ≤ now.toNat)
    (hopened : state.openInterval.openedAtMs.toNat ≤ earlier.toNat) :
    ∃ first mid, Expires earlier state first mid := by
  cases h with
  | tick hexpires => exact hexpires.exists_earlier hle hopened
  | admission _ _ _ _ _ hexpires => exact hexpires.exists_earlier hle hopened

/-- What is left to do after a tick is what would have been done without it. -/
theorem split (hchained : Chained state segments) (hfirst : Expires earlier state first mid)
    (hle : earlier.toNat ≤ now.toNat) :
    Settles store now state op sealed runs next
      ↔ ∃ rest, sealed = first ++ rest ∧ Settles store now mid op rest runs next := by
  constructor
  · rintro (hexpires | ⟨hop, hkey, hrecords, hvalid, hcountable, hexpires, hadmits, hruns, hnumbers,
      hdeltas⟩)
    · obtain ⟨rest, rfl, hrest⟩ := (hfirst.split hle).mp hexpires
      exact ⟨rest, rfl, .tick hrest⟩
    · obtain ⟨rest, rfl, hrest⟩ := (hfirst.split hle).mp hexpires
      have hmoves := (admitRecords_moves (validateRecords_eq_ok hvalid) hadmits).2
      -- what expires first has no records of the admission
      have hlater : Moves mid (rest ++ _) _ next := hrest.moves.trans hmoves
      have hmid : mid.openInterval.records.length < 2 ^ 64 := by
        rcases hfirst.emptied with ⟨-, -, rfl⟩ | ⟨-, hemptied⟩
        · exact hcountable
        · rw [hemptied.records]
          simp
      rw [List.append_assoc, recordDeltas_split hchained hfirst hlater] at hdeltas
      exact ⟨_, List.append_assoc .., .admission hop hkey hrecords hvalid hmid hrest hadmits hruns
        hnumbers hdeltas⟩
  · rintro ⟨rest, rfl,
      hexpires | ⟨hop, hkey, hrecords, hvalid, hcountable, hexpires, hadmits, hruns, hnumbers,
      hdeltas⟩⟩
    · exact .tick ((hfirst.split hle).mpr ⟨rest, rfl, hexpires⟩)
    · have hmoves := (admitRecords_moves (validateRecords_eq_ok hvalid) hadmits).2
      have hlater : Moves mid _ _ next := hexpires.moves.trans hmoves
      have hstate : state.openInterval.records.length < 2 ^ 64 := by
        rcases hfirst.emptied with ⟨-, -, rfl⟩ | ⟨-, hemptied⟩
        · exact hcountable
        · exact hemptied.countable
      rw [← recordDeltas_split hchained hfirst hlater, ← List.append_assoc] at hdeltas
      rw [← List.append_assoc]
      exact .admission hop hkey hrecords hvalid hstate ((hfirst.split hle).mpr ⟨_, rfl, hexpires⟩)
        hadmits hruns hnumbers hdeltas

theorem withRevision (h : Settles store now state op sealed runs next) (revision : UInt64) :
    Settles store now (state.withRevision revision) op sealed runs
      (next.withRevision revision) := by
  cases h with
  | tick hexpires => exact .tick (hexpires.withRevision revision)
  | admission hop hkey hrecords hvalid hcountable hexpires hadmits hruns hnumbers hdeltas =>
    refine .admission hop hkey hrecords hvalid hcountable (hexpires.withRevision revision) ?_ hruns
      hnumbers hdeltas
    rw [admitRecords_withRevision, hadmits]
    rfl

/-- A tick keeps no idempotency record. -/
theorem of_idempotency (h : Settles store now state op sealed runs next)
    (hsame : store'.idempotency = store.idempotency) :
    Settles store' now state op sealed runs next := by
  cases h with
  | tick hexpires => exact .tick hexpires
  | admission hop hkey hrecords hvalid hcountable hexpires hadmits hruns hnumbers hdeltas =>
    refine .admission hop ?_ hrecords hvalid hcountable hexpires hadmits hruns hnumbers hdeltas
    rw [hsame]
    exact hkey

end Settles

/-! ## Plans -/

section Plans

omit [Sha256]

/-- A reading of a clock with the given continuity id. -/
def clockOf (continuityId : BitVec 128) (now : UInt64) : ClockReadings :=
  ⟨.ok now, continuityId, continuityId⟩

/-- The failure of `commit` at the last revision. -/
def revisionOverflow : ProducerError := .counterOverflow "state revision"

/-- The segments and the runs that a tick or a new admission reports. -/
def Reply.report : Reply → Option (List SealedSegment × List AdmissionRun)
  | .admitted outcome =>
    if outcome.replayed then none else some (outcome.sealed, outcome.admissionRuns)
  | .sealed segments => some (segments, [])
  | .unit => none

namespace Plan

/-- The answer of a plan that the store does not refuse. -/
def reply : Plan → Reply
  | .done _ reply => reply
  | .commit _ _ reply => reply

/-- The state the producer goes on with. -/
def next : Plan → ProducerState
  | .done state _ => state
  | .commit _ transition _ => transition.nextState

/-- The store after the plan. -/
def applied (store : MemoryLedgerStore) : Plan → MemoryLedgerStore
  | .done _ _ => store
  | .commit _ transition _ => store.apply transition

end Plan

/-- The segments of a list put under their numbers, as `compare_and_swap` does. -/
def insertAll (sealed : Std.ExtTreeMap UInt64 SealedSegment compare)
    (segments : List SealedSegment) : Std.ExtTreeMap UInt64 SealedSegment compare :=
  segments.foldl (fun sealed segment => sealed.insert segment.segmentNumber segment) sealed

theorem insertAll_append (sealed : Std.ExtTreeMap UInt64 SealedSegment compare)
    (segments segments' : List SealedSegment) :
    insertAll sealed (segments ++ segments') = insertAll (insertAll sealed segments) segments' :=
  List.foldl_append

/-- There is a revision to commit under; an idle tick needs none. -/
def HasRevision (now : UInt64) (state : ProducerState) (op : Operation) : Prop :=
  op = .sealExpiredIntervals ∧ Within state now ∨ state.revision.toNat + 1 < 2 ^ 64

/-- The plan carries out what a tick or a new admission settles. -/
structure Carries (now : UInt64) (state : ProducerState) (op : Operation)
    (sealed : List SealedSegment) (runs : List AdmissionRun) (next : ProducerState) (plan : Plan) :
    Prop where
  report : plan.reply.report = some (sealed, runs)
  next : ∃ revision, state.revision.toNat ≤ revision.toNat
    ∧ (op.admission.isSome → revision.toNat = state.revision.toNat + 1)
    ∧ plan.next = next.withRevision revision
  sealed : ∀ store, (plan.applied store).sealed = insertAll store.sealed sealed
  idempotency : op = .sealExpiredIntervals →
    ∀ store, (plan.applied store).idempotency = store.idempotency
  revision : HasRevision now state op

/-- A commit fails only at the last revision. -/
theorem prepareCommit_cases {state : ProducerState} (next : ProducerState)
    (sealed : List SealedSegment) (admission : Option IdempotencyRecord)
    (deltas : List AdmittedRecordDelta) (reply : UInt64 → Reply)
    (hcountable : state.openInterval.records.length < 2 ^ 64) :
    (¬ state.revision.toNat + 1 < 2 ^ 64
        ∧ prepareCommit state next sealed admission deltas reply = .error revisionOverflow)
      ∨ ∃ revision previousOpenCount : UInt64, revision.toNat = state.revision.toNat + 1
        ∧ prepareCommit state next sealed admission deltas reply
            = .ok (.commit (some state.revision)
                { previousOpenCount, admittedRecords := deltas,
                  nextState := next.withRevision revision, sealed, idempotency := admission }
                (reply revision)) := by
  unfold prepareCommit
  cases hadd : state.revision.checkedAdd 1 with
  | none =>
    have hlast : 2 ^ 64 ≤ state.revision.toNat + 1 := UInt64.checkedAdd_eq_none.mp hadd
    exact .inl ⟨by omega, rfl⟩
  | some revision =>
    rw [UInt64.ofNat?_of_lt hcountable]
    exact .inr ⟨revision, _, UInt64.checkedAdd_eq_some.mp hadd, rfl⟩

theorem safeNow_clockOf {state : ProducerState} {now : UInt64} (hactive : state.active = true)
    (hopened : state.openInterval.openedAtMs.toNat ≤ now.toNat) :
    safeNow state (clockOf state.openInterval.clockContinuityId now) = .ok now :=
  safeNow_eq_ok.mpr ⟨hactive, rfl, rfl, UInt64.le_iff_toNat_le.mpr hopened⟩

end Plans

variable {store : MemoryLedgerStore} {now : UInt64} {state next : ProducerState} {op : Operation}
  {sealed : List SealedSegment} {runs : List AdmissionRun} {plan : Plan}

/-- The interval a tick leaves open has been opened after the one it found. -/
theorem Expires.openedAtMs_lt (h : Expires now state sealed next) (hpolicies : PoliciesValid state)
    (hexpired : ¬ Within state now) :
    state.openInterval.openedAtMs.toNat < next.openInterval.openedAtMs.toNat := by
  have hle : ∀ {state next : ProducerState} {sealed : List SealedSegment},
      Expires now state sealed next →
        state.openInterval.openedAtMs.toNat ≤ next.openInterval.openedAtMs.toNat := by
    intro state next sealed h
    induction h with
    | within => exact Nat.le_refl _
    | close hboundary _ hclose _ ih =>
      rw [openedAtMs_of_closes (constructSegment_closes hclose)] at ih
      omega
  cases h with
  | within h => exact absurd h hexpired
  | close hboundary _ hclose hrest =>
    have hpos := ClosurePolicy.intervalMs_pos hpolicies.openPolicy
    have hafter := hle hrest
    rw [openedAtMs_of_closes (constructSegment_closes hclose)] at hafter
    omega

omit [Sha256] in
/-- The test an idle tick stops at. -/
theorem within_iff (hopened : state.openInterval.openedAtMs.toNat ≤ now.toNat) :
    now - state.openInterval.openedAtMs < state.openInterval.policy.intervalMs
      ↔ Within state now := by
  rw [UInt64.lt_iff_toNat_lt, UInt64.toNat_sub_of_le _ _ (UInt64.le_iff_toNat_le.mpr hopened)]
  constructor
  · intro hlt
    exact ⟨hopened, by omega⟩
  · intro hwithin
    have hend := hwithin.beforeEnd
    omega

theorem Expires.carried (h : Expires now state sealed next) (hpolicies : PoliciesValid state)
    (hactive : state.active = true) :
    (¬ HasRevision now state .sealExpiredIntervals
        ∧ sealExpiredIntervals state (clockOf state.openInterval.clockContinuityId now)
          = .error revisionOverflow)
      ∨ ∃ plan, sealExpiredIntervals state (clockOf state.openInterval.clockContinuityId now)
          = .ok plan ∧ Carries now state .sealExpiredIntervals sealed [] next plan := by
  have hopened : state.openInterval.openedAtMs.toNat ≤ now.toNat := by
    cases h with
    | within h => exact h.opened
    | close hboundary hpassed => omega
  simp only [sealExpiredIntervals, safeNow_clockOf hactive hopened, bind, Except.bind]
  rcases h.emptied with ⟨hwithin, rfl, rfl⟩ | ⟨hexpired, hemptied⟩
  · rw [if_pos ((within_iff hopened).mpr hwithin)]
    exact .inr ⟨_, rfl, rfl, ⟨next.revision, Nat.le_refl _, by simp [Operation.admission], rfl⟩,
      fun _ => rfl, fun _ _ => rfl, .inl ⟨rfl, hwithin⟩⟩
  · have hmoved : next.openInterval.openedAtMs ≠ state.openInterval.openedAtMs := by
      have hlt := h.openedAtMs_lt hpolicies hexpired
      intro heq
      rw [heq] at hlt
      omega
    rw [if_neg ((within_iff hopened).not.mpr hexpired), h.closeExpired_eq hpolicies]
    simp only [if_pos hmoved]
    rcases prepareCommit_cases next sealed none [] (fun _ => .sealed sealed) hemptied.countable with
      ⟨hlast, herror⟩ | ⟨revision, count, hrevision, hok⟩
    · exact .inl ⟨fun hroom => hroom.elim (fun hidle => hexpired hidle.2) hlast, herror⟩
    · have hlt := revision.toNat_lt
      rw [hok]
      exact .inr ⟨_, rfl, rfl, ⟨revision, by omega, by simp [Operation.admission], rfl⟩,
        fun _ => rfl, fun _ _ => rfl, .inr (by omega)⟩

/-- An admission is a new one, under a key that is not known if it has one, or a replay. -/
theorem Operation.plan_admission {records : List Bytes} {request : Option (String × String)}
    {lookup : String → Except ProducerError (Option IdempotencyRecord)} {clock : ClockReadings}
    (hop : op.admission = some (records, request)) (hplan : op.plan lookup state clock = .ok plan) :
    ((∀ key digest, request = some (key, digest) →
        validateKey key = .ok () ∧ lookup key = .ok none)
      ∧ admitBatchInner state clock records request = .ok plan)
    ∨ ∃ outcome : AdmissionOutcome, plan = .done state (.admitted outcome)
        ∧ outcome.replayed = true := by
  cases request with
  -- without a key the batch is admitted as it is
  | none =>
    cases op with
    | admitRecord record =>
      cases hop
      exact .inl ⟨by simp, hplan⟩
    | _ => cases hop
  | some request =>
    obtain ⟨key, digest⟩ := request
    -- both calls with a key check it, and look it up with the digest
    have hkeyed : validateKey key = .ok ()
        ∧ admitBatchIdempotentDigest lookup state clock key records digest = .ok plan := by
      cases op with
      | admitIdempotent key' record =>
        cases hop
        simp only [Operation.plan, TrackOne.admitIdempotent, Except.bind_eq_ok] at hplan
        obtain ⟨_, hkey, hplan⟩ := hplan
        exact ⟨hkey, hplan⟩
      | admitBatchIdempotent key' records' canonicalEnvelope =>
        cases hop
        simp only [Operation.plan, TrackOne.admitBatchIdempotent] at hplan
        refine ⟨?_, hplan⟩
        simp only [admitBatchIdempotentDigest, Except.bind_eq_ok] at hplan
        obtain ⟨_, hkey, -⟩ := hplan
        exact hkey
      | _ => cases hop
    obtain ⟨hkey, hdigest⟩ := hkeyed
    simp only [admitBatchIdempotentDigest, Except.bind_eq_ok] at hdigest
    obtain ⟨-, -, existing, hlookup, hdigest⟩ := hdigest
    cases existing with
    -- the key is new
    | none =>
      left
      refine ⟨?_, hdigest⟩
      rintro _ _ ⟨rfl, rfl⟩
      exact ⟨hkey, hlookup⟩
    -- the key is there: another digest is refused, the same one replayed
    | some existing =>
      right
      dsimp only at hdigest
      split at hdigest
      · cases hdigest
      · simp only [replayedOutcome, Except.bind_eq_ok] at hdigest
        obtain ⟨outcome, ⟨runs, -, count, -, houtcome⟩, hdigest⟩ := hdigest
        cases houtcome
        cases hdigest
        exact ⟨_, rfl, rfl⟩

/-- A new admission skips the lookup. -/
theorem Operation.plan_new {records : List Bytes} {request : Option (String × String)}
    {lookup : String → Except ProducerError (Option IdempotencyRecord)} {clock : ClockReadings}
    (hop : op.admission = some (records, request))
    (hkey : ∀ key digest, request = some (key, digest) →
      validateKey key = .ok () ∧ lookup key = .ok none) :
    op.plan lookup state clock = admitBatchInner state clock records request := by
  cases request with
  | none =>
    cases op with
    | admitRecord record =>
      cases hop
      rfl
    | _ => cases hop
  | some request =>
    obtain ⟨key, digest⟩ := request
    obtain ⟨hvalid, hlookup⟩ := hkey key digest rfl
    rw [Operation.plan_keyed hop hvalid, admitBatchIdempotentDigest, hvalid, hlookup]
    rfl

omit [Sha256] in
/-- The idempotency record of an admission fails at the last revision, as the commit does. -/
theorem admissionRecord_cases (numbers : List UInt64) (request : Option (String × String)) :
    (¬ next.revision.toNat + 1 < 2 ^ 64
        ∧ admissionRecord next sealed numbers request = .error revisionOverflow)
      ∨ ∃ admission, admissionRecord next sealed numbers request = .ok admission := by
  cases request with
  | none => exact .inr ⟨none, rfl⟩
  | some request =>
    unfold admissionRecord
    cases hadd : next.revision.checkedAdd 1 with
    | none =>
      have hlast : 2 ^ 64 ≤ next.revision.toNat + 1 := UInt64.checkedAdd_eq_none.mp hadd
      exact .inl ⟨by omega, rfl⟩
    | some revision => exact .inr ⟨_, rfl⟩

/-- What is settled is planned, unless the revisions are used up. -/
theorem Settles.carried (h : Settles store now state op sealed runs next)
    (hpolicies : PoliciesValid state) (hactive : state.active = true)
    (hopened : state.openInterval.openedAtMs.toNat ≤ now.toNat) :
    (¬ HasRevision now state op
        ∧ op.plan (LedgerStore.lookupIdempotency store) state
          (clockOf state.openInterval.clockContinuityId now) = .error revisionOverflow)
      ∨ ∃ plan, op.plan (LedgerStore.lookupIdempotency store) state
          (clockOf state.openInterval.clockContinuityId now) = .ok plan
        ∧ Carries now state op sealed runs next plan := by
  cases h with
  | tick hexpires => exact hexpires.carried hpolicies hactive
  | @admission _ records request expired limited numbers _ deltas mid _ hop hkey hrecords hvalid
      hcountable hexpires hadmits hruns hnumbers hdeltas =>
    have hlookup : ∀ key digest, request = some (key, digest) → validateKey key = .ok ()
        ∧ LedgerStore.lookupIdempotency store key = .ok none := by
      intro key digest hrequest
      obtain ⟨hvalid, hnone⟩ := hkey key digest hrequest
      exact ⟨hvalid, by rw [← hnone]; rfl⟩
    have hmoves :=
      hexpires.moves.trans (admitRecords_moves (validateRecords_eq_ok hvalid) hadmits).2
    rw [Operation.plan_new hop hlookup]
    simp only [admitBatchInner, hvalid, safeNow_clockOf hactive hopened,
      hexpires.closeExpired_eq hpolicies, hadmits, hruns, UInt64.ofNat?_of_lt hnumbers, hdeltas,
      Except.ofOption, bind, Except.bind, Except.require, hactive, hrecords, decide_true, if_true,
      ne_eq, not_false_eq_true]
    -- an admission is never idle
    have hnever : ¬ state.revision.toNat + 1 < 2 ^ 64 → ¬ HasRevision now state op := by
      rintro hlast (⟨rfl, -⟩ | hroom)
      · cases hop
      · exact hlast hroom
    rcases admissionRecord_cases numbers request with ⟨hlast, herror⟩ | ⟨admission, hadmission⟩
    · rw [hmoves.identity.1] at hlast
      exact .inl ⟨hnever hlast, by rw [herror]⟩
    · rw [hadmission]
      rcases prepareCommit_cases next (expired ++ limited) admission deltas _ hcountable with
        ⟨hlast, herror⟩ | ⟨revision, count, hrevision, hok⟩
      · exact .inl ⟨hnever hlast, herror⟩
      · right
        have hlt := revision.toNat_lt
        refine ⟨_, hok, rfl, ⟨revision, by omega, fun _ => hrevision, rfl⟩, fun _ => rfl, ?_,
          .inr (by omega)⟩
        rintro rfl
        cases hop

/-- What a tick or a new admission reports is settled. -/
theorem settles_of_plan (hop : op = .sealExpiredIntervals ∨ op.admission.isSome)
    (hplan : op.plan (LedgerStore.lookupIdempotency store) state
      (clockOf state.openInterval.clockContinuityId now) = .ok plan)
    (hreport : plan.reply.report = some (sealed, runs)) :
    ∃ next, Settles store now state op sealed runs next := by
  rcases hop with rfl | hadmission
  -- a tick: nothing has expired, or what has is sealed
  · simp only [Operation.plan, sealExpiredIntervals, Except.bind_eq_ok] at hplan
    obtain ⟨now', hnow, hplan⟩ := hplan
    obtain ⟨-, hnow', -, hopened⟩ := safeNow_eq_ok.mp hnow
    cases hnow'
    rw [UInt64.le_iff_toNat_le] at hopened
    split_ifs at hplan with hwithin
    · cases hplan
      cases hreport
      exact ⟨state, .tick (.within ((within_iff hopened).mp hwithin))⟩
    · simp only [Except.bind_eq_ok] at hplan
      obtain ⟨⟨expired, next⟩, hclose, hplan⟩ := hplan
      have hexpires := expires_of_closeExpiredLoop hclose
      split_ifs at hplan
      · obtain ⟨revision, count, -, -, -, rfl⟩ := prepareCommit_eq_ok hplan
        cases hreport
        exact ⟨next, .tick hexpires⟩
      · cases hplan
        cases hreport
        exact ⟨next, .tick hexpires⟩
  -- an admission: a replay reports nothing
  · obtain ⟨⟨records, request⟩, hop⟩ := Option.isSome_iff_exists.mp hadmission
    rcases Operation.plan_admission hop hplan with ⟨hlookup, hinner⟩ | ⟨outcome, rfl, hreplayed⟩
    · simp only [admitBatchInner, Except.bind_eq_ok, Except.require_eq_ok, Except.ofOption_eq_ok,
        decide_eq_true_eq] at hinner
      obtain ⟨-, -, -, hrecords, _, hvalid, now', hnow, ⟨expired, mid⟩, hexpired,
        ⟨limited, numbers, next⟩, hadmits, runs', hruns, count, hcount, deltas, hdeltas, admission,
        hadmission, hcommit⟩ := hinner
      obtain ⟨-, hnow', -⟩ := safeNow_eq_ok.mp hnow
      cases hnow'
      obtain ⟨revision, openCount, -, -, hopen, rfl⟩ := prepareCommit_eq_ok hcommit
      cases hreport
      refine ⟨next, .admission hop ?_ hrecords hvalid ?_ (expires_of_closeExpiredLoop hexpired)
        hadmits hruns ?_ hdeltas⟩
      · intro key digest hrequest
        obtain ⟨hkey, hnone⟩ := hlookup key digest hrequest
        simp only [LedgerStore.lookupIdempotency, Except.ok.injEq] at hnone
        exact ⟨hkey, hnone⟩
      · rw [← hopen]
        exact openCount.toNat_lt
      · rw [← UInt64.ofNat?_eq_some.mp hcount]
        exact count.toNat_lt
    · simp [Plan.reply, Reply.report, hreplayed] at hreport

/-! ## Runs -/

/-- The store does not refuse what its only producer commits. -/
theorem Planned.not_conflicts {accepted : List AcceptedCall} {expected : Option UInt64}
    {t : LedgerTransition} {reply : Reply}
    (hplanned : Planned (LedgerStore.lookupIdempotency store) state op (.commit expected t reply))
    (h : StoreInvariant store accepted) (hstate : store.state = some state) :
    store.conflicts expected t = false := by
  obtain ⟨segments, hindexes, hledger, -⟩ := h.of_state hstate
  obtain ⟨rfl, admitted, hcommits⟩ := hplanned.of_commit
  rw [MemoryLedgerStore.conflicts, Bool.or_eq_false_iff, Bool.or_eq_false_iff]
  refine ⟨⟨by simp [hstate], ?_⟩, ?_⟩
  · -- the new segments have numbers that are not taken yet
    rw [List.any_eq_false]
    intro segment hsegment hcontains
    obtain ⟨hle, -⟩ := (mem_sealedNumbers hledger.chained hcommits.moves segment.segmentNumber).mp
      (List.mem_map_of_mem hsegment)
    rw [hledger.chained.nextSegmentNumber] at hle
    have hnone : store.sealed[segment.segmentNumber]? = none := by
      rw [hindexes, List.getElem?_eq_none hle]
    rw [Std.ExtTreeMap.contains_eq_isSome_getElem?, hnone] at hcontains
    cases hcontains
  · cases hidempotency : t.idempotency with
    | none => rfl
    | some admission =>
      have hlookup := hplanned.lookup_key admission hidempotency
      simp only [LedgerStore.lookupIdempotency, Except.ok.injEq] at hlookup
      rw [Option.any_some, Std.ExtTreeMap.contains_eq_isSome_getElem?, hlookup]
      rfl

/-- A call is answered with its plan: the store takes it as it is. -/
theorem WorldInvariant.step_plan {w : World MemoryLedgerStore} {trace : List (Input × Answer)}
    (h : WorldInvariant w trace) (hproducer : w.producer = some state) (clock : ClockReadings)
    (op : Operation) :
    w.step (.call clock op)
      = match op.plan (LedgerStore.lookupIdempotency w.store) state clock with
        | .error error => (some (.error error), w)
        | .ok plan => (some (.ok plan.reply), ⟨plan.applied w.store, some plan.next⟩) := by
  have hw : (⟨w.store, some state⟩ : World MemoryLedgerStore) = w := by rw [← hproducer]
  unfold World.step
  simp only [hproducer]
  cases hplan : op.plan (LedgerStore.lookupIdempotency w.store) state clock with
  | error error => simp only [executePlan, World.settle, hw]
  | ok plan =>
    cases plan with
    | done next reply => rfl
    | commit expected t reply =>
      have hfree :=
        (Operation.plan_planned hplan).not_conflicts h.store (h.producer state hproducer)
      simp only [executePlan, Plan.execute, LedgerStore.compareAndSwap,
        MemoryLedgerStore.compareAndSwap, hfree]
      rfl

/-- What an answer reports. -/
def reported : Answer → Option (List SealedSegment × List AdmissionRun)
  | some (.ok reply) => reply.report
  | _ => none

/-- The inputs of the background task: a tick at each of the readings. -/
def ticksAt (continuityId : BitVec 128) (readings : List UInt64) : List Input :=
  readings.map fun reading => .call (clockOf continuityId reading) .sealExpiredIntervals

/-- What each tick of a trace reports: the segments it sealed. -/
def tickReports (trace : List (Input × Answer)) :
    List (Option (List SealedSegment × List AdmissionRun)) :=
  trace.map fun entry => reported entry.2

/-- A reachable world whose producer is active under the given continuity id. -/
structure Running (w : World MemoryLedgerStore) (trace : List (Input × Answer))
    (state : ProducerState) (continuityId : BitVec 128) : Prop where
  invariant : WorldInvariant w trace
  producer : w.producer = some state
  active : state.active = true
  continuity : state.openInterval.clockContinuityId = continuityId

namespace Running

variable {w : World MemoryLedgerStore} {trace : List (Input × Answer)} {continuityId : BitVec 128}

theorem ledger (h : Running w trace state continuityId) :
    ∃ segments accepted, Ledger state segments accepted := by
  obtain ⟨segments, -, hledger, -⟩ :=
    h.invariant.store.of_state (h.invariant.producer state h.producer)
  exact ⟨segments, _, hledger⟩

/-- A tick or a new admission is answered with what it settles, unless the revisions are used up. -/
theorem step_settles (h : Running w trace state continuityId)
    (hsettles : Settles w.store now state op sealed runs next)
    (hopened : state.openInterval.openedAtMs.toNat ≤ now.toNat) :
    (¬ HasRevision now state op
        ∧ (w.step (.call (clockOf continuityId now) op)).1 = some (.error revisionOverflow))
      ∨ (HasRevision now state op
        ∧ reported (w.step (.call (clockOf continuityId now) op)).1 = some (sealed, runs)
        ∧ (∃ revision, state.revision.toNat ≤ revision.toNat
          ∧ (op.admission.isSome → revision.toNat = state.revision.toNat + 1)
          ∧ (w.step (.call (clockOf continuityId now) op)).2.producer
            = some (next.withRevision revision))
        ∧ (w.step (.call (clockOf continuityId now) op)).2.store.sealed
            = insertAll w.store.sealed sealed
        ∧ (op = .sealExpiredIntervals →
            (w.step (.call (clockOf continuityId now) op)).2.store.idempotency
              = w.store.idempotency)) := by
  obtain ⟨segments, accepted, hledger⟩ := h.ledger
  have hstep := h.invariant.step_plan h.producer (clockOf continuityId now) op
  rw [← h.continuity] at hstep ⊢
  rcases hsettles.carried hledger.policies h.active hopened with
    ⟨hlast, herror⟩ | ⟨plan, hok, hcarries⟩
  · rw [hstep, herror]
    exact .inl ⟨hlast, rfl⟩
  · rw [hstep, hok]
    obtain ⟨revision, hle, hrevision, hnext⟩ := hcarries.next
    exact .inr ⟨hcarries.revision, hcarries.report,
      ⟨revision, hle, hrevision, congrArg some hnext⟩, hcarries.sealed w.store,
      fun hop => hcarries.idempotency hop w.store⟩

/-- What a tick or a new admission reports is what it settles. -/
theorem settles_of_reported (h : Running w trace state continuityId)
    (hop : op = .sealExpiredIntervals ∨ op.admission.isSome)
    (hreported : reported (w.step (.call (clockOf continuityId now) op)).1 = some (sealed, runs)) :
    ∃ next, Settles w.store now state op sealed runs next := by
  rw [h.invariant.step_plan h.producer, ← h.continuity] at hreported
  cases hplan : op.plan (LedgerStore.lookupIdempotency w.store) state
      (clockOf state.openInterval.clockContinuityId now) with
  | error error =>
    rw [hplan] at hreported
    cases hreported
  | ok plan =>
    rw [hplan] at hreported
    exact settles_of_plan hop hplan hreported

/-- A tick leaves a running producer. -/
theorem tick (h : Running w trace state continuityId) {reading : UInt64} {mid : ProducerState}
    {revision : UInt64} (hexpires : Expires reading state sealed mid)
    (hproducer : (w.step (.call (clockOf continuityId reading) .sealExpiredIntervals)).2.producer
      = some (mid.withRevision revision)) :
    Running (w.step (.call (clockOf continuityId reading) .sealExpiredIntervals)).2
      (trace ++ [(.call (clockOf continuityId reading) .sealExpiredIntervals,
        (w.step (.call (clockOf continuityId reading) .sealExpiredIntervals)).1)])
      (mid.withRevision revision) continuityId := by
  have hkept : mid.active = state.active
      ∧ mid.openInterval.clockContinuityId = state.openInterval.clockContinuityId := by
    rcases hexpires.emptied with ⟨-, -, rfl⟩ | ⟨-, hemptied⟩
    · exact ⟨rfl, rfl⟩
    · exact ⟨hemptied.active, hemptied.continuity⟩
  exact ⟨h.invariant.step _, hproducer, hkept.1.trans h.active, hkept.2.trans h.continuity⟩

/-- Readings from a tick on do not go back behind the interval that it leaves open. -/
theorem pairwise_after_tick {reading : UInt64} {mid : ProducerState} {later : List UInt64}
    (hexpires : Expires reading state sealed mid) (revision : UInt64)
    (hafter : ∀ now ∈ later, reading ≤ now) (hlater : later.Pairwise (· ≤ ·)) :
    ((mid.withRevision revision).openInterval.openedAtMs :: later).Pairwise (· ≤ ·) := by
  refine List.pairwise_cons.mpr ⟨fun now hnow => ?_, hlater⟩
  exact UInt64.le_trans (UInt64.le_iff_toNat_le.mpr hexpires.within_next.opened) (hafter now hnow)

/-- The ticks and the call after them do what the call would have done alone. -/
theorem settles_of_ticks (h : Running w trace state continuityId)
    (hop : op = .sealExpiredIntervals ∨ op.admission.isSome) {readings : List UInt64}
    (hreadings : (state.openInterval.openedAtMs :: (readings ++ [now])).Pairwise (· ≤ ·))
    {parts : List (List SealedSegment)} {rest : List SealedSegment}
    (hticks : tickReports (runTrace World.step w (ticksAt continuityId readings)).2
      = parts.map fun part => some (part, []))
    (hlast : reported ((runTrace World.step w (ticksAt continuityId readings)).1.step
      (.call (clockOf continuityId now) op)).1 = some (rest, runs)) :
    HasRevision now state op
      ∧ ∃ next, Settles w.store now state op (parts.flatten ++ rest) runs next
        ∧ (∃ revision, ((runTrace World.step w (ticksAt continuityId readings)).1.step
            (.call (clockOf continuityId now) op)).2.producer = some (next.withRevision revision))
        ∧ ((runTrace World.step w (ticksAt continuityId readings)).1.step
            (.call (clockOf continuityId now) op)).2.store.sealed
          = insertAll w.store.sealed (parts.flatten ++ rest) := by
  induction readings generalizing w trace state parts with
  -- no tick: the last call settles by itself
  | nil =>
    obtain rfl : parts = [] := by
      have hnil : parts.map (fun part => some (part, ([] : List AdmissionRun))) = [] := hticks.symm
      simpa using hnil
    have hopened : state.openInterval.openedAtMs ≤ now := by simpa using hreadings
    rw [UInt64.le_iff_toNat_le] at hopened
    obtain ⟨next, hsettles⟩ := h.settles_of_reported hop hlast
    rcases h.step_settles hsettles hopened with ⟨-, herror⟩ | ⟨hroom, -, hnext, hsealed, -⟩
    · rw [ticksAt, List.map_nil, runTrace_nil, herror] at hlast
      cases hlast
    · exact ⟨hroom, next, hsettles, hnext.imp fun _ hnext => hnext.2.2, hsealed⟩
  | cons reading readings ih =>
    simp only [ticksAt, List.map_cons, runTrace_cons] at hticks hlast ⊢
    obtain ⟨part, parts, rfl⟩ : ∃ part parts', parts = part :: parts' := by
      cases parts with
      | nil => cases hticks
      | cons part parts => exact ⟨part, parts, rfl⟩
    simp only [tickReports, List.map_cons, List.cons.injEq] at hticks
    obtain ⟨hfirst, hlater⟩ := hticks
    rw [List.cons_append, List.pairwise_cons, List.pairwise_cons] at hreadings
    obtain ⟨hopened, hafter, hrest⟩ := hreadings
    have hopened' := UInt64.le_iff_toNat_le.mp (hopened reading (by simp))
    have hle := UInt64.le_iff_toNat_le.mp (hafter now (by simp))
    -- the first tick
    obtain ⟨mid, hsettles⟩ := h.settles_of_reported (.inl rfl) hfirst
    rcases h.step_settles hsettles hopened' with
      ⟨-, herror⟩ | ⟨hroom, -, ⟨revision, hrevision, -, hnext⟩, hsealed, hidempotency⟩
    · rw [herror] at hfirst
      cases hfirst
    cases hsettles with
    | admission hop => cases hop
    | tick hexpires =>
    -- the rest is the induction, from the state after the first tick
    obtain ⟨hroom', next, hsettles', ⟨revision', hnext'⟩, hsealed'⟩ :=
      ih (h.tick hexpires hnext) (pairwise_after_tick hexpires revision hafter hrest) hlater hlast
    obtain ⟨segments, accepted, hledger⟩ := h.ledger
    have hback := (hsettles'.withRevision mid.revision).of_idempotency (hidempotency rfl).symm
    rw [withRevision_withRevision, withRevision_self] at hback
    refine ⟨?_, next.withRevision mid.revision, ?_, ⟨revision', ?_⟩, ?_⟩
    · -- a tick that commits shows that there was a revision left, and an idle one keeps it
      rcases hroom with ⟨-, hidle⟩ | hroom
      · rcases hexpires.emptied with ⟨-, -, rfl⟩ | ⟨hexpired, -⟩
        · refine hroom'.imp (fun hlast => ⟨hlast.1, hlast.2.opened, hlast.2.beforeEnd⟩) ?_
          intro hlast
          have hlast' : revision.toNat + 1 < 2 ^ 64 := hlast
          omega
        · exact absurd hidle hexpired
      · exact .inr hroom
    · rw [List.flatten_cons, List.append_assoc]
      exact (Settles.split hledger.chained hexpires hle).mpr ⟨_, rfl, hback⟩
    · rw [withRevision_withRevision]
      exact hnext'
    · rw [List.flatten_cons, List.append_assoc, insertAll_append, ← hsealed]
      exact hsealed'

/-- Where a call alone would have settled, the ticks and the call after them do. -/
theorem ticks_of_settles (h : Running w trace state continuityId)
    (hsettles : Settles w.store now state op sealed runs next) {readings : List UInt64}
    (hreadings : (state.openInterval.openedAtMs :: (readings ++ [now])).Pairwise (· ≤ ·)) :
    (∃ entry ∈ (runTrace World.step w
        (ticksAt continuityId readings ++ [.call (clockOf continuityId now) op])).2,
        entry.2 = some (.error revisionOverflow))
      ∨ ∃ (parts : List (List SealedSegment)) (rest : List SealedSegment),
        tickReports (runTrace World.step w (ticksAt continuityId readings)).2
            = parts.map (fun part => some (part, []))
          ∧ reported ((runTrace World.step w (ticksAt continuityId readings)).1.step
              (.call (clockOf continuityId now) op)).1 = some (rest, runs) := by
  induction readings generalizing w trace state sealed next with
  | nil =>
    have hopened : state.openInterval.openedAtMs ≤ now := by simpa using hreadings
    rw [UInt64.le_iff_toNat_le] at hopened
    rcases h.step_settles hsettles hopened with ⟨-, herror⟩ | ⟨-, hreport, -⟩
    · exact .inl ⟨_, List.mem_singleton.mpr rfl, herror⟩
    · exact .inr ⟨[], sealed, rfl, hreport⟩
  | cons reading readings ih =>
    rw [List.cons_append, List.pairwise_cons, List.pairwise_cons] at hreadings
    obtain ⟨hopened, hafter, hrest⟩ := hreadings
    have hopened' := UInt64.le_iff_toNat_le.mp (hopened reading (by simp))
    have hle := UInt64.le_iff_toNat_le.mp (hafter now (by simp))
    obtain ⟨first, mid, hexpires⟩ := hsettles.exists_earlier hle hopened'
    simp only [ticksAt, List.map_cons, List.cons_append, runTrace_cons, List.mem_cons]
    rcases h.step_settles (.tick hexpires) hopened' with
      ⟨-, herror⟩ | ⟨-, hreport, ⟨revision, -, -, hnext⟩, -, hidempotency⟩
    · exact .inl ⟨_, .inl rfl, herror⟩
    · have hmid := h.tick hexpires hnext
      have hreadings := pairwise_after_tick hexpires revision hafter hrest
      obtain ⟨segments, accepted, hledger⟩ := h.ledger
      obtain ⟨rest, -, hlater⟩ := (Settles.split hledger.chained hexpires hle).mp hsettles
      have hafter := (hlater.withRevision revision).of_idempotency (hidempotency rfl)
      rcases ih hmid hafter hreadings with ⟨entry, hentry, herror⟩ | ⟨parts, rest, hticks, hlast⟩
      · exact .inl ⟨entry, .inr hentry, herror⟩
      · refine .inr ⟨first :: parts, rest, ?_, hlast⟩
        simp only [tickReports, List.map_cons, hreport]
        exact congrArg _ hticks

end Running

namespace World

/-- Background maintenance is invisible to admissions and to later maintenance. From any reachable
state with an active producer, and for readings that do not go back:

* if the ticks and the call after them are all answered, then the call alone would have been, with
  the concatenation of what they sealed, the same runs, the same state up to the revision and the
  same sealed segments in the store;
* if the call alone is answered, then the ticks and the call after them are, unless one of them
  finds the revisions used up. -/
theorem run_maintenance (inputs : List Input) (state : ProducerState)
    (hproducer : (memoryRun inputs).1.producer = some state) (hactive : state.active = true)
    (op : Operation) (hop : op = .sealExpiredIntervals ∨ op.admission.isSome)
    (readings : List UInt64) (now : UInt64)
    (hreadings : (state.openInterval.openedAtMs :: (readings ++ [now])).Pairwise (· ≤ ·)) :
    let w := (memoryRun inputs).1
    let continuityId := state.openInterval.clockContinuityId
    let call := Input.call (clockOf continuityId now) op
    let direct := w.step call
    let ticks := runTrace World.step w (ticksAt continuityId readings)
    let last := ticks.1.step call
    (∀ (parts : List (List SealedSegment)) rest runs,
      tickReports ticks.2 = parts.map (fun part => some (part, [])) →
      reported last.1 = some (rest, runs) →
        reported direct.1 = some (parts.flatten ++ rest, runs)
          ∧ (∃ revision, last.2.producer
              = direct.2.producer.map fun next => next.withRevision revision)
          ∧ last.2.store.sealed = direct.2.store.sealed)
    ∧ ∀ sealed runs, reported direct.1 = some (sealed, runs) →
      (∃ entry ∈ (runTrace World.step w (ticksAt continuityId readings ++ [call])).2,
        entry.2 = some (.error revisionOverflow))
      ∨ ∃ (parts : List (List SealedSegment)) (rest : List SealedSegment),
        tickReports ticks.2 = parts.map (fun part => some (part, []))
          ∧ reported last.1 = some (rest, runs) := by
  intro w continuityId call direct ticks last
  have h : Running w (memoryRun inputs).2 state continuityId :=
    ⟨run_invariant inputs, hproducer, hactive, rfl⟩
  constructor
  -- the ticks and the call together settle what the call alone settles
  · intro parts rest runs hticks hlast
    obtain ⟨hroom, next, hsettles, ⟨revision, hnext⟩, hsealed⟩ :=
      h.settles_of_ticks hop hreadings hticks hlast
    have hopened : state.openInterval.openedAtMs.toNat ≤ now.toNat :=
      UInt64.le_iff_toNat_le.mp ((List.pairwise_cons.mp hreadings).1 now (by simp))
    rcases h.step_settles hsettles hopened with
      ⟨hnone, -⟩ | ⟨-, hreport, ⟨revision', -, -, hdirect⟩, hstored, -⟩
    · exact absurd hroom hnone
    · refine ⟨hreport, ⟨revision, ?_⟩, hsealed.trans hstored.symm⟩
      show last.2.producer = direct.2.producer.map _
      rw [show direct.2.producer = _ from hdirect]
      exact hnext
  · intro sealed runs hdirect
    obtain ⟨next, hsettles⟩ := h.settles_of_reported hop hdirect
    exact h.ticks_of_settles hsettles hreadings

omit [Sha256] in
/-- Two ticks, one of them idle, before a record that comes two intervals later. -/
theorem run_maintenance_sampleInputs :
    letI := Sha256.fips
    let w := (memoryRun sampleInputs).1
    let call := Input.call (clockOf 7 1250) (.admitRecord sampleRecord)
    let ticks := runTrace World.step w (ticksAt 7 [1120, 1130])
    ∃ (parts : List (List SealedSegment)) (rest : List SealedSegment) (runs : List AdmissionRun),
      tickReports ticks.2 = parts.map (fun part => some (part, []))
        ∧ reported (ticks.1.step call).1 = some (rest, runs)
        ∧ reported (w.step call).1 = some (parts.flatten ++ rest, runs) := by
  let := Sha256.fips
  intro w call ticks
  have hstate : (memoryRun sampleInputs).1.producer.map (fun state =>
      (state.active, state.openInterval.openedAtMs, state.openInterval.clockContinuityId))
        = some (true, 1000, 7) := by
    decide +kernel
  obtain ⟨state, hproducer, hstate⟩ := Option.map_eq_some_iff.mp hstate
  obtain ⟨hactive, hopened, hcontinuity⟩ := by simpa only [Prod.mk.injEq] using hstate
  have hreadings : (state.openInterval.openedAtMs :: ([1120, 1130] ++ [1250])).Pairwise
      (· ≤ ·) := by
    rw [hopened]
    decide
  have hmaintenance := run_maintenance sampleInputs state hproducer hactive
    (.admitRecord sampleRecord) (.inr rfl) [1120, 1130] 1250 hreadings
  rw [hcontinuity] at hmaintenance
  obtain ⟨htogether, halone⟩ := hmaintenance
  have hdirect : (reported (w.step call).1).isSome := by
    decide +kernel
  have hrevisions : ∀ entry ∈ (runTrace World.step w (ticksAt 7 [1120, 1130] ++ [call])).2,
      entry.2 ≠ some (.error revisionOverflow) := by
    decide +kernel
  obtain ⟨⟨sealed, runs⟩, hdirect⟩ := Option.isSome_iff_exists.mp hdirect
  rcases halone sealed runs hdirect with ⟨entry, hentry, herror⟩ | ⟨parts, rest, hticks, hlast⟩
  · exact absurd herror (hrevisions entry hentry)
  · exact ⟨parts, rest, runs, hticks, hlast, (htogether parts rest runs hticks hlast).1⟩

end World

end TrackOne
