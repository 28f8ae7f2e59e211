import TrackOne.Gateway.PostgresAgrees
import TrackOne.Gateway.Kept

/-!
# Runs on the PostgreSQL store

The tables agree with the producer's state after every run: `PostgresInvariant` is preserved by
every call and every restart, together with any property of the ledger that every committed
transition keeps (`KeptByCommits`). `World.postgres_refines` reads off it what one more operation
that reaches the store does to the tables.
-/

namespace TrackOne

variable [Sha256]

/-! ## Operations -/

/-- A transition that is planned from the state the tables agree with goes through if the capacity
check lets it. -/
theorem Agrees.planned {store : PostgresLedgerStore} {state : ProducerState}
    {segments : List SealedSegment} {op : Operation} {expected : Option UInt64}
    {t : LedgerTransition} {reply : Reply} (h : Agrees store state segments)
    (hchained : Chained state segments)
    (hplanned : Planned (LedgerStore.lookupIdempotency store) state op (.commit expected t reply))
    (hcapacity : store.checkCapacity t = .ok ()) :
    ∃ tables, store.compareAndSwap expected t = (.ok (), { store with tables })
      ∧ Agrees { store with tables } t.nextState (segments ++ t.sealed) := by
  obtain ⟨rfl, -⟩ := hplanned.of_commit
  obtain ⟨admitted, hcommits, hrouted⟩ := hplanned.routed hchained
  have hkey : ∀ admission, t.idempotency = some admission →
      admission.key ∉ store.tables.idempotency := by
    intro admission hadmission hmem
    have hnone : store.tables.idempotency[admission.key]? = none := by
      simpa [LedgerStore.lookupIdempotency] using hplanned.lookup_key admission hadmission
    rw [Std.ExtTreeMap.mem_iff_isSome_getElem?, hnone] at hmem
    cases hmem
  obtain ⟨tables, htransact, hagrees⟩ := h.transact hchained hcommits hrouted hkey hcapacity
  refine ⟨tables, ?_, hagrees⟩
  rw [PostgresLedgerStore.compareAndSwap, htransact]

/-- The capacity check refuses a transition before anything is written. -/
theorem Agrees.refused {store : PostgresLedgerStore} {state : ProducerState}
    {segments : List SealedSegment} {op : Operation} {expected : Option UInt64}
    {t : LedgerTransition} {reply : Reply} {error : ProducerError}
    (h : Agrees store state segments)
    (hplanned : Planned (LedgerStore.lookupIdempotency store) state op (.commit expected t reply))
    (hcapacity : store.checkCapacity t = .error error) :
    store.compareAndSwap expected t = (.error error, store) := by
  obtain ⟨-, admitted, hcommits⟩ := hplanned.of_commit
  have hledger : t.nextState.ledgerId = store.ledgerId :=
    hcommits.moves.identity.2.1.trans h.ledgerId
  have htransact : store.transact expected t = .error error := by
    simp only [PostgresLedgerStore.transact, hledger, decide_true, Except.require, hcapacity, bind,
      Except.bind, if_true]
  rw [PostgresLedgerStore.compareAndSwap, htransact]

omit [Sha256] in
/-- A new ledger has the row of its state and no other. -/
theorem agrees_creation {store : PostgresLedgerStore} {config : LedgerConfig} {now : UInt64}
    {continuityId : BitVec 128} {tables : Tables} (hempty : store.tables = Tables.empty)
    (h : store.transact none (creation config now continuityId) = .ok tables) :
    Agrees { store with tables } (createdState config now continuityId) [] := by
  simp only [PostgresLedgerStore.transact, Except.bind_eq_ok, Except.require_eq_ok,
    decide_eq_true_eq] at h
  obtain ⟨-, hledger, -, -, ⟨changed, written⟩, hwrite, -, -, sealed, hsealed, transferred,
    htransferred, inserted, hinserted, hidempotency⟩ := h
  -- nothing is sealed, transferred or admitted
  cases hsealed
  cases htransferred
  cases hinserted
  cases hidempotency
  simp only [PostgresLedgerStore.writeState, Tables.insertLedgerState, hempty, Tables.empty,
    Except.bind_eq_ok] at hwrite
  obtain ⟨-, -, hwrite⟩ := hwrite
  cases hwrite
  refine ⟨hledger, rfl, TreeMap.indexes_empty, by simp [createdState], ?_, ?_⟩
  · intro number
    simp
  · intro number ordinal
    simp

/-! ## Runs -/

/-- There is no ledger yet, or the tables agree with the state of the ledger and the producer, if
there is one, has that state. The ledger has the property. -/
inductive PostgresInvariant (P : ProducerState → List SealedSegment → Prop)
    (w : World PostgresLedgerStore) : Prop where
  | blank (htables : w.store.tables = Tables.empty) (hproducer : w.producer = none)
  | ledger {state : ProducerState} {segments : List SealedSegment}
      (hagrees : Agrees w.store state segments) (hchained : Chained state segments)
      (hholds : P state segments) (hproducer : ∀ state', w.producer = some state' → state' = state)

/-- There is a ledger with the property. -/
def Standing (P : ProducerState → List SealedSegment → Prop)
    (w : World PostgresLedgerStore) : Prop :=
  ∃ state segments, Agrees w.store state segments ∧ Chained state segments ∧ P state segments
    ∧ ∀ state', w.producer = some state' → state' = state

section

variable {P : ProducerState → List SealedSegment → Prop}

/-- An operation or an opening that is planned from the stored state keeps the agreement. -/
theorem Agrees.settle {store : PostgresLedgerStore} {state : ProducerState}
    {segments : List SealedSegment} {op : Operation} {plan : Plan} {before : Option ProducerState}
    (h : Agrees store state segments) (hchained : Chained state segments)
    (hP : ∀ {state : ProducerState} {segments : List SealedSegment}
      {admitted : List (Bytes × UInt64)} {t : LedgerTransition}, P state segments →
      Commits state admitted t → P t.nextState (segments ++ t.sealed))
    (hholds : P state segments) (hbefore : ∀ state', before = some state' → state' = state)
    (hplanned : Planned (LedgerStore.lookupIdempotency store) state op plan) :
    Standing P (World.settle before (plan.execute store)).2 := by
  cases plan with
  | done next reply =>
    obtain ⟨rfl, -⟩ := hplanned.of_done
    exact ⟨_, _, h, hchained, hholds, by simp [Plan.execute, World.settle]⟩
  | commit expected t reply =>
    cases hcapacity : store.checkCapacity t with
    | error error =>
      have hrefused := h.refused hplanned hcapacity
      simp only [Plan.execute, LedgerStore.compareAndSwap, hrefused, World.settle]
      exact ⟨_, _, h, hchained, hholds, hbefore⟩
    | ok u =>
      obtain ⟨-, admitted, hcommits⟩ := hplanned.of_commit
      obtain ⟨tables, hcas, hagrees⟩ := h.planned hchained hplanned hcapacity
      simp only [Plan.execute, LedgerStore.compareAndSwap, hcas, World.settle]
      exact ⟨_, _, hagrees, hcommits.chained hchained, hP hholds hcommits, by simp⟩

/-- Once there is a ledger, an input keeps what its committed transitions keep. -/
theorem Agrees.step {w : World PostgresLedgerStore} {state : ProducerState}
    {segments : List SealedSegment} (h : Agrees w.store state segments)
    (hchained : Chained state segments)
    (hP : ∀ {state : ProducerState} {segments : List SealedSegment}
      {admitted : List (Bytes × UInt64)} {t : LedgerTransition}, P state segments →
      Commits state admitted t → P t.nextState (segments ++ t.sealed))
    (hholds : P state segments) (hsame : ∀ state', w.producer = some state' → state' = state)
    (input : Input) : Standing P (w.step input).2 := by
  cases input with
  | call clock op =>
    unfold World.step
    cases hproducer : w.producer with
    | none => exact ⟨_, _, h, hchained, hholds, by simp [hproducer]⟩
    | some state' =>
      obtain rfl := hsame state' hproducer
      dsimp only
      cases hplan : op.plan (LedgerStore.lookupIdempotency w.store) state' clock with
      | error error => exact ⟨_, _, h, hchained, hholds, by simp [executePlan, World.settle]⟩
      | ok plan => exact h.settle hchained hP hholds (by simp) (Operation.plan_planned hplan)
  | restart clock config =>
    unfold World.step
    dsimp only
    cases hplan : openOrCreate (LedgerStore.load w.store) clock config with
    | error error => exact ⟨_, _, h, hchained, hholds, by simp [executePlan, World.settle]⟩
    | ok plan =>
      have hload : (LedgerStore.load w.store : Except ProducerError (Option ProducerState))
          = .ok (some state) := h.load_eq
      rcases openOrCreate_eq_ok hplan with ⟨state', hloaded, -, hreactivate⟩ | ⟨hloaded, -⟩
      · rw [hload] at hloaded
        cases hloaded
        have hplanned : Planned (LedgerStore.lookupIdempotency w.store) state .reactivate plan :=
          reactivate_planned rfl hreactivate
        exact h.settle hchained hP hholds (by simp) hplanned
      · rw [hload] at hloaded
        cases hloaded

theorem PostgresInvariant.step {w : World PostgresLedgerStore} (h : PostgresInvariant P w)
    (hP : KeptByCommits P) (input : Input) : PostgresInvariant P (w.step input).2 := by
  cases h with
  | ledger hagrees hchained hholds hsame =>
    obtain ⟨_, _, hagrees', hchained', hholds', hsame'⟩ :=
      hagrees.step hchained hP.commits hholds hsame input
    exact .ledger hagrees' hchained' hholds' hsame'
  | blank htables hnone =>
    -- there is no ledger yet: only a restart can create one
    cases input with
    | call clock op =>
      unfold World.step
      rw [hnone]
      exact .blank htables hnone
    | restart clock config =>
      unfold World.step
      dsimp only
      cases hplan : openOrCreate (LedgerStore.load w.store) clock config with
      | error error => exact .blank htables rfl
      | ok plan =>
        have hload : (LedgerStore.load w.store : Except ProducerError (Option ProducerState))
            = .ok none := by
          simp [LedgerStore.load, PostgresLedgerStore.load, htables, Tables.empty]
        rcases openOrCreate_eq_ok hplan with ⟨state, hloaded, -⟩ | ⟨-, hpolicy, now, rfl⟩
        · rw [hload] at hloaded
          cases hloaded
        · simp only [executePlan, Plan.execute, LedgerStore.compareAndSwap,
            PostgresLedgerStore.compareAndSwap]
          cases htransact : w.store.transact none (creation config now clock.reopenContinuityId)
            with
          | error error => exact .blank htables rfl
          | ok tables =>
            exact .ledger (agrees_creation htables htransact) (Ledger.created hpolicy).chained
              (hP.created config now clock.reopenContinuityId) (by simp [World.settle, creation])

end

/-- The records of a sealed segment can be counted in 64 bits. -/
theorem Chained.length_records {state : ProducerState} {segments : List SealedSegment} {i : Nat}
    {segment : SealedSegment} (h : Chained state segments) (hi : segments[i]? = some segment) :
    segment.records.length < 2 ^ 64 := by
  obtain ⟨r, hr⟩ := h.chain i segment hi
  rw [← hr.recordCount]
  exact r.recordCount.toNat_lt

/-- What is read from the tables: the open records, the records of every sealed segment, and the
state that `load` returns. -/
structure ReadsBack (store : PostgresLedgerStore) (state : ProducerState)
    (segments : List SealedSegment) : Prop where
  openRecords : store.tables.openRecords = state.openInterval.records
  sealedRecords : ∀ segment ∈ segments,
    store.tables.sealedRecords segment.segmentNumber = segment.records
  load : store.load = .ok (some state)

theorem Agrees.readsBack {store : PostgresLedgerStore} {state : ProducerState}
    {segments : List SealedSegment} (h : Agrees store state segments)
    (hchained : Chained state segments) : ReadsBack store state segments := by
  refine ⟨h.openRecords_eq, ?_, h.load_eq⟩
  intro segment hmem
  obtain ⟨i, hi⟩ := List.mem_iff_getElem?.mp hmem
  apply h.sealedRecords_eq
  · rw [hchained.chain.segmentNumber hi]
    exact hi
  · exact (hchained.length_records hi).le

namespace World

/-- A run on an empty PostgreSQL store. -/
def postgresRun (ledgerId : String) (limits : CapacityLimits) (inputs : List Input) :
    World PostgresLedgerStore × List (Input × Answer) :=
  run (PostgresLedgerStore.new ledgerId limits) inputs

/-- The tables and the producer agree after every run. -/
theorem postgres_invariant {P : ProducerState → List SealedSegment → Prop} (hP : KeptByCommits P)
    (ledgerId : String) (limits : CapacityLimits) (inputs : List Input) :
    PostgresInvariant P (postgresRun ledgerId limits inputs).1 := by
  apply runTrace_induction (P := fun w _ => PostgresInvariant P w)
  · exact .blank rfl rfl
  · intro w trace input h
    exact h.step hP input

/-- The delta written to PostgreSQL refines the full state. In every run on the PostgreSQL store the
tables agree with the producer's state and the segments it has sealed. An operation that reaches the
store either is refused by the capacity check, with no row changed, or goes through: no key is
inserted twice and both row counts are right, and afterwards the open rows, the rows of every sealed
segment and the state that `load` returns are those of the next state. -/
theorem postgres_refines (ledgerId : String) (limits : CapacityLimits) (inputs : List Input)
    (state : ProducerState)
    (hproducer : (postgresRun ledgerId limits inputs).1.producer = some state) :
    ∃ segments, Chained state segments
      ∧ Agrees (postgresRun ledgerId limits inputs).1.store state segments
      ∧ ∀ (clock : ClockReadings) (op : Operation) (expected : Option UInt64)
          (t : LedgerTransition) (reply : Reply),
          op.plan (LedgerStore.lookupIdempotency (postgresRun ledgerId limits inputs).1.store)
              state clock = .ok (.commit expected t reply) →
          (∀ error, (postgresRun ledgerId limits inputs).1.store.checkCapacity t = .error error →
            (postgresRun ledgerId limits inputs).1.store.compareAndSwap expected t
              = (.error error, (postgresRun ledgerId limits inputs).1.store))
          ∧ ((postgresRun ledgerId limits inputs).1.store.checkCapacity t = .ok () →
            ∃ store', (postgresRun ledgerId limits inputs).1.store.compareAndSwap expected t
                = (.ok (), store')
              ∧ Agrees store' t.nextState (segments ++ t.sealed)
              ∧ ReadsBack store' t.nextState (segments ++ t.sealed)) := by
  have hP : KeptByCommits fun _ _ => True := ⟨fun _ _ _ => trivial, fun _ _ => trivial⟩
  cases postgres_invariant hP ledgerId limits inputs with
  | blank _ hnone =>
    rw [hproducer] at hnone
    cases hnone
  | @ledger state' segments hagrees hchained _ hsame =>
    obtain rfl := hsame state hproducer
    refine ⟨segments, hchained, hagrees, ?_⟩
    intro clock op expected t reply hplan
    have hplanned := Operation.plan_planned hplan
    refine ⟨fun error hcapacity => hagrees.refused hplanned hcapacity, ?_⟩
    intro hcapacity
    obtain ⟨-, admitted, hcommits⟩ := hplanned.of_commit
    obtain ⟨tables, hcas, hafter⟩ := hagrees.planned hchained hplanned hcapacity
    exact ⟨_, hcas, hafter, hafter.readsBack (hcommits.chained hchained)⟩

/-- An operation reaches the store from the world's producer and is not refused for capacity. -/
def reachesStore (w : World PostgresLedgerStore) (clock : ClockReadings) (op : Operation) : Bool :=
  match w.producer with
  | none => false
  | some state =>
    match op.plan (LedgerStore.lookupIdempotency w.store) state clock with
    | .ok (.commit _ t _) => match w.store.checkCapacity t with
      | .ok () => true
      | .error _ => false
    | _ => false

omit [Sha256] in
/-- The record of the sample inputs is sealed by a manual close and read back. -/
theorem postgres_refines_sampleInputs :
    letI := Sha256.fips
    ∃ state t store' segments,
      (postgresRun "b7a1d5e40c6f438e9a75db27c96f31aa" ⟨none, none⟩ sampleInputs).1.producer
          = some state
      ∧ (postgresRun "b7a1d5e40c6f438e9a75db27c96f31aa" ⟨none, none⟩
          sampleInputs).1.store.compareAndSwap (some state.revision) t = (.ok (), store')
      ∧ ReadsBack store' t.nextState segments := by
  let := Sha256.fips
  have hreaches : reachesStore
      (postgresRun "b7a1d5e40c6f438e9a75db27c96f31aa" ⟨none, none⟩ sampleInputs).1
      ⟨.ok 1050, 7, 7⟩ (.close .manual) := by
    decide +kernel
  unfold reachesStore at hreaches
  split at hreaches
  · cases hreaches
  · next state hstate =>
    split at hreaches
    · next expected t reply hplan =>
      split at hreaches
      · next hcapacity =>
        obtain ⟨segments, -, -, hop⟩ := postgres_refines _ _ _ state hstate
        obtain ⟨store', hcas, -, hreads⟩ := (hop _ _ _ _ _ hplan).2 hcapacity
        obtain ⟨rfl, -⟩ := (Operation.plan_planned hplan).of_commit
        exact ⟨state, t, store', _, hstate, hcas, hreads⟩
      · cases hreaches
    · cases hreaches

end World

end TrackOne
