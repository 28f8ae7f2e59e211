import TrackOne.Lib.Simulation
import TrackOne.Gateway.Maintenance
import TrackOne.Gateway.Workers

/-!
# The gateway retells the in-memory producer

What is proved of `MemoryLedgerStore` is meant for the tables. A producer on the tables plans what a
producer on the in-memory store plans, because both lookups and both loads answer alike; its
transition then goes through on both, or the capacity check refuses it on the tables and nothing
happens. Workers write beside it.

* `Mirrors` relates the tables to an in-memory store, and `Mirrors.step` is one step of the
  simulation.
* `Retells` relates the traces: answers are the same, but for calls that are refused.
* `Gateway.run_retold`: every interleaving retells a run on the in-memory store, and so the tables
  hold the records of exactly the accepted calls, and every accepted key is answered from its first
  call. -/

namespace TrackOne

open TreeMap (Indexes)

/-! ## The idempotency rows -/

section

open PostgresLedgerStore

variable {store : PostgresLedgerStore} {tables tables' : Tables} {t : LedgerTransition}

/-- A committed transition adds its idempotency row as the in-memory store does. -/
theorem Writes.idempotency {expectedRevision : Option UInt64}
    {stated sealed closed admitted : Tables} {mirror : MemoryLedgerStore}
    (h : Writes store expectedRevision t stated sealed closed admitted tables')
    (hmirror : mirror.idempotency = store.tables.idempotency) :
    (mirror.apply t).idempotency = tables'.idempotency := by
  have hstated : stated.idempotency = store.tables.idempotency := by
    obtain ⟨_, _, rfl⟩ := writeState_writes h.stateRow
    rfl
  have hsealed : sealed.idempotency = stated.idempotency := by
    refine Except.foldlM_induction (P := fun _ (after : Tables) =>
      after.idempotency = stated.idempotency) h.segmentRows rfl ?_
    intro _ before segment after hbefore hinsert
    obtain ⟨-, -, rfl⟩ := insertSealedSegment_eq_ok hinsert
    exact hbefore
  have hbefore : mirror.idempotency = admitted.idempotency :=
    hmirror.trans (h.records.idempotency.trans (hsealed.trans hstated)).symm
  have hrow := h.idempotencyRow
  unfold MemoryLedgerStore.apply
  cases hidempotency : t.idempotency with
  | none =>
    rw [hidempotency] at hrow
    cases hrow
    exact hbefore
  | some admission =>
    rw [hidempotency] at hrow
    simp only [writeIdempotency, Except.bind_eq_ok, Except.require_eq_ok,
      Tables.insertIdempotency] at hrow
    obtain ⟨-, hinserted, hrow⟩ := hrow
    -- a row that is there already is not inserted, and one row must have been
    split_ifs at hinserted hrow
    · simp at hinserted
    · cases hrow
      show mirror.idempotency.insert _ _ = admitted.idempotency.insert _ _
      rw [hbefore]

end

variable [Sha256]

/-! ## The simulation -/

/-- What only the tables refuse: an admission for which there is no capacity, or the creation of a
ledger. -/
inductive Refused : Input → ProducerError → Prop where
  | capacity {store : PostgresLedgerStore} {t : LedgerTransition} {error : ProducerError}
      {clock : ClockReadings} {op : Operation} (hop : op.admission.isSome)
      (hcapacity : store.checkCapacity t = .error error) : Refused (.call clock op) error
  | creation (clock : ClockReadings) (config : LedgerConfig) (error : ProducerError) :
      Refused (.restart clock config) error

/-- The tables and the in-memory store hold the same ledger, under the same producer. -/
structure Mirrors (w : World PostgresLedgerStore) (m : World MemoryLedgerStore) : Prop where
  ledger : (w.store.tables = Tables.empty ∧ m.store.state = none)
    ∨ ∃ state segments, Agrees w.store state segments ∧ Chained state segments
      ∧ m.store.state = some state ∧ Indexes m.store.sealed segments
  idempotency : m.store.idempotency = w.store.tables.idempotency
  producer : m.producer = w.producer

namespace Mirrors

variable {w : World PostgresLedgerStore} {m : World MemoryLedgerStore}
variable {trace : List (Input × Answer)} {state : ProducerState}

theorem lookup (h : Mirrors w m) :
    (LedgerStore.lookupIdempotency w.store : String →
      Except ProducerError (Option IdempotencyRecord))
      = LedgerStore.lookupIdempotency m.store := by
  funext key
  show Except.ok w.store.tables.idempotency[key]? = Except.ok m.store.idempotency[key]?
  rw [h.idempotency]

theorem load (h : Mirrors w m) :
    (LedgerStore.load w.store : Except ProducerError (Option ProducerState))
      = LedgerStore.load m.store := by
  show w.store.load = Except.ok m.store.state
  rcases h.ledger with ⟨htables, hnone⟩ | ⟨state, segments, hagrees, -, hstate, -⟩
  · rw [hnone, PostgresLedgerStore.load, htables]
    rfl
  · rw [hstate, hagrees.load_eq]

/-- Only the producer changes. -/
theorem settled (h : Mirrors w m) (producer : Option ProducerState) :
    Mirrors ⟨w.store, producer⟩ ⟨m.store, producer⟩ := ⟨h.ledger, h.idempotency, rfl⟩

/-- A transition that is planned from the stored state goes through on the in-memory store. On the
tables it goes through as well, unless the capacity check refuses it. -/
theorem commit {expected : Option UInt64} {t : LedgerTransition} {reply : Reply} {op : Operation}
    (h : Mirrors w m) (hm : WorldInvariant m trace) (hstate : m.store.state = some state)
    (hplanned : Planned (LedgerStore.lookupIdempotency m.store) state op
      (.commit expected t reply)) :
    LedgerStore.compareAndSwap m.store expected t = (.ok (), m.store.apply t)
      ∧ ((∃ error, w.store.checkCapacity t = .error error
            ∧ LedgerStore.compareAndSwap w.store expected t = (.error error, w.store))
        ∨ ∃ store, LedgerStore.compareAndSwap w.store expected t = (.ok (), store)
            ∧ ∀ producer, Mirrors ⟨store, producer⟩ ⟨m.store.apply t, producer⟩) := by
  have hfree := hplanned.not_conflicts hm.store hstate
  have hmemory : m.store.compareAndSwap expected t = (.ok (), m.store.apply t) := by
    rw [MemoryLedgerStore.compareAndSwap, hfree]
    rfl
  refine ⟨hmemory, ?_⟩
  rcases h.ledger with ⟨-, hnone⟩ | ⟨state', segments, hagrees, hchained, hstate', hindexes⟩
  · rw [hstate] at hnone
    cases hnone
  rw [hstate] at hstate'
  cases hstate'
  rw [← h.lookup] at hplanned
  cases hcapacity : w.store.checkCapacity t with
  | error error => exact .inl ⟨error, rfl, hagrees.refused hplanned hcapacity⟩
  | ok u =>
    obtain ⟨tables, hcas, hafter⟩ := hagrees.planned hchained hplanned hcapacity
    refine .inr ⟨_, hcas, fun producer => ⟨.inr ?_, ?_, rfl⟩⟩
    · obtain ⟨-, admitted, hcommits⟩ := hplanned.of_commit
      have hnext := hcommits.chained hchained
      exact ⟨_, _, hafter, hnext, rfl, indexes_foldl_insert hindexes fun i segment hi =>
        hnext.chain.segmentNumber hi⟩
    · -- both stores add the row of the request, if the transition has one
      have htransact : w.store.transact expected t = .ok tables := by
        have hcas' : w.store.compareAndSwap expected t = (.ok (), { w.store with tables }) := hcas
        rw [PostgresLedgerStore.compareAndSwap] at hcas'
        cases hresult : w.store.transact expected t with
        | error error =>
          rw [hresult] at hcas'
          cases hcas'
        | ok tables' =>
          rw [hresult] at hcas'
          cases hcas'
          rfl
      obtain ⟨stated, sealed, closed, inserted, hwrites⟩ :=
        transact_eq_ok htransact
      exact hwrites.idempotency h.idempotency

/-- An executed plan: the answers and the worlds are the same, or the capacity check refuses it,
which it does to admissions alone. -/
theorem settle {op : Operation} {plan : Plan} (before : Option ProducerState) (h : Mirrors w m)
    (hm : WorldInvariant m trace) (hstate : m.store.state = some state)
    (hplanned : Planned (LedgerStore.lookupIdempotency m.store) state op plan) :
    ((World.settle before (plan.execute w.store)).1 = (World.settle before (plan.execute m.store)).1
        ∧ Mirrors (World.settle before (plan.execute w.store)).2
          (World.settle before (plan.execute m.store)).2)
      ∨ ∃ t error, op.admission.isSome ∧ w.store.checkCapacity t = .error error
        ∧ World.settle before (plan.execute w.store)
          = (some (.error error), ⟨w.store, before⟩) := by
  cases plan with
  | done next reply => exact .inl ⟨rfl, h.settled (some next)⟩
  | commit expected t reply =>
    obtain ⟨hmemory, ⟨error, hcapacity, hcas⟩ | ⟨store, hcas, hafter⟩⟩ :=
      h.commit hm hstate hplanned
    · refine .inr ⟨t, error, ?_, hcapacity, ?_⟩
      · cases hplanned with
        | maintained _ _ hdeltas =>
          -- what admits nothing needs no capacity
          rw [PostgresLedgerStore.checkCapacity, if_neg (fun hadmits => hadmits.1 hdeltas)]
            at hcapacity
          cases hcapacity
        | admitted hop =>
          rw [hop]
          rfl
      · simp only [Plan.execute, hcas, World.settle]
    · left
      simp only [Plan.execute, hcas, hmemory, World.settle]
      exact ⟨trivial, hafter _⟩

/-- A ledger is created on both stores, or the tables refuse it. -/
theorem create (h : Mirrors w m) (hm : WorldInvariant m trace) (hnone : m.store.state = none)
    {config : LedgerConfig} (hpolicy : config.policy.validate = .ok ()) (now : UInt64)
    (continuityId : BitVec 128) :
    letI plan := Plan.commit none (creation config now continuityId) .unit
    ((World.settle none (plan.execute w.store)).1 = (World.settle none (plan.execute m.store)).1
        ∧ Mirrors (World.settle none (plan.execute w.store)).2
          (World.settle none (plan.execute m.store)).2)
      ∨ ∃ error, (World.settle none (plan.execute w.store)).1 = some (.error error)
        ∧ Mirrors (World.settle none (plan.execute w.store)).2 m := by
  have htables : w.store.tables = Tables.empty := by
    rcases h.ledger with ⟨htables, -⟩ | ⟨_, _, -, -, hstate, -⟩
    · exact htables
    · rw [hnone] at hstate
      cases hstate
  have hproducer : m.producer = none := by
    cases hm' : m.producer with
    | none => rfl
    | some state =>
      rw [hm.producer state hm'] at hnone
      cases hnone
  obtain ⟨hsealed, -⟩ := hm.store.of_none hnone
  have hfree : m.store.conflicts none (creation config now continuityId) = false := by
    simp [MemoryLedgerStore.conflicts, hnone, creation]
  simp only [Plan.execute, LedgerStore.compareAndSwap, MemoryLedgerStore.compareAndSwap, hfree,
    PostgresLedgerStore.compareAndSwap]
  cases htransact : w.store.transact none (creation config now continuityId) with
  | error error => exact .inr ⟨error, rfl, h.ledger, h.idempotency, hproducer⟩
  | ok tables =>
    left
    refine ⟨rfl, .inr ⟨_, _, agrees_creation htables htransact, (Ledger.created hpolicy).chained,
      rfl, ?_⟩, ?_, rfl⟩
    · show Indexes m.store.sealed []
      rw [hsealed]
      exact TreeMap.indexes_empty
    · obtain ⟨stated, sealed, closed, inserted, hwrites⟩ :=
        transact_eq_ok htransact
      exact hwrites.idempotency h.idempotency

/-- One step. On the tables it is the step on the in-memory store, or it is refused: the answer is
an error, and the tables and the producer go on mirroring the store as it was. -/
theorem step (h : Mirrors w m) (hm : WorldInvariant m trace) (input : Input) :
    ((w.step input).1 = (m.step input).1 ∧ Mirrors (w.step input).2 (m.step input).2)
      ∨ ∃ error, Refused input error ∧ (w.step input).1 = some (.error error)
        ∧ Mirrors (w.step input).2 m := by
  cases input with
  | call clock op =>
    unfold World.step
    rw [h.producer]
    cases hproducer : w.producer with
    | none => exact .inl ⟨rfl, h⟩
    | some state =>
      have hw : (⟨w.store, some state⟩ : World PostgresLedgerStore) = w := by rw [← hproducer]
      have hstate := hm.producer state (h.producer.trans hproducer)
      dsimp only
      rw [h.lookup]
      -- the plan is the same on both stores, and only its transition may be refused
      cases hplan : op.plan (LedgerStore.lookupIdempotency m.store) state clock with
      | error error => exact .inl ⟨rfl, h.settled (some state)⟩
      | ok plan =>
        rcases h.settle (some state) hm hstate (Operation.plan_planned hplan) with hsame |
          ⟨t, error, hop, hcapacity, hrefused⟩
        · exact .inl hsame
        · refine .inr ⟨error, .capacity hop hcapacity, ?_⟩
          simp only [executePlan, hrefused, hw]
          exact ⟨trivial, h⟩
  | restart clock config =>
    unfold World.step
    dsimp only
    rw [h.load]
    -- a restart reactivates the stored state
    cases hplan : openOrCreate (LedgerStore.load m.store) clock config with
    | error error => exact .inl ⟨rfl, h.settled none⟩
    | ok plan =>
      rcases openOrCreate_eq_ok hplan
        with ⟨state, hloaded, -, hreactivate⟩ | ⟨hloaded, hpolicy, now, rfl⟩
      · have hstate : m.store.state = some state := Except.ok.inj hloaded
        have hplanned : Planned (LedgerStore.lookupIdempotency m.store) state .reactivate plan :=
          reactivate_planned rfl hreactivate
        rcases h.settle none hm hstate hplanned with hsame | ⟨t, error, hop, -⟩
        · exact .inl hsame
        · cases hop
      -- or it creates the ledger, which the tables may refuse
      · have hnone : m.store.state = none := Except.ok.inj hloaded
        rcases h.create hm hnone hpolicy now clock.reopenContinuityId with hsame | ⟨error, hafter⟩
        · exact .inl hsame
        · exact .inr ⟨error, .creation clock config error, hafter⟩

end Mirrors

/-! ## The traces -/

/-- A trace with the same answers, but for calls and openings that are refused. -/
inductive Retells : List (Input × Answer) → List (Input × Answer) → Prop where
  | nil : Retells [] []
  | told {trace trace' : List (Input × Answer)} (entry : Input × Answer)
    (h : Retells trace trace') :
      Retells (trace ++ [entry]) (trace' ++ [entry])
  | refused {trace trace' : List (Input × Answer)} {input : Input} {error : ProducerError}
      (hrefused : Refused input error) (h : Retells trace trace') : Retells
        (trace ++ [(input, some (.error error))]) trace'

/-- What is refused accepts nothing. -/
theorem Retells.accepted {trace trace' : List (Input × Answer)} (h : Retells trace trace') :
    acceptedOf trace = acceptedOf trace' := by
  induction h with
  | nil => rfl
  | told entry _ ih => rw [acceptedOf_concat, acceptedOf_concat, ih]
  | @refused trace trace' input error _ _ ih =>
    have hnone : acceptedOf [(input, some (.error error))] = [] := by cases input <;> rfl
    rw [acceptedOf_concat, hnone, List.append_nil, ih]

/-- A key that is kept answers a call, on any store, and nothing changes. -/
theorem World.step_kept {S : Type} [LedgerStore S] {w : World S} {state : ProducerState}
    {clock : ClockReadings} {op : Operation} {records : List Bytes} {key digest : String}
    {existing : IdempotencyRecord} {outcome : AdmissionOutcome}
    (hproducer : w.producer = some state)
    (hop : op.admission = some (records, some (key, digest))) (hkey : validateKey key = .ok ())
    (hlookup : LedgerStore.lookupIdempotency w.store key = .ok (some existing))
    (houtcome : replayedOutcome existing = .ok outcome) :
    w.step (.call clock op)
      = (some (if digest = existing.requestSha256 then .ok (.admitted outcome)
          else .error .idempotencyConflict), w) := by
  have hplan :=
    (@Operation.plan_keyed _ (LedgerStore.lookupIdempotency w.store) state clock op records
    key digest hop hkey).trans (admitBatchIdempotentDigest_kept hkey hlookup houtcome)
  have hw : (⟨w.store, some state⟩ : World S) = w := by rw [← hproducer]
  unfold World.step
  simp only [hproducer, hplan]
  split_ifs with hdigest
  · rw [executePlan, Plan.execute, World.settle, hw]
  · rw [executePlan, World.settle, hw]

/-! ## The records in the tables -/

omit [Sha256] in
/-- All records in the tables, each with the number of its segment: those of the segments before the
next one by their numbers, and then the open ones. -/
def PostgresLedgerStore.located (store : PostgresLedgerStore) : List (Bytes × UInt64) :=
  let next := (store.tables.ledgerState.map LedgerStateRow.nextSegmentNumber).getD 0
  ((List.range next.toNat).flatMap fun i =>
      (store.tables.sealedRecords (UInt64.ofNat i)).map (·, UInt64.ofNat i))
    ++ store.tables.openRecords.map (·, next)

/-- The tables hold the records that the in-memory store holds, in the same places. -/
theorem Mirrors.located {w : World PostgresLedgerStore} {m : World MemoryLedgerStore}
    {trace : List (Input × Answer)} (h : Mirrors w m) (hm : WorldInvariant m trace) :
    w.store.located = m.store.located := by
  rcases h.ledger with ⟨htables, hnone⟩ | ⟨state, segments, hagrees, hchained, hstate, hindexes⟩
  · have hsegments : m.store.segments = [] := by
      rw [MemoryLedgerStore.segments, (hm.store.of_none hnone).1]
      rfl
    rw [PostgresLedgerStore.located, MemoryLedgerStore.located, htables, hnone, hsegments]
    rfl
  · have hnext := hchained.nextSegmentNumber
    have hsegments : m.store.segments = segments := by
      apply hindexes.map_snd_toList
      rw [← hnext]
      exact state.nextSegmentNumber.toNat_lt.le
    have hsealed : ((List.range state.nextSegmentNumber.toNat).flatMap fun i =>
        (w.store.tables.sealedRecords (UInt64.ofNat i)).map (·, UInt64.ofNat i))
        = segments.flatMap fun segment => segment.records.map (·, segment.segmentNumber) := by
      rw [hnext, List.flatMap_def, List.flatMap_def]
      congr 1
      apply List.ext_getElem
      · simp
      · intro i hi hi'
        rw [List.getElem_map, List.getElem_map, List.getElem_range]
        have hlt : i < segments.length := by simpa using hi'
        have hget : segments[i]? = some segments[i] := List.getElem?_eq_getElem hlt
        have hnumber : segments[i].segmentNumber = UInt64.ofNat i := by
          apply UInt64.toNat_inj.mp
          rw [hchained.chain.segmentNumber hget, UInt64.toNat_ofNat_of_lt64]
          have hbound := state.nextSegmentNumber.toNat_lt
          omega
        rw [← hnumber, hagrees.sealedRecords_eq ?_ (hchained.length_records hget).le]
        rw [hchained.chain.segmentNumber hget]
        exact hget
    rw [PostgresLedgerStore.located, MemoryLedgerStore.located, hagrees.ledgerState, hstate,
      hagrees.openRecords_eq, hsegments]
    show _ ++ _ = _ ++ _
    rw [← hsealed]
    rfl

namespace Gateway

variable {config : TimestampWorkerConfig} {g : Gateway}

omit [Sha256] in
/-- The inputs and answers of the producer. -/
def produced (trace : List (GatewayInput × GatewayAnswer)) : List (Input × Answer) :=
  trace.filterMap fun entry =>
    match entry with
    | (.produce _ input, .produced answer) => some (input, answer)
    | _ => none

theorem answer_produce (now : Timestamp) (input : Input) :
    (g.step config (.produce now input)).1 = .produced (g.world.step input).1 := by
  have hview := Transaction.tables.step ⟨⟨g.pipeline, now⟩, g.producer⟩ input
  exact congrArg GatewayAnswer.produced (congrArg Prod.fst hview).symm

omit [Sha256] in
theorem produced_concat (trace : List (GatewayInput × GatewayAnswer)) (now : Timestamp)
    (input : Input)
    (answer : Answer) :
    produced (trace ++ [(.produce now input, .produced answer)])
      = produced trace ++ [(input, answer)] := by
  simp [produced]

omit [Sha256] in
theorem produced_work (trace : List (GatewayInput × GatewayAnswer)) (input : WorkerInput)
    (answer : GatewayAnswer) : produced (trace ++ [(.work input, answer)]) = produced trace := by
  simp [produced]

/-- A gateway after a trace, and a run on the in-memory store that it retells. -/
structure Retold (g : Gateway) (trace : List (GatewayInput × GatewayAnswer))
    (m : World MemoryLedgerStore) (trace' : List (Input × Answer)) : Prop where
  mirrors : Mirrors g.world m
  invariant : WorldInvariant m trace'
  retells : Retells (produced trace) trace'

namespace Retold

variable {trace : List (GatewayInput × GatewayAnswer)} {m : World MemoryLedgerStore}
  {trace' : List (Input × Answer)}

/-- Workers write beside the ledger. -/
theorem work (h : Retold g trace m trace') (input : WorkerInput) :
    Retold (g.step config (.work input)).2
      (trace ++ [(.work input, (g.step config (.work input)).1)]) m trace' := by
  have hrestamped := Restamped.work config g.pipeline input
  refine ⟨⟨?_, ?_, h.mirrors.producer⟩, h.invariant, ?_⟩
  · rcases h.mirrors.ledger with ⟨htables, hnone⟩ | ⟨state, segments, hagrees, hrest⟩
    · exact .inl ⟨hrestamped.empty htables, hnone⟩
    · exact .inr ⟨state, segments, hagrees.restamped hrestamped, hrest⟩
  · exact h.mirrors.idempotency.trans hrestamped.idempotency.symm
  · rw [produced_work]
    exact h.retells

/-- Every step of the gateway is told by one step of the in-memory producer, or by none. -/
theorem step (h : Retold g trace m trace') (input : GatewayInput) :
    Retold (g.step config input).2 (trace ++ [(input, (g.step config input).1)]) m trace'
      ∨ ∃ call, Retold (g.step config input).2 (trace ++ [(input, (g.step config input).1)])
        (m.step call).2 (trace' ++ [(call, (m.step call).1)]) := by
  cases input with
  | work input => exact .inl (h.work input)
  | produce now input =>
    rw [answer_produce]
    have hworld := @world_produce _ config g now input
    rcases h.mirrors.step h.invariant input
      with ⟨hanswer, hmirrors⟩ | ⟨error, hrefused, hanswer, hmirrors⟩
    · refine .inr ⟨input, hworld ▸ hmirrors, h.invariant.step input, ?_⟩
      rw [produced_concat, hanswer]
      exact .told _ h.retells
    · refine .inl ⟨hworld ▸ hmirrors, h.invariant, ?_⟩
      rw [produced_concat, hanswer]
      exact .refused hrefused h.retells

/-- The tables hold the records of the accepted calls, each where its call was told. -/
theorem located_eq (h : Retold g trace m trace') :
    g.pipeline.store.located
      = (acceptedOf (produced trace)).flatMap fun call => call.records.zip call.numbers := by
  rw [h.retells.accepted, ← h.invariant.store.located_eq]
  exact h.mirrors.located h.invariant

/-- A key that was accepted is answered from its first call, and nothing changes. -/
theorem replay (h : Retold g trace m trace') {call : AcceptedCall} {key digest digest' : String}
    {records : List Bytes} {op : Operation} (hcall : call ∈ acceptedOf (produced trace))
    (hrequest : call.request = some (key, digest))
    (hop : op.admission = some (records, some (key, digest'))) (hproducer : g.producer.isSome)
    (now : Timestamp) (clock : ClockReadings) :
    g.step config (.produce now (.call clock op))
      = (.produced (some (if digest' = digest
          then .ok (.admitted { call.outcome with sealed := [], replayed := true })
          else .error .idempotencyConflict)), g) := by
  obtain ⟨state, hstate⟩ := Option.isSome_iff_exists.mp hproducer
  rw [h.retells.accepted] at hcall
  obtain ⟨segments, -, -, hkept⟩ :=
    h.invariant.store.of_state (h.invariant.producer state (h.mirrors.producer.trans hstate))
  obtain ⟨existing, hexisting, rfl, houtcome⟩ := hkept.answered call hcall key digest hrequest
  have hlookup : LedgerStore.lookupIdempotency (⟨g.pipeline, now⟩ : Transaction) key
      = .ok (some existing) := by
    rw [← hexisting, h.mirrors.idempotency]
    rfl
  have hstep :=
    @World.step_kept _ _ _ ⟨(⟨g.pipeline, now⟩ : Transaction), g.producer⟩ _ clock _ _ _ _
    _ _ hstate hop (hkept.valid call hcall key _ hrequest) hlookup houtcome
  simp only [Gateway.step, hstep]

end Retold

/-- After every run of the gateway there is a run on the in-memory store that it retells. -/
theorem run_simulation (config : TimestampWorkerConfig) (ledgerId : String)
    (limits : CapacityLimits)
    (inputs : List GatewayInput) :
    ∃ calls, Retold (run config ledgerId limits inputs).1 (run config ledgerId limits inputs).2
      (World.memoryRun calls).1 (World.memoryRun calls).2 := by
  refine runTrace_simulation (R := Retold) ?_ ?_ inputs
  · refine ⟨⟨.inl ⟨rfl, rfl⟩, rfl, rfl⟩, World.run_invariant [], .nil⟩
  · intro g trace m trace' input h
    exact h.step input

/-- A gateway on PostgreSQL is a producer on the in-memory store, in every interleaving with its
workers and restarts: the same calls are answered in the same way, but for admissions that the
capacity check refuses and ledgers that cannot be created, which change nothing. The tables hold the
state, the segments and the idempotency records of that store, and the records of exactly the
accepted calls, in order, each in the segment that its call was told. A key is accepted once; from
then on it is answered from that call, at any time and under any clock, or with a conflict, and
nothing changes. -/
theorem run_retold (config : TimestampWorkerConfig) (ledgerId : String) (limits : CapacityLimits)
    (inputs : List GatewayInput) :
    (∃ calls, Retells (produced (run config ledgerId limits inputs).2) (World.memoryRun calls).2
        ∧ Mirrors (run config ledgerId limits inputs).1.world (World.memoryRun calls).1)
      ∧ (run config ledgerId limits inputs).1.pipeline.store.located
        = (acceptedOf (produced (run config ledgerId limits inputs).2)).flatMap
          (fun call => call.records.zip call.numbers)
      ∧ ∀ call ∈ acceptedOf (produced (run config ledgerId limits inputs).2), ∀ key digest,
          call.request = some (key, digest) →
          call.numbers.length = call.records.length
          ∧ (∃ before after,
              acceptedOf (produced (run config ledgerId limits inputs).2) = before ++ call :: after
              ∧ ∀ other ∈ before ++ after, other.key? ≠ some key)
          ∧ ∀ now clock op records digest', op.admission = some (records, some (key, digest')) →
            (run config ledgerId limits inputs).1.producer.isSome →
            step config (run config ledgerId limits inputs).1 (.produce now (.call clock op))
              = (.produced (some (if digest' = digest
                  then .ok (.admitted { call.outcome with sealed := [], replayed := true })
                  else .error .idempotencyConflict)), (run config ledgerId limits inputs).1) := by
  obtain ⟨calls, h⟩ := run_simulation config ledgerId limits inputs
  refine ⟨⟨calls, h.retells, h.mirrors⟩, h.located_eq, ?_⟩
  intro call hcall key digest hrequest
  have hkey : call.key? = some key := by
    rw [AcceptedCall.key?, hrequest]
    rfl
  refine ⟨?_, ?_, ?_⟩
  · rw [h.retells.accepted] at hcall
    exact h.invariant.store.reported call hcall
  · rw [h.retells.accepted] at hcall ⊢
    exact h.invariant.store.split_key hcall hkey
  · intro now clock op records digest' hop hproducer
    exact h.replay hcall hrequest hop hproducer now clock

end Gateway

end TrackOne
