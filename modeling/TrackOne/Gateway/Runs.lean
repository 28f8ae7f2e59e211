import TrackOne.Gateway.Ledger

/-!
# Runs of a single producer

A run starts on an empty in-memory store and feeds a producer any calls and restarts, with any clock
readings; calls may fail anywhere. `World.run_invariant` carries the ledger invariant over all of
them, with the accepted calls read off the trace of answers. From it:

* `World.run_chain`: the sealed segments form the chain of the configured ledger;
* `World.run_records`: the ledger holds the records of the accepted calls, in order, where the calls
  were told;
* `World.run_replay`: a key that was accepted is answered from then on without a change.
-/

namespace TrackOne

variable [Sha256]

/-! ## Opening a producer -/

omit [Sha256] in
/-- The transition that `open_or_create` commits for a new ledger. -/
def creation (config : LedgerConfig) (now : UInt64) (continuityId : BitVec 128) :
    LedgerTransition where
  previousOpenCount := 0
  admittedRecords := []
  nextState := createdState config now continuityId
  sealed := []
  idempotency := none

omit [Sha256] in
/-- `open_or_create` continues the stored ledger as `reactivate` does, or creates a new one. -/
theorem openOrCreate_eq_ok {loaded : Except ProducerError (Option ProducerState)}
    {clock : ClockReadings} {config : LedgerConfig} {plan : Plan}
    (h : openOrCreate loaded clock config = .ok plan) :
    (∃ state, loaded = .ok (some state) ∧ state.ledgerId = config.ledgerId
        ∧ TrackOne.reactivate state clock = .ok plan)
      ∨ loaded = .ok none ∧ config.policy.validate = .ok ()
        ∧ ∃ now, plan = .commit none (creation config now clock.reopenContinuityId) .unit := by
  simp only [openOrCreate, Except.bind_eq_ok, validatePolicy_eq_ok, Except.require_eq_ok] at h
  obtain ⟨-, hpolicy, -, -, stored, hloaded, h⟩ := h
  cases stored with
  | none =>
    simp only [Except.bind_eq_ok] at h
    obtain ⟨now, -, h⟩ := h
    cases h
    exact .inr ⟨hloaded, hpolicy, now, rfl⟩
  | some state =>
    simp only [Except.bind_eq_ok, Except.require_eq_ok, decide_eq_true_eq] at h
    obtain ⟨-, -, -, -, -, hidentity, h⟩ := h
    refine .inl ⟨state, hloaded, hidentity.1, ?_⟩
    by_cases hactive : state.active
    · rw [if_pos hactive] at h
      rw [reactivate, if_pos hactive]
      exact h
    · rwa [if_neg hactive] at h

/-- A new ledger is empty. -/
theorem StoreInvariant.created {store : MemoryLedgerStore} {accepted : List AcceptedCall}
    {config : LedgerConfig} {now : UInt64} {continuityId : BitVec 128}
    (h : StoreInvariant store accepted) (hnone : store.state = none)
    (hpolicy : config.policy.validate = .ok ()) :
    StoreInvariant (store.apply (creation config now continuityId)) accepted := by
  cases h with
  | ledger hsome => rw [hnone] at hsome; cases hsome
  | blank _ hsealed _ =>
    refine .ledger rfl ?_ (Ledger.created hpolicy) ⟨by simp, by simp, by simp⟩
    intro number
    simp [MemoryLedgerStore.apply, creation, hsealed]

/-! ## The invariant of a run -/

/-- The calls of a trace that were answered with a new admission, in order. -/
def acceptedOf (trace : List (Input × Answer)) : List AcceptedCall :=
  trace.flatMap fun entry =>
    match entry with
    | (.call _ operation, some (.ok reply)) => acceptedBy operation reply
    | _ => []

omit [Sha256] in
/-- The producer was opened at some time, and every opening was for this ledger. -/
structure OpenedAs (trace : List (Input × Answer)) (ledgerId : String) : Prop where
  opened : ∃ clock config reply, (Input.restart clock config, some (.ok reply)) ∈ trace
  configured : ∀ clock config reply, (Input.restart clock config, some (.ok reply)) ∈ trace →
    config.ledgerId = ledgerId

omit [Sha256] in
/-- Without a stored state there was no opening. -/
def Opened (store : MemoryLedgerStore) (trace : List (Input × Answer)) : Prop :=
  match store.state with
  | none => ∀ clock config reply, (Input.restart clock config, some (.ok reply)) ∉ trace
  | some state => OpenedAs trace state.ledgerId

/-- What holds of the store, the producer and the trace after any run. -/
structure WorldInvariant (w : World MemoryLedgerStore) (trace : List (Input × Answer)) : Prop where
  store : StoreInvariant w.store (acceptedOf trace)
  producer : ∀ state, w.producer = some state → w.store.state = some state
  opened : Opened w.store trace

theorem acceptedOf_concat (trace : List (Input × Answer)) (entry : Input × Answer) :
    acceptedOf (trace ++ [entry]) = acceptedOf trace ++ acceptedOf [entry] := by
  simp [acceptedOf]

omit [Sha256] in
/-- An entry that is no opening does not matter. -/
theorem Opened.concat {store : MemoryLedgerStore} {trace : List (Input × Answer)}
    {entry : Input × Answer} (h : Opened store trace)
    (hentry : ∀ clock config reply, entry ≠ (Input.restart clock config, some (.ok reply))) :
    Opened store (trace ++ [entry]) := by
  have hmem : ∀ clock config reply,
      (Input.restart clock config, some (.ok reply)) ∈ trace ++ [entry]
        ↔ (Input.restart clock config, some (.ok reply)) ∈ trace := by
    intro clock config reply
    simp [(hentry clock config reply).symm]
  unfold Opened at h ⊢
  cases hstate : store.state with
  | none =>
    rw [hstate] at h
    intro clock config reply hin
    exact h clock config reply ((hmem clock config reply).mp hin)
  | some state =>
    rw [hstate] at h
    obtain ⟨clock, config, reply, hin⟩ := h.opened
    refine ⟨⟨clock, config, reply, (hmem clock config reply).mpr hin⟩, ?_⟩
    intro clock config reply hin
    exact h.configured clock config reply ((hmem clock config reply).mp hin)

omit [Sha256] in
/-- An opening is for the ledger that is stored, and keeps its id. -/
theorem Opened.restart {store store' : MemoryLedgerStore} {trace : List (Input × Answer)}
    {clock : ClockReadings} {config : LedgerConfig} {reply : Reply} {next : ProducerState}
    (h : Opened store trace) (hnext : store'.state = some next)
    (hledger : next.ledgerId = config.ledgerId)
    (hsame : ∀ state, store.state = some state → state.ledgerId = config.ledgerId) :
    Opened store' (trace ++ [(.restart clock config, some (.ok reply))]) := by
  unfold Opened
  rw [hnext]
  refine ⟨⟨clock, config, reply, by simp⟩, ?_⟩
  intro clock' config' reply' hin
  rcases List.mem_append.mp hin with hold | hnew
  · unfold Opened at h
    cases hstate : store.state with
    | none =>
      rw [hstate] at h
      exact absurd hold (h clock' config' reply')
    | some state =>
      rw [hstate] at h
      rw [hledger, h.configured clock' config' reply' hold, hsame state hstate]
  · cases List.mem_singleton.mp hnew
    exact hledger.symm

omit [Sha256] in
theorem Opened.of_ledgerId {store store' : MemoryLedgerStore} {trace : List (Input × Answer)}
    {state next : ProducerState} (h : Opened store trace) (hstate : store.state = some state)
    (hnext : store'.state = some next) (hledger : next.ledgerId = state.ledgerId) :
    Opened store' trace := by
  unfold Opened at h ⊢
  rw [hstate] at h
  rw [hnext]
  simpa only [hledger] using h

/-! ## Steps and runs -/

/-- What an input can do to a producer on an in-memory store: a call without a producer, a call or
an opening that failed, or one whose plan was executed. -/
inductive Stepped (w : World MemoryLedgerStore) :
    Input → Answer → World MemoryLedgerStore → Prop where
  | absent {clock : ClockReadings} {op : Operation} (hproducer : w.producer = none) :
      Stepped w (.call clock op) none w
  | failed {clock : ClockReadings} {op : Operation} {state : ProducerState} {error : ProducerError}
      (hproducer : w.producer = some state) :
      Stepped w (.call clock op) (some (.error error)) w
  | called {clock : ClockReadings} {op : Operation} {state next : ProducerState} {plan : Plan}
      {reply : Reply} {store : MemoryLedgerStore} (hproducer : w.producer = some state)
      (hplan : op.plan (LedgerStore.lookupIdempotency w.store) state clock = .ok plan)
      (hexecute : plan.execute w.store = (.ok (next, reply), store)) :
      Stepped w (.call clock op) (some (.ok reply)) ⟨store, some next⟩
  | refused {clock : ClockReadings} {config : LedgerConfig} {error : ProducerError} :
      Stepped w (.restart clock config) (some (.error error)) ⟨w.store, none⟩
  | opened {clock : ClockReadings} {config : LedgerConfig} {next : ProducerState} {plan : Plan}
      {reply : Reply} {store : MemoryLedgerStore}
      (hplan : openOrCreate (LedgerStore.load w.store) clock config = .ok plan)
      (hexecute : plan.execute w.store = (.ok (next, reply), store)) :
      Stepped w (.restart clock config) (some (.ok reply)) ⟨store, some next⟩

/-- Inversion of a step. -/
theorem World.step_stepped (w : World MemoryLedgerStore) (input : Input) :
    Stepped w input (w.step input).1 (w.step input).2 := by
  cases input with
  | call clock op =>
    unfold World.step
    cases hproducer : w.producer with
    | none => exact .absent hproducer
    | some state =>
      have hw : (⟨w.store, some state⟩ : World MemoryLedgerStore) = w := by rw [← hproducer]
      simp only
      -- a plan that fails changes nothing
      cases hplan : op.plan (LedgerStore.lookupIdempotency w.store) state clock with
      | error error =>
        simp only [executePlan, World.settle, hw]
        exact .failed hproducer
      | ok plan =>
        simp only [executePlan]
        -- one that goes through is a call
        cases hexecute : plan.execute w.store with
        | mk result store =>
          cases result with
          | error error =>
            simp only [World.settle, execute_error hexecute, hw]
            exact .failed hproducer
          | ok result =>
            obtain ⟨next, reply⟩ := result
            exact .called hproducer hplan hexecute
  | restart clock config =>
    unfold World.step
    simp only
    -- a restart is refused, or it opens the stored or a new state
    cases hplan : openOrCreate (LedgerStore.load w.store) clock config with
    | error error => exact .refused
    | ok plan =>
      simp only [executePlan]
      cases hexecute : plan.execute w.store with
      | mk result store =>
        cases result with
        | error error =>
          simp only [World.settle, execute_error hexecute]
          exact .refused
        | ok result =>
          obtain ⟨next, reply⟩ := result
          exact .opened hplan hexecute

/-- An answer that accepts nothing leaves the store and the trace as they were. -/
theorem WorldInvariant.unchanged {w : World MemoryLedgerStore} {trace : List (Input × Answer)}
    {entry : Input × Answer} {producer : Option ProducerState} (h : WorldInvariant w trace)
    (hentry : ∀ reply, entry.2 ≠ some (.ok reply))
    (hproducer : producer = w.producer ∨ producer = none) :
    WorldInvariant ⟨w.store, producer⟩ (trace ++ [entry]) := by
  obtain ⟨input, answer⟩ := entry
  have hnone : acceptedOf [(input, answer)] = [] := by
    match answer with
    | none => cases input <;> rfl
    | some (.error error) => cases input <;> rfl
    | some (.ok reply) => exact absurd rfl (hentry reply)
  refine ⟨?_, ?_, h.opened.concat ?_⟩
  · rw [acceptedOf_concat, hnone, List.append_nil]
    exact h.store
  · rcases hproducer with rfl | rfl
    · exact h.producer
    · simp
  · intro clock config reply heq
    exact hentry reply (Prod.mk.inj heq).2

/-- A method call that was executed keeps the invariant. -/
theorem WorldInvariant.called {w : World MemoryLedgerStore} {trace : List (Input × Answer)}
    {clock : ClockReadings} {op : Operation} {state next : ProducerState} {plan : Plan}
    {reply : Reply} {store : MemoryLedgerStore} (h : WorldInvariant w trace)
    (hproducer : w.producer = some state)
    (hplan : op.plan (LedgerStore.lookupIdempotency w.store) state clock = .ok plan)
    (hexecute : plan.execute w.store = (.ok (next, reply), store)) :
    WorldInvariant ⟨store, some next⟩ (trace ++ [(.call clock op, some (.ok reply))]) := by
  have hstate := h.producer state hproducer
  obtain ⟨hstore, hnext, hledger⟩ :=
    (Operation.plan_planned hplan).execute h.store hstate hexecute
  refine ⟨?_, by simpa using hnext, ?_⟩
  · rw [acceptedOf_concat]
    simpa [acceptedOf] using hstore
  · exact (h.opened.of_ledgerId hstate hnext hledger).concat (by simp)

/-- A new producer goes on with the stored ledger, or creates it. -/
theorem WorldInvariant.opened_by {w : World MemoryLedgerStore} {trace : List (Input × Answer)}
    {clock : ClockReadings} {config : LedgerConfig} {next : ProducerState} {plan : Plan}
    {reply : Reply} {store : MemoryLedgerStore} (h : WorldInvariant w trace)
    (hplan : openOrCreate (LedgerStore.load w.store) clock config = .ok plan)
    (hexecute : plan.execute w.store = (.ok (next, reply), store)) :
    WorldInvariant ⟨store, some next⟩ (trace ++ [(.restart clock config, some (.ok reply))]) := by
  have hnone : acceptedOf [(Input.restart clock config, some (.ok reply))] = [] := rfl
  rcases openOrCreate_eq_ok hplan with ⟨state, hloaded, hidentity, hreactivate⟩
    | ⟨hloaded, hpolicy, now, rfl⟩
  · have hstate : w.store.state = some state := by
      simpa [LedgerStore.load] using hloaded
    have hplanned : Planned (LedgerStore.lookupIdempotency w.store) state .reactivate plan :=
      reactivate_planned rfl hreactivate
    obtain ⟨hstore, hnext, hledger⟩ := hplanned.execute h.store hstate hexecute
    have hopened : Opened store (trace ++ [(.restart clock config, some (.ok reply))]) := by
      apply h.opened.restart hnext (hledger.trans hidentity)
      intro state' hstate'
      rw [hstate] at hstate'
      cases hstate'
      exact hidentity
    refine ⟨?_, by simpa using hnext, hopened⟩
    rw [acceptedOf_concat, hnone]
    simpa [acceptedBy, Operation.admission] using hstore
  · have hstate : w.store.state = none := by
      simpa [LedgerStore.load] using hloaded
    obtain ⟨-, -, rfl, -, rfl⟩ := execute_commit hexecute
    refine ⟨?_, by simp [MemoryLedgerStore.apply], ?_⟩
    · rw [acceptedOf_concat, hnone, List.append_nil]
      exact h.store.created hstate hpolicy
    · exact h.opened.restart rfl rfl (by simp [hstate])

/-- Every input keeps the invariant. -/
theorem WorldInvariant.step {w : World MemoryLedgerStore} {trace : List (Input × Answer)}
    (h : WorldInvariant w trace) (input : Input) :
    WorldInvariant (w.step input).2 (trace ++ [(input, (w.step input).1)]) := by
  generalize hafter : (w.step input).2 = after
  generalize hanswer : (w.step input).1 = answer
  have hstepped := w.step_stepped input
  rw [hafter, hanswer] at hstepped
  cases hstepped with
  | absent => exact h.unchanged (by simp) (.inl rfl)
  | failed => exact h.unchanged (by simp) (.inl rfl)
  | called hproducer hplan hexecute => exact h.called hproducer hplan hexecute
  | refused => exact h.unchanged (by simp) (.inr rfl)
  | opened hplan hexecute => exact h.opened_by hplan hexecute

/-! ## The accepted calls -/

/-- An accepted call is one of the trace, answered with its outcome. -/
theorem mem_acceptedOf {trace : List (Input × Answer)} {call : AcceptedCall} :
    call ∈ acceptedOf trace
      ↔ ∃ clock op, (Input.call clock op, some (.ok (.admitted call.outcome))) ∈ trace
        ∧ op.admission = some (call.records, call.request) ∧ call.outcome.replayed = false := by
  simp only [acceptedOf, List.mem_flatMap]
  constructor
  · rintro ⟨⟨input, answer⟩, hentry, hcall⟩
    split at hcall
    · next clock op reply heq =>
      cases heq
      simp only [acceptedBy] at hcall
      split at hcall
      · next records request outcome hop =>
        split_ifs at hcall with hreplayed
        · cases hcall
        · rw [List.mem_singleton] at hcall
          subst hcall
          exact ⟨clock, op, hentry, hop, by simpa using hreplayed⟩
      · cases hcall
    · cases hcall
  · rintro ⟨clock, op, hentry, hop, hreplayed⟩
    refine ⟨_, hentry, ?_⟩
    simp [acceptedBy, hop, hreplayed]

/-- The kept keys are those of accepted calls, and accepted calls have canonical records only. -/
structure Sourced (store : MemoryLedgerStore) (accepted : List AcceptedCall) : Prop where
  keys : ∀ key existing, store.idempotency[key]? = some existing →
    ∃ call ∈ accepted, call.key? = some key
  canonical : ∀ call ∈ accepted, ∀ record ∈ call.records,
    ∃ m, validateCanonicalRecord record = .ok m

omit [Sha256] in
theorem Sourced.of_idempotency {store store' : MemoryLedgerStore} {accepted : List AcceptedCall}
    (h : Sourced store accepted) (hsame : store'.idempotency = store.idempotency) :
    Sourced store' accepted := by
  refine ⟨?_, h.canonical⟩
  rw [hsame]
  exact h.keys

/-- A planned operation that is executed. -/
theorem Sourced.execute {lookup : String → Except ProducerError (Option IdempotencyRecord)}
    {store store' : MemoryLedgerStore} {accepted : List AcceptedCall} {state next : ProducerState}
    {op : Operation} {plan : Plan} {reply : Reply} (h : Sourced store accepted)
    (hplanned : Planned lookup state op plan)
    (hexecute : plan.execute store = (.ok (next, reply), store')) :
    Sourced store' (accepted ++ acceptedBy op reply) := by
  -- a plan that commits nothing was no admission, or a replay
  cases plan with
  | done next' reply' =>
    obtain ⟨-, hnone⟩ := hplanned.of_done
    cases hexecute
    rw [hnone, List.append_nil]
    exact h
  | commit expected t reply' =>
    obtain ⟨-, -, rfl, rfl, rfl⟩ := execute_commit hexecute
    cases hplanned with
    -- maintenance admits nothing and keeps the keys
    | maintained hop _ _ hidempotency =>
      have hnone : acceptedBy op reply = [] := by
        simp [acceptedBy, hop]
      rw [hnone, List.append_nil]
      apply h.of_idempotency
      rw [MemoryLedgerStore.apply, hidempotency]
    | @admitted records request numbers _ outcome hop _ hlength hcommits _ hidempotency houtcome =>
      -- an admission is one call more, under its key if it has one
      have hone : acceptedBy op (.admitted outcome) = [⟨records, request, outcome⟩] := by
        simp [acceptedBy, hop, houtcome.replayed]
      rw [hone]
      refine ⟨?_, ?_⟩
      -- a key is an old one or that of this call
      · intro key existing hkept
        have hcases : store.idempotency[key]? = some existing
            ∨ request.map Prod.fst = some key := by
          cases request with
          | none =>
            rw [MemoryLedgerStore.apply, hidempotency] at hkept
            exact .inl hkept
          | some request =>
            rw [MemoryLedgerStore.apply, hidempotency] at hkept
            simp only [Option.map_some, Std.ExtTreeMap.getElem?_insert,
              Std.LawfulEqCmp.compare_eq_iff_eq] at hkept
            split_ifs at hkept with hkey
            · exact .inr (congrArg some hkey)
            · exact .inl hkept
        rcases hcases with hold | hnew
        · obtain ⟨call, hcall, hkey⟩ := h.keys key existing hold
          exact ⟨call, List.mem_append_left _ hcall, hkey⟩
        · exact ⟨_, List.mem_append_right _ (List.mem_singleton.mpr rfl), hnew⟩
      -- its records are canonical: they were admitted
      · intro call hcall record hrecord
        rcases List.mem_append.mp hcall with hold | hnew
        · exact h.canonical call hold record hrecord
        · rw [List.mem_singleton.mp hnew] at hrecord
          have hrecords : (records.zip numbers).map Prod.fst = records :=
            List.map_fst_zip hlength.ge
          rw [← hrecords] at hrecord
          obtain ⟨entry, hentry, rfl⟩ := List.mem_map.mp hrecord
          exact hcommits.moves.canonical entry hentry

theorem Sourced.step {w : World MemoryLedgerStore} {trace : List (Input × Answer)}
    (h : Sourced w.store (acceptedOf trace)) (input : Input) :
    Sourced (w.step input).2.store (acceptedOf (trace ++ [(input, (w.step input).1)])) := by
  generalize hafter : (w.step input).2 = after
  generalize hanswer : (w.step input).1 = answer
  have hstepped := w.step_stepped input
  rw [hafter, hanswer] at hstepped
  rw [acceptedOf_concat]
  cases hstepped with
  | absent => simpa [acceptedOf] using h
  | failed => simpa [acceptedOf] using h
  | refused => simpa [acceptedOf] using h
  | called _ hplan hexecute =>
    simpa [acceptedOf] using h.execute (Operation.plan_planned hplan) hexecute
  | @opened clock config next plan reply store hplan hexecute =>
    have hnone : acceptedOf [(Input.restart clock config, some (.ok reply))] = [] := rfl
    rw [hnone, List.append_nil]
    rcases openOrCreate_eq_ok hplan with ⟨state, hloaded, hidentity, hreactivate⟩
      | ⟨hloaded, hpolicy, now, rfl⟩
    · have hplanned : Planned (LedgerStore.lookupIdempotency w.store) state .reactivate plan :=
        reactivate_planned rfl hreactivate
      simpa [acceptedBy, Operation.admission] using h.execute hplanned hexecute
    · obtain ⟨-, -, -, -, rfl⟩ := execute_commit hexecute
      exact h.of_idempotency rfl

namespace World

/-- A run on an empty in-memory store. -/
def memoryRun (inputs : List Input) : World MemoryLedgerStore × List (Input × Answer) :=
  run MemoryLedgerStore.empty inputs

/-- The ledger invariant holds after every run. -/
theorem run_invariant (inputs : List Input) :
    WorldInvariant (memoryRun inputs).1 (memoryRun inputs).2 := by
  apply runTrace_induction
  · exact ⟨storeInvariant_empty, by simp, by simp [Opened, MemoryLedgerStore.empty]⟩
  · intro w trace input h
    exact h.step input

theorem run_sourced (inputs : List Input) :
    Sourced (memoryRun inputs).1.store (acceptedOf (memoryRun inputs).2) := by
  apply runTrace_induction (P := fun (w : World MemoryLedgerStore) trace =>
    Sourced w.store (acceptedOf trace))
  · exact ⟨by simp [MemoryLedgerStore.empty], by simp [acceptedOf]⟩
  · intro w trace input h
    exact h.step input

end World

/-! ## The chain of the sealed segments -/

omit [Sha256] in
/-- The artifact of the segment before a number. -/
def artifactBefore (sealed : Std.ExtTreeMap UInt64 SealedSegment compare) (number : UInt64) :
    Option Bytes :=
  if number = 0 then none else sealed[number - 1]?.map SealedSegment.artifactCbor

/-- The map of sealed segments is the chain that the state continues. -/
structure SealedChain (sealed : Std.ExtTreeMap UInt64 SealedSegment compare)
    (state : ProducerState) : Prop where
  keys : ∀ number, number ∈ sealed ↔ number < state.nextSegmentNumber
  segments : ∀ number segment, sealed[number]? = some segment →
    ∃ r, SegmentAt state.ledgerId (artifactBefore sealed number) number.toNat segment r
  predecessorCbor : state.predecessorCbor = artifactBefore sealed state.nextSegmentNumber

omit [Sha256] in
theorem artifactBefore_eq {sealed : Std.ExtTreeMap UInt64 SealedSegment compare}
    {segments : List SealedSegment} (h : TreeMap.Indexes sealed segments) {number : UInt64}
    (hnumber : number.toNat ≤ segments.length) :
    artifactBefore sealed number = lastArtifact (segments.take number.toNat) := by
  unfold artifactBefore lastArtifact
  split_ifs with hzero
  · simp [hzero]
  · have hpos : number.toNat ≠ 0 := fun hnat => hzero (UInt64.toNat_inj.mp hnat)
    have hpred : (number - 1).toNat = number.toNat - 1 := by
      rw [UInt64.toNat_sub_of_le]
      · rfl
      · rw [UInt64.le_iff_toNat_le]
        simpa using Nat.one_le_iff_ne_zero.mpr hpos
    rw [h, hpred, List.getLast?_eq_getElem?, List.length_take, Nat.min_eq_left hnumber,
      List.getElem?_take_of_lt (by omega)]

theorem Chained.sealedChain {sealed : Std.ExtTreeMap UInt64 SealedSegment compare}
    {segments : List SealedSegment} {state : ProducerState} (h : Chained state segments)
    (hindexes : TreeMap.Indexes sealed segments) : SealedChain sealed state := by
  have hnext := h.nextSegmentNumber
  refine ⟨?_, ?_, ?_⟩
  · intro number
    rw [Std.ExtTreeMap.mem_iff_isSome_getElem?, hindexes, UInt64.lt_iff_toNat_lt, hnext]
    simp
  · intro number segment hsegment
    rw [hindexes] at hsegment
    obtain ⟨hlt, -⟩ := List.getElem?_eq_some_iff.mp hsegment
    rw [artifactBefore_eq hindexes hlt.le]
    exact h.chain number.toNat segment hsegment
  · rw [h.predecessorCbor, artifactBefore_eq hindexes hnext.le, hnext, List.take_length]

namespace World

/-- Chain integrity of every run. Once a ledger is stored, its sealed segments are numbered from
zero without a gap, each decodes to the record of its number, its ledger, its records and its
predecessor's artifact, and the producer continues after the last one; the ledger is the one every
successful opening of the run was configured with. -/
theorem run_chain (inputs : List Input) :
    match (memoryRun inputs).1.store.state with
    | none => (memoryRun inputs).1.store.sealed = ∅
    | some state =>
      SealedChain (memoryRun inputs).1.store.sealed state
        ∧ OpenedAs (memoryRun inputs).2 state.ledgerId := by
  have h := run_invariant inputs
  have hopened := h.opened
  unfold Opened at hopened
  cases hstate : (memoryRun inputs).1.store.state with
  | none => exact (h.store.of_none hstate).1
  | some state =>
    rw [hstate] at hopened
    obtain ⟨segments, hindexes, hledger, -⟩ := h.store.of_state hstate
    exact ⟨hledger.chained.sealedChain hindexes, hopened⟩

end World

/-! ## The records of the ledger -/

namespace MemoryLedgerStore

omit [Sha256] in
/-- The sealed segments, by number. -/
def segments (store : MemoryLedgerStore) : List SealedSegment := store.sealed.toList.map Prod.snd

omit [Sha256] in
/-- All records of the ledger: the sealed ones by segment number, then the open ones. -/
def records (store : MemoryLedgerStore) : List Bytes :=
  store.segments.flatMap SealedSegment.records
    ++ (store.state.map fun state => state.openInterval.records).getD []

omit [Sha256] in
/-- All records, each with the number of the segment that holds it; the open ones with the number
of the segment that comes next. -/
def located (store : MemoryLedgerStore) : List (Bytes × UInt64) :=
  store.segments.flatMap (fun segment => segment.records.map (·, segment.segmentNumber))
    ++ (store.state.map fun state =>
      state.openInterval.records.map (·, state.nextSegmentNumber)).getD []

omit [Sha256] in
theorem map_fst_located (store : MemoryLedgerStore) :
    store.located.map Prod.fst = store.records := by
  unfold located records
  cases store.state <;> simp [List.map_flatMap, Function.comp_def]

end MemoryLedgerStore

omit [Sha256] in
theorem placedFrom_records {n : Nat} {segments : List SealedSegment}
    (hnumbers : ∀ (i : Nat) (segment : SealedSegment), segments[i]? = some segment →
      segment.segmentNumber.toNat = n + i) :
    SegLog.placedFrom n (segments.map SealedSegment.records)
      = placements (segments.flatMap fun segment =>
          segment.records.map (·, segment.segmentNumber)) := by
  induction segments generalizing n with
  | nil => rfl
  | cons segment segments ih =>
    have hfirst : segment.segmentNumber.toNat = n := hnumbers 0 segment rfl
    have hrest := ih (n := n + 1) fun i segment' hi => by
      rw [hnumbers (i + 1) segment' (by simpa using hi)]
      omega
    rw [List.map_cons, SegLog.placedFrom, hrest, List.flatMap_cons, placements, placements,
      List.map_append, List.map_map]
    simp only [Function.comp_def, hfirst]

/-- The records of the store are placed as the segmented log of the ledger places them. -/
theorem Chained.placed_eq {store : MemoryLedgerStore} {segments : List SealedSegment}
    {state : ProducerState} (h : Chained state segments) (hstate : store.state = some state)
    (hindexes : TreeMap.Indexes store.sealed segments) :
    (ledgerLog segments state).placed = placements store.located := by
  have hnumbers : ∀ (i : Nat) (segment : SealedSegment), segments[i]? = some segment →
      segment.segmentNumber.toNat = i := fun i segment hi => h.chain.segmentNumber hi
  have hsegments : store.segments = segments := by
    apply hindexes.map_snd_toList
    rw [← h.nextSegmentNumber]
    exact state.nextSegmentNumber.toNat_lt.le
  rw [SegLog.placed, MemoryLedgerStore.located, hsegments, hstate, ledgerLog,
    placedFrom_records (n := 0) (by simpa using hnumbers), placements, placements, List.map_append]
  simp [h.nextSegmentNumber, Function.comp_def]

omit [Sha256] in
theorem placements_injective : Function.Injective placements := by
  apply List.map_injective_iff.mpr
  intro entry entry' heq
  obtain ⟨hrecord, hnumber⟩ := Prod.mk.inj heq
  exact Prod.ext hrecord (UInt64.toNat_inj.mp hnumber)

/-- The records of the ledger are those of the accepted calls, each where its call was told. -/
theorem StoreInvariant.located_eq {store : MemoryLedgerStore} {accepted : List AcceptedCall}
    (h : StoreInvariant store accepted) :
    store.located = accepted.flatMap fun call => call.records.zip call.numbers := by
  cases h with
  | blank hstate hsealed _ => simp [MemoryLedgerStore.located, MemoryLedgerStore.segments, hstate,
      hsealed]
  | ledger hstate hindexes hledger _ =>
    apply placements_injective
    rw [← hledger.chained.placed_eq hstate hindexes, hledger.placed, placements, List.map_flatMap]
    rfl

theorem StoreInvariant.reported {store : MemoryLedgerStore} {accepted : List AcceptedCall}
    (h : StoreInvariant store accepted) :
    ∀ call ∈ accepted, call.numbers.length = call.records.length := by
  cases h with
  | blank => simp
  | ledger _ _ hledger _ => exact hledger.reported

/-- The ledger holds the records of the accepted calls, in order. -/
theorem StoreInvariant.records_eq {store : MemoryLedgerStore} {accepted : List AcceptedCall}
    (h : StoreInvariant store accepted) :
    store.records = accepted.flatMap AcceptedCall.records := by
  rw [← store.map_fst_located, h.located_eq, List.map_flatMap]
  apply List.flatMap_congr
  intro call hcall
  exact List.map_fst_zip (h.reported call hcall).ge

namespace World

/-- No record is lost, duplicated, altered or reordered. After every run the sealed records by
segment number and then the open ones are the records of exactly the accepted calls, in order; each
of them is in the segment that the admission runs of its call name for it, or in the open interval
if they name the segment that comes next. -/
theorem run_records (inputs : List Input) :
    (memoryRun inputs).1.store.records
      = (acceptedOf (memoryRun inputs).2).flatMap AcceptedCall.records
      ∧ (memoryRun inputs).1.store.located
        = (acceptedOf (memoryRun inputs).2).flatMap (fun call => call.records.zip call.numbers)
      ∧ (∀ call ∈ acceptedOf (memoryRun inputs).2, call.numbers.length = call.records.length)
      ∧ ∀ state, (memoryRun inputs).1.producer = some state →
          (memoryRun inputs).1.store.state = some state := by
  have h := run_invariant inputs
  exact ⟨h.store.records_eq, h.store.located_eq, h.store.reported, h.producer⟩

end World

/-! ## Replays -/

/-- Both idempotent methods come down to the same lookup. -/
theorem Operation.plan_keyed
    {lookup : String → Except ProducerError (Option IdempotencyRecord)} {state : ProducerState}
    {clock : ClockReadings} {op : Operation} {records : List Bytes} {key digest : String}
    (hop : op.admission = some (records, some (key, digest)))
    (hkey : validateKey key = .ok ()) :
    op.plan lookup state clock
      = admitBatchIdempotentDigest lookup state clock key records digest := by
  cases op with
  | admitIdempotent key' record =>
    cases hop
    simp only [Operation.plan, TrackOne.admitIdempotent, hkey, bind, Except.bind]
  | admitBatchIdempotent key' records' canonicalEnvelope =>
    cases hop
    rfl
  | _ => cases hop

/-- A key that is kept decides the answer, before the activity of the producer or the clock is
looked at. -/
theorem admitBatchIdempotentDigest_kept
    {lookup : String → Except ProducerError (Option IdempotencyRecord)} {state : ProducerState}
    {clock : ClockReadings} {key digest : String} {records : List Bytes}
    {existing : IdempotencyRecord} {outcome : AdmissionOutcome}
    (hkey : validateKey key = .ok ()) (hlookup : lookup key = .ok (some existing))
    (houtcome : replayedOutcome existing = .ok outcome) :
    admitBatchIdempotentDigest lookup state clock key records digest
      = if digest = existing.requestSha256 then .ok (.done state (.admitted outcome))
        else .error .idempotencyConflict := by
  simp only [admitBatchIdempotentDigest, hkey, hlookup, bind, Except.bind]
  by_cases hdigest : digest = existing.requestSha256
  · rw [if_neg (not_not.mpr hdigest.symm), if_pos hdigest, houtcome]
    rfl
  · rw [if_pos (Ne.symm hdigest), if_neg hdigest]
    rfl

/-- A request whose key was accepted is answered from the kept record, and changes nothing. -/
theorem WorldInvariant.replay {w : World MemoryLedgerStore} {trace : List (Input × Answer)}
    {call : AcceptedCall}
    {key digest digest' : String} {records : List Bytes} {clock : ClockReadings} {op : Operation}
    {state : ProducerState} (h : WorldInvariant w trace) (hcall : call ∈ acceptedOf trace)
    (hrequest : call.request = some (key, digest))
    (hop : op.admission = some (records, some (key, digest')))
    (hproducer : w.producer = some state) :
    w.step (.call clock op)
      = (some (if digest' = digest
          then .ok (.admitted { call.outcome with sealed := [], replayed := true })
          else .error .idempotencyConflict), w) := by
  have hstate := h.producer state hproducer
  obtain ⟨segments, -, -, hkept⟩ := h.store.of_state hstate
  have hkey := hkept.valid call hcall key digest hrequest
  obtain ⟨existing, hexisting, rfl, houtcome⟩ := hkept.answered call hcall key digest hrequest
  have hlookup : LedgerStore.lookupIdempotency w.store key = .ok (some existing) := by
    rw [← hexisting]
    rfl
  have hplan : op.plan (LedgerStore.lookupIdempotency w.store) state clock
      = if digest' = existing.requestSha256
        then .ok (.done state
          (.admitted { call.outcome with sealed := [], replayed := true }))
        else .error .idempotencyConflict :=
    (Operation.plan_keyed hop hkey).trans (admitBatchIdempotentDigest_kept hkey hlookup houtcome)
  have hw : w = ⟨w.store, some state⟩ := by rw [← hproducer]
  unfold World.step
  simp only [hproducer, hplan]
  split_ifs with hdigest
  · rw [executePlan, Plan.execute, World.settle, ← hw]
  · rw [executePlan, World.settle, ← hw]

/-- An accepted key belongs to one accepted call. -/
theorem StoreInvariant.split_key {store : MemoryLedgerStore} {accepted : List AcceptedCall}
    {call : AcceptedCall} {key : String} (h : StoreInvariant store accepted)
    (hcall : call ∈ accepted) (hkey : call.key? = some key) :
    ∃ before after, accepted = before ++ call :: after
      ∧ ∀ other ∈ before ++ after, other.key? ≠ some key := by
  have honce : (accepted.filterMap AcceptedCall.key?).Nodup := by
    cases h with
    | blank => simp
    | ledger _ _ _ hkept => exact hkept.once
  obtain ⟨before, after, rfl⟩ := List.append_of_mem hcall
  refine ⟨before, after, rfl, ?_⟩
  rw [List.filterMap_append, List.filterMap_cons, hkey, List.nodup_middle,
    ← List.filterMap_append] at honce
  intro other hother hsame
  exact (List.nodup_cons.mp honce).1 (List.mem_filterMap.mpr ⟨other, hother, hsame⟩)

namespace World

/-- Idempotent replay is faithful and admits at most once. Once a call with a key and a digest was
answered with a new admission, a later call with the key gets the same outcome again, marked as
replayed, if its digest is the same, and a conflict if it is not; neither changes the producer or
the store, whatever the state of the producer and the clock. The records of the call are in the
ledger once: no other accepted call has the key. -/
theorem run_replay (inputs : List Input) (call : AcceptedCall) (key digest : String)
    (hcall : call ∈ acceptedOf (memoryRun inputs).2)
    (hrequest : call.request = some (key, digest)) :
    (∀ clock op records digest' state,
        op.admission = some (records, some (key, digest')) →
        (memoryRun inputs).1.producer = some state →
        (memoryRun inputs).1.step (.call clock op)
          = (some (if digest' = digest
              then .ok (.admitted { call.outcome with sealed := [], replayed := true })
              else .error .idempotencyConflict), (memoryRun inputs).1))
      ∧ ∃ before after, acceptedOf (memoryRun inputs).2 = before ++ call :: after
          ∧ (∀ other ∈ before ++ after, other.key? ≠ some key)
          ∧ (memoryRun inputs).1.store.records = before.flatMap AcceptedCall.records ++ call.records
              ++ after.flatMap AcceptedCall.records := by
  have h := run_invariant inputs
  constructor
  · intro clock op records digest' state hop hproducer
    exact h.replay hcall hrequest hop hproducer
  · have hkey : call.key? = some key := by rw [AcceptedCall.key?, hrequest]; rfl
    obtain ⟨before, after, haccepted, hother⟩ := h.store.split_key hcall hkey
    refine ⟨before, after, haccepted, hother, ?_⟩
    rw [h.store.records_eq, haccepted]
    simp

omit [Sha256] in
/-- A small canonical record. -/
def sampleRecord : Bytes := [0x87, 0x01, 0x48, 0, 0, 0, 0, 0, 0, 0, 1, 1, 0, 0xf6, 0, 0xf6]

omit [Sha256] in
/-- A producer is opened and admits a record under a key. -/
def sampleInputs : List Input :=
  let clock : ClockReadings := ⟨.ok 1000, 7, 7⟩
  [.restart clock {
      ledgerId := "b7a1d5e40c6f438e9a75db27c96f31aa"
      siteId := "an-001"
      policy := {
        intervalMs := 100, batchRecordLimit := 2, recordLimit := none, sizeLimitBytes := none
        emptyMode := .emit } },
    .call clock (.admitIdempotent "key" sampleRecord)]

omit [Sha256] in
/-- The record is asked for again with a clock of another continuity. -/
theorem run_replay_sampleInputs :
    letI := Sha256.fips
    ∃ call state, call ∈ acceptedOf (memoryRun sampleInputs).2
      ∧ (memoryRun sampleInputs).1.producer = some state
      ∧ (memoryRun sampleInputs).1.step (.call ⟨.ok 0, 8, 8⟩ (.admitIdempotent "key" sampleRecord))
        = (some (.ok (.admitted { call.outcome with sealed := [], replayed := true })),
            (memoryRun sampleInputs).1) := by
  let := Sha256.fips
  have haccepted : ∃ call ∈ acceptedOf (memoryRun sampleInputs).2,
      call.request = some ("key", sha256Hex sampleRecord) := by
    decide +kernel
  have hopen : (memoryRun sampleInputs).1.producer.isSome := by
    decide +kernel
  obtain ⟨call, hcall, hrequest⟩ := haccepted
  obtain ⟨state, hstate⟩ := Option.isSome_iff_exists.mp hopen
  have hreplay := (run_replay sampleInputs call "key" _ hcall hrequest).1 ⟨.ok 0, 8, 8⟩
    (.admitIdempotent "key" sampleRecord) [sampleRecord] _ state rfl hstate
  rw [if_pos rfl] at hreplay
  exact ⟨call, state, hcall, hstate, hreplay⟩

end World

end TrackOne
