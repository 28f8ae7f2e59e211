import TrackOne.Gateway.Runs

/-!
# Concurrent producers

Any number of producers on one shared in-memory store. An operation takes two steps: it begins by
reading the instance's own state, the clock and the store's answer to a lookup or a load, and it
finishes with one `compare_and_swap`. Between the two, the other instances take any steps.

* `Current` is what protects the ledger: an instance is never ahead of the store, and an instance at
  the store's revision has the store's state. `SharedInvariant` carries it, for the state an
  instance holds and for the one a pending operation was planned from.
* `Shared.run_concurrent`: only a `compare_and_swap` that succeeds changes the store, it takes the
  next revision, a stale instance is refused, and the ledger holds the records of the accepted calls
  in the order of the successful steps.
-/

namespace TrackOne

variable [Sha256]

/-! ## Instances and steps -/

omit [Sha256] in
/-- An instance: closed, idle with its own state, or between planning an operation and the call of
the store. An opening has no own state to fall back to. -/
inductive Instance where
  | absent
  | ready (state : ProducerState)
  | pending (own : Option ProducerState) (input : Input) (expectedRevision : Option UInt64)
      (transition : LedgerTransition) (reply : Reply)

omit [Sha256] in
/-- The shared store and the instances on it. -/
structure Shared where
  store : MemoryLedgerStore
  instances : Nat → Instance

omit [Sha256] in
/-- A step of one instance: it begins an operation or an opening, it calls the store, or its
process ends. -/
inductive Event where
  | begin (i : Nat) (input : Input)
  | finish (i : Nat)
  | crash (i : Nat)

omit [Sha256] in
/-- The input that a step answers, with the answer; nothing while an operation is pending. -/
abbrev Output := Option (Input × Except ProducerError Reply)

omit [Sha256] in
/-- The state an instance holds. -/
def Instance.own : Instance → Option ProducerState
  | .absent => none
  | .ready state => some state
  | .pending own .. => own

namespace Shared

omit [Sha256] in
/-- No ledger and no instance. -/
def empty : Shared := ⟨MemoryLedgerStore.empty, fun _ => .absent⟩

omit [Sha256] in
def setInstance (s : Shared) (i : Nat) (inst : Instance) : Shared :=
  { s with instances := fun j => if j = i then inst else s.instances j }

omit [Sha256] in
/-- The instance after a failure: an operation keeps the instance's own state. -/
def fallback : Option ProducerState → Instance
  | none => .absent
  | some state => .ready state

omit [Sha256] in
/-- An operation is planned. -/
def planned (s : Shared) (i : Nat) (own : Option ProducerState) (input : Input) :
    Except ProducerError Plan → Output × Shared
  | .error error => (some (input, .error error), s.setInstance i (fallback own))
  | .ok (.done state reply) => (some (input, .ok reply), s.setInstance i (.ready state))
  | .ok (.commit expectedRevision transition reply) =>
    (none, s.setInstance i (.pending own input expectedRevision transition reply))

/-- Begin a call or an opening. An instance with a pending operation is busy. -/
def begin (s : Shared) (i : Nat) : Input → Output × Shared
  | .call clock operation =>
    match s.instances i with
    | .ready state =>
      s.planned i (some state) (.call clock operation)
        (operation.plan (LedgerStore.lookupIdempotency s.store) state clock)
    | _ => (none, s)
  | .restart clock config =>
    match s.instances i with
    | .pending .. => (none, s)
    | _ =>
      s.planned i none (.restart clock config)
        (openOrCreate (LedgerStore.load s.store) clock config)

omit [Sha256] in
/-- The call of the store. -/
def finish (s : Shared) (i : Nat) : Output × Shared :=
  match s.instances i with
  | .pending own input expectedRevision transition reply =>
    match (Plan.commit expectedRevision transition reply).execute s.store with
    | (.ok (state, reply), store) =>
      (some (input, .ok reply), { s with store }.setInstance i (.ready state))
    | (.error error, store) =>
      (some (input, .error error), { s with store }.setInstance i (fallback own))
  | _ => (none, s)

/-- One step of one instance. -/
def step (s : Shared) : Event → Output × Shared
  | .begin i input => s.begin i input
  | .finish i => s.finish i
  | .crash i => (none, s.setInstance i .absent)

/-- An interleaving of any steps of any instances, from an empty store. -/
def run (events : List Event) : Shared × List (Event × Output) := runTrace step empty events

end Shared

omit [Sha256] in
/-- The operation of an input: an opening of a stored ledger reactivates it. -/
def Input.operation : Input → Operation
  | .call _ operation => operation
  | .restart _ _ => .reactivate

/-- The calls that the answer of a step accepts. -/
def acceptedNow : Output → List AcceptedCall
  | some (input, .ok reply) => acceptedBy input.operation reply
  | _ => []

/-- The calls that were answered with a new admission, in the order of the answers. -/
def acceptedIn (trace : List (Event × Output)) : List AcceptedCall :=
  trace.flatMap fun entry => acceptedNow entry.2

omit [Sha256] in
/-- How often the store was written: its revision counts from zero. -/
def MemoryLedgerStore.writes (store : MemoryLedgerStore) : Nat :=
  match store.state with
  | none => 0
  | some state => state.revision.toNat + 1

/-! ## The invariant -/

omit [Sha256] in
/-- An instance's state is not ahead of the store, and at the store's revision it is the store's. -/
structure Current (store : MemoryLedgerStore) (state : ProducerState) : Prop where
  stored : ∃ latest, store.state = some latest ∧ state.revision.toNat ≤ latest.revision.toNat
  same : store.state.map ProducerState.revision = some state.revision → store.state = some state

/-- Where the transition of a pending operation comes from. -/
inductive Pending (store : MemoryLedgerStore) :
    Option ProducerState → Input → Option UInt64 → LedgerTransition → Reply → Prop where
  | operation {lookup : String → Except ProducerError (Option IdempotencyRecord)}
      {own : Option ProducerState} {input : Input} {state : ProducerState}
      {expected : Option UInt64} {t : LedgerTransition} {reply : Reply}
      (hown : ∀ state', own = some state' → state' = state) (hcurrent : Current store state)
      (hplanned : Planned lookup state input.operation (.commit expected t reply)) :
      Pending store own input expected t reply
  | creation {clock : ClockReadings} {config : LedgerConfig} {now : UInt64}
      {continuityId : BitVec 128} (hpolicy : config.policy.validate = .ok ()) :
      Pending store none (.restart clock config) none (creation config now continuityId) .unit

/-- What an instance holds comes from the store. -/
def Instance.Follows (store : MemoryLedgerStore) : Instance → Prop
  | .absent => True
  | .ready state => Current store state
  | .pending own input expected t reply => Pending store own input expected t reply

/-- What holds of the shared store and the instances after any interleaving. -/
structure SharedInvariant (s : Shared) (trace : List (Event × Output)) : Prop where
  store : StoreInvariant s.store (acceptedIn trace)
  instances : ∀ i, (s.instances i).Follows s.store

/-! ## The store moves on -/

omit [Sha256] in
theorem Current.of_state {store : MemoryLedgerStore} {state : ProducerState}
    (h : store.state = some state) : Current store state :=
  ⟨⟨state, h, le_rfl⟩, fun _ => h⟩

omit [Sha256] in
/-- A write leaves every other instance behind. -/
theorem Current.apply {store : MemoryLedgerStore} {state latest : ProducerState}
    {t : LedgerTransition} (h : Current store state) (hlatest : store.state = some latest)
    (hnext : t.nextState.revision.toNat = latest.revision.toNat + 1) :
    Current (store.apply t) state := by
  obtain ⟨latest', hlatest', hle⟩ := h.stored
  rw [hlatest] at hlatest'
  cases hlatest'
  refine ⟨⟨t.nextState, rfl, by omega⟩, ?_⟩
  intro hsame
  -- the revisions cannot be equal: the instance is at most at the revision before
  have hrevision : t.nextState.revision = state.revision := Option.some.inj hsame
  rw [hrevision] at hnext
  omega

theorem Instance.Follows.mono {store store' : MemoryLedgerStore} {inst : Instance}
    (h : inst.Follows store) (hcurrent : ∀ state, Current store state → Current store' state) :
    inst.Follows store' := by
  cases inst with
  | absent => trivial
  | ready state => exact hcurrent state h
  | pending own input expected t reply =>
    cases h with
    | operation hown hstate hplanned => exact .operation hown (hcurrent _ hstate) hplanned
    | creation hpolicy => exact .creation hpolicy

/-- The instance that takes a step is replaced; the others follow the store as it moves on. -/
theorem follows_setInstance {s : Shared} {store : MemoryLedgerStore} {i : Nat} {inst : Instance}
    (h : ∀ j, (s.instances j).Follows s.store)
    (hcurrent : ∀ state, Current s.store state → Current store state)
    (hinst : inst.Follows store) :
    ∀ j, (({ s with store }.setInstance i inst).instances j).Follows store := by
  intro j
  simp only [Shared.setInstance]
  split_ifs
  · exact hinst
  · exact (h j).mono hcurrent

/-! ## Steps -/

theorem acceptedIn_concat (trace : List (Event × Output)) (event : Event) (output : Output) :
    acceptedIn (trace ++ [(event, output)]) = acceptedIn trace ++ acceptedNow output := by
  simp [acceptedIn]

/-- A step that answers nothing new and leaves the store alone keeps the invariant if the
instance's new state follows the store. -/
theorem SharedInvariant.setInstance {s : Shared} {trace : List (Event × Output)} {event : Event}
    {output : Output} {i : Nat} {inst : Instance} (h : SharedInvariant s trace)
    (houtput : acceptedNow output = []) (hinst : inst.Follows s.store) :
    SharedInvariant (s.setInstance i inst) (trace ++ [(event, output)]) := by
  refine ⟨?_, follows_setInstance h.instances (fun _ hstate => hstate) hinst⟩
  rw [acceptedIn_concat, houtput, List.append_nil]
  exact h.store

theorem SharedInvariant.idle {s : Shared} {trace : List (Event × Output)} {event : Event}
    (h : SharedInvariant s trace) : SharedInvariant s (trace ++ [(event, none)]) := by
  have hempty : acceptedNow none = [] := rfl
  refine ⟨?_, h.instances⟩
  rw [acceptedIn_concat, hempty, List.append_nil]
  exact h.store

/-- What the plan of an operation has to do with the store it was planned on. -/
structure Begins (store : MemoryLedgerStore) (own : Option ProducerState) (input : Input)
    (result : Except ProducerError Plan) : Prop where
  held : ∀ state, own = some state → Current store state
  done : ∀ state reply, result = .ok (.done state reply) →
    Current store state ∧ acceptedBy input.operation reply = []
  commit : ∀ expected t reply, result = .ok (.commit expected t reply) →
    Pending store own input expected t reply

/-- An operation is planned from the instance's own state, an opening from the stored one; both
follow the store. -/
theorem begin_cases {s : Shared} (h : ∀ i, (s.instances i).Follows s.store) (i : Nat)
    (input : Input) :
    s.begin i input = (none, s)
      ∨ ∃ own result, s.begin i input = s.planned i own input result
        ∧ Begins s.store own input result := by
  unfold Shared.begin
  cases input with
  | call clock op =>
    -- a call needs a state in memory, and follows it
    cases hinst : s.instances i with
    | absent => exact .inl rfl
    | pending => exact .inl rfl
    | ready state =>
      have hcurrent : Current s.store state := by
        have hfollows := h i
        rwa [hinst] at hfollows
      refine .inr ⟨some state, _, rfl, by rintro _ ⟨rfl⟩; exact hcurrent, ?_, ?_⟩
      · intro next reply hplan
        obtain ⟨rfl, hnone⟩ := (Operation.plan_planned hplan).of_done
        exact ⟨hcurrent, hnone⟩
      · intro expected t reply hplan
        exact .operation (by rintro _ ⟨rfl⟩; rfl) hcurrent (Operation.plan_planned hplan)
  | restart clock config =>
    -- a restart reads the stored state, if there is one, and reactivates it
    have hstored : ∀ {state plan}, LedgerStore.load s.store = .ok (some state) →
        TrackOne.reactivate state clock = .ok plan → Current s.store state
        ∧ Planned (LedgerStore.lookupIdempotency s.store) state .reactivate plan := by
      intro state plan hloaded hreactivate
      exact ⟨.of_state (by simpa [LedgerStore.load] using hloaded),
        reactivate_planned rfl hreactivate⟩
    have hopen : Begins s.store none (.restart clock config)
        (openOrCreate (LedgerStore.load s.store) clock config) := by
      refine ⟨by simp, ?_, ?_⟩
      · intro next reply hplan
        rcases openOrCreate_eq_ok hplan with ⟨state, hloaded, -, hreactivate⟩ | ⟨-, -, now, hcreate⟩
        · obtain ⟨hcurrent, hplanned⟩ := hstored hloaded hreactivate
          obtain ⟨rfl, hnone⟩ := hplanned.of_done
          exact ⟨hcurrent, hnone⟩
        -- no ledger is stored: the plan is to create it, never to answer at once
        · cases hcreate
      · intro expected t reply hplan
        rcases openOrCreate_eq_ok hplan with ⟨state, hloaded, -, hreactivate⟩
          | ⟨-, hpolicy, now, hcreate⟩
        · obtain ⟨hcurrent, hplanned⟩ := hstored hloaded hreactivate
          exact .operation (by simp) hcurrent hplanned
        · cases hcreate
          exact .creation hpolicy
    cases hinst : s.instances i with
    | absent => exact .inr ⟨none, _, rfl, hopen⟩
    | ready => exact .inr ⟨none, _, rfl, hopen⟩
    | pending => exact .inl rfl

/-- The instance after planning, and what the answer accepts: nothing. -/
theorem planned_cases {s : Shared} {own : Option ProducerState} {input : Input}
    {result : Except ProducerError Plan} (i : Nat) (h : Begins s.store own input result) :
    ∃ output inst, s.planned i own input result = (output, s.setInstance i inst)
      ∧ acceptedNow output = [] ∧ inst.Follows s.store := by
  match result with
  | .error error =>
    refine ⟨_, _, rfl, rfl, ?_⟩
    cases own with
    | none => trivial
    | some state => exact h.held state rfl
  | .ok (.done state reply) =>
    obtain ⟨hcurrent, hnone⟩ := h.done state reply rfl
    exact ⟨_, _, rfl, hnone, hcurrent⟩
  | .ok (.commit expected t reply) => exact ⟨_, _, rfl, rfl, h.commit expected t reply rfl⟩

theorem SharedInvariant.begin {s : Shared} {trace : List (Event × Output)}
    (h : SharedInvariant s trace) (i : Nat) (input : Input) :
    SharedInvariant (s.begin i input).2 (trace ++ [(.begin i input, (s.begin i input).1)]) := by
  rcases begin_cases h.instances i input with hidle | ⟨own, result, hbegin, hresult⟩
  · rw [hidle]
    exact h.idle
  · obtain ⟨output, inst, hplanned, hnone, hfollows⟩ := planned_cases i hresult
    rw [hbegin, hplanned]
    exact h.setInstance hnone hfollows

/-- The call of the store: a transition that is not refused was planned from the stored state. -/
theorem SharedInvariant.finish {s : Shared} {trace : List (Event × Output)}
    (h : SharedInvariant s trace) (i : Nat) :
    SharedInvariant (s.finish i).2 (trace ++ [(.finish i, (s.finish i).1)]) := by
  unfold Shared.finish
  cases hinst : s.instances i with
  | absent => exact h.idle
  | ready => exact h.idle
  | pending own input expected t reply =>
    have hpending : Pending s.store own input expected t reply := by
      have hfollows := h.instances i
      rwa [hinst] at hfollows
    simp only
    cases hexecute : (Plan.commit expected t reply).execute s.store with
    | mk result store =>
      cases result with
      -- the store refused: it is unchanged, and so is what the instance follows
      | error error =>
        rw [execute_error hexecute]
        refine h.setInstance rfl ?_
        cases own with
        | none => trivial
        | some state =>
          cases hpending with
          | operation hown hcurrent _ =>
            obtain rfl := hown state rfl
            exact hcurrent
      | ok result =>
        obtain ⟨next, reply'⟩ := result
        obtain ⟨hrevision, -, rfl, rfl, rfl⟩ := execute_commit hexecute
        cases hpending with
        -- an operation over the state that the instance holds, which is still the stored one
        | @operation lookup _ _ state _ _ _ hown hcurrent hplanned =>
          obtain ⟨rfl, admitted, hcommits⟩ := hplanned.of_commit
          have hstate := hcurrent.same hrevision
          obtain ⟨hstore, hnext, -⟩ := hplanned.execute h.store hstate hexecute
          refine ⟨?_, follows_setInstance h.instances ?_ (Current.of_state rfl)⟩
          · rw [acceptedIn_concat]
            exact hstore
          · intro state' hstate'
            exact hstate'.apply hstate hcommits.revision
        -- the first instance creates the ledger
        | @creation clock config _ _ hpolicy =>
          have hnone : s.store.state = none := Option.map_eq_none_iff.mp hrevision
          refine ⟨?_, follows_setInstance h.instances ?_ (Current.of_state rfl)⟩
          · have hempty : acceptedNow (some (.restart clock config, .ok .unit)) = [] := rfl
            rw [acceptedIn_concat, hempty, List.append_nil]
            exact h.store.created hnone hpolicy
          · -- no instance had a state to follow
            intro state' hstate'
            obtain ⟨latest, hlatest, -⟩ := hstate'.stored
            rw [hnone] at hlatest
            cases hlatest

namespace Shared

/-- The invariant holds after every interleaving. -/
theorem run_invariant (events : List Event) : SharedInvariant (run events).1 (run events).2 := by
  apply runTrace_induction
  · exact ⟨storeInvariant_empty, fun _ => trivial⟩
  · intro s trace event h
    cases event with
    | begin i input => exact h.begin i input
    | finish i => exact h.finish i
    | crash i => exact h.setInstance rfl trivial

end Shared

/-- Only the call of the store writes to it and accepts a call. -/
theorem SharedInvariant.begin_store {s : Shared} {trace : List (Event × Output)}
    (h : SharedInvariant s trace) (i : Nat) (input : Input) :
    (s.begin i input).2.store = s.store ∧ acceptedNow (s.begin i input).1 = [] := by
  rcases begin_cases h.instances i input with hidle | ⟨own, result, hbegin, hresult⟩
  · rw [hidle]
    exact ⟨rfl, rfl⟩
  · obtain ⟨output, inst, hplanned, hnone, -⟩ := planned_cases i hresult
    rw [hbegin, hplanned]
    exact ⟨rfl, hnone⟩

omit [Sha256] in
/-- A refused transition answers with a conflict and changes nothing but the instance. -/
theorem finish_refused {s : Shared} {i : Nat} {own : Option ProducerState} {input : Input}
    {expected : Option UInt64} {t : LedgerTransition} {reply : Reply}
    (hinst : s.instances i = .pending own input expected t reply)
    (hcas : s.store.compareAndSwap expected t = (.error .concurrentWriter, s.store)) :
    s.finish i
      = (some (input, .error .concurrentWriter), s.setInstance i (Shared.fallback own)) := by
  unfold Shared.finish
  simp only [hinst, Plan.execute, LedgerStore.compareAndSwap, hcas]

/-- The call of the store writes the next revision, or is refused and changes nothing. -/
theorem SharedInvariant.finish_cases {s : Shared} {trace : List (Event × Output)} {i : Nat}
    {own : Option ProducerState} {input : Input} {expected : Option UInt64} {t : LedgerTransition}
    {reply : Reply} (h : SharedInvariant s trace)
    (hinst : s.instances i = .pending own input expected t reply) :
    (s.finish i).1 = some (input, .ok reply) ∧ (s.finish i).2.store = s.store.apply t
        ∧ (s.finish i).2.store.writes = s.store.writes + 1
      ∨ s.finish i
        = (some (input, .error .concurrentWriter), s.setInstance i (Shared.fallback own)) := by
  rcases compareAndSwap_cases s.store expected t with hcas | ⟨hcas, hrevision, -⟩
  · exact .inr (finish_refused hinst hcas)
  · left
    have hfinish : s.finish i = (some (input, .ok reply),
        { s with store := s.store.apply t }.setInstance i (.ready t.nextState)) := by
      unfold Shared.finish
      simp only [hinst, Plan.execute, LedgerStore.compareAndSwap, hcas]
    have hpending : Pending s.store own input expected t reply := by
      have hfollows := h.instances i
      rwa [hinst] at hfollows
    rw [hfinish]
    refine ⟨rfl, rfl, ?_⟩
    cases hpending with
    | operation hown hcurrent hplanned =>
      obtain ⟨rfl, admitted, hcommits⟩ := hplanned.of_commit
      have hstate := hcurrent.same hrevision
      simp [MemoryLedgerStore.writes, Shared.setInstance, MemoryLedgerStore.apply, hstate,
        hcommits.revision]
    | creation =>
      have hnone : s.store.state = none := Option.map_eq_none_iff.mp hrevision
      simp [MemoryLedgerStore.writes, Shared.setInstance, MemoryLedgerStore.apply, hnone, creation,
        createdState]

/-- An instance at another revision than the store's is refused. -/
theorem SharedInvariant.finish_stale {s : Shared} {trace : List (Event × Output)} {i : Nat}
    {state : ProducerState} {input : Input} {expected : Option UInt64} {t : LedgerTransition}
    {reply : Reply} (h : SharedInvariant s trace)
    (hinst : s.instances i = .pending (some state) input expected t reply)
    (hstale : s.store.state.map ProducerState.revision ≠ some state.revision) :
    s.finish i = (some (input, .error .concurrentWriter), s.setInstance i (.ready state)) := by
  have hpending : Pending s.store (some state) input expected t reply := by
    have hfollows := h.instances i
    rwa [hinst] at hfollows
  cases hpending with
  | operation hown hcurrent hplanned =>
    obtain rfl := hown state rfl
    obtain ⟨rfl, admitted, hcommits⟩ := hplanned.of_commit
    rcases compareAndSwap_cases s.store (some state.revision) t with hcas | ⟨-, hrevision, -⟩
    · exact finish_refused hinst hcas
    · exact absurd hrevision hstale

/-- The state an instance holds follows the store. -/
theorem SharedInvariant.own {s : Shared} {trace : List (Event × Output)} {i : Nat}
    {state : ProducerState} (h : SharedInvariant s trace)
    (hown : (s.instances i).own = some state) : Current s.store state := by
  have hfollows := h.instances i
  cases hinst : s.instances i with
  | absent => rw [hinst] at hown; cases hown
  | ready state' =>
    rw [hinst] at hown hfollows
    cases hown
    exact hfollows
  | pending own input expected t reply =>
    rw [hinst] at hown hfollows
    cases hown
    cases hfollows with
    | operation hsame hcurrent _ =>
      obtain rfl := hsame state rfl
      exact hcurrent

namespace Shared

/-- Concurrent writers lose nothing. After every interleaving of any instances: the sealed segments
are the chain of the stored state; the ledger holds the records of the accepted calls in the order
of the answers, each once and where its call was told; no instance is ahead of the store and one at
its revision has its state. And of the next step: beginning an operation or losing an instance
leaves the store alone and accepts nothing; the call of the store is answered with its reply and
one write more, or with a conflict and the store as it was, and an instance at another revision
than the store's gets the conflict. -/
theorem run_concurrent (events : List Event) :
    (match (run events).1.store.state with
      | none => (run events).1.store.sealed = ∅
      | some state => SealedChain (run events).1.store.sealed state)
    ∧ (run events).1.store.records
        = (acceptedIn (run events).2).flatMap AcceptedCall.records
    ∧ (run events).1.store.located
        = (acceptedIn (run events).2).flatMap (fun call => call.records.zip call.numbers)
    ∧ (∀ i state, ((run events).1.instances i).own = some state →
        Current (run events).1.store state)
    ∧ (∀ i input, ((run events).1.step (.begin i input)).2.store = (run events).1.store
        ∧ acceptedNow ((run events).1.step (.begin i input)).1 = [])
    ∧ (∀ i, ((run events).1.step (.crash i)).2.store = (run events).1.store
        ∧ acceptedNow ((run events).1.step (.crash i)).1 = [])
    ∧ ∀ i own input expected t reply,
        (run events).1.instances i = .pending own input expected t reply →
        (((run events).1.step (.finish i)).1 = some (input, .ok reply)
            ∧ ((run events).1.step (.finish i)).2.store = (run events).1.store.apply t
            ∧ ((run events).1.step (.finish i)).2.store.writes
              = (run events).1.store.writes + 1
          ∨ (run events).1.step (.finish i)
            = (some (input, .error .concurrentWriter),
                (run events).1.setInstance i (fallback own)))
        ∧ ∀ state, own = some state →
          (run events).1.store.state.map ProducerState.revision ≠ some state.revision →
          (run events).1.step (.finish i)
            = (some (input, .error .concurrentWriter),
                (run events).1.setInstance i (.ready state)) := by
  have h := run_invariant events
  refine ⟨?_, h.store.records_eq, h.store.located_eq, fun i state hown => h.own hown,
    fun i input => h.begin_store i input, fun i => ⟨rfl, rfl⟩, ?_⟩
  · cases hstate : (run events).1.store.state with
    | none => exact (h.store.of_none hstate).1
    | some state =>
      obtain ⟨segments, hindexes, hledger, -⟩ := h.store.of_state hstate
      exact hledger.chained.sealedChain hindexes
  · intro i own input expected t reply hinst
    refine ⟨h.finish_cases hinst, ?_⟩
    intro state hown hstale
    subst hown
    exact h.finish_stale hinst hstale

end Shared

end TrackOne
