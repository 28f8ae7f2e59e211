import TrackOne.Lib.TreeMap
import TrackOne.Gateway.Operations

/-!
# The ledger invariant

What the in-memory store holds at any time, as a function of the admission calls that were answered
with a new admission. `Ledger` relates the stored state, the sealed segments in order and those
calls; `Kept` relates the idempotency records to them; `StoreInvariant` is the two together with the
store's maps. `StoreInvariant.apply` is the only step: a transition that commits moves from the
stored state, and that the store does not refuse, preserves it.
-/

namespace TrackOne

variable [Sha256]

/-- An admission call that was answered with a new admission. -/
structure AcceptedCall where
  records : List Bytes
  request : Option (String × String)
  outcome : AdmissionOutcome

namespace AcceptedCall

omit [Sha256] in
/-- The segment number reported for each record. -/
def numbers (call : AcceptedCall) : List UInt64 := expandRuns call.outcome.admissionRuns

omit [Sha256] in
/-- The idempotency key of the call, if it has one. -/
def key? (call : AcceptedCall) : Option String := call.request.map Prod.fst

end AcceptedCall

/-! ## State and segments -/

/-- The stored state and the sealed segments hold exactly the records of the accepted calls, in
order, where the calls were told. -/
structure Ledger (state : ProducerState) (segments : List SealedSegment)
    (accepted : List AcceptedCall) : Prop where
  chained : Chained state segments
  policies : PoliciesValid state
  placed : (ledgerLog segments state).placed
    = accepted.flatMap fun call => placements (call.records.zip call.numbers)
  reported : ∀ call ∈ accepted, call.numbers.length = call.records.length

theorem Ledger.created {config : LedgerConfig} {now : UInt64} {continuityId : BitVec 128}
    (h : config.policy.validate = .ok ()) : Ledger (createdState config now continuityId)
    [] [] where
  chained := ⟨by intro i segment hi; simp at hi, rfl, rfl⟩
  policies := ⟨h, h⟩
  placed := rfl
  reported := by simp

/-- A committed transition extends the ledger by its segments and its call. -/
theorem Ledger.commit {state : ProducerState} {segments : List SealedSegment}
    {accepted calls : List AcceptedCall} {t : LedgerTransition} {admitted : List (Bytes × UInt64)}
    (h : Ledger state segments accepted) (hcommits : Commits state admitted t)
    (hcalls : admitted = calls.flatMap fun call => call.records.zip call.numbers)
    (hreported : ∀ call ∈ calls, call.numbers.length = call.records.length) :
    Ledger t.nextState (segments ++ t.sealed) (accepted ++ calls) := by
  have hpolicies := hcommits.moves.policies h.policies
  have hsteps := hcommits.moves.steps h.chained
  refine ⟨hcommits.chained h.chained, ⟨hpolicies.openPolicy, hpolicies.nextPolicy⟩, ?_, ?_⟩
  · have hplaced := hsteps.placed_eq
    rw [h.placed, hcalls, placements, List.map_flatMap] at hplaced
    rw [List.flatMap_append]
    exact hplaced
  · intro call hcall
    rcases List.mem_append.mp hcall with hold | hnew
    · exact h.reported call hold
    · exact hreported call hnew

/-! ## Idempotency records -/

/-- The idempotency records answer the keyed calls among the accepted ones, each key once. -/
structure Kept (idempotency : Std.ExtTreeMap String IdempotencyRecord compare)
    (accepted : List AcceptedCall) : Prop where
  answered : ∀ call ∈ accepted, ∀ key digest, call.request = some (key, digest) →
    ∃ existing, idempotency[key]? = some existing ∧ existing.requestSha256 = digest
      ∧ replayedOutcome existing = .ok { call.outcome with sealed := [], replayed := true }
  valid : ∀ call ∈ accepted, ∀ key digest, call.request = some (key, digest) →
    validateKey key = .ok ()
  once : (accepted.filterMap AcceptedCall.key?).Nodup

omit [Sha256] in
/-- The record that is kept for a request answers it again with the same outcome. -/
theorem replayedOutcome_keptRecord {numbers : List UInt64} {t : LedgerTransition}
    {outcome : AdmissionOutcome} (h : Admitted numbers t outcome) (request : String × String) :
    replayedOutcome (keptRecord numbers t request)
      = .ok { outcome with sealed := [], replayed := true } := by
  obtain ⟨hrevision, hfirst, hcount, hruns, -, hsealed, -⟩ := h
  simp only [replayedOutcome, keptRecord, hruns, hcount, Except.ofOption, bind, Except.bind, pure,
    Except.pure, hrevision, hfirst, hsealed]

omit [Sha256] in
theorem Kept.concat_none {idempotency : Std.ExtTreeMap String IdempotencyRecord compare}
    {accepted : List AcceptedCall} {call : AcceptedCall} (h : Kept idempotency accepted)
    (hrequest : call.request = none) : Kept idempotency (accepted ++ [call]) := by
  have hkey : call.key? = none := by rw [AcceptedCall.key?, hrequest]; rfl
  refine ⟨?_, ?_, ?_⟩
  · intro call' hcall' key digest hreq
    rcases List.mem_append.mp hcall' with hold | hnew
    · exact h.answered call' hold key digest hreq
    · rw [List.mem_singleton.mp hnew, hrequest] at hreq
      cases hreq
  · intro call' hcall' key digest hreq
    rcases List.mem_append.mp hcall' with hold | hnew
    · exact h.valid call' hold key digest hreq
    · rw [List.mem_singleton.mp hnew, hrequest] at hreq
      cases hreq
  · simpa [List.filterMap_append, hkey] using h.once

omit [Sha256] in
/-- A new key is kept; the records of the keys before it stay as they are. -/
theorem Kept.concat_some {idempotency : Std.ExtTreeMap String IdempotencyRecord compare}
    {accepted : List AcceptedCall} {call : AcceptedCall} {key digest : String}
    {existing : IdempotencyRecord} (h : Kept idempotency accepted)
    (hrequest : call.request = some (key, digest)) (hvalid : validateKey key = .ok ())
    (hnew : key ∉ idempotency)
    (hdigest : existing.requestSha256 = digest)
    (hreplay : replayedOutcome existing
      = .ok { call.outcome with sealed := [], replayed := true }) :
    Kept (idempotency.insert key existing) (accepted ++ [call]) := by
  have hkey : call.key? = some key := by rw [AcceptedCall.key?, hrequest]; rfl
  -- a key of an accepted call is already in the map, so it is not the new one
  have hfresh : key ∉ accepted.filterMap AcceptedCall.key? := by
    intro hmem
    obtain ⟨call', hcall', hk⟩ := List.mem_filterMap.mp hmem
    obtain ⟨⟨key', digest'⟩, hreq, rfl⟩ := Option.map_eq_some_iff.mp hk
    obtain ⟨existing', hexisting, -⟩ := h.answered call' hcall' key' digest' hreq
    exact hnew (Std.ExtTreeMap.mem_iff_isSome_getElem?.mpr (by rw [hexisting]; rfl))
  refine ⟨?_, ?_, ?_⟩
  · intro call' hcall' key' digest' hreq
    rcases List.mem_append.mp hcall' with hold | hlast
    · obtain ⟨existing', hexisting, hrest⟩ := h.answered call' hold key' digest' hreq
      have hne : key ≠ key' := by
        rintro rfl
        exact hnew (Std.ExtTreeMap.mem_iff_isSome_getElem?.mpr (by rw [hexisting]; rfl))
      refine ⟨existing', ?_, hrest⟩
      rw [Std.ExtTreeMap.getElem?_insert, if_neg (by simpa using hne), hexisting]
    · rw [List.mem_singleton.mp hlast, hrequest] at hreq
      cases hreq
      rw [List.mem_singleton.mp hlast]
      exact ⟨existing, by simp, hdigest, hreplay⟩
  · intro call' hcall' key' digest' hreq
    rcases List.mem_append.mp hcall' with hold | hlast
    · exact h.valid call' hold key' digest' hreq
    · rw [List.mem_singleton.mp hlast, hrequest] at hreq
      cases hreq
      exact hvalid
  · rw [List.filterMap_append, List.nodup_append]
    refine ⟨h.once, by simp [hkey], ?_⟩
    intro a ha b hb
    simp only [List.filterMap_cons, hkey, List.filterMap_nil, List.mem_singleton] at hb
    rintro rfl
    exact hfresh (hb ▸ ha)

/-! ## The store -/

omit [Sha256] in
/-- The segments of a transition go to the positions after those that are stored. -/
theorem indexes_foldl_insert {sealed : Std.ExtTreeMap UInt64 SealedSegment compare}
    {segments new : List SealedSegment} (h : TreeMap.Indexes sealed segments)
    (hnumbers : ∀ (i : Nat) (segment : SealedSegment), (segments ++ new)[i]? = some segment →
      segment.segmentNumber.toNat = i) :
    TreeMap.Indexes
      (new.foldl (fun sealed segment => sealed.insert segment.segmentNumber segment) sealed)
      (segments ++ new) := by
  induction new generalizing sealed segments with
  | nil => simpa using h
  | cons segment new ih =>
    have hnumber : segment.segmentNumber.toNat = segments.length :=
      hnumbers segments.length segment (by simp)
    have hrest := ih (h.insert hnumber segment) (by simpa using hnumbers)
    simpa using hrest

/-- The store holds the ledger of the accepted calls; before the first opening it is blank. -/
inductive StoreInvariant (store : MemoryLedgerStore) : List AcceptedCall → Prop where
  | blank (hstate : store.state = none) (hsealed : store.sealed = ∅)
      (hidempotency : store.idempotency = ∅) : StoreInvariant store []
  | ledger {state : ProducerState} {segments : List SealedSegment} {accepted : List AcceptedCall}
      (hstate : store.state = some state) (hindexes : TreeMap.Indexes store.sealed segments)
      (hledger : Ledger state segments accepted) (hkept : Kept store.idempotency accepted) :
      StoreInvariant store accepted

theorem storeInvariant_empty : StoreInvariant MemoryLedgerStore.empty [] := .blank rfl rfl rfl

theorem StoreInvariant.of_none {store : MemoryLedgerStore} {accepted : List AcceptedCall}
    (h : StoreInvariant store accepted) (hnone : store.state = none) :
    store.sealed = ∅ ∧ accepted = [] := by
  cases h with
  | blank _ hsealed _ => exact ⟨hsealed, rfl⟩
  | ledger hsome => rw [hnone] at hsome; cases hsome

theorem StoreInvariant.of_state {store : MemoryLedgerStore} {accepted : List AcceptedCall}
    {state : ProducerState} (h : StoreInvariant store accepted)
    (hstate : store.state = some state) :
    ∃ segments, TreeMap.Indexes store.sealed segments ∧ Ledger state segments accepted
      ∧ Kept store.idempotency accepted := by
  cases h with
  | blank hnone => rw [hnone] at hstate; cases hstate
  | ledger hsome hindexes hledger hkept =>
    rw [hsome] at hstate
    cases hstate
    exact ⟨_, hindexes, hledger, hkept⟩

/-! ## Committing to the store -/

/-- The calls that an answer accepts: none, or the one admission that was new. -/
def acceptedBy (op : Operation) (reply : Reply) : List AcceptedCall :=
  match op.admission, reply with
  | some (records, request), .admitted outcome =>
    if outcome.replayed then [] else [⟨records, request, outcome⟩]
  | _, _ => []

omit [Sha256] in
/-- A refused transition leaves the store as it was; one that is not refused found the revision it
expected and neither its segments nor its key. -/
theorem compareAndSwap_cases (store : MemoryLedgerStore) (expected : Option UInt64)
    (t : LedgerTransition) :
    store.compareAndSwap expected t = (.error .concurrentWriter, store)
      ∨ (store.compareAndSwap expected t = (.ok (), store.apply t)
        ∧ store.state.map ProducerState.revision = expected
        ∧ ∀ admission, t.idempotency = some admission → admission.key ∉ store.idempotency) := by
  unfold MemoryLedgerStore.compareAndSwap
  split_ifs with hconflicts
  · exact .inl rfl
  · right
    simp only [MemoryLedgerStore.conflicts, Bool.or_eq_true, decide_eq_true_eq, not_or,
      not_not] at hconflicts
    obtain ⟨⟨hrevision, -⟩, hkey⟩ := hconflicts
    refine ⟨rfl, hrevision, ?_⟩
    intro admission hadmission hmem
    rw [hadmission] at hkey
    exact hkey (by simpa using hmem)

/-- The store after a transition holds the segments and the state of the transition. -/
theorem StoreInvariant.apply {store : MemoryLedgerStore} {accepted calls : List AcceptedCall}
    {state : ProducerState} {t : LedgerTransition} {admitted : List (Bytes × UInt64)}
    (h : StoreInvariant store accepted) (hstate : store.state = some state)
    (hcommits : Commits state admitted t)
    (hcalls : admitted = calls.flatMap fun call => call.records.zip call.numbers)
    (hreported : ∀ call ∈ calls, call.numbers.length = call.records.length)
    (hkept : Kept store.idempotency accepted →
      Kept (store.apply t).idempotency (accepted ++ calls)) :
    StoreInvariant (store.apply t) (accepted ++ calls) := by
  obtain ⟨segments, hindexes, hledger, hold⟩ := h.of_state hstate
  have hnext := hledger.commit hcommits hcalls hreported
  exact .ledger
    rfl (indexes_foldl_insert hindexes fun i segment hi => hnext.chained.chain.segmentNumber hi)
    hnext (hkept hold)

omit [Sha256] in
theorem Admitted.numbers_eq {numbers : List UInt64} {t : LedgerTransition}
    {outcome : AdmissionOutcome} (h : Admitted numbers t outcome) (records : List Bytes)
    (request : Option (String × String)) :
    AcceptedCall.numbers ⟨records, request, outcome⟩ = numbers :=
  expandRuns_admissionRuns h.admissionRuns

omit [Sha256] in
/-- The kept record of a new admission joins the idempotency records. -/
theorem Kept.admitted {store : MemoryLedgerStore} {accepted : List AcceptedCall}
    {records : List Bytes} {request : Option (String × String)} {numbers : List UInt64}
    {t : LedgerTransition} {outcome : AdmissionOutcome}
    (houtcome : Admitted numbers t outcome)
    (hidempotency : t.idempotency = request.map (keptRecord numbers t))
    (hvalid : ∀ key digest, request = some (key, digest) → validateKey key = .ok ())
    (hnew : ∀ admission, t.idempotency = some admission → admission.key ∉ store.idempotency)
    (h : Kept store.idempotency accepted) :
    Kept (store.apply t).idempotency (accepted ++ [⟨records, request, outcome⟩]) := by
  cases request with
  | none =>
    rw [Option.map_none] at hidempotency
    rw [MemoryLedgerStore.apply, hidempotency]
    exact h.concat_none rfl
  | some request =>
    obtain ⟨key, digest⟩ := request
    rw [Option.map_some] at hidempotency
    have hfresh := hnew _ hidempotency
    rw [MemoryLedgerStore.apply, hidempotency]
    exact h.concat_some rfl (hvalid key digest rfl) hfresh rfl
      (replayedOutcome_keptRecord houtcome (key, digest))

/-- A plan without a commit keeps the state and accepts nothing. -/
theorem Planned.of_done {lookup : String → Except ProducerError (Option IdempotencyRecord)}
    {state next : ProducerState} {op : Operation} {reply : Reply}
    (h : Planned lookup state op (.done next reply)) : next = state ∧ acceptedBy op reply = [] := by
  cases h with
  | idle hreply =>
    refine ⟨rfl, ?_⟩
    unfold acceptedBy
    split
    · exact absurd rfl (hreply _)
    · rfl
  | @replayed records key digest existing outcome hop _ _ houtcome =>
    have hreplayed : outcome.replayed = true := by
      simp only [replayedOutcome, Except.bind_eq_ok] at houtcome
      obtain ⟨runs, -, count, -, houtcome⟩ := houtcome
      cases houtcome
      rfl
    exact ⟨rfl, by simp [acceptedBy, hop, hreplayed]⟩

/-- A commit expects the revision of the state it was planned from and takes the next one. -/
theorem Planned.of_commit {lookup : String → Except ProducerError (Option IdempotencyRecord)}
    {state : ProducerState} {op : Operation} {expected : Option UInt64} {t : LedgerTransition}
    {reply : Reply} (h : Planned lookup state op (.commit expected t reply)) :
    expected = some state.revision ∧ ∃ admitted, Commits state admitted t := by
  cases h with
  | maintained _ hcommits => exact ⟨rfl, _, hcommits⟩
  | admitted _ _ _ hcommits => exact ⟨rfl, _, hcommits⟩

omit [Sha256] in
/-- A commit that succeeds found the revision it expected. -/
theorem execute_commit {store store' : MemoryLedgerStore} {expected : Option UInt64}
    {t : LedgerTransition} {reply reply' : Reply} {next : ProducerState}
    (hexecute : (Plan.commit expected t reply).execute store = (.ok (next, reply'), store')) :
    store.state.map ProducerState.revision = expected
      ∧ (∀ admission, t.idempotency = some admission → admission.key ∉ store.idempotency)
      ∧ next = t.nextState ∧ reply' = reply ∧ store' = store.apply t := by
  simp only [Plan.execute, LedgerStore.compareAndSwap] at hexecute
  rcases compareAndSwap_cases store expected t with hcas | ⟨hcas, hrevision, hnew⟩
  · rw [hcas] at hexecute
    cases hexecute
  · rw [hcas] at hexecute
    cases hexecute
    exact ⟨hrevision, hnew, rfl, rfl, rfl⟩

/-- What the store holds after a planned operation, and the state its producer goes on with. -/
theorem Planned.execute {lookup : String → Except ProducerError (Option IdempotencyRecord)}
    {store store' : MemoryLedgerStore} {accepted : List AcceptedCall} {state next : ProducerState}
    {op : Operation} {plan : Plan} {reply : Reply} (hplanned : Planned lookup state op plan)
    (h : StoreInvariant store accepted) (hstate : store.state = some state)
    (hexecute : plan.execute store = (.ok (next, reply), store')) :
    StoreInvariant store' (accepted ++ acceptedBy op reply) ∧ store'.state = some next
      ∧ next.ledgerId = state.ledgerId := by
  cases plan with
  | done next' reply' =>
    obtain ⟨rfl, hnone⟩ := hplanned.of_done
    cases hexecute
    rw [hnone, List.append_nil]
    exact ⟨h, hstate, rfl⟩
  | commit expected t reply' =>
    obtain ⟨-, hnew, rfl, rfl, rfl⟩ := execute_commit hexecute
    cases hplanned with
    | maintained hop hcommits hdeltas hidempotency hreply =>
      have hnone : acceptedBy op reply = [] := by
        simp [acceptedBy, hop]
      rw [hnone]
      refine ⟨h.apply hstate hcommits rfl (by simp) ?_, rfl, hcommits.moves.identity.2.1⟩
      intro hkept
      rw [MemoryLedgerStore.apply, hidempotency, List.append_nil]
      exact hkept
    | @admitted records request numbers _ outcome hop hlookup hlength hcommits hdeltas
        hidempotency houtcome =>
      have hone : acceptedBy op (.admitted outcome) = [⟨records, request, outcome⟩] := by
        simp [acceptedBy, hop, houtcome.replayed]
      have hnumbers := houtcome.numbers_eq records request
      have hvalid : ∀ key digest, request = some (key, digest) → validateKey key = .ok () :=
        fun key digest hrequest => (hlookup key digest hrequest).1
      rw [hone]
      refine ⟨h.apply hstate hcommits ?_ ?_ (Kept.admitted houtcome hidempotency hvalid hnew), rfl,
        hcommits.moves.identity.2.1⟩
      · simp [hnumbers]
      · simp [hnumbers, hlength]

omit [Sha256] in
/-- An operation that fails leaves the store as it was. -/
theorem execute_error {store store' : MemoryLedgerStore} {plan : Plan} {error : ProducerError}
    (hexecute : plan.execute store = (.error error, store')) : store' = store := by
  cases plan with
  | done state reply => cases hexecute
  | commit expected t reply =>
    simp only [Plan.execute, LedgerStore.compareAndSwap] at hexecute
    rcases compareAndSwap_cases store expected t with hcas | ⟨hcas, -, -⟩
    · rw [hcas] at hexecute
      cases hexecute
      rfl
    · rw [hcas] at hexecute
      cases hexecute

end TrackOne
