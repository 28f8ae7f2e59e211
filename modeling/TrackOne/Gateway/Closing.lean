import TrackOne.Gateway.Maintenance

/-!
# Closing and reconfiguring after maintenance

Unlike an admission, `close` and `update_policy` do not run the loop over expired intervals. `close`
and an immediate `update_policy` make a `transition`, which seals whatever is open as one segment,
with the reason it was asked for; after a tick there is less left to seal. A deferred
`update_policy` leaves the open interval as it is, and a tick moves its start. So a tick before them
can be seen.

* `ClosesAlike` says when a tick before a closing cannot: the two seal nothing twice and nothing
  else than the closing alone. `Reconfiguration.HidesTick` says it of all these calls.
* `closesAlike_iff` compares the two orders of a closing on the states, and
  `World.run_maintenance_closing` those of every call over runs: a tick that finds no elapsed
  interval changes nothing, and one that finds some changes nothing exactly when the call hides
  it. -/

namespace TrackOne

/-- What `close` and `update_policy` do to the open interval: it is closed at once for a reason,
with a replacement of its policy if there is one, or it goes on and the policy is for those after
it. -/
inductive Reconfiguration where
  | closing (reason : CloseReason) (replacement : Option ClosurePolicy)
  | deferred (policy : ClosurePolicy)

def Operation.reconfiguration : Operation → Option Reconfiguration
  | .close reason => some (.closing reason none)
  | .updatePolicy policy true => some (.closing .reconfigure (some policy))
  | .updatePolicy policy false => some (.deferred policy)
  | _ => none

/-- After an interval has elapsed, closing it on a tick and closing what follows for the reason is
like closing it for the reason: what follows the elapsed interval is suppressed, and either nothing
was sealed on the tick, or it was sealed for the reason itself. -/
def ClosesAlike (state : ProducerState) (reason : CloseReason) : Prop :=
  state.nextPolicy.emptyMode = .suppress
    ∧ if suppressed state.openInterval.records state.openInterval.policy .interval then
        (reason = .shutdown ∨ reason = .recovery → state.openInterval.policy = state.nextPolicy)
      else reason = .interval

instance (state : ProducerState) (reason : CloseReason) : Decidable (ClosesAlike state reason) :=
  inferInstanceAs (Decidable (_ ∧ ite _ _ _))

/-- A tick that finds an elapsed interval cannot be seen behind the call. It can be seen behind a
deferred policy, which does not move the start of the open interval. -/
def Reconfiguration.HidesTick (state : ProducerState) : Reconfiguration → Prop
  | .closing reason _ => ClosesAlike state reason
  | .deferred _ => False

@[simp] theorem reopened_reopened (state : ProducerState) (first second : UInt64) :
    (state.reopened first).reopened second = state.reopened second := rfl

/-- Closing an interval does not touch the chain. -/
theorem chain_of_reopened {state state' : ProducerState} {now : UInt64}
    (h : state.reopened now = state'.reopened now) :
    state.ledgerId = state'.ledgerId ∧ state.nextSegmentNumber = state'.nextSegmentNumber
      ∧ state.predecessorCbor = state'.predecessorCbor := by
  have hchain := congrArg
    (fun state => (state.ledgerId, state.nextSegmentNumber, state.predecessorCbor)) h
  simpa only [ProducerState.reopened, Prod.mk.injEq] using hchain

variable [Sha256] {state mid next : ProducerState} {now boundary : UInt64} {reason : CloseReason}
  {segment segment' : Option SealedSegment} {sealed : List SealedSegment}

/-! ## The states after a closing -/

/-- An interval with the next policy and no records, as every closing leaves it. -/
structure Fresh (state : ProducerState) : Prop where
  records : state.openInterval.records = []
  policy : state.openInterval.policy = state.nextPolicy

theorem Closes.fresh (h : Closes state now reason segment next) :
    Fresh next ∧ next.nextPolicy = state.nextPolicy := by
  cases h <;> exact ⟨⟨rfl, rfl⟩, rfl⟩

theorem Expires.fresh (h : Expires now state sealed next) (hfresh : Fresh state) :
    Fresh next ∧ next.nextPolicy = state.nextPolicy := by
  induction h with
  | within => exact ⟨hfresh, rfl⟩
  | close _ _ hclose _ ih =>
    obtain ⟨hmid, hpolicy⟩ := (constructSegment_closes hclose).fresh
    obtain ⟨hnext, hpolicy'⟩ := ih hmid
    exact ⟨hnext, hpolicy'.trans hpolicy⟩

/-- Empty intervals under a policy that suppresses them pass without a trace. -/
theorem Expires.suppressed (h : Expires now state sealed next) (hfresh : Fresh state)
    (hsuppress : state.nextPolicy.emptyMode = .suppress) :
    sealed = [] ∧ ∀ later, next.reopened later = state.reopened later := by
  induction h with
  | within => exact ⟨rfl, fun _ => rfl⟩
  | @close state mid next boundary segment sealed _ _ hclose hrest ih =>
    have hskipped : TrackOne.suppressed state.openInterval.records state.openInterval.policy
        .interval := by
      simp [TrackOne.suppressed, hfresh.records, hfresh.policy, hsuppress]
    rw [constructSegment_eq, if_pos hskipped] at hclose
    cases hclose
    obtain ⟨rfl, hreopened⟩ := ih ⟨rfl, rfl⟩ hsuppress
    exact ⟨rfl, hreopened⟩

/-- The policy of a sealed segment can be read off its artifact. -/
theorem policy_of_sealed {state' next' : ProducerState} {now' : UInt64} {reason' : CloseReason}
    {artifact : SealedSegment} (h : Closes state now reason (some artifact) next)
    (h' : Closes state' now' reason' (some artifact) next') :
    state.openInterval.policy = state'.openInterval.policy ∧ reason = reason' := by
  cases h with
  | @sealed _ r _ hseals _ =>
    cases h' with
    | @sealed _ r' _ hseals' _ =>
      have hdecoded := hseals.decoded.symm.trans hseals'.decoded
      cases hdecoded
      exact ⟨hseals.policy.symm.trans hseals'.policy,
        hseals.closeReason.symm.trans hseals'.closeReason⟩

omit [Sha256] in
theorem suppressed_iff {records : List Bytes} {policy : ClosurePolicy} :
    suppressed records policy reason = true
      ↔ suppressed records policy .interval = true
        ∧ ¬ (reason = .shutdown ∨ reason = .recovery) := by
  simp [suppressed, and_assoc]

/-- An interval that is suppressed seals nothing, any other seals a segment. -/
theorem segment_of_constructSegment (h : constructSegment state now reason = .ok (segment, next)) :
    (suppressed state.openInterval.records state.openInterval.policy reason = true
        ∧ segment = none ∧ next = state.reopened now)
      ∨ (suppressed state.openInterval.records state.openInterval.policy reason = false
        ∧ ∃ result, sealSegment state state.openInterval.records state.openInterval.policy reason
              = .ok result
            ∧ segment = some result.1 ∧ next = state.after now result) := by
  rw [constructSegment_eq] at h
  split_ifs at h with hsuppressed
  · cases h
    exact .inl ⟨hsuppressed, rfl, rfl⟩
  · right
    refine ⟨Bool.eq_false_iff.mpr hsuppressed, ?_⟩
    cases hseal : sealSegment state state.openInterval.records state.openInterval.policy reason with
    | error error =>
      rw [hseal] at h
      cases h
    | ok result =>
      rw [hseal] at h
      cases h
      exact ⟨result, rfl, rfl, rfl⟩

/-! ## The two orders -/

section Orders

variable {first : Option SealedSegment} {start next' : ProducerState}

/-- The interval that a tick leaves open. -/
theorem open_of_expires (hclose : constructSegment state boundary .interval = .ok (first, start))
    (hrest : Expires now start sealed mid) :
    mid.openInterval.records = [] ∧ mid.openInterval.policy = state.nextPolicy := by
  obtain ⟨hstart, hpolicy⟩ := (constructSegment_closes hclose).fresh
  obtain ⟨hmid, hpolicy'⟩ := hrest.fresh hstart
  exact ⟨hmid.records, hmid.policy.trans (hpolicy'.trans hpolicy)⟩

/-- If the tick cannot be seen, the closings are alike. -/
theorem closesAlike_of_eq (hclose : constructSegment state boundary .interval = .ok (first, start))
    (hrest : Expires now start sealed mid)
    (hdirect : constructSegment state now reason = .ok (segment, next))
    (hlast : constructSegment mid now reason = .ok (segment', next'))
    (hsame : first.toList ++ sealed ++ segment'.toList = segment.toList) :
    ClosesAlike state reason := by
  obtain ⟨-, hmidPolicy⟩ := open_of_expires hclose hrest
  -- a second segment would be the direct call's, so the tick sealed nothing
  have htwice : ∀ artifact, segment' = some artifact →
      first = none ∧ state.openInterval.policy = state.nextPolicy := by
    rintro artifact rfl
    cases segment with
    | none => simp at hsame
    | some artifact' =>
      have hlength := congrArg List.length hsame
      simp only [List.length_append, Option.toList_some, List.length_singleton] at hlength
      have hfirst : first = none := by
        rw [← Option.toList_eq_nil_iff, ← List.length_eq_zero_iff]
        omega
      have hsealed : sealed = [] := List.length_eq_zero_iff.mp (by omega)
      subst hfirst hsealed
      cases hsame
      refine ⟨rfl, ?_⟩
      rw [← hmidPolicy]
      exact (policy_of_sealed (constructSegment_closes hdirect) (constructSegment_closes hlast)).1
  -- an empty interval that is sealed later shows up in no direct call
  have hsuppress : state.nextPolicy.emptyMode = .suppress := by
    by_contra hemit
    have hemits : suppressed mid.openInterval.records mid.openInterval.policy reason = false := by
      simp [suppressed, hmidPolicy, hemit]
    rcases segment_of_constructSegment hlast with ⟨hskipped, -⟩ | ⟨-, result, -, hsegment, -⟩
    · rw [hemits] at hskipped
      cases hskipped
    · -- a tick that seals nothing has found a policy that suppresses
      obtain ⟨rfl, hpolicy⟩ := htwice _ hsegment
      rcases segment_of_constructSegment hclose with ⟨hskipped, -⟩ | ⟨-, _, -, hnone, -⟩
      · simp only [suppressed, decide_eq_true_eq] at hskipped
        exact hemit (hpolicy ▸ hskipped.2.1)
      · cases hnone
  refine ⟨hsuppress, ?_⟩
  split_ifs with hskip
  · intro hreason
    rcases segment_of_constructSegment hlast with ⟨hskipped, -⟩ | ⟨-, result, -, hsegment, -⟩
    · exact absurd hreason (suppressed_iff.mp hskipped).2
    · exact (htwice _ hsegment).2
  · rcases segment_of_constructSegment hclose with ⟨hskipped, -⟩ | ⟨-, result, -, hfirst, -⟩
    · exact absurd hskipped hskip
    · cases segment with
      | none => simp [hfirst] at hsame
      | some artifact =>
        rw [hfirst, Option.toList_some, Option.toList_some, List.append_assoc,
          List.singleton_append, List.cons.injEq] at hsame
        obtain ⟨rfl, -⟩ := hsame
        rw [hfirst] at hclose
        exact (policy_of_sealed (constructSegment_closes hdirect)
          (constructSegment_closes hclose)).2

/-- If the closings are alike, the tick cannot be seen. -/
theorem ClosesAlike.eq (h : ClosesAlike state reason)
    (hclose : constructSegment state boundary .interval = .ok (first, start))
    (hrest : Expires now start sealed mid)
    (hdirect : constructSegment state now reason = .ok (segment, next))
    (hlast : constructSegment mid now reason = .ok (segment', next')) :
    first.toList ++ sealed ++ segment'.toList = segment.toList ∧ next' = next := by
  obtain ⟨hsuppress, halike⟩ := h
  obtain ⟨hmid, hmidPolicy⟩ := open_of_expires hclose hrest
  obtain ⟨hstart, hstartPolicy⟩ := (constructSegment_closes hclose).fresh
  obtain ⟨rfl, hreopened⟩ := hrest.suppressed hstart (hstartPolicy ▸ hsuppress)
  split_ifs at halike with hskip
  · -- nothing was sealed on the tick
    rcases segment_of_constructSegment hclose with ⟨-, rfl, rfl⟩ | ⟨hseals, -⟩
    · simp only [reopened_reopened] at hreopened
      have hempty : state.openInterval.records = [] := by
        simp only [suppressed, decide_eq_true_eq] at hskip
        exact hskip.1
      -- the direct call skips the interval too, so that the later one has nothing to seal
      rcases segment_of_constructSegment hdirect with
        ⟨hskipped, rfl, rfl⟩ | ⟨hseals, result, hresult, rfl, rfl⟩
      · have hskipped' : suppressed mid.openInterval.records mid.openInterval.policy reason
            = true := by
          have hreason := (suppressed_iff.mp hskipped).2
          simp [suppressed, hmid, hmidPolicy, hsuppress, not_or.mp hreason]
        rcases segment_of_constructSegment hlast with ⟨-, rfl, rfl⟩ | ⟨hseals, -⟩
        · exact ⟨rfl, hreopened now⟩
        · rw [hskipped'] at hseals
          cases hseals
      · -- shutdown and recovery seal the empty interval, under the same policy
        have hreason : reason = .shutdown ∨ reason = .recovery := by
          by_contra hreason
          rw [suppressed_iff.mpr ⟨hskip, hreason⟩] at hseals
          cases hseals
        have hpolicy := halike hreason
        -- the later call seals what the direct one sealed
        rcases segment_of_constructSegment hlast with
          ⟨hskipped, -⟩ | ⟨-, result', hresult', rfl, rfl⟩
        · exact absurd hreason (suppressed_iff.mp hskipped).2
        · have hafter := hreopened now
          have hsealed : sealSegment mid mid.openInterval.records mid.openInterval.policy reason
              = sealSegment state state.openInterval.records state.openInterval.policy reason := by
            obtain ⟨hledger, hnumber, hpredecessor⟩ := chain_of_reopened hafter
            rw [hmid, hmidPolicy, hempty, hpolicy]
            exact sealSegment_congr _ _ _ hledger hnumber hpredecessor
          rw [hsealed, hresult] at hresult'
          cases hresult'
          refine ⟨rfl, ?_⟩
          rw [ProducerState.after, ProducerState.after, hafter]
    · rw [hskip] at hseals
      cases hseals
  · -- the elapsed interval is sealed for the same reason
    subst halike
    rcases segment_of_constructSegment hclose with ⟨hskipped, -⟩ | ⟨-, result, hresult, rfl, rfl⟩
    · exact absurd hskipped hskip
    -- the direct call sealed the same interval
    rcases segment_of_constructSegment hdirect with
      ⟨hskipped, -⟩ | ⟨-, result', hresult', rfl, rfl⟩
    · exact absurd hskipped hskip
    rw [hresult] at hresult'
    cases hresult'
    -- and the later one finds an empty interval that its policy suppresses
    rcases segment_of_constructSegment hlast with ⟨-, rfl, rfl⟩ | ⟨hseals, -⟩
    · refine ⟨rfl, ?_⟩
      rw [hreopened now]
      rfl
    · simp [suppressed, hmid, hmidPolicy, hsuppress] at hseals

end Orders

theorem closesAlike_iff {next' : ProducerState} (hexpires : Expires now state sealed mid)
    (hexpired : ¬ Within state now)
    (hdirect : constructSegment state now reason = .ok (segment, next))
    (hlast : constructSegment mid now reason = .ok (segment', next')) :
    (sealed ++ segment'.toList = segment.toList ↔ ClosesAlike state reason)
      ∧ (ClosesAlike state reason → next' = next) := by
  cases hexpires with
  | within h => exact absurd h hexpired
  | close _ _ hclose hrest =>
    refine ⟨⟨closesAlike_of_eq hclose hrest hdirect hlast, ?_⟩, ?_⟩
    · intro halike
      exact (halike.eq hclose hrest hdirect hlast).1
    · intro halike
      exact (halike.eq hclose hrest hdirect hlast).2

/-! ## Runs -/

/-- What the calls seal, and the state they leave up to its revision. -/
inductive Reconfigures (state : ProducerState) (clock : ClockReadings) (now : UInt64) :
    Reconfiguration → List SealedSegment → ProducerState → Prop where
  | closing {reason : CloseReason} {replacement : Option ClosurePolicy}
      {segment : Option SealedSegment} {next : ProducerState}
      (hclose : constructSegment state now reason = .ok (segment, next)) :
      Reconfigures state clock now (.closing reason replacement) segment.toList
        (next.transitioned clock now reason replacement)
  | deferred (policy : ClosurePolicy) :
      Reconfigures state clock now (.deferred policy) [] { state with nextPolicy := policy }

/-- Inversion of a transition that closes the open interval. -/
theorem reconfigures_of_transition {replacement : Option ClosurePolicy} {clock : ClockReadings}
    {plan : Plan} (h : transition state clock now reason replacement = .ok plan) :
    ∃ sealed next revision, Reconfigures state clock now (.closing reason replacement) sealed next
      ∧ plan.reply = .sealed sealed ∧ plan.next = next.withRevision revision := by
  simp only [transition_eq, Except.bind_eq_ok] at h
  obtain ⟨-, -, ⟨segment, next⟩, hclose, hcommit⟩ := h
  obtain ⟨revision, count, -, -, -, rfl⟩ := prepareCommit_eq_ok hcommit
  exact ⟨segment.toList, _, revision, .closing hclose, rfl, rfl⟩

/-- Inversion of `close` and `update_policy`. -/
theorem Operation.plan_reconfigures {op : Operation} {reconfiguration : Reconfiguration}
    {lookup : String → Except ProducerError (Option IdempotencyRecord)} {clock : ClockReadings}
    {plan : Plan} (hop : op.reconfiguration = some reconfiguration) (hnow : clock.nowMs = .ok now)
    (hplan : op.plan lookup state clock = .ok plan) :
    ∃ sealed next revision, Reconfigures state clock now reconfiguration sealed next
      ∧ plan.reply = .sealed sealed ∧ plan.next = next.withRevision revision := by
  -- the clock is read once, and the reading is `now`
  have hread : ∀ now', safeNow state clock = .ok now' → now' = now := by
    intro now' hsafe
    obtain ⟨-, hnow', -⟩ := safeNow_eq_ok.mp hsafe
    rw [hnow] at hnow'
    exact (Except.ok.inj hnow').symm
  cases op with
  | close reason =>
    cases hop
    simp only [Operation.plan, TrackOne.close, Except.bind_eq_ok] at hplan
    obtain ⟨now', hsafe, hplan⟩ := hplan
    rw [hread now' hsafe] at hplan
    exact reconfigures_of_transition hplan
  | updatePolicy policy immediate =>
    simp only [Operation.plan, TrackOne.updatePolicy, Except.bind_eq_ok] at hplan
    obtain ⟨-, -, now', hsafe, hplan⟩ := hplan
    rw [hread now' hsafe] at hplan
    cases immediate with
    | true =>
      cases hop
      exact reconfigures_of_transition hplan
    | false =>
      cases hop
      obtain ⟨revision, count, -, -, -, rfl⟩ := prepareCommit_eq_ok hplan
      exact ⟨[], _, revision, .deferred policy, rfl, rfl⟩
  | _ => cases hop

/-- What a call reports, and the state it leaves. -/
theorem WorldInvariant.step_reconfigures {w : World MemoryLedgerStore}
    {trace : List (Input × Answer)} {op : Operation} {reconfiguration : Reconfiguration}
    {clock : ClockReadings} {runs : List AdmissionRun} (h : WorldInvariant w trace)
    (hproducer : w.producer = some state) (hop : op.reconfiguration = some reconfiguration)
    (hnow : clock.nowMs = .ok now)
    (hreported : reported (w.step (.call clock op)).1 = some (sealed, runs)) :
    ∃ next revision, Reconfigures state clock now reconfiguration sealed next
      ∧ (w.step (.call clock op)).2.producer = some (next.withRevision revision) := by
  rw [h.step_plan hproducer] at hreported ⊢
  cases hplan : op.plan (LedgerStore.lookupIdempotency w.store) state clock with
  | error error =>
    rw [hplan] at hreported
    cases hreported
  | ok plan =>
    rw [hplan] at hreported
    obtain ⟨sealed', next, revision, hreconfigures, hreply, hnext⟩ :=
      Operation.plan_reconfigures hop hnow hplan
    have hsealed : some (sealed', []) = some (sealed, runs) := by
      rw [← hreported]
      show _ = plan.reply.report
      rw [hreply]
      rfl
    cases hsealed
    exact ⟨next, revision, hreconfigures, congrArg some hnext⟩

/-- After a tick that found an elapsed interval, a call does what it does alone exactly when it
hides the tick. -/
theorem Reconfigures.hidesTick_iff {reconfiguration : Reconfiguration} {clock : ClockReadings}
    {part rest : List SealedSegment} {next' : ProducerState} {revision : UInt64}
    (revision' : UInt64) (hexpires : Expires now state part mid) (hpolicies : PoliciesValid state)
    (hexpired : ¬ Within state now)
    (hdirect : Reconfigures state clock now reconfiguration sealed next)
    (hlast : Reconfigures (mid.withRevision revision) clock now reconfiguration rest next') :
    (part ++ rest = sealed ∧ ∃ revision'', next'.withRevision revision'
      = next.withRevision revision'')
      ↔ reconfiguration.HidesTick state := by
  cases hdirect with
  | @closing reason replacement segment direct hclose =>
    cases hlast with
    | @closing _ _ segment' last hclose' =>
    -- the closing after the tick does not depend on the revision the tick was committed under
    rw [constructSegment_withRevision] at hclose'
    cases hclosed : constructSegment mid now reason with
    | error error =>
      rw [hclosed] at hclose'
      cases hclose'
    | ok result =>
      obtain ⟨segment'', last'⟩ := result
      rw [hclosed] at hclose'
      cases hclose'
      obtain ⟨hiff, hstates⟩ := closesAlike_iff hexpires hexpired hclose hclosed
      refine ⟨fun hsame => hiff.mp hsame.1, fun halike => ⟨hiff.mpr halike, revision', ?_⟩⟩
      rw [hstates halike]
      rfl
  | deferred policy =>
    cases hlast
    refine ⟨fun hsame => ?_, False.elim⟩
    -- the tick has moved the start of the open interval
    obtain ⟨-, revision'', hstates⟩ := hsame
    have hstart := congrArg (fun state => state.openInterval.openedAtMs) hstates
    have hmoved := hexpires.openedAtMs_lt hpolicies hexpired
    rw [show mid.openInterval.openedAtMs = state.openInterval.openedAtMs from hstart] at hmoved
    exact Nat.lt_irrefl _ hmoved

namespace World

/-- Background maintenance before `close` or `update_policy`, from any reachable state with an
active producer. A tick within the open interval changes nothing. A tick after it changes nothing
exactly when the call hides it: otherwise the segments it seals and those of the call after it are
not the ones the call alone would have sealed, or the open interval starts at another time. -/
theorem run_maintenance_closing (inputs : List Input) (state : ProducerState)
    (hproducer : (memoryRun inputs).1.producer = some state) (hactive : state.active = true)
    (op : Operation) (reconfiguration : Reconfiguration)
    (hop : op.reconfiguration = some reconfiguration) (now : UInt64)
    (hopened : state.openInterval.openedAtMs ≤ now) :
    let w := (memoryRun inputs).1
    let clock := clockOf state.openInterval.clockContinuityId now
    let direct := w.step (.call clock op)
    let tick := w.step (.call clock .sealExpiredIntervals)
    let last := tick.2.step (.call clock op)
    (Within state now → reported tick.1 = some ([], []) ∧ last = direct)
    ∧ (¬ Within state now → ∀ part sealed rest, reported tick.1 = some (part, []) →
        reported direct.1 = some (sealed, []) → reported last.1 = some (rest, []) →
          (part ++ rest = sealed ∧ (∃ revision, last.2.producer
              = direct.2.producer.map fun next => next.withRevision revision)
            ↔ reconfiguration.HidesTick state)) := by
  intro w clock direct tick last
  have hinvariant : WorldInvariant w (memoryRun inputs).2 := run_invariant inputs
  have h : Running w (memoryRun inputs).2 state state.openInterval.clockContinuityId :=
    ⟨hinvariant, hproducer, hactive, rfl⟩
  have hopened := UInt64.le_iff_toNat_le.mp hopened
  -- within the interval the tick commits nothing
  constructor
  · intro hwithin
    have hplan : sealExpiredIntervals state clock = .ok (.done state (.sealed [])) := by
      simp only [sealExpiredIntervals, clock, safeNow_clockOf hactive hopened, bind, Except.bind,
        if_pos ((within_iff hopened).mpr hwithin)]
      rfl
    have hw : (⟨w.store, some state⟩ : World MemoryLedgerStore) = w := by rw [← hproducer]
    have htick : tick = (some (.ok (.sealed [])), w) := by
      have hstep := hinvariant.step_plan hproducer clock .sealExpiredIntervals
      simp only [Operation.plan, hplan, Plan.applied, Plan.reply, Plan.next, hw] at hstep
      exact hstep
    refine ⟨by rw [htick]; rfl, ?_⟩
    show tick.2.step _ = w.step _
    rw [htick]
  · intro hexpired part sealed rest htick hdirect hlast
    -- the tick settles elapsed intervals, and leaves a running producer
    obtain ⟨mid, hsettles⟩ := h.settles_of_reported (.inl rfl) htick
    rcases h.step_settles hsettles hopened with ⟨-, herror⟩ | ⟨-, -, ⟨revision, -, -, hnext⟩, -, -⟩
    · rw [show tick.1 = _ from herror] at htick
      cases htick
    cases hsettles with
    | admission hop' => cases hop'
    | tick hexpires =>
    -- past it, the call is compared with the call after the tick, from their two plans
    have hmid := h.tick hexpires hnext
    obtain ⟨next, revision', hreconfigures, hafter⟩ :=
      hinvariant.step_reconfigures hproducer hop rfl hdirect
    obtain ⟨next', revision'', hreconfigures', hafter'⟩ :=
      hmid.invariant.step_reconfigures hmid.producer hop rfl hlast
    obtain ⟨segments, accepted, hledger⟩ := h.ledger
    rw [← hreconfigures.hidesTick_iff revision'' hexpires hledger.policies hexpired hreconfigures',
      show direct.2.producer = _ from hafter, show last.2.producer = _ from hafter']
    simp only [Option.map_some, Option.some.injEq, withRevision_withRevision]

omit [Sha256] in
/-- A tick within the open interval, before a manual close. -/
theorem run_maintenance_closing_within :
    letI := Sha256.fips
    let w := (memoryRun sampleInputs).1
    let tick := w.step (.call (clockOf 7 1050) .sealExpiredIntervals)
    reported tick.1 = some ([], [])
      ∧ tick.2.step (.call (clockOf 7 1050) (.close .manual))
        = w.step (.call (clockOf 7 1050) (.close .manual)) := by
  let := Sha256.fips
  intro w tick
  have hstate : (memoryRun sampleInputs).1.producer.map (fun state =>
      (state.active, state.openInterval.openedAtMs, state.openInterval.policy.intervalMs,
        state.openInterval.clockContinuityId)) = some (true, 1000, 100, 7) := by
    decide +kernel
  obtain ⟨state, hproducer, hstate⟩ := Option.map_eq_some_iff.mp hstate
  obtain ⟨hactive, hopened, hinterval, hcontinuity⟩ := by
    simpa only [Prod.mk.injEq] using hstate
  have hclosing := run_maintenance_closing sampleInputs state hproducer hactive (.close .manual)
    (.closing .manual none) rfl 1050 (by rw [hopened]; decide)
  rw [hcontinuity] at hclosing
  refine hclosing.1 ⟨?_, ?_⟩
  · rw [hopened]
    decide
  · rw [hopened, hinterval]
    decide

omit [Sha256] in
/-- An interval has elapsed: on a tick it is sealed as an interval, and the manual close seals the
one after it; the manual close alone seals the elapsed interval as closed by hand. -/
theorem run_maintenance_closing_manual :
    letI := Sha256.fips
    let w := (memoryRun sampleInputs).1
    let clock := clockOf 7 1100
    let direct := w.step (.call clock (.close .manual))
    let tick := w.step (.call clock .sealExpiredIntervals)
    let last := tick.2.step (.call clock (.close .manual))
    ∃ part sealed rest, reported tick.1 = some (part, []) ∧ reported direct.1 = some (sealed, [])
      ∧ reported last.1 = some (rest, []) ∧ part ++ rest ≠ sealed
      ∧ (part ++ rest).map SealedSegment.closeReason = [.interval, .manual]
      ∧ sealed.map SealedSegment.closeReason = [.manual] := by
  let := Sha256.fips
  intro w clock direct tick last
  have hreports : ((reported tick.1).map fun report =>
        (report.1.map SealedSegment.closeReason, report.2)) = some ([.interval], [])
      ∧ ((reported direct.1).map fun report =>
        (report.1.map SealedSegment.closeReason, report.2)) = some ([.manual], [])
      ∧ ((reported last.1).map fun report =>
        (report.1.map SealedSegment.closeReason, report.2)) = some ([.manual], []) := by
    decide +kernel
  simp only [Option.map_eq_some_iff, Prod.mk.injEq] at hreports
  obtain ⟨⟨⟨part, _⟩, hpart, hpartReasons, rfl⟩, ⟨⟨sealed, _⟩, hsealed, hsealedReasons, rfl⟩,
    ⟨⟨rest, _⟩, hrest, hrestReasons, rfl⟩⟩ := hreports
  have hreasons : (part ++ rest).map SealedSegment.closeReason = [.interval, .manual] := by
    rw [List.map_append, hpartReasons, hrestReasons]
    rfl
  refine ⟨part, sealed, rest, hpart, hsealed, hrest, ?_, hreasons, hsealedReasons⟩
  intro hsame
  rw [hsame, hsealedReasons] at hreasons
  cases hreasons

end World

end TrackOne
