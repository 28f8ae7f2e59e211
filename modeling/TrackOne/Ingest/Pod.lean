import TrackOne.Ingest.Frame

/-!
# The pod

`Pod` of `trackone-pod-fw/src/pod.rs` with the `CounterNonce24` generator: the counter of the next
frame, emissions and durable restores. A cipher is handed to each emission anew, so that it may fail
at will.

* `emitFact_cases`, `restoreNextFrameCounter_cases`: what one call can do.
* `Emitted`: the counters of the frames emitted so far lie below the next one.
* `pod_never_reuses_nonce`: the run theorem.
-/

namespace TrackOne

inductive NonceError where
  | frameCounterOutOfRange
deriving DecidableEq, Repr

inductive PodError where
  | core (error : CoreError)
  | nonce (error : NonceError)
  | frameCounterRegression
  | frameCounterExhausted
  | factPodIdMismatch
  | factFrameCounterMismatch
deriving DecidableEq, Repr

structure CounterNonce24 where
  salt8 : Bytes8
  tail8 : Bytes8
deriving DecidableEq

def CounterNonce24.fromProvisionedSalt (provisionedSalt8 bootTail8 : Bytes8) : CounterNonce24 :=
  ⟨provisionedSalt8, bootTail8⟩

def CounterNonce24.nonceForFrame (gen : CounterNonce24) (fc : UInt64) : Except NonceError Nonce :=
  if fc.toNat < 2 ^ 32 then .ok (framedNonce gen.salt8 fc.toUInt32 gen.tail8)
  else .error .frameCounterOutOfRange

/-- `Pod`; the cipher is an argument of the calls. -/
structure Pod where
  podId : PodId
  nextFc : Option UInt32
  nonceGen : CounterNonce24
deriving DecidableEq

def Pod.new (podId : PodId) (nonceGen : CounterNonce24) : Pod := ⟨podId, some 0, nonceGen⟩

/-- A method with `&mut self`: what it did to the pod stays when it fails. -/
abbrev PodM := ExceptT PodError (StateM Pod)

def restoreNextFrameCounter (nextFc : Option UInt32) : PodM Unit := do
  let pod ← get
  match pod.nextFc, nextFc with
  | none, none => return ()
  | none, some _ => throw .frameCounterExhausted
  | some _, none => set { pod with nextFc }
  | some current, some restored =>
    if restored < current then
      throw .frameCounterRegression
    set { pod with nextFc }

/-- `u32::checked_add(1)`. -/
def checkedSucc (fc : UInt32) : Option UInt32 :=
  if fc.toNat + 1 < 2 ^ 32 then some (fc + 1) else none

section

variable [Postcard]

def emitFact (n : Nat) (encrypt : AeadCall) (fact : Fact) : PodM (EncryptedFrame n) := do
  let pod ← get
  let nextFc ← match pod.nextFc with
    | some nextFc => pure nextFc
    | none => throw .frameCounterExhausted
  if fact.podId ≠ pod.podId then
    throw .factPodIdMismatch
  if fact.fc ≠ nextFc.toUInt64 then
    throw .factFrameCounterMismatch
  liftExcept ((fact.validate.mapError .invalidFact).mapError .core)
  let nonce ← liftExcept ((pod.nonceGen.nonceForFrame fact.fc).mapError .nonce)
  let frame ← liftExcept ((encryptFact n encrypt nonce fact).mapError .core)
  set { pod with nextFc := checkedSucc nextFc }
  return frame
where
  /-- The `?` operator. -/
  liftExcept {α : Type} (result : Except PodError α) : PodM α := ExceptT.mk (pure result)

def emitPayload (n : Nat) (encrypt : AeadCall) (payload : FactPayload) :
    PodM (EncryptedFrame n) := do
  let pod ← get
  let fc ← match pod.nextFc with
    | some fc => pure fc
    | none => throw .frameCounterExhausted
  let fact ← emitFact.liftExcept ((makeFact pod.podId fc.toUInt64 payload).mapError .core)
  emitFact n encrypt fact

end

/-- The answer of a call, and the pod after it. -/
def callPod {α : Type} (method : PodM α) (pod : Pod) : Except PodError α × Pod := method.run pod

/-! ### Running a method -/

section

variable {α β : Type} (pod : Pod)

@[simp] theorem callPod_pure (a : α) : callPod (pure a) pod = (.ok a, pod) := rfl

@[simp] theorem callPod_throw (error : PodError) :
    callPod (throw error : PodM α) pod = (.error error, pod) := rfl

@[simp] theorem callPod_get : callPod get pod = (.ok pod, pod) := rfl

@[simp] theorem callPod_set (pod' : Pod) : callPod (set pod') pod = (.ok ⟨⟩, pod') := rfl

@[simp] theorem callPod_liftExcept (result : Except PodError α) :
    callPod (emitFact.liftExcept result) pod = (result, pod) := rfl

theorem callPod_bind (method : PodM α) (next : α → PodM β) :
    callPod (method >>= next) pod
      = match callPod method pod with
        | (.ok a, pod') => callPod (next a) pod'
        | (.error error, pod') => (.error error, pod') := by
  show ((ExceptT.bindCont next (method.run pod).1 : StateM Pod (Except PodError β))
    (method.run pod).2) = _
  unfold callPod
  cases hresult : method.run pod with
  | mk answer pod' => cases answer <;> rfl

theorem callPod_bind_ok {method : PodM α} {next : α → PodM β} {a : α} {pod' : Pod}
    (h : callPod method pod = (.ok a, pod')) :
    callPod (method >>= next) pod = callPod (next a) pod' := by
  rw [callPod_bind, h]

end

/-! ## What a call can do -/

/-- A restore keeps the counter or moves it up, to a counter or to the end. -/
theorem restoreNextFrameCounter_cases (pod : Pod) (nextFc : Option UInt32) :
    (∃ error, callPod (restoreNextFrameCounter nextFc) pod = (.error error, pod))
      ∨ (callPod (restoreNextFrameCounter nextFc) pod = (.ok (), { pod with nextFc })
        ∧ (nextFc = none ∨ ∃ current restored, pod.nextFc = some current
          ∧ nextFc = some restored ∧ current ≤ restored)) := by
  obtain ⟨podId, current, gen⟩ := pod
  cases current with
  | none =>
    cases nextFc with
    | none => exact .inr ⟨rfl, .inl rfl⟩
    | some restored => exact .inl ⟨_, rfl⟩
  | some current =>
    cases nextFc with
    | none => exact .inr ⟨rfl, .inl rfl⟩
    | some restored =>
      by_cases hlt : restored < current
      · refine .inl ⟨.frameCounterRegression, ?_⟩
        simp [restoreNextFrameCounter, callPod_bind, hlt]
      · refine .inr ⟨?_, .inr ⟨current, restored, rfl, rfl, UInt32.not_lt.mp hlt⟩⟩
        simp [restoreNextFrameCounter, callPod_bind, hlt]

theorem toUInt32_toUInt64 (fc : UInt32) : fc.toUInt64.toUInt32 = fc := by
  rw [← UInt32.toNat_inj]
  simp

theorem nonceForFrame_of_next (gen : CounterNonce24) (fc : UInt32) :
    gen.nonceForFrame fc.toUInt64 = .ok (framedNonce gen.salt8 fc gen.tail8) := by
  rw [CounterNonce24.nonceForFrame, if_pos (by simpa using fc.toNat_lt), toUInt32_toUInt64]

section

variable [Postcard] {n : Nat} {encrypt : AeadCall} {pod : Pod} {fact : Fact} {fc : UInt32}

theorem encryptFact_invalid {nonce : Nonce} {reason : FactValidationError}
    (h : fact.validate = .error reason) :
    encryptFact n encrypt nonce fact = .error (.invalidFact reason) := by
  simp [encryptFact, encodeFactPostcard, h, Except.mapError, bind, Except.bind]

/-- A fact with the identity and the counter of the pod: the pod moves on exactly when the fact is
encrypted. -/
theorem callPod_emitFact_next (hnext : pod.nextFc = some fc) (hid : fact.podId = pod.podId)
    (hfc : fact.fc = fc.toUInt64) :
    callPod (emitFact n encrypt fact) pod
      = match encryptFact n encrypt (framedNonce pod.nonceGen.salt8 fc pod.nonceGen.tail8) fact with
        | .ok frame => (.ok frame, { pod with nextFc := checkedSucc fc })
        | .error error => (.error (.core error), pod) := by
  unfold emitFact
  rw [callPod_bind_ok pod (callPod_get pod), hnext]
  simp only [hid, hfc, ne_eq, not_true_eq_false, if_false]
  cases hvalid : fact.validate with
  | error reason =>
    rw [encryptFact_invalid hvalid]
    simp [callPod_bind, Except.mapError]
  | ok u =>
    cases hframe : encryptFact n encrypt
        (framedNonce pod.nonceGen.salt8 fc pod.nonceGen.tail8) fact with
    | ok frame =>
      simp [callPod_bind, Except.mapError, nonceForFrame_of_next, hframe, -bind_pure_comp]
    | error error => simp [callPod_bind, Except.mapError, nonceForFrame_of_next, hframe]

/-- An emission fails and changes nothing, or emits a frame with the next counter. -/
theorem emitFact_cases (n : Nat) (encrypt : AeadCall) (fact : Fact) (pod : Pod) :
    (∃ error, callPod (emitFact n encrypt fact) pod = (.error error, pod))
      ∨ ∃ fc frame, pod.nextFc = some fc
        ∧ callPod (emitFact n encrypt fact) pod
          = (.ok frame, { pod with nextFc := checkedSucc fc })
        ∧ frame.fc = fc.toUInt64
        ∧ frame.nonce = framedNonce pod.nonceGen.salt8 fc pod.nonceGen.tail8 := by
  cases hnext : pod.nextFc with
  | none =>
    refine .inl ⟨.frameCounterExhausted, ?_⟩
    simp [emitFact, callPod_bind, hnext]
  | some fc =>
    by_cases hid : fact.podId = pod.podId
    · by_cases hfc : fact.fc = fc.toUInt64
      · have hcall := @callPod_emitFact_next _ n encrypt pod fact fc hnext hid hfc
        cases hframe : encryptFact n encrypt
            (framedNonce pod.nonceGen.salt8 fc pod.nonceGen.tail8) fact with
        | error error =>
          rw [hframe] at hcall
          exact .inl ⟨_, hcall⟩
        | ok frame =>
          rw [hframe] at hcall
          obtain ⟨-, -, hframeFc, hnonce, -⟩ := encryptFact_eq_ok hframe
          exact .inr ⟨fc, frame, rfl, hcall, hframeFc.trans hfc, hnonce⟩
      · refine .inl ⟨.factFrameCounterMismatch, ?_⟩
        simp [emitFact, callPod_bind, hnext, hid, hfc]
    · refine .inl ⟨.factPodIdMismatch, ?_⟩
      simp [emitFact, callPod_bind, hnext, hid]

/-- A payload that is no fact fails; any other is emitted as its fact. -/
theorem callPod_emitPayload (hnext : pod.nextFc = some fc) (payload : FactPayload) :
    callPod (emitPayload n encrypt payload) pod
      = match makeFact pod.podId fc.toUInt64 payload with
        | .ok fact => callPod (emitFact n encrypt fact) pod
        | .error error => (.error (.core error), pod) := by
  unfold emitPayload
  rw [callPod_bind_ok pod (callPod_get pod), hnext]
  cases hfact : makeFact pod.podId fc.toUInt64 payload with
  | ok fact => simp [callPod_bind, Except.mapError, hfact]
  | error error => simp [callPod_bind, Except.mapError, hfact]

theorem callPod_exhausted (hnext : pod.nextFc = none) (payload : FactPayload) (fact : Fact) :
    callPod (emitPayload n encrypt payload) pod = (.error .frameCounterExhausted, pod)
      ∧ callPod (emitFact n encrypt fact) pod = (.error .frameCounterExhausted, pod) := by
  constructor
  · simp [emitPayload, callPod_bind, hnext]
  · simp [emitFact, callPod_bind, hnext]

end

/-! ## Runs -/

/-- A call on a pod, with the cipher it meets. -/
inductive PodCall where
  | emitPayload (encrypt : AeadCall) (payload : FactPayload)
  | emitFact (encrypt : AeadCall) (fact : Fact)
  | restoreNextFrameCounter (nextFc : Option UInt32)

def PodCall.IsEmission : PodCall → Prop
  | restoreNextFrameCounter _ => False
  | _ => True

/-- One call: the frame it emitted, if it is an emission, and the pod after it. -/
def podStep [Postcard] (n : Nat) (pod : Pod) :
    PodCall → Except PodError (Option (EncryptedFrame n)) × Pod
  | .emitPayload encrypt payload =>
    let (answer, pod) := callPod (emitPayload n encrypt payload) pod
    (answer.map some, pod)
  | .emitFact encrypt fact =>
    let (answer, pod) := callPod (emitFact n encrypt fact) pod
    (answer.map some, pod)
  | .restoreNextFrameCounter nextFc =>
    let (answer, pod) := callPod (restoreNextFrameCounter nextFc) pod
    (answer.map fun _ => none, pod)

abbrev PodTrace (n : Nat) := List (PodCall × Except PodError (Option (EncryptedFrame n)))

/-- The frames a run emitted, in order. -/
def emittedFrames {n : Nat} (trace : PodTrace n) : List (EncryptedFrame n) :=
  trace.filterMap fun
    | (_, .ok frame) => frame
    | _ => none

section

variable [Postcard] {n : Nat}

/-- What one call does to a pod. -/
theorem podStep_cases (n : Nat) (pod : Pod) (call : PodCall) :
    (∃ error, podStep n pod call = (.error error, pod))
      ∨ (∃ fc frame, pod.nextFc = some fc
        ∧ podStep n pod call = (.ok (some frame), { pod with nextFc := checkedSucc fc })
        ∧ frame.fc = fc.toUInt64
        ∧ frame.nonce = framedNonce pod.nonceGen.salt8 fc pod.nonceGen.tail8)
      ∨ (∃ nextFc, podStep n pod call = (.ok none, { pod with nextFc })
        ∧ (nextFc = none ∨ ∃ current restored, pod.nextFc = some current
          ∧ nextFc = some restored ∧ current ≤ restored)) := by
  -- a fact is refused, or emitted under the next counter
  have hemit : ∀ encrypt fact,
      (∃ error, podStep n pod (.emitFact encrypt fact) = (.error error, pod))
      ∨ (∃ fc frame, pod.nextFc = some fc
        ∧ podStep n pod (.emitFact encrypt fact)
          = (.ok (some frame), { pod with nextFc := checkedSucc fc })
        ∧ frame.fc = fc.toUInt64
        ∧ frame.nonce = framedNonce pod.nonceGen.salt8 fc pod.nonceGen.tail8) := by
    intro encrypt fact
    rcases emitFact_cases n encrypt fact pod with ⟨error, hcall⟩ | ⟨fc, frame, hnext, hcall, hframe⟩
    · exact .inl ⟨error, by rw [podStep, hcall]; rfl⟩
    · exact .inr ⟨fc, frame, hnext, by rw [podStep, hcall]; rfl, hframe⟩
  cases call with
  | emitPayload encrypt payload =>
    cases hnext : pod.nextFc with
    | none =>
      have hcall := @callPod_exhausted _ n encrypt pod hnext payload
      refine .inl ⟨.frameCounterExhausted, ?_⟩
      rw [podStep, (hcall ⟨pod.podId, 0, 0, none, .env, payload⟩).1]
      rfl
    | some fc =>
      have hcall := @callPod_emitPayload _ n encrypt pod fc hnext payload
      cases hfact : makeFact pod.podId fc.toUInt64 payload with
      | error error =>
        rw [hfact] at hcall
        exact .inl ⟨.core error, by rw [podStep, hcall]; rfl⟩
      -- a payload that makes a fact is emitted as that fact
      | ok fact =>
        rw [hfact] at hcall
        have hsame : podStep n pod (.emitPayload encrypt payload)
            = podStep n pod (.emitFact encrypt fact) := by
          rw [podStep, podStep, hcall]
        rw [hsame, ← hnext]
        exact (hemit encrypt fact).imp_right .inl
  | emitFact encrypt fact => exact (hemit encrypt fact).imp_right .inl
  -- a restored counter emits nothing
  | restoreNextFrameCounter nextFc =>
    rcases restoreNextFrameCounter_cases pod nextFc with ⟨error, hcall⟩ | ⟨hcall, hmoved⟩
    · exact .inl ⟨error, by rw [podStep, hcall]; rfl⟩
    · exact .inr (.inr ⟨nextFc, by rw [podStep, hcall]; rfl, hmoved⟩)

/-- The frames emitted so far carry counters below the next one, each with its own nonce. -/
structure Emitted (gen : CounterNonce24) (pod : Pod) (frames : List (EncryptedFrame n)) : Prop where
  nonceGen_eq : pod.nonceGen = gen
  below : ∀ frame ∈ frames, ∃ fc : UInt32, frame.fc = fc.toUInt64
    ∧ frame.nonce = framedNonce gen.salt8 fc gen.tail8 ∧ ∀ next, pod.nextFc = some next → fc < next
  increasing : frames.Pairwise fun a b => a.fc < b.fc

omit [Postcard] in
theorem checkedSucc_eq_some {fc next : UInt32} (h : checkedSucc fc = some next) :
    next.toNat = fc.toNat + 1 := by
  unfold checkedSucc at h
  split_ifs at h with hlt
  obtain rfl := Option.some.inj h
  rw [UInt32.toNat_add]
  simp only [UInt32.toNat_one]
  omega

omit [Postcard] in
theorem emittedFrames_concat (trace : PodTrace n)
    (entry : PodCall × Except PodError (Option (EncryptedFrame n))) :
    emittedFrames (trace ++ [entry]) = emittedFrames trace ++ emittedFrames [entry] :=
  List.filterMap_append

omit [Postcard] in
/-- A counter that only moves up stays above the frames. -/
theorem Emitted.move {gen : CounterNonce24} {pod : Pod} {frames : List (EncryptedFrame n)}
    (h : Emitted gen pod frames) {nextFc : Option UInt32}
    (hup : ∀ next, nextFc = some next → ∃ current, pod.nextFc = some current ∧ current ≤ next) :
    Emitted gen { pod with nextFc } frames := by
  refine ⟨h.nonceGen_eq, fun frame hframe => ?_, h.increasing⟩
  obtain ⟨fc, hfc, hnonce, hlt⟩ := h.below frame hframe
  refine ⟨fc, hfc, hnonce, fun next hnext => ?_⟩
  obtain ⟨current, hcurrent, hle⟩ := hup next hnext
  exact UInt32.lt_of_lt_of_le (hlt current hcurrent) hle

omit [Postcard] in
/-- A frame with the next counter is above those before it. -/
theorem Emitted.emit {gen : CounterNonce24} {pod : Pod} {frames : List (EncryptedFrame n)}
    (h : Emitted gen pod frames) {fc : UInt32} {frame : EncryptedFrame n}
    (hnext : pod.nextFc = some fc) (hfc : frame.fc = fc.toUInt64)
    (hnonce : frame.nonce = framedNonce pod.nonceGen.salt8 fc pod.nonceGen.tail8) :
    Emitted gen { pod with nextFc := checkedSucc fc } (frames ++ [frame]) := by
  refine ⟨h.nonceGen_eq, fun other hother => ?_, ?_⟩
  · rcases List.mem_append.mp hother with hold | hnew
    · obtain ⟨fc', hfc', hnonce', hlt⟩ := h.below other hold
      refine ⟨fc', hfc', hnonce', fun next hsucc => ?_⟩
      have hbelow := UInt32.lt_iff_toNat_lt.mp (hlt fc hnext)
      have hsucc' := checkedSucc_eq_some hsucc
      rw [UInt32.lt_iff_toNat_lt]
      omega
    · obtain rfl := List.mem_singleton.mp hnew
      refine ⟨fc, hfc, h.nonceGen_eq ▸ hnonce, fun next hsucc => ?_⟩
      have hsucc' := checkedSucc_eq_some hsucc
      rw [UInt32.lt_iff_toNat_lt]
      omega
  · rw [List.pairwise_append]
    refine ⟨h.increasing, List.pairwise_singleton _ _, fun other hold last hlast => ?_⟩
    obtain rfl := List.mem_singleton.mp hlast
    obtain ⟨fc', hfc', -, hlt⟩ := h.below other hold
    have hbelow := UInt32.lt_iff_toNat_lt.mp (hlt fc hnext)
    rw [hfc, hfc', UInt64.lt_iff_toNat_lt]
    simpa using hbelow

/-- What holds of a pod after every run. -/
theorem podRun_emitted (podId : PodId) (gen : CounterNonce24) (calls : List PodCall) :
    Emitted gen (runTrace (podStep n) (Pod.new podId gen) calls).1
      (emittedFrames (runTrace (podStep n) (Pod.new podId gen) calls).2) := by
  refine runTrace_induction (P :=
    fun pod trace => Emitted gen pod (emittedFrames trace)) ?_ ?_ calls
  · exact ⟨rfl, fun frame hframe => absurd hframe List.not_mem_nil, List.Pairwise.nil⟩
  · intro pod trace call h
    rw [emittedFrames_concat]
    rcases podStep_cases n pod call with ⟨error, hstep⟩ | ⟨fc, frame, hnext, hstep, hfc, hnonce⟩
      | ⟨nextFc, hstep, hmoved⟩
    · rw [hstep]
      simpa [emittedFrames] using h
    · rw [hstep]
      exact h.emit hnext hfc hnonce
    · rw [hstep]
      have hmove : Emitted gen { pod with nextFc } (emittedFrames trace) := by
        refine h.move fun next hsome => ?_
        rcases hmoved with hnone | ⟨current, restored, hcurrent, hrestored, hle⟩
        · rw [hnone] at hsome
          cases hsome
        · rw [hrestored] at hsome
          obtain rfl := Option.some.inj hsome
          exact ⟨current, hcurrent, hle⟩
      simpa [emittedFrames] using hmove

/-- A pod without a next counter refuses every emission and stays as it is. -/
theorem podStep_exhausted {pod : Pod} (hnext : pod.nextFc = none) (call : PodCall) :
    (call.IsEmission → (podStep n pod call).1 = .error .frameCounterExhausted)
      ∧ (podStep n pod call).2.nextFc = none := by
  have hcall := fun encrypt => @callPod_exhausted _ n encrypt pod hnext
  cases call with
  | emitPayload encrypt payload =>
    rw [podStep, (hcall encrypt payload ⟨pod.podId, 0, 0, none, .env, payload⟩).1]
    exact ⟨fun _ => rfl, hnext⟩
  | emitFact encrypt fact =>
    rw [podStep, (hcall encrypt fact.payload fact).2]
    exact ⟨fun _ => rfl, hnext⟩
  | restoreNextFrameCounter nextFc =>
    refine ⟨fun h => h.elim, ?_⟩
    rw [podStep]
    rcases restoreNextFrameCounter_cases pod nextFc with ⟨error, hcall⟩ | ⟨hcall, hmoved⟩
    · rw [hcall]
      exact hnext
    · rw [hcall]
      rcases hmoved with hnone | ⟨current, restored, hcurrent, -⟩
      · exact hnone
      · rw [hnext] at hcurrent
        cases hcurrent

/-- The end of the counters, once restored, is final. -/
theorem podRun_restored_none (podId : PodId) (gen : CounterNonce24) (calls : List PodCall) :
    (∃ answer, (PodCall.restoreNextFrameCounter none, answer)
        ∈ (runTrace (podStep n) (Pod.new podId gen) calls).2) →
      (runTrace (podStep n) (Pod.new podId gen) calls).1.nextFc = none := by
  refine runTrace_induction
    (P := fun (pod : Pod) trace =>
      (∃ answer, (PodCall.restoreNextFrameCounter none, answer) ∈ trace) → pod.nextFc = none)
    ?_ ?_ calls
  · rintro ⟨answer, hmem⟩
    exact absurd hmem List.not_mem_nil
  · rintro pod trace call h ⟨answer, hmem⟩
    rcases List.mem_append.mp hmem with hold | hnew
    · exact (podStep_exhausted (h ⟨answer, hold⟩) call).2
    · obtain ⟨rfl, -⟩ := Prod.mk.inj (List.mem_singleton.mp hnew)
      obtain ⟨podId, current, gen⟩ := pod
      cases current with
      | none => exact (podStep_exhausted rfl _).2
      | some current => rfl

/-- `u32::MAX`. -/
def lastCounter : UInt32 := 0xffffffff

end

/-- What `validate` asks of the payload. -/
def FactPayload.Valid : FactPayload → Prop
  | .env fact => fact.validate = .ok ()
  | .custom _ => True

/-- The fact that is made of a payload. -/
def factOf (podId : PodId) (fc : UInt64) (payload : FactPayload) : Fact where
  podId
  fc
  ingestTime := 0
  podTime := none
  kind := match payload with
    | .env _ => .env
    | .custom _ => .custom
  payload

theorem validate_factOf {payload : FactPayload} (h : payload.Valid) (podId : PodId) (fc : UInt64) :
    (factOf podId fc payload).validate = .ok () := by
  cases payload with
  | env fact => exact h
  | custom bytes => rfl

theorem makeFact_of_valid {payload : FactPayload} (h : payload.Valid) (podId : PodId)
    (fc : UInt64) : makeFact podId fc payload = .ok (factOf podId fc payload) := by
  have hvalid := validate_factOf h podId fc
  cases payload with
  | env fact =>
    unfold makeFact
    dsimp only [factOf] at hvalid ⊢
    rw [hvalid]
    rfl
  | custom bytes => rfl

section

variable [Postcard] {n : Nat} {encrypt : AeadCall} {pod : Pod} {fc : UInt32}

/-- A valid payload is emitted under the next counter when the cipher does not fail. -/
theorem callPod_emitPayload_of_valid (hnext : pod.nextFc = some fc) {payload : FactPayload}
    (hvalid : payload.Valid) {frame : EncryptedFrame n}
    (hframe : encryptFact n encrypt (framedNonce pod.nonceGen.salt8 fc pod.nonceGen.tail8)
      (factOf pod.podId fc.toUInt64 payload) = .ok frame) :
    callPod (emitPayload n encrypt payload) pod
      = (.ok frame, { pod with nextFc := checkedSucc fc }) := by
  rw [callPod_emitPayload hnext, makeFact_of_valid hvalid]
  dsimp only
  rw [callPod_emitFact_next hnext rfl rfl, hframe]

/-- A pod that is not exhausted can be moved to the last counter, and emits a frame under it when
the cipher seals the fact with that counter. -/
theorem emits_lastCounter {current : UInt32} (hnext : pod.nextFc = some current)
    {payload : FactPayload} (hvalid : payload.Valid)
    (hroom : (factOf pod.podId lastCounter.toUInt64 payload).postcardLength + aeadTagLen ≤ n)
    {ciphertext : { bytes : Bytes // bytes.length ≤ n }}
    (hsealed : encrypt (framedNonce pod.nonceGen.salt8 lastCounter pod.nonceGen.tail8).1
      (framedAadForPod pod.podId 1 0)
      (Postcard.toBytes (factOf pod.podId lastCounter.toUInt64 payload)) n = .ok ciphertext) :
    ∃ frame, emittedFrames (runTrace (podStep n) pod
        [.restoreNextFrameCounter (some lastCounter), .emitPayload encrypt payload]).2 = [frame]
      ∧ frame.fc = lastCounter.toUInt64 := by
  obtain ⟨podId, nextFc, gen⟩ := pod
  obtain rfl : nextFc = some current := hnext
  -- the restore moves the counter up, since no counter is above the last one
  have hrestore : podStep n ⟨podId, some current, gen⟩ (.restoreNextFrameCounter (some lastCounter))
      = (.ok none, ⟨podId, some lastCounter, gen⟩) := by
    have hle : ¬ lastCounter < current := by
      have := current.toNat_lt
      rw [UInt32.lt_iff_toNat_lt, show lastCounter.toNat = 2 ^ 32 - 1 from rfl]
      omega
    rw [podStep]
    simp [restoreNextFrameCounter, callPod_bind, hle, Except.map]
  have hfact := validate_factOf hvalid podId lastCounter.toUInt64
  have hframe := encryptFact_of_valid hfact hroom hsealed
  have hcall := @callPod_emitPayload_of_valid _ n encrypt ⟨podId, some lastCounter, gen⟩
    lastCounter rfl payload hvalid _ hframe
  refine ⟨⟨podId, lastCounter.toUInt64, framedNonce gen.salt8 lastCounter gen.tail8, ciphertext⟩,
    ?_, rfl⟩
  rw [runTrace_cons, runTrace_cons, hrestore, podStep, hcall]
  rfl

end

/-- **A pod never reuses a nonce.** After every run of emissions and restores, whatever the ciphers
answer: the counters of the emitted frames increase strictly and their nonces are distinct; a call
that fails leaves the next counter as it was; unless the pod is exhausted, a frame with the last
counter can be emitted, for every valid payload whose fact the frame has room for and the cipher
seals; and after such a frame, or after restoring the end of the counters, every emission fails as
exhausted and no call revives the pod. -/
theorem pod_never_reuses_nonce [Postcard] (n : Nat) (podId : PodId) (gen : CounterNonce24)
    (calls : List PodCall) :
    let run := runTrace (podStep n) (Pod.new podId gen) calls
    let frames := emittedFrames run.2
    (frames.Pairwise fun a b => a.fc < b.fc)
      ∧ (frames.map EncryptedFrame.nonce).Nodup
      ∧ (∀ call error, (podStep n run.1 call).1 = .error error →
        (podStep n run.1 call).2.nextFc = run.1.nextFc)
      ∧ (∀ (encrypt : AeadCall) (payload : FactPayload), payload.Valid →
        (factOf run.1.podId lastCounter.toUInt64 payload).postcardLength + aeadTagLen ≤ n →
        (∃ ciphertext, encrypt (framedNonce run.1.nonceGen.salt8 lastCounter run.1.nonceGen.tail8).1
          (framedAadForPod run.1.podId 1 0)
          (Postcard.toBytes (factOf run.1.podId lastCounter.toUInt64 payload)) n = .ok ciphertext) →
        run.1.nextFc ≠ none →
        ∃ frame, emittedFrames (runTrace (podStep n) run.1
            [.restoreNextFrameCounter (some lastCounter), .emitPayload encrypt payload]).2 = [frame]
          ∧ frame.fc = lastCounter.toUInt64)
      ∧ ((∃ frame ∈ frames, frame.fc = lastCounter.toUInt64)
          ∨ (∃ answer, (PodCall.restoreNextFrameCounter none, answer) ∈ run.2) →
        ∀ call, (call.IsEmission → (podStep n run.1 call).1 = .error .frameCounterExhausted)
          ∧ (podStep n run.1 call).2.nextFc = none) := by
  intro run frames
  have h : Emitted gen run.1 frames := podRun_emitted podId gen calls
  refine ⟨h.increasing, ?_, ?_, ?_, ?_⟩
  -- frames have increasing counters, and each nonce holds the counter of its frame
  · rw [List.Nodup, List.pairwise_map]
    refine h.increasing.imp_of_mem fun {a b} ha hb hlt hnonce => ?_
    obtain ⟨fc, hfc, hnonceA, -⟩ := h.below a ha
    obtain ⟨fc', hfc', hnonceB, -⟩ := h.below b hb
    -- equal nonces hold equal counters
    rw [hnonceA, hnonceB] at hnonce
    rw [hfc, hfc', framedNonce_injective hnonce] at hlt
    exact absurd hlt (UInt64.lt_irrefl _)
  -- a call that fails leaves the next counter
  · intro call error hanswer
    rcases podStep_cases n run.1 call with ⟨error', hstep⟩ | ⟨fc, frame, -, hstep, -⟩
      | ⟨nextFc, hstep, -⟩
    · rw [hstep]
    · rw [hstep] at hanswer
      cases hanswer
    · rw [hstep] at hanswer
      cases hanswer
  -- the last counter can be restored, and is emitted
  · rintro encrypt payload hvalid hroom ⟨ciphertext, hsealed⟩ hnext
    obtain ⟨current, hcurrent⟩ := Option.ne_none_iff_exists'.mp hnext
    exact emits_lastCounter hcurrent hvalid hroom hsealed
  -- after it, and after a restored `None`, there is no counter left
  · rintro hlast call
    refine podStep_exhausted ?_ call
    rcases hlast with ⟨frame, hframe, hfc⟩ | hrestored
    · obtain ⟨fc, hfc', -, hlt⟩ := h.below frame hframe
      have heq : fc = lastCounter := by
        rw [← toUInt32_toUInt64 fc, ← hfc', hfc, toUInt32_toUInt64]
      cases hnext : run.1.nextFc with
      | none => rfl
      | some next =>
        have hbelow := UInt32.lt_iff_toNat_lt.mp (hlt next hnext)
        have := next.toNat_lt
        rw [heq, show lastCounter.toNat = 2 ^ 32 - 1 from rfl] at hbelow
        omega
    · exact podRun_restored_none podId gen calls hrestored

/-! ### A pod with XChaCha20-Poly1305 -/

def samplePodId : PodId := ⟨[0, 0, 0, 0, 0, 0, 0, 7], rfl⟩

def sampleKey : Bytes := List.replicate 32 7

def sampleNonceGen : CounterNonce24 :=
  CounterNonce24.fromProvisionedSalt ⟨List.replicate 8 0x42, rfl⟩ ⟨List.replicate 8 0x99, rfl⟩

/-- 21.5 degrees at one instant. -/
def sampleReading : EnvFact where
  sampleType := .ambientAirTemperature
  phenomenonTimeStart := 1700000000
  phenomenonTimeEnd := 1700000000
  value := some ⟨0x41ac0000⟩
  min := none
  max := none
  mean := none
  count := some 1
  quality := none
  sensorChannel := none

/-- After an emission whose cipher fails and a restore, the pod still has its last frame to emit. -/
theorem pod_never_reuses_nonce_xchacha :
    letI := Postcard.wire
    let pod := (runTrace (podStep 272) (Pod.new samplePodId sampleNonceGen)
      [.emitPayload (fun _ _ _ _ => .error .cryptoError) (.env sampleReading),
        .restoreNextFrameCounter (some 41)]).1
    pod.nextFc = some 41
      ∧ ∃ frame, emittedFrames (runTrace (podStep 272) pod
          [.restoreNextFrameCounter (some lastCounter),
            .emitPayload (xchachaEncrypt sampleKey) (.env sampleReading)]).2 = [frame]
        ∧ frame.fc = lastCounter.toUInt64 := by
  let := Postcard.wire
  have hvalid : (FactPayload.env sampleReading).Valid := by
    show sampleReading.validate = .ok ()
    decide
  have hrun := pod_never_reuses_nonce 272 samplePodId sampleNonceGen
    [.emitPayload (fun _ _ _ _ => .error .cryptoError) (.env sampleReading),
      .restoreNextFrameCounter (some 41)]
  intro pod
  have hnext : pod.nextFc = some 41 := by decide +kernel
  refine ⟨hnext, hrun.2.2.2.1 (xchachaEncrypt sampleKey) _ hvalid ?_ ?_ ?_⟩
  · have hlength := (factOf pod.podId lastCounter.toUInt64 (.env sampleReading)).postcardLength_le
    unfold aeadTagLen
    exact Nat.le_trans (Nat.add_le_add_right hlength 16) (by decide)
  · refine (aeadCorrect_xchacha sampleKey).seals _ _ _ _ ?_
    have hlength := length_toBytes_le (factOf pod.podId lastCounter.toUInt64 (.env sampleReading))
    unfold aeadTagLen
    exact Nat.le_trans (Nat.add_le_add_right hlength 16) (by decide)
  · exact Option.ne_none_iff_exists'.mpr ⟨41, hnext⟩

end TrackOne
