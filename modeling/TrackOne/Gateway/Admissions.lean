import TrackOne.Gateway.Http

/-!
# Admissions of a running gateway

The routes of `Gateway.Http` in front of a running gateway. A request that is not refused for itself
waits for the mutex; a replay of segments takes it a second time, to look their timestamps up.
Between the commit of an admission and its response other requests are served, and the response can
be lost: with its connection, with its task, or with the process.

* `Phase` and `Exchange` are how far a request has come, and `AdmissionService.step` what can happen
  next.
* `Told` relates the requests to the accepted calls, in the order of their commits: only an accepted
  request is told that it was, and only once. `Sends` relates them to the responses.
* `Follows` and `Accepts` follow a run of the service with a run of the gateway, and through
  `Gateway.Retold` with one of the in-memory producer.
* `Reported`: an outcome names segments of the ledger, each once, and so `tsaStatus_eq` can read the
  projection of their timestamps as a statement about each of them.
* `AdmissionService.run_created`: each record is admitted once.
-/

namespace TrackOne

/-! ## The segments of an outcome -/

/-- An outcome names segments below the open one, each once. -/
structure Reported (next : UInt64) (call : AcceptedCall) : Prop where
  nodup : call.outcome.sealedSegmentNumbers.Nodup
  below : ∀ n ∈ call.outcome.sealedSegmentNumbers, n < next

section

variable [Sha256] {state : ProducerState} {segments : List SealedSegment}
  {admitted : List (Bytes × UInt64)} {t : LedgerTransition}

/-- The open segment does not go back. -/
theorem Commits.nextSegmentNumber_le (h : Commits state admitted t)
    (hchained : Chained state segments) :
    state.nextSegmentNumber ≤ t.nextState.nextSegmentNumber := by
  rw [UInt64.le_iff_toNat_le, hchained.nextSegmentNumber, (h.chained hchained).nextSegmentNumber,
    List.length_append]
  exact Nat.le_add_right _ _

/-- The segments of a transition are those from the open one on, each once. -/
theorem Commits.reported (h : Commits state admitted t) (hchained : Chained state segments) :
    (t.sealed.map SealedSegment.segmentNumber).Nodup
      ∧ ∀ n ∈ t.sealed.map SealedSegment.segmentNumber, n < t.nextState.nextSegmentNumber := by
  have hnext := h.chained hchained
  have hpositions : (t.sealed.map SealedSegment.segmentNumber).map UInt64.toNat
      = List.range' segments.length t.sealed.length := by
    apply List.ext_getElem
    · simp
    · intro i hi _
      have hlt : i < t.sealed.length := by simpa using hi
      have hget : (segments ++ t.sealed)[segments.length + i]? = some t.sealed[i] := by
        rw [List.getElem?_append_right (Nat.le_add_right _ _), Nat.add_sub_cancel_left,
          List.getElem?_eq_getElem hlt]
      simpa using hnext.chain.segmentNumber hget
  constructor
  · apply List.Nodup.of_map UInt64.toNat
    rw [hpositions]
    exact List.nodup_range'
  · intro n hn
    rw [UInt64.lt_iff_toNat_lt]
    exact ((mem_sealedNumbers hchained h.moves n).mp hn).2

omit [Sha256] in
/-- What is reported stays so as the ledger grows. -/
theorem Reported.mono {next next' : UInt64} {call : AcceptedCall} (h : Reported next call)
    (hle : next ≤ next') : Reported next' call :=
  ⟨h.nodup, fun n hn => UInt64.lt_of_lt_of_le (h.below n hn) hle⟩

/-- An executed plan reports the segments it has sealed. -/
theorem Planned.reported {lookup : String → Except ProducerError (Option IdempotencyRecord)}
    {store store' : MemoryLedgerStore} {accepted : List AcceptedCall} {next : ProducerState}
    {op : Operation} {plan : Plan} {reply : Reply} (hplanned : Planned lookup state op plan)
    (hstore : StoreInvariant store accepted) (hstate : store.state = some state)
    (hexecute : plan.execute store = (.ok (next, reply), store'))
    (h : ∀ call ∈ accepted, Reported state.nextSegmentNumber call) :
    ∀ state', store'.state = some state' → ∀ call ∈ accepted ++ acceptedBy op reply,
      Reported state'.nextSegmentNumber call := by
  intro state' hstate'
  cases plan with
  | done next' reply' =>
    obtain ⟨rfl, hnone⟩ := hplanned.of_done
    cases hexecute
    rw [hstate] at hstate'
    cases hstate'
    rw [hnone, List.append_nil]
    exact h
  | commit expected t reply' =>
    obtain ⟨-, -, rfl, rfl, rfl⟩ := execute_commit hexecute
    cases hstate'
    obtain ⟨segments, -, hledger, -⟩ := hstore.of_state hstate
    obtain ⟨-, admitted, hcommits⟩ := hplanned.of_commit
    have hle := hcommits.nextSegmentNumber_le hledger.chained
    intro call hcall
    rcases List.mem_append.mp hcall with hold | hnew
    · exact (h call hold).mono hle
    · cases hplanned with
      | maintained hop =>
        simp [acceptedBy, hop] at hnew
      | @admitted records request numbers _ outcome hop _ _ hcommits _ _ houtcome =>
        have hone : acceptedBy op (.admitted outcome) = [⟨records, request, outcome⟩] := by
          simp [acceptedBy, hop, houtcome.replayed]
        rw [hone, List.mem_singleton] at hnew
        rw [hnew]
        obtain ⟨hnodup, hbelow⟩ := hcommits.reported hledger.chained
        rw [← houtcome.sealedSegmentNumbers] at hnodup hbelow
        exact ⟨hnodup, hbelow⟩

/-- One input of a run on the in-memory store. -/
theorem WorldInvariant.reported {w : World MemoryLedgerStore} {trace : List (Input × Answer)}
    (hw : WorldInvariant w trace)
    (h : ∀ state, w.store.state = some state → ∀ call ∈ acceptedOf trace,
      Reported state.nextSegmentNumber call) (input : Input) :
    ∀ state, (w.step input).2.store.state = some state →
      ∀ call ∈ acceptedOf (trace ++ [(input, (w.step input).1)]),
        Reported state.nextSegmentNumber call := by
  generalize hafter : (w.step input).2 = after
  generalize hanswer : (w.step input).1 = answer
  have hstepped := w.step_stepped input
  rw [hafter, hanswer] at hstepped
  rw [acceptedOf_concat]
  cases hstepped with
  | absent => simpa [acceptedOf] using h
  | failed => simpa [acceptedOf] using h
  | refused => simpa [acceptedOf] using h
  | called hproducer hplan hexecute =>
    have hstate := hw.producer _ hproducer
    have hreported := (Operation.plan_planned hplan).reported hw.store hstate hexecute (h _ hstate)
    simpa [acceptedOf] using hreported
  | opened hplan hexecute =>
    rcases openOrCreate_eq_ok hplan with ⟨state, hloaded, -, hreactivate⟩ | ⟨hloaded, -, now, rfl⟩
    · have hstate : w.store.state = some state := Except.ok.inj hloaded
      have hplanned : Planned (LedgerStore.lookupIdempotency w.store) state .reactivate _ :=
        reactivate_planned rfl hreactivate
      have hreported := hplanned.reported hw.store hstate hexecute (h _ hstate)
      simpa [acceptedOf, acceptedBy, Operation.admission] using hreported
    · -- nothing was accepted before the ledger was there
      rw [(hw.store.of_none (Except.ok.inj hloaded)).2]
      simp [acceptedOf]

/-- The keys of the accepted calls are distinct. -/
theorem StoreInvariant.nodup_keys {store : MemoryLedgerStore} {accepted : List AcceptedCall}
    (h : StoreInvariant store accepted) : (accepted.filterMap AcceptedCall.key?).Nodup := by
  cases h with
  | blank => simp
  | ledger _ _ _ hkept => exact hkept.once

/-- Every accepted call of a run on the in-memory store reports segments of the ledger. -/
theorem World.run_reported (inputs : List Input) :
    ∀ state, (memoryRun inputs).1.store.state = some state →
      ∀ call ∈ acceptedOf (memoryRun inputs).2, Reported state.nextSegmentNumber call := by
  have hrun : WorldInvariant (memoryRun inputs).1 (memoryRun inputs).2
      ∧ ∀ state, (memoryRun inputs).1.store.state = some state →
        ∀ call ∈ acceptedOf (memoryRun inputs).2, Reported state.nextSegmentNumber call := by
    apply runTrace_induction (P := fun (w : World MemoryLedgerStore) trace => WorldInvariant w trace
      ∧ ∀ state, w.store.state = some state → ∀ call ∈ acceptedOf trace,
        Reported state.nextSegmentNumber call)
    · exact ⟨run_invariant [], by simp [MemoryLedgerStore.empty]⟩
    · intro w trace input h
      exact ⟨h.1.step input, h.1.reported h.2 input⟩
  exact hrun.2

end

namespace Http

/-! ## The projection of the timestamps -/

/-- The status of the timestamp of a segment. -/
def segmentStatus (store : PostgresLedgerStore) (n : UInt64) : Option TsaStatus :=
  store.tables.sealedSegment[n]?.map SegmentRow.tsaStatus

/-- What the statuses of some segments come to. -/
def projection (store : PostgresLedgerStore) (numbers : List UInt64) : String :=
  if numbers.any fun n => segmentStatus store n = some .failed then "failed"
  else if numbers.all fun n => segmentStatus store n = some .verified then "verified"
  else "queued"

/-- A replay whose timestamps are to be looked up. -/
structure Replay where
  minimal : Bool
  batch : Bool
  outcome : AdmissionOutcome

/-- How far a request has come. It waits for the mutex; as a replay it waits for it once more; its
response is made, and was not sent yet; it was sent; or it was lost with its task or connection. -/
inductive Phase where
  | admitting (reading : HttpState.Reading)
  | looking (replay : Replay)
  | answering (response : Response)
  | sent (response : Response)
  | lost

/-- The request still waits for something. -/
def Phase.waits : Phase → Bool
  | .admitting _ => true
  | .looking _ => true
  | .answering _ => true
  | .sent _ => false
  | .lost => false

/-- A request, and what has become of it. -/
structure Exchange where
  request : Request
  phase : Phase

/-- The process ends: what was not sent is lost. -/
def Exchange.interrupted (exchange : Exchange) : Exchange :=
  if exchange.phase.waits then { exchange with phase := .lost } else exchange

/-- A gateway with its routes, and the requests it has received, in the order in which they came. -/
structure AdmissionService where
  gateway : Gateway
  exchanges : List Exchange

/-- What the gateway process does: it opens its ledger, recovers it after a change of the clock,
samples its readiness, lets its workers run, receives requests, calls the producer for them under
the mutex, and sends what it answers. Between any two of these a task can fail, a connection can be
gone and the process can stop. -/
inductive AdmissionInput where
  | restart (now : Timestamp) (clock : ClockReadings) (config : LedgerConfig)
  | recover (now : Timestamp) (clock : ClockReadings)
  | sample (now : Timestamp) (clock : ClockReadings)
  | work (input : WorkerInput)
  | request (request : Request)
  | call (i : Nat) (now : Timestamp) (clock : ClockReadings)
  | lookUp (i : Nat) (available : Bool)
  | answer (i : Nat)
  | fail (i : Nat) (message : String)
  | lose (i : Nat)

inductive AdmissionAnswer where
  | transacted (answer : GatewayAnswer)
  | received (i : Nat)
  | responded (i : Nat) (response : Response)
  | idle

/-- The second half of `admit_records`, up to the lookup of the timestamps. -/
def HttpState.Reading.respond (reading : HttpState.Reading) : GatewayAnswer → Phase
  | .produced (some (.ok (.admitted outcome))) =>
    if outcome.sealedSegmentNumbers = [] then
      .answering (admissionResponse reading.minimal reading.batch outcome "not_applicable")
    else if outcome.replayed then .looking ⟨reading.minimal, reading.batch, outcome⟩
    else .answering (admissionResponse reading.minimal reading.batch outcome "queued")
  | .produced (some (.error error)) => .answering (producerErrorResponse error)
  | _ => .admitting reading

/-- A request is refused for itself, or goes to the producer. -/
def HttpState.receive [Sha256] (http : HttpState) (request : Request) : Phase :=
  match http.read request with
  | .error response => .answering response
  | .ok reading => .admitting reading

namespace AdmissionService

/-- A new service has accepted nothing. -/
def new (ledgerId : String) (limits : CapacityLimits) : AdmissionService :=
  ⟨.new ledgerId limits, []⟩

def phase? (s : AdmissionService) (i : Nat) : Option Phase := s.exchanges[i]?.map Exchange.phase

/-- A request comes to another phase. -/
def advance (s : AdmissionService) (i : Nat) (phase : Phase) : AdmissionService :=
  { s with exchanges := s.exchanges.modify i fun exchange => { exchange with phase } }

/-- The statuses a replay looks up; a lookup that fails finds none. -/
def lookupStatuses (s : AdmissionService) (numbers : List UInt64) (available : Bool) :
    List TsaStatus :=
  if available then tsaStatuses s.gateway.pipeline.store numbers else []

/-- The response to a replay. -/
def replayResponse (s : AdmissionService) (replay : Replay) (available : Bool) : Response :=
  admissionResponse replay.minimal replay.batch replay.outcome
    (tsaStatus replay.outcome.sealedSegmentNumbers
      (s.lookupStatuses replay.outcome.sealedSegmentNumbers available))

variable [Sha256]

/-- A transaction of the gateway. -/
def transact (config : TimestampWorkerConfig) (s : AdmissionService) (input : GatewayInput) :
    AdmissionAnswer × AdmissionService :=
  let (answer, gateway) := s.gateway.step config input
  (.transacted answer, { s with gateway })

def step (config : TimestampWorkerConfig) (http : HttpState) (s : AdmissionService) :
    AdmissionInput → AdmissionAnswer × AdmissionService
  | .restart now clock ledger =>
    { s with exchanges := s.exchanges.map Exchange.interrupted }.transact config
      (.produce now (.restart clock ledger))
  | .recover now clock => s.transact config (.produce now (.call clock .recover))
  | .sample now clock => s.transact config (.produce now (.call clock .sealExpiredIntervals))
  | .work input => s.transact config (.work input)
  | .request request =>
    (.received s.exchanges.length,
      { s with exchanges := s.exchanges ++ [⟨request, http.receive request⟩] })
  | .call i now clock =>
    match s.phase? i with
    | some (.admitting reading) =>
      let (answer, gateway) := s.gateway.step config (.produce now (.call clock reading.operation))
      (.idle, { s with gateway }.advance i (reading.respond answer))
    | _ => (.idle, s)
  | .lookUp i available =>
    match s.phase? i with
    | some (.looking replay) =>
      (.idle, s.advance i (.answering (s.replayResponse replay available)))
    | _ => (.idle, s)
  | .answer i =>
    match s.phase? i with
    | some (.answering response) => (.responded i response, s.advance i (.sent response))
    | _ => (.idle, s)
  | .fail i message =>
    if (s.phase? i).any Phase.waits then
      (.responded i (blockingTaskResponse message),
        s.advance i (.sent (blockingTaskResponse message)))
    else (.idle, s)
  | .lose i =>
    match s.phase? i with
    | some (.answering _) => (.idle, s.advance i .lost)
    | _ => (.idle, s)

/-- Any number of inputs, on a ledger without rows. -/
def run (config : TimestampWorkerConfig) (http : HttpState) (ledgerId : String)
    (limits : CapacityLimits) (inputs : List AdmissionInput) :
    AdmissionService × List (AdmissionInput × AdmissionAnswer) :=
  runTrace (step config http) (new ledgerId limits) inputs

end AdmissionService

/-! ## Status codes -/

/-- An admission is new exactly if its status says so. -/
theorem status_admissionResponse (minimal batch : Bool) (outcome : AdmissionOutcome)
    (tsaStatus : String) :
    (admissionResponse minimal batch outcome tsaStatus).status = 201
      ↔ outcome.replayed = false := by
  unfold admissionResponse
  cases outcome.replayed <;> cases minimal <;> simp

/-- A response that does not report a new admission. -/
def NotCreated (response : Response) : Prop := response.status ≠ 201

instance (response : Response) : Decidable (NotCreated response) :=
  inferInstanceAs (Decidable (response.status ≠ 201))

/-- No error of the producer is answered with a 201. -/
theorem notCreated_producerErrorResponse (error : ProducerError) :
    NotCreated (producerErrorResponse error) := by
  cases error <;> simp [NotCreated, producerErrorResponse, errorResponse]

/-- No body that cannot be decoded is answered with a 201. -/
theorem HttpState.failsWith_decodeBody (http : HttpState) (headers : HeaderMap)
    (body : SliceBytes) :
    Except.FailsWith NotCreated (http.decodeBody headers body) := by
  intro response h
  unfold HttpState.decodeBody at h
  cases hencoding : headers.getStr "content-encoding" with
  | none =>
    rw [hencoding] at h
    cases h
  | some encoding =>
    rw [hencoding] at h
    dsimp only at h
    split_ifs at h
    · cases hexpand : http.expand body with
      | ok bytes =>
        rw [hexpand] at h
        cases h
      | error failure =>
        rw [hexpand] at h
        rcases failure with (_ | message) | _ <;> (cases h; decide)
    · cases h
      decide

/-- No request that is refused for itself is told that it was admitted. -/
theorem HttpState.failsWith_read [Sha256] (http : HttpState) (request : Request) :
    Except.FailsWith NotCreated (http.read request) := by
  have hadmission : Except.FailsWith NotCreated (http.admission request) := by
    unfold HttpState.admission
    cases request.route with
    | records =>
      refine (Except.failsWith_require (by decide) _).bind fun _ _ => ?_
      refine (Except.failsWith_require (by decide) _).bind fun _ _ => ?_
      refine (Except.failsWith_require (by decide) _).bind fun _ _ => ?_
      exact Except.failsWith_ok _
    | recordBatches =>
      refine (Except.failsWith_require (by decide) _).bind fun _ _ => ?_
      refine (http.failsWith_decodeBody _ _).bind fun _ _ => ?_
      refine (Except.failsWith_require (by decide) _).bind fun _ _ => ?_
      refine (Except.failsWith_mapError (fun error => ?_) _).bind fun _ _ => Except.failsWith_ok _
      cases error with
      | limit => decide
      | malformed message => exact show (400 : Nat) ≠ 201 by decide
  refine (Except.failsWith_require (by decide) _).bind fun _ _ => ?_
  refine hadmission.bind fun admission _ => ?_
  refine (Except.failsWith_ofOption (by decide) _).bind fun key _ => ?_
  cases admission.envelope with
  | some envelope => exact Except.failsWith_ok _
  | none =>
    exact (Except.failsWith_ofOption (notCreated_producerErrorResponse _) _).bind fun _ _ =>
      Except.failsWith_ok _

/-- The call that a request makes, as an accepted one with its outcome. -/
def HttpState.Reading.accepted [Sha256] (reading : HttpState.Reading) (outcome : AdmissionOutcome) :
    AcceptedCall :=
  ⟨reading.records, some (reading.key, sha256Hex reading.identified), outcome⟩

/-- A request that was read is an admission of its records, under its key. -/
theorem HttpState.admission_of_read [Sha256] {http : HttpState} {request : Request}
    {reading : HttpState.Reading} (h : http.read request = .ok reading) :
    reading.operation.admission
      = some (reading.records, some (reading.key, sha256Hex reading.identified)) := by
  unfold HttpState.read at h
  simp only [Except.bind_eq_ok] at h
  obtain ⟨-, -, admission, -, h⟩ := h
  unfold HttpState.admitRecords at h
  obtain ⟨key, -, h⟩ := Except.bind_eq_ok.mp h
  cases henvelope : admission.envelope with
  | some envelope =>
    rw [henvelope] at h
    cases h
    rfl
  | none =>
    rw [henvelope] at h
    obtain ⟨record, -, h⟩ := Except.bind_eq_ok.mp h
    cases h
    rfl

/-! ## What becomes of a request -/

/-- The timestamps of a new admission: no segment was sealed, or theirs are yet to come. -/
def createdStatus (outcome : AdmissionOutcome) : String :=
  if outcome.sealedSegmentNumbers = [] then "not_applicable" else "queued"

/-- The response to a new admission. -/
def HttpState.Reading.created (reading : HttpState.Reading) (outcome : AdmissionOutcome) :
    Response :=
  admissionResponse reading.minimal reading.batch outcome (createdStatus outcome)

namespace Phase

/-- The phases of a request that has admitted its records. The response that says so waits, was
sent, or was lost, or its task failed and that was answered instead. -/
inductive Admitted (created : Response) : Phase → Prop where
  | answering : Admitted created (.answering created)
  | sent : Admitted created (.sent created)
  | failed (message : String) : Admitted created (.sent (blockingTaskResponse message))
  | lost : Admitted created .lost

/-- The phases of a request that has admitted nothing: no response says that it has. -/
inductive Unadmitted [Sha256] (http : HttpState) (request : Request) : Phase → Prop where
  | admitting {reading : HttpState.Reading} (h : http.read request = .ok reading) :
      Unadmitted http request (.admitting reading)
  | looking {replay : Replay} (h : replay.outcome.replayed = true) :
      Unadmitted http request (.looking replay)
  | answering {response : Response} (h : NotCreated response) :
      Unadmitted http request (.answering response)
  | sent {response : Response} (h : NotCreated response) : Unadmitted http request (.sent response)
  | lost : Unadmitted http request .lost

/-- A request goes on without the producer. -/
inductive Goes : Phase → Phase → Prop where
  | stays (phase : Phase) : Goes phase phase
  | looked (replay : Replay) (tsaStatus : String) :
      Goes (.looking replay)
        (.answering (admissionResponse replay.minimal replay.batch replay.outcome tsaStatus))
  | sent (response : Response) : Goes (.answering response) (.sent response)
  | failed {phase : Phase} (hwaits : phase.waits = true) (message : String) :
      Goes phase (.sent (blockingTaskResponse message))
  | lost {phase : Phase} (hwaits : phase.waits = true) : Goes phase .lost

variable {phase phase' : Phase}

/-- What was admitted for an exchange stays admitted for it. -/
theorem Admitted.goes {created : Response} (h : Admitted created phase)
    (hgoes : Goes phase phase') :
    Admitted created phase' := by
  cases hgoes with
  | stays => exact h
  | looked => cases h
  | sent =>
    cases h
    exact .sent
  | failed _ message => exact .failed message
  | lost => exact .lost

/-- What was not admitted for an exchange is not later on. -/
theorem Unadmitted.goes [Sha256] {http : HttpState} {request : Request}
    (h : Unadmitted http request phase) (hgoes : Goes phase phase') :
    Unadmitted http request phase' := by
  cases hgoes with
  | stays => exact h
  | looked replay tsaStatus =>
    cases h with
    | looking hreplayed =>
      refine .answering fun hcreated => ?_
      rw [status_admissionResponse, hreplayed] at hcreated
      cases hcreated
  | sent response =>
    cases h with
    | answering hother => exact .sent hother
  | failed => exact .sent (show (500 : Nat) ≠ 201 by decide)
  | lost => exact .lost

end Phase

/-- An answer of the producer is a new admission, and the request is told so; or it is anything
else, and the request is not. -/
theorem HttpState.Reading.respond_cases [Sha256] (reading : HttpState.Reading)
    (answer : GatewayAnswer) :
    (∃ outcome, answer = .produced (some (.ok (.admitted outcome))) ∧ outcome.replayed = false
        ∧ reading.respond answer = .answering (reading.created outcome))
      ∨ ((∀ outcome, answer = .produced (some (.ok (.admitted outcome))) → outcome.replayed = true)
        ∧ ∀ {http : HttpState} {request : Request}, http.read request = .ok reading →
          (reading.respond answer).Unadmitted http request) := by
  unfold HttpState.Reading.respond
  split
  · next outcome =>
    cases hreplayed : outcome.replayed with
    | false =>
      refine .inl ⟨outcome, rfl, hreplayed, ?_⟩
      unfold HttpState.Reading.created createdStatus
      by_cases hsealed : outcome.sealedSegmentNumbers = []
      · rw [if_pos hsealed, if_pos hsealed]
      · rw [if_neg hsealed, if_neg hsealed, if_neg Bool.false_ne_true]
    | true =>
      refine .inr ⟨fun outcome' heq => ?_, fun _ => ?_⟩
      · cases heq
        exact hreplayed
      · -- a replay is never told that it was created
        have hstatus : ∀ status, NotCreated
            (admissionResponse reading.minimal reading.batch outcome status) := by
          intro status hcreated
          rw [status_admissionResponse, hreplayed] at hcreated
          cases hcreated
        split_ifs
        · exact .answering (hstatus _)
        · exact .looking hreplayed
        · next hfalse => exact absurd rfl hfalse
  · next error =>
    exact .inr ⟨fun outcome h => (by cases h), fun _ =>
      .answering (notCreated_producerErrorResponse error)⟩
  · next hadmitted _ =>
    exact .inr ⟨fun outcome h => absurd h (hadmitted outcome), fun hread => .admitting hread⟩

/-- What a step does to the requests when it does not call the producer for one of them. -/
structure Proceeds [Sha256] (http : HttpState) (before after : List Exchange) : Prop where
  old : ∀ (i : Nat) (exchange : Exchange), before[i]? = some exchange →
    ∃ phase : Phase, after[i]? = some { exchange with phase } ∧ exchange.phase.Goes phase
  new : ∀ (i : Nat) (exchange : Exchange), before[i]? = none → after[i]? = some exchange →
    exchange.phase.Unadmitted http exchange.request

/-- The accepted calls of a service, in the order in which they were committed, each with the number
of its request. A request is accepted at most once, with the outcome that its response tells, and
only the accepted requests are told that they were. -/
structure Told [Sha256] (http : HttpState) (exchanges : List Exchange)
    (calls : List (Nat × AcceptedCall)) : Prop where
  once : (calls.map Prod.fst).Nodup
  admitted : ∀ i call, (i, call) ∈ calls → ∃ exchange reading, exchanges[i]? = some exchange
    ∧ http.read exchange.request = .ok reading ∧ call = reading.accepted call.outcome
    ∧ call.outcome.replayed = false ∧ exchange.phase.Admitted (reading.created call.outcome)
  unadmitted : ∀ i exchange, exchanges[i]? = some exchange → i ∉ calls.map Prod.fst →
    exchange.phase.Unadmitted http exchange.request

section Exchanges

variable [Sha256] {http : HttpState} {before after exchanges : List Exchange}
  {calls : List (Nat × AcceptedCall)}

/-- Exchanges that stay as they are. -/
theorem Proceeds.refl (http : HttpState) (exchanges : List Exchange) :
    Proceeds http exchanges exchanges where
  old _ exchange hget := ⟨exchange.phase, hget, .stays _⟩
  new _ _ hnone hsome := by
    rw [hnone] at hsome
    cases hsome

/-- Exchanges cut off by a restart. -/
theorem Proceeds.interrupted (http : HttpState) (exchanges : List Exchange) :
    Proceeds http exchanges (exchanges.map Exchange.interrupted) where
  old i exchange hget := by
    rw [List.getElem?_map, hget, Option.map_some, Exchange.interrupted]
    by_cases hwaits : exchange.phase.waits = true
    · exact ⟨.lost, by rw [if_pos hwaits], .lost hwaits⟩
    · exact ⟨exchange.phase, by rw [if_neg hwaits], .stays _⟩
  new i exchange hnone hsome := by
    rw [List.getElem?_map, hnone] at hsome
    cases hsome

/-- A request that is received is refused, or it has admitted nothing yet. -/
theorem Proceeds.received (http : HttpState) (exchanges : List Exchange) (request : Request) :
    Proceeds http exchanges (exchanges ++ [⟨request, http.receive request⟩]) where
  old i exchange hget := by
    obtain ⟨hlt, -⟩ := List.getElem?_eq_some_iff.mp hget
    exact ⟨exchange.phase, (List.getElem?_append_left hlt).trans hget, .stays _⟩
  new i exchange hnone hsome := by
    rw [List.getElem?_append_right (List.getElem?_eq_none_iff.mp hnone)] at hsome
    obtain rfl := List.mem_singleton.mp (List.mem_of_getElem? hsome)
    show (http.receive request).Unadmitted http request
    unfold HttpState.receive
    cases hread : http.read request with
    | error response => exact .answering (http.failsWith_read request response hread)
    | ok reading => exact .admitting hread

/-- A commit that was told stays told as exchanges proceed. -/
theorem Told.proceed (h : Told http before calls) (hproceeds : Proceeds http before after) :
    Told http after calls where
  once := h.once
  admitted i call hcall := by
    obtain ⟨exchange, reading, hget, hread, haccepted, hnew, hphase⟩ := h.admitted i call hcall
    obtain ⟨phase, hafter, hgoes⟩ := hproceeds.old i exchange hget
    exact ⟨_, reading, hafter, hread, haccepted, hnew, hphase.goes hgoes⟩
  unadmitted i exchange hget hnot := by
    cases hbefore : before[i]? with
    | none => exact hproceeds.new i exchange hbefore hget
    | some earlier =>
      obtain ⟨phase, hafter, hgoes⟩ := hproceeds.old i earlier hbefore
      rw [hget] at hafter
      cases hafter
      exact (h.unadmitted i earlier hbefore hnot).goes hgoes

/-- A request that waits for the mutex is not among the accepted ones. -/
theorem Told.notMem_of_admitting (h : Told http exchanges calls) {i : Nat} {exchange : Exchange}
    {reading : HttpState.Reading} (hget : exchanges[i]? = some exchange)
    (hphase : exchange.phase = .admitting reading) : i ∉ calls.map Prod.fst := by
  intro hmem
  obtain ⟨⟨_, call⟩, hcall, rfl⟩ := List.mem_map.mp hmem
  obtain ⟨exchange', reading', hget', -, -, -, hadmitted⟩ := h.admitted _ call hcall
  rw [hget] at hget'
  cases hget'
  rw [hphase] at hadmitted
  cases hadmitted

/-- A request that waits for the mutex was read when it came in. -/
theorem Told.read_of_admitting (h : Told http exchanges calls) {i : Nat} {exchange : Exchange}
    {reading : HttpState.Reading} (hget : exchanges[i]? = some exchange)
    (hphase : exchange.phase = .admitting reading) : http.read exchange.request = .ok reading := by
  have hunadmitted := h.unadmitted i exchange hget (h.notMem_of_admitting hget hphase)
  rw [hphase] at hunadmitted
  cases hunadmitted with
  | admitting hread => exact hread

/-- A request that is not accepted may come to any phase that tells so. -/
theorem Told.unaccepted (h : Told http exchanges calls) {i : Nat} {exchange : Exchange}
    (hget : exchanges[i]? = some exchange) (hnot : i ∉ calls.map Prod.fst)
    (hother : ∀ j, j ≠ i → after[j]? = exchanges[j]?)
    (hself : ∃ phase : Phase, after[i]? = some { exchange with phase }
      ∧ phase.Unadmitted http exchange.request) : Told http after calls where
  once := h.once
  admitted j call hcall := by
    have hne : j ≠ i := by
      rintro rfl
      exact hnot (List.mem_map_of_mem hcall)
    rw [hother j hne]
    exact h.admitted j call hcall
  unadmitted j exchange' hget' hnot' := by
    by_cases heq : j = i
    · subst heq
      obtain ⟨phase, hself, hunadmitted⟩ := hself
      rw [hself] at hget'
      cases hget'
      exact hunadmitted
    · rw [hother j heq] at hget'
      exact h.unadmitted j exchange' hget' hnot'

/-- A request is accepted, and comes to a phase that tells so. -/
theorem Told.accepts (h : Told http exchanges calls) {i : Nat} {exchange : Exchange}
    {reading : HttpState.Reading} {outcome : AdmissionOutcome}
    (hread : http.read exchange.request = .ok reading) (hnew : outcome.replayed = false)
    (hnot : i ∉ calls.map Prod.fst) (hother : ∀ j, j ≠ i → after[j]? = exchanges[j]?)
    (hself : ∃ phase : Phase, after[i]? = some { exchange with phase }
      ∧ phase.Admitted (reading.created outcome)) :
    Told http after (calls ++ [(i, reading.accepted outcome)]) where
  once := by
    rw [List.map_append, List.nodup_append]
    refine ⟨h.once, by simp, ?_⟩
    rintro j hj _ hlast rfl
    rw [List.map_singleton, List.mem_singleton] at hlast
    rw [show j = i from hlast] at hj
    exact hnot hj
  admitted j call hcall := by
    rcases List.mem_append.mp hcall with hold | hlast
    · have hne : j ≠ i := by
        rintro rfl
        exact hnot (List.mem_map_of_mem hold)
      rw [hother j hne]
      exact h.admitted j call hold
    · obtain ⟨rfl, rfl⟩ := Prod.mk.inj (List.mem_singleton.mp hlast)
      obtain ⟨phase, hself, hadmitted⟩ := hself
      exact ⟨_, reading, hself, hread, rfl, hnew, hadmitted⟩
  unadmitted j exchange' hget' hnot' := by
    rw [List.map_append, List.mem_append, not_or] at hnot'
    have hne : j ≠ i := fun heq => hnot'.2 (by simp [heq])
    rw [hother j hne] at hget'
    exact h.unadmitted j exchange' hget' hnot'.1

/-- The producer has answered for a request: it is accepted, or it is not and nothing else is. -/
theorem Told.called (h : Told http exchanges calls) {i : Nat} {exchange : Exchange}
    {reading : HttpState.Reading} (hget : exchanges[i]? = some exchange)
    (hphase : exchange.phase = .admitting reading) (answer : GatewayAnswer) :
    (∃ outcome, answer = .produced (some (.ok (.admitted outcome))) ∧ outcome.replayed = false
        ∧ Told http
          (exchanges.modify i fun exchange => { exchange with phase := reading.respond answer })
          (calls ++ [(i, reading.accepted outcome)]))
      ∨ (∀ outcome, answer = .produced (some (.ok (.admitted outcome))) → outcome.replayed = true)
        ∧ Told http
          (exchanges.modify i fun exchange => { exchange with phase := reading.respond answer })
          calls := by
  have hnot := h.notMem_of_admitting hget hphase
  have hread := h.read_of_admitting hget hphase
  -- no other exchange is touched
  have hother : ∀ j, j ≠ i →
      (exchanges.modify i fun exchange => { exchange with phase := reading.respond answer })[j]?
        = exchanges[j]? := by
    intro j hne
    rw [List.getElem?_modify]
    simp [Ne.symm hne]
  have hself :
      (exchanges.modify i fun exchange => { exchange with phase := reading.respond answer })[i]?
        = some { exchange with phase := reading.respond answer } := by
    rw [List.getElem?_modify, hget]
    simp
  -- what the ledger answered decides whether this is one more accepted call
  rcases reading.respond_cases answer with ⟨outcome, hanswer, hnew, hrespond⟩ | ⟨hold, hrespond⟩
  · refine .inl ⟨outcome, hanswer, hnew, h.accepts hread hnew hnot hother ⟨_, hself, ?_⟩⟩
    rw [hrespond]
    exact .answering
  · exact .inr ⟨hold, h.unaccepted hget hnot hother ⟨_, hself, hrespond hread⟩⟩

/-- A response with status 201 tells an accepted call. -/
theorem Told.of_created (h : Told http exchanges calls) {i : Nat} {exchange : Exchange}
    {response : Response} (hget : exchanges[i]? = some exchange)
    (hphase : exchange.phase = .answering response ∨ exchange.phase = .sent response)
    (hcreated : response.status = 201) :
    ∃ reading outcome, http.read exchange.request = .ok reading ∧ outcome.replayed = false
      ∧ response = reading.created outcome ∧ (i, reading.accepted outcome) ∈ calls := by
  by_cases hmem : i ∈ calls.map Prod.fst
  · obtain ⟨⟨_, call⟩, hcall, rfl⟩ := List.mem_map.mp hmem
    obtain ⟨exchange', reading, hget', hread, haccepted, hnew, hadmitted⟩ := h.admitted _ call hcall
    rw [hget] at hget'
    cases hget'
    refine ⟨reading, call.outcome, hread, hnew, ?_, haccepted ▸ hcall⟩
    rcases hphase with hphase | hphase
    · rw [hphase] at hadmitted
      cases hadmitted
      rfl
    · rw [hphase] at hadmitted
      cases hadmitted with
      | sent => rfl
      | failed message => cases hcreated
  · have hunadmitted := h.unadmitted i exchange hget hmem
    rcases hphase with hphase | hphase
    · rw [hphase] at hunadmitted
      cases hunadmitted with
      | answering hother => exact absurd hcreated hother
    · rw [hphase] at hunadmitted
      cases hunadmitted with
      | sent hother => exact absurd hcreated hother

/-- Every told call has a key. -/
theorem Told.keyed (h : Told http exchanges calls) : ∀ call ∈ calls, call.2.key?.isSome := by
  rintro ⟨i, call⟩ hcall
  obtain ⟨-, reading, -, -, haccepted, -⟩ := h.admitted i call hcall
  show call.key?.isSome
  rw [haccepted]
  rfl

end Exchanges

/-- A service with its accepted calls, and a gateway that has made its transactions. -/
structure Follows [Sha256] (http : HttpState) (s : AdmissionService) (g : Gateway)
    (trace : List (GatewayInput × GatewayAnswer)) (calls : List (Nat × AcceptedCall)) : Prop where
  gateway : s.gateway = g
  told : Told http s.exchanges calls
  accepted : acceptedOf (Gateway.produced trace) = calls.map Prod.snd

namespace AdmissionService

variable [Sha256] {config : TimestampWorkerConfig} {http : HttpState} {s : AdmissionService}
  {i : Nat} {phase phase' : Phase}

omit [Sha256] in
/-- The phase of an exchange. -/
theorem phase?_eq_some : s.phase? i = some phase
    ↔ ∃ exchange, s.exchanges[i]? = some exchange ∧ exchange.phase = phase := by
  rw [phase?, Option.map_eq_some_iff]

omit [Sha256] in
/-- Only the exchange that advances changes its phase. -/
theorem phase?_advance (s : AdmissionService) (i j : Nat) (phase : Phase) :
    (s.advance i phase).phase? j
      = if i = j then (s.phase? j).map fun _ => phase else s.phase? j := by
  unfold phase? advance
  rw [List.getElem?_modify]
  by_cases heq : i = j
  · cases s.exchanges[j]? <;> simp [heq]
  · cases s.exchanges[j]? <;> simp [heq]

/-- One request goes on. -/
theorem proceeds_advance (http : HttpState) (h : s.phase? i = some phase)
    (hgoes : phase.Goes phase') : Proceeds http s.exchanges (s.advance i phase').exchanges where
  old j exchange hget := by
    show ∃ phase, (s.exchanges.modify i _)[j]? = _ ∧ _
    rw [List.getElem?_modify, hget]
    by_cases heq : i = j
    · obtain ⟨exchange', hget', hphase⟩ := phase?_eq_some.mp h
      rw [heq, hget] at hget'
      cases hget'
      exact ⟨phase', by simp [heq], hphase ▸ hgoes⟩
    · exact ⟨exchange.phase, by simp [heq], .stays _⟩
  new j exchange hnone hsome := by
    have hmodified : (s.exchanges.modify i fun exchange => { exchange with phase := phase' })[j]?
        = some exchange := hsome
    rw [List.getElem?_modify, hnone] at hmodified
    cases hmodified

/-- What a call adds to the accepted ones. -/
theorem accepted_call {trace : List (GatewayInput × GatewayAnswer)} {g : Gateway} {op : Operation}
    {records : List Bytes} {request : Option (String × String)} (now : Timestamp)
    (clock : ClockReadings) (hop : op.admission = some (records, request)) :
    (∀ outcome, (g.step config (.produce now (.call clock op))).1
          = .produced (some (.ok (.admitted outcome))) → outcome.replayed = false →
        acceptedOf (Gateway.produced (trace ++ [(.produce now (.call clock op),
          (g.step config (.produce now (.call clock op))).1)]))
          = acceptedOf (Gateway.produced trace) ++ [⟨records, request, outcome⟩])
      ∧ ((∀ outcome, (g.step config (.produce now (.call clock op))).1
          = .produced (some (.ok (.admitted outcome))) → outcome.replayed = true) →
        acceptedOf (Gateway.produced (trace ++ [(.produce now (.call clock op),
          (g.step config (.produce now (.call clock op))).1)]))
          = acceptedOf (Gateway.produced trace)) := by
  rw [Gateway.answer_produce, Gateway.produced_concat, acceptedOf_concat]
  generalize (g.world.step (.call clock op)).1 = answer
  constructor
  · intro outcome hanswer hnew
    cases hanswer
    simp [acceptedOf, acceptedBy, hop, hnew]
  · intro hreplayed
    rcases answer with _ | (error | reply)
    · simp [acceptedOf]
    · simp [acceptedOf]
    · cases reply with
      | admitted outcome => simp [acceptedOf, acceptedBy, hop, hreplayed outcome rfl]
      | sealed segments => simp [acceptedOf, acceptedBy]
      | unit => simp [acceptedOf, acceptedBy]

/-- The other transactions of the process accept nothing. -/
theorem accepted_other {trace : List (GatewayInput × GatewayAnswer)} {g : Gateway}
    {input : GatewayInput}
    (h : ∀ now clock op, input = .produce now (.call clock op) → op.admission = none) :
    acceptedOf (Gateway.produced (trace ++ [(input, (g.step config input).1)]))
      = acceptedOf (Gateway.produced trace) := by
  cases input with
  | work input => rw [Gateway.produced_work]
  | produce now input =>
    rw [Gateway.answer_produce, Gateway.produced_concat, acceptedOf_concat]
    generalize (g.world.step input).1 = answer
    cases input with
    | restart clock config => simp [acceptedOf]
    | call clock op =>
      have hop := h now clock op rfl
      rcases answer with _ | (error | reply) <;> simp [acceptedOf, acceptedBy, hop]

section Follows

variable {g : Gateway} {trace : List (GatewayInput × GatewayAnswer)}
  {calls : List (Nat × AcceptedCall)}

/-- A transaction that accepts nothing. -/
theorem follows_transact (h : Follows http s g trace calls) {call : GatewayInput}
    (hcall : ∀ now clock op, call = .produce now (.call clock op) → op.admission = none) :
    Follows http (s.transact config call).2 (g.step config call).2
      (trace ++ [(call, (g.step config call).1)]) calls := by
  obtain ⟨rfl, htold, haccepted⟩ := h
  exact ⟨rfl, htold, (accepted_other hcall).trans haccepted⟩

/-- The requests go on without the gateway. -/
theorem follows_proceed (h : Follows http s g trace calls) {s' : AdmissionService}
    (hgateway : s'.gateway = s.gateway) (hproceeds : Proceeds http s.exchanges s'.exchanges) :
    Follows http s' g trace calls :=
  ⟨hgateway.trans h.gateway, h.told.proceed hproceeds, h.accepted⟩

/-- The producer is called for a request that waits for it. -/
theorem follows_call (h : Follows http s g trace calls) {reading : HttpState.Reading}
    (hphase : s.phase? i = some (.admitting reading)) (now : Timestamp) (clock : ClockReadings) :
    ∃ more, Follows http (s.step config http (.call i now clock)).2
      (g.step config (.produce now (.call clock reading.operation))).2
      (trace ++ [(.produce now (.call clock reading.operation),
        (g.step config (.produce now (.call clock reading.operation))).1)]) (calls ++ more) := by
  obtain ⟨rfl, htold, haccepted⟩ := h
  obtain ⟨exchange, hget, hexchange⟩ := phase?_eq_some.mp hphase
  have hread := htold.read_of_admitting hget hexchange
  have hcalled := htold.called hget hexchange
    (s.gateway.step config (.produce now (.call clock reading.operation))).1
  obtain ⟨hcreated, hsame⟩ := @accepted_call _ config trace s.gateway reading.operation _ _ now
    clock (HttpState.admission_of_read hread)
  simp only [step, hphase]
  rcases hcalled with ⟨outcome, hanswer, hnew, htold⟩ | ⟨hreplayed, htold⟩
  · refine ⟨[(i, reading.accepted outcome)], rfl, htold, ?_⟩
    rw [hcreated outcome hanswer hnew, haccepted, List.map_append]
    rfl
  · refine ⟨[], rfl, by rwa [List.append_nil], ?_⟩
    rw [hsame hreplayed, haccepted, List.append_nil]

/-- A step of the service is a step of its gateway, or none. -/
theorem follows_step (h : Follows http s g trace calls) (input : AdmissionInput) :
    Follows http (s.step config http input).2 g trace calls
      ∨ ∃ call more, Follows http (s.step config http input).2 (g.step config call).2
        (trace ++ [(call, (g.step config call).1)]) (calls ++ more) := by
  -- what the ledger does on the way is one more of its inputs
  have hquiet : ∀ {s' : AdmissionService} {call : GatewayInput},
      Follows http s' (g.step config call).2 (trace ++ [(call, (g.step config call).1)]) calls →
      Follows http s' g trace calls
        ∨ ∃ call more, Follows http s' (g.step config call).2
          (trace ++ [(call, (g.step config call).1)]) (calls ++ more) :=
    fun hmoves => .inr ⟨_, [], by rwa [List.append_nil]⟩
  cases input with
  -- a restart cuts off what is in flight, and then the ledger loads again
  | restart now clock ledger =>
    have hinterrupted : Follows http
        { s with exchanges := s.exchanges.map Exchange.interrupted } g trace calls :=
      follows_proceed h rfl (.interrupted http s.exchanges)
    exact hquiet (follows_transact hinterrupted (by simp))
  | recover now clock => exact hquiet (follows_transact h fun _ _ op hop => by cases hop; rfl)
  | sample now clock => exact hquiet (follows_transact h fun _ _ op hop => by cases hop; rfl)
  | work input => exact hquiet (follows_transact h (by simp))
  | request request => exact .inl (follows_proceed h rfl (.received http _ request))
  -- only a request that waits for the mutex calls the ledger
  | call j now clock =>
    cases hphase : s.phase? j with
    | none =>
      simp only [step, hphase]
      exact .inl h
    | some phase =>
      cases phase with
      | admitting reading => exact .inr ⟨_, follows_call h hphase now clock⟩
      | looking replay | answering response | sent response | lost =>
        simp only [step, hphase]
        exact .inl h
  -- the rest happens outside of it
  | lookUp j available =>
    simp only [step]
    split
    · next replay hphase =>
      exact .inl (follows_proceed h rfl (proceeds_advance http hphase (.looked replay _)))
    · exact .inl h
  | answer j =>
    simp only [step]
    split
    · next response hphase =>
      exact .inl (follows_proceed h rfl (proceeds_advance http hphase (.sent response)))
    · exact .inl h
  | fail j message =>
    simp only [step]
    split_ifs with hwaits
    · obtain ⟨phase, hphase, hwaits⟩ := (Option.any_eq_true _ _).mp hwaits
      exact .inl (follows_proceed h rfl (proceeds_advance http hphase (.failed hwaits message)))
    · exact .inl h
  | lose j =>
    simp only [step]
    split
    · next response hphase =>
      exact .inl (follows_proceed h rfl (proceeds_advance http hphase (.lost rfl)))
    · exact .inl h

end Follows

/-- A service with the calls that its ledger has accepted: it follows a gateway, and that one
retells a run on the in-memory store. -/
def Accepts (http : HttpState) (s : AdmissionService) (calls : List (Nat × AcceptedCall)) : Prop :=
  ∃ g trace inputs, Follows http s g trace calls
    ∧ Gateway.Retold g trace (World.memoryRun inputs).1 (World.memoryRun inputs).2

namespace Accepts

variable {calls : List (Nat × AcceptedCall)}

theorem new (http : HttpState) (ledgerId : String) (limits : CapacityLimits) :
    Accepts http (AdmissionService.new ledgerId limits) [] :=
  ⟨.new ledgerId limits, [], [],
    ⟨rfl, ⟨List.nodup_nil, by simp, by simp [AdmissionService.new]⟩, rfl⟩,
    ⟨⟨.inl ⟨rfl, rfl⟩, rfl, rfl⟩, World.run_invariant [], .nil⟩⟩

/-- A step accepts more calls, or none. -/
theorem step (h : Accepts http s calls) (input : AdmissionInput) :
    ∃ more, Accepts http (s.step config http input).2 (calls ++ more) := by
  obtain ⟨g, trace, inputs, hfollows, hretold⟩ := h
  rcases @follows_step _ config _ _ _ _ _ hfollows input with hstays | ⟨call, more, hmoves⟩
  · exact ⟨[], g, trace, inputs, by rwa [List.append_nil], hretold⟩
  · rcases hretold.step call with hsame | ⟨told, htold⟩
    · exact ⟨more, _, _, inputs, hmoves, hsame⟩
    · refine ⟨more, _, _, inputs ++ [told], hmoves, ?_⟩
      rw [World.memoryRun, World.run, runTrace_concat]
      exact htold

/-- What was accepted stays so. -/
theorem later (h : Accepts http s calls) (inputs : List AdmissionInput) :
    ∃ more, Accepts http (runTrace (AdmissionService.step config http) s inputs).1
      (calls ++ more) := by
  refine runTrace_induction (P := fun (s' : AdmissionService) _ =>
    ∃ more, Accepts http s' (calls ++ more)) ⟨[], by rwa [List.append_nil]⟩ ?_ inputs
  intro s' _ input hlater
  obtain ⟨more, haccepts⟩ := hlater
  obtain ⟨more', hnext⟩ := @step _ config _ _ _ haccepts input
  exact ⟨more ++ more', by rwa [← List.append_assoc]⟩

/-- Every call accepted was told to an exchange. -/
theorem told (h : Accepts http s calls) : Told http s.exchanges calls := by
  obtain ⟨_, _, _, hfollows, -⟩ := h
  exact hfollows.told

/-- The calls are those of a run on the in-memory store. -/
theorem retold (h : Accepts http s calls) :
    ∃ trace inputs, Gateway.Retold s.gateway trace (World.memoryRun inputs).1
        (World.memoryRun inputs).2
      ∧ acceptedOf (Gateway.produced trace) = calls.map Prod.snd := by
  obtain ⟨g, trace, inputs, ⟨rfl, -, haccepted⟩, hretold⟩ := h
  exact ⟨trace, inputs, hretold, haccepted⟩

/-- The ledger holds exactly the records of the calls. -/
theorem located_eq (h : Accepts http s calls) :
    s.gateway.pipeline.store.located
      = calls.flatMap fun call => call.2.records.zip call.2.numbers := by
  obtain ⟨trace, inputs, hretold, haccepted⟩ := h.retold
  rw [hretold.located_eq, haccepted, List.flatMap_map]

/-- The segments that an outcome names have rows, one each. -/
theorem rows (h : Accepts http s calls) {call : Nat × AcceptedCall} (hcall : call ∈ calls) :
    call.2.outcome.sealedSegmentNumbers.Nodup
      ∧ ∀ n ∈ call.2.outcome.sealedSegmentNumbers,
        (segmentStatus s.gateway.pipeline.store n).isSome := by
  obtain ⟨trace, inputs, hretold, haccepted⟩ := h.retold
  have hcall : call.2 ∈ acceptedOf (World.memoryRun inputs).2 := by
    rw [← hretold.retells.accepted, haccepted]
    exact List.mem_map_of_mem hcall
  rcases hretold.mirrors.ledger with ⟨-, hnone⟩ | ⟨state, segments, hagrees, hchained, hstate, -⟩
  · rw [(hretold.invariant.store.of_none hnone).2] at hcall
    cases hcall
  · have hreported := World.run_reported inputs state hstate call.2 hcall
    refine ⟨hreported.nodup, fun n hn => ?_⟩
    -- the number is below the open one, and so that of a row
    have hlt : n.toNat < segments.length := by
      rw [← hchained.nextSegmentNumber, ← UInt64.lt_iff_toNat_lt]
      exact hreported.below n hn
    have hrow := hagrees.sealedSegment n
    rw [List.getElem?_eq_getElem hlt, Option.map_some] at hrow
    obtain ⟨row, hrow, -⟩ := Option.map_eq_some_iff.mp hrow
    have hrow' : s.gateway.pipeline.store.tables.sealedSegment[n]? = some row := hrow
    rw [segmentStatus, hrow']
    rfl

/-- The producer's answer to a request under an accepted key. -/
theorem answer (h : Accepts http s calls) {call : Nat × AcceptedCall} {digest : String}
    {reading : HttpState.Reading} {request : Request} (hcall : call ∈ calls)
    (hrequest : call.2.request = some (reading.key, digest))
    (hread : http.read request = .ok reading) (hproducer : s.gateway.producer.isSome)
    (now : Timestamp) (clock : ClockReadings) :
    s.gateway.step config (.produce now (.call clock reading.operation))
      = (.produced (some (if sha256Hex reading.identified = digest
          then .ok (.admitted { call.2.outcome with sealed := [], replayed := true })
          else .error .idempotencyConflict)), s.gateway) := by
  obtain ⟨trace, inputs, hretold, haccepted⟩ := h.retold
  have hcall : call.2 ∈ acceptedOf (Gateway.produced trace) := by
    rw [haccepted]
    exact List.mem_map_of_mem hcall
  exact hretold.replay hcall hrequest (HttpState.admission_of_read hread) hproducer now clock

end Accepts

/-- The invariant holds after every run. Induction on the run. -/
theorem run_accepts (config : TimestampWorkerConfig) (http : HttpState) (ledgerId : String)
    (limits : CapacityLimits) (inputs : List AdmissionInput) :
    ∃ calls, Accepts http (run config http ledgerId limits inputs).1 calls := by
  obtain ⟨calls, haccepts⟩ := @Accepts.later _ config _ _ _ (.new http ledgerId limits) inputs
  exact ⟨_, haccepts⟩

/-! ## Responses -/

/-- The responses that were sent. -/
def responses (trace : List (AdmissionInput × AdmissionAnswer)) : List (Nat × Response) :=
  trace.filterMap fun
    | (_, .responded i response) => some (i, response)
    | _ => none

omit [Sha256] in
/-- The responses of a longer trace. -/
theorem responses_concat (trace : List (AdmissionInput × AdmissionAnswer))
    (entry : AdmissionInput × AdmissionAnswer) :
    responses (trace ++ [entry]) = responses trace ++ responses [entry] := List.filterMap_append

/-- The responses of a trace are those of the requests that say so, one each. -/
structure Sends (s : AdmissionService) (trace : List (AdmissionInput × AdmissionAnswer)) :
    Prop where
  sent : ∀ i response, (i, response) ∈ responses trace ↔ s.phase? i = some (.sent response)
  once : ((responses trace).map Prod.fst).Nodup

omit [Sha256] in
/-- A request that comes to another phase, and was not answered before or after. -/
theorem sent_advance (h : s.phase? i = some phase) (hphase : ∀ response, phase ≠ .sent response)
    (hphase' : ∀ response, phase' ≠ .sent response) (j : Nat) (response : Response) :
    (s.advance i phase').phase? j = some (.sent response)
      ↔ s.phase? j = some (.sent response) := by
  rw [phase?_advance]
  by_cases heq : i = j
  · subst heq
    rw [if_pos rfl, h, Option.map_some]
    exact iff_of_false (fun hsent => hphase' response (Option.some.inj hsent))
      fun hsent => hphase response (Option.some.inj hsent)
  · rw [if_neg heq]

omit [Sha256] in
/-- A response that is ready is not sent yet. -/
theorem respond_ne_sent (reading : HttpState.Reading) (answer : GatewayAnswer)
    (response : Response) : reading.respond answer ≠ .sent response := by
  unfold HttpState.Reading.respond
  split
  · split_ifs <;> exact fun h => by cases h
  · exact fun h => by cases h
  · exact fun h => by cases h

/-- A step responds to a request that waits, or it responds to none. -/
theorem step_responds (config : TimestampWorkerConfig) (http : HttpState) (s : AdmissionService)
    (input : AdmissionInput) :
    (∃ i response phase, s.phase? i = some phase ∧ phase.waits = true
        ∧ s.step config http input = (.responded i response, s.advance i (.sent response)))
      ∨ ((∀ i response, (s.step config http input).1 ≠ .responded i response)
        ∧ ∀ i response, (s.step config http input).2.phase? i = some (.sent response)
          ↔ s.phase? i = some (.sent response)) := by
  -- an input that sends nothing leaves every sent response
  have hidle : ∀ s' : AdmissionService,
      (∀ i response, s'.phase? i = some (.sent response)
        ↔ s.phase? i = some (.sent response)) →
      (∀ i response, (AdmissionAnswer.idle, s').1 ≠ .responded i response)
        ∧ ∀ i response, (AdmissionAnswer.idle, s').2.phase? i = some (.sent response)
          ↔ s.phase? i = some (.sent response) :=
    fun s' hsame => ⟨fun _ _ h => (by cases h), hsame⟩
  cases input with
  -- a restart cuts off the exchanges that wait, and no sent one
  | restart now clock ledger =>
    refine .inr ⟨fun _ _ h => (by cases h), fun i response => ?_⟩
    show ((s.exchanges.map Exchange.interrupted)[i]?.map Exchange.phase) = _ ↔ _
    rw [List.getElem?_map, phase?]
    cases s.exchanges[i]? with
    | none => rfl
    | some exchange =>
      simp only [Option.map_some, Exchange.interrupted]
      cases hphase : exchange.phase <;> simp [Phase.waits, hphase]
  | recover now clock => exact .inr ⟨fun _ _ h => (by cases h), fun _ _ => Iff.rfl⟩
  | sample now clock => exact .inr ⟨fun _ _ h => (by cases h), fun _ _ => Iff.rfl⟩
  | work input => exact .inr ⟨fun _ _ h => (by cases h), fun _ _ => Iff.rfl⟩
  -- a new exchange has sent nothing
  | request request =>
    refine .inr ⟨fun _ _ h => (by cases h), fun i response => ?_⟩
    show ((s.exchanges ++ [⟨request, http.receive request⟩])[i]?.map Exchange.phase) = _ ↔ _
    have hreceived : http.receive request ≠ .sent response := by
      unfold HttpState.receive
      cases http.read request <;> exact fun h => by cases h
    rcases Nat.lt_trichotomy i s.exchanges.length with hlt | rfl | hgt
    · rw [List.getElem?_append_left hlt]
      rfl
    · rw [List.getElem?_concat_length, phase?, List.getElem?_eq_none (Nat.le_refl _)]
      exact iff_of_false (fun h => hreceived (Option.some.inj h)) fun h => by cases h
    · rw [phase?, List.getElem?_eq_none (by simpa using Nat.succ_le_of_lt hgt),
        List.getElem?_eq_none (Nat.le_of_lt hgt)]
  -- the call leaves a response that is still to be sent
  | call j now clock =>
    simp only [step]
    split
    · next reading hphase =>
      refine .inr (hidle _ fun i response => ?_)
      exact sent_advance (s := { s with gateway :=
        (s.gateway.step config (.produce now (.call clock reading.operation))).2 }) hphase
        (fun _ h => by cases h) (respond_ne_sent reading _) i response
    · exact .inr (hidle s fun _ _ => Iff.rfl)
  | lookUp j available =>
    simp only [step]
    split
    · next replay hphase =>
      exact .inr (hidle _ (sent_advance hphase (fun _ h => by cases h) fun _ h => by cases h))
    · exact .inr (hidle s fun _ _ => Iff.rfl)
  -- the response that is ready is sent
  | answer j =>
    simp only [step]
    split
    · next response hphase => exact .inl ⟨j, response, _, hphase, rfl, rfl⟩
    · exact .inr (hidle s fun _ _ => Iff.rfl)
  -- the task of the exchange failed, and that is answered
  | fail j message =>
    simp only [step]
    split_ifs with hwaits
    · obtain ⟨phase, hphase, hwaits⟩ := (Option.any_eq_true _ _).mp hwaits
      exact .inl ⟨j, _, phase, hphase, hwaits, rfl⟩
    · exact .inr (hidle s fun _ _ => Iff.rfl)
  | lose j =>
    simp only [step]
    split
    · next response hphase =>
      exact .inr (hidle _ (sent_advance hphase (fun _ h => by cases h) fun _ h => by cases h))
    · exact .inr (hidle s fun _ _ => Iff.rfl)

/-- One input keeps the invariant. -/
theorem Sends.step {trace : List (AdmissionInput × AdmissionAnswer)} (h : Sends s trace)
    (input : AdmissionInput) :
    Sends (s.step config http input).2 (trace ++ [(input, (s.step config http input).1)]) := by
  rcases step_responds config http s input with
    ⟨i, response, phase, hphase, hwaits, hstep⟩ | ⟨hnone, hsame⟩
  · have hone : responses [(input, (s.step config http input).1)] = [(i, response)] := by
      rw [hstep]
      rfl
    -- the request was not answered before
    have hnot : ∀ response, (i, response) ∉ responses trace := by
      intro response hmem
      rw [h.sent, hphase] at hmem
      cases hmem
      cases hwaits
    rw [hstep] at hone ⊢
    refine ⟨fun j response' => ?_, ?_⟩
    · rw [responses_concat, hone, List.mem_append, List.mem_singleton, phase?_advance, h.sent]
      by_cases heq : i = j
      · subst heq
        -- the request answered now: its response is this one
        rw [if_pos rfl, hphase, Option.map_some]
        constructor
        · rintro (hsent | hlast)
          · exact absurd ((h.sent i response').mpr (hphase.trans hsent)) (hnot response')
          · cases hlast
            rfl
        · rintro heq
          cases heq
          exact .inr rfl
      · rw [if_neg heq]
        exact or_iff_left fun hlast => heq (congrArg Prod.fst hlast).symm
    -- no request is answered twice
    · rw [responses_concat, hone, List.map_append, List.nodup_append]
      refine ⟨h.once, by simp, ?_⟩
      rintro j hj _ hlast rfl
      obtain ⟨⟨_, response'⟩, hmem, rfl⟩ := List.mem_map.mp hj
      rw [List.map_singleton, List.mem_singleton] at hlast
      dsimp only at hlast
      rw [hlast] at hmem
      exact hnot response' hmem
  -- nothing is answered by this step
  · have hempty : responses [(input, (s.step config http input).1)] = [] := by
      cases hanswer : (s.step config http input).1 with
      | responded i response => exact absurd hanswer (hnone i response)
      | transacted answer => rfl
      | received i => rfl
      | idle => rfl
    refine ⟨fun i response => ?_, ?_⟩
    · rw [responses_concat, hempty, List.append_nil, h.sent, hsame]
    · rw [responses_concat, hempty, List.append_nil]
      exact h.once

/-- The invariant holds after every run. Induction on the run. -/
theorem run_sends (config : TimestampWorkerConfig) (http : HttpState) (ledgerId : String)
    (limits : CapacityLimits) (inputs : List AdmissionInput) :
    Sends (run config http ledgerId limits inputs).1
      (run config http ledgerId limits inputs).2 := by
  refine runTrace_induction (P := fun s trace => Sends s trace) ⟨fun i response => ?_, ?_⟩
    (fun s trace input h => h.step input) inputs
  · simp [responses, phase?, new]
  · simp [responses]

/-- Over HTTP every record is admitted once. In every run of the service, whatever requests come in,
again and at the same time, whatever is restarted, sampled and stamped in between, and whichever
responses are late or lost:

* the ledger holds exactly the records of the accepted calls, in the order of their commits, each in
  the segment of its outcome;
* each call is that of one request; the response that says so waits, was sent, or was lost with its
  task, its connection or the process; no other request is told that it was accepted;
* a request is answered at most once, and what was answered is what it says;
* the calls have one key each, and canonical records only. -/
theorem run_created (config : TimestampWorkerConfig) (http : HttpState) (ledgerId : String)
    (limits : CapacityLimits) (inputs : List AdmissionInput) :
    let s := (run config http ledgerId limits inputs).1
    ∃ calls : List (Nat × AcceptedCall),
      s.gateway.pipeline.store.located
          = calls.flatMap (fun call => call.2.records.zip call.2.numbers)
        ∧ Told http s.exchanges calls
        ∧ Sends s (run config http ledgerId limits inputs).2
        ∧ (calls.filterMap fun call => call.2.key?).Nodup ∧ (∀ call ∈ calls, call.2.key?.isSome)
        ∧ ∀ call ∈ calls, call.2.numbers.length = call.2.records.length
          ∧ ∀ record ∈ call.2.records, ∃ m, validateCanonicalRecord record = .ok m := by
  intro s
  obtain ⟨calls, haccepts⟩ := run_accepts config http ledgerId limits inputs
  obtain ⟨trace, inputs', hretold, haccepted⟩ := haccepts.retold
  have hmemory : acceptedOf (World.memoryRun inputs').2 = calls.map Prod.snd :=
    hretold.retells.accepted.symm.trans haccepted
  have hcall : ∀ call ∈ calls, call.2 ∈ acceptedOf (World.memoryRun inputs').2 := by
    intro call hcall
    rw [hmemory]
    exact List.mem_map_of_mem hcall
  refine ⟨calls, haccepts.located_eq, haccepts.told,
    run_sends config http ledgerId limits inputs, ?_, haccepts.told.keyed, fun call hmem => ?_⟩
  · have hnodup := hretold.invariant.store.nodup_keys
    rw [hmemory, List.filterMap_map] at hnodup
    exact hnodup
  · exact ⟨hretold.invariant.store.reported call.2 (hcall call hmem),
      (World.run_sourced inputs').canonical call.2 (hcall call hmem)⟩

end AdmissionService

end Http

end TrackOne
