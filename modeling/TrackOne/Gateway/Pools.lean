import TrackOne.Gateway.Workers

/-!
# The threads of the timestamp workers

`TimestampWorkers::start` of `timestamp_worker.rs` runs some threads with one flag that stops them.
Each one connects, claims a segment, submits its artifact to the timestamp authority and finishes
the claim; a response that could not be stored is kept until there is a connection again. In between
anything may happen: segments are sealed, other threads take their turns, pools are started and
stopped, threads are lost, and a transaction may be committed though its worker is told that it
failed.

* `WorkerPoint.turn` is the loop of a thread, cut where it waits for the database, for the authority
  or for the flag, and `Turned` says what a turn can do.
* `WorkerPools.step` runs any number of pools beside the producer.
-/

namespace TrackOne

/-! ## Turns of a worker -/

/-- How a transaction ends: committed and reported, rolled back, or committed without a report. -/
inductive Delivery where
  | reported
  | failed
  | lost
deriving DecidableEq

/-- What a worker meets in its turn: whether it gets a connection, what its transaction reads and
how that ends, and what the timestamp authority would answer. -/
structure Turn where
  connects : Bool
  now : Timestamp
  locked : UInt64 → Bool
  delivery : Delivery
  submit : Bytes → Except ProducerError Bytes

/-- A claim with the result of its submission. -/
structure Completion where
  claim : TimestampClaim
  result : Except String Bytes

def submitClaim [Sha256] (submit : Bytes → Except ProducerError Bytes) (claim : TimestampClaim) :
    Except String Bytes :=
  if sha256Hex claim.artifactCbor ≠ claim.artifactSha256 then
    .error "stored artifact does not match its SHA-256 digest"
  else (submit claim.artifactCbor).mapError ProducerError.toString

/-- Where a thread waits: at the head of the loop, with its store at hand, about to claim, for the
authority, or about to finish. -/
inductive WorkerPoint where
  | looping (store : Bool) (pending : Option Completion)
  | connected (pending : Option Completion)
  | claiming
  | submitting (claim : TimestampClaim)
  | finishing (completion : Completion)
  | ended
  | panicked

/-- What a turn has done that others can see. A finish has the answer that the worker was told. -/
inductive WorkerEvent where
  | quiet
  | claimed (claim : Option TimestampClaim) (delivery : Delivery)
  | submitted (completion : Completion)
  | finished (completion : Completion) (answer : Option Bool)

namespace WorkerPoint

/-- `finish_timestamp` in the loop: a result that could not be stored is kept. -/
def finish (config : TimestampWorkerConfig) (p : Pipeline) (turn : Turn) (completion : Completion) :
    WorkerEvent × WorkerPoint × Pipeline :=
  let (answer, after) := p.finishTimestamp turn.now completion.claim completion.result config
  match turn.delivery, answer with
  | .reported, .ok done => (.finished completion (some done), .looping true none, after)
  | .failed, _ => (.finished completion none, .looping false (some completion), p)
  | _, _ => (.finished completion none, .looping false (some completion), after)

/-- The loop of a thread, from one point to the next one. -/
def turn [Sha256] (config : TimestampWorkerConfig) (stopped : Bool) (p : Pipeline) (turn : Turn) :
    WorkerPoint → WorkerEvent × WorkerPoint × Pipeline
  | .looping store pending =>
    if stopped then (.quiet, .ended, p)
    else if store || turn.connects then (.quiet, .connected pending, p)
    else (.quiet, .looping false pending, p)
  | .connected (some completion) => finish config p turn completion
  | .connected none => if stopped then (.quiet, .ended, p) else (.quiet, .claiming, p)
  | .claiming =>
    let (claim, after) := p.claimTimestamp turn.now turn.locked config.maxAttempts
    match turn.delivery with
    | .reported => (.claimed claim .reported, claim.elim (.looping true none) .submitting, after)
    | .failed => (.quiet, .looping false none, p)
    | .lost => (.claimed claim .lost, .looping false none, after)
  | .submitting claim =>
    let completion := ⟨claim, submitClaim turn.submit claim⟩
    (.submitted completion, .finishing completion, p)
  | .finishing completion => finish config p turn completion
  | .ended => (.quiet, .ended, p)
  | .panicked => (.quiet, .panicked, p)

/-- The claim that a thread is about to submit. -/
def claim? : WorkerPoint → Option TimestampClaim
  | .submitting claim => some claim
  | _ => none

/-- The result that a thread has in hand. -/
def completion? : WorkerPoint → Option Completion
  | .looping _ pending => pending
  | .connected pending => pending
  | .finishing completion => some completion
  | _ => none

/-- A thread that does nothing any more. -/
def isOver : WorkerPoint → Bool
  | .ended => true
  | .panicked => true
  | _ => false

/-- What a turn can do, with the flag as it is. -/
inductive Turned [Sha256] (config : TimestampWorkerConfig) (p : Pipeline) (turn : Turn) :
    WorkerPoint → WorkerEvent → WorkerPoint → Pipeline → Prop where
  | quiet {point point' : WorkerPoint} (hclaim : point.claim? = none)
    (hclaim' : point'.claim? = none)
      (hkept : point'.completion? = point.completion? ∨ point' = .ended)
      (hover : point.isOver = true → point'.isOver = true) :
      Turned config p turn point .quiet point' p
  | claimed {claim : TimestampClaim} {after : Pipeline}
      (h : p.claimTimestamp turn.now turn.locked config.maxAttempts = (some claim, after)) :
      Turned config p turn .claiming (.claimed (some claim) .reported) (.submitting claim) after
  | unclaimed {claim : Option TimestampClaim} {delivery : Delivery} {store : Bool}
    {after : Pipeline}
      (h : p.claimTimestamp turn.now turn.locked config.maxAttempts = (claim, after))
      (hlost : claim = none ∨ delivery ≠ .reported) :
      Turned config p turn .claiming (.claimed claim delivery) (.looping store none) after
  | submitted (claim : TimestampClaim) :
      Turned config p turn (.submitting claim) (.submitted ⟨claim, submitClaim turn.submit claim⟩)
        (.finishing ⟨claim, submitClaim turn.submit claim⟩) p
  | finished {point : WorkerPoint} {completion : Completion} {done : Bool} {after : Pipeline}
      (hheld : point.completion? = some completion)
      (h : p.finishTimestamp turn.now completion.claim completion.result config
        = (.ok done, after)) :
      Turned config p turn point (.finished completion (some done)) (.looping true none) after
  | retained {point : WorkerPoint} {completion : Completion} {after : Pipeline}
      (hheld : point.completion? = some completion)
      (h : after = p ∨ after
        = (p.finishTimestamp turn.now completion.claim completion.result config).2) :
      Turned config p turn point (.finished completion none)
        (.looping false (some completion)) after

variable [Sha256]

theorem finish_turned (config : TimestampWorkerConfig) (p : Pipeline) (turn : Turn)
    {completion : Completion} {point : WorkerPoint} (hheld : point.completion? = some completion) :
    Turned config p turn point (finish config p turn completion).1
      (finish config p turn completion).2.1 (finish config p turn completion).2.2 := by
  unfold finish
  cases hfinish : p.finishTimestamp turn.now completion.claim completion.result config with
  | mk answer after =>
    have hafter : after
        = (p.finishTimestamp turn.now completion.claim completion.result config).2 := by
      rw [hfinish]
    cases turn.delivery with
    | reported =>
      cases answer with
      | ok done => exact .finished hheld hfinish
      | error error => exact .retained hheld (.inr hafter)
    | failed => exact .retained hheld (.inl rfl)
    | lost => exact .retained hheld (.inr hafter)

theorem turn_turned (config : TimestampWorkerConfig) (stopped : Bool) (p : Pipeline) (turn : Turn)
    (point : WorkerPoint) :
    Turned config p turn point (point.turn config stopped p turn).1
      (point.turn config stopped p turn).2.1 (point.turn config stopped p turn).2.2 := by
  cases point with
  | looping store pending =>
    unfold WorkerPoint.turn
    dsimp only
    -- a stopped pool ends the thread, before and after its connection
    by_cases hstopped : stopped = true
    · rw [if_pos hstopped]
      exact .quiet rfl rfl (.inr rfl) (by intro h; cases h)
    · rw [if_neg hstopped]
      by_cases hstore : (store || turn.connects) = true
      · rw [if_pos hstore]
        exact .quiet rfl rfl (.inl rfl) (by intro h; cases h)
      · rw [if_neg hstore]
        exact .quiet rfl rfl (.inl rfl) (by intro h; cases h)
  | connected pending =>
    cases pending with
    | some completion => exact finish_turned config p turn rfl
    | none =>
      unfold WorkerPoint.turn
      dsimp only
      by_cases hstopped : stopped = true
      · rw [if_pos hstopped]
        exact .quiet rfl rfl (.inr rfl) (by intro h; cases h)
      · rw [if_neg hstopped]
        exact .quiet rfl rfl (.inl rfl) (by intro h; cases h)
  | claiming =>
    unfold WorkerPoint.turn
    -- what the claim is depends on whether its commit was reported
    cases hclaim : p.claimTimestamp turn.now turn.locked config.maxAttempts with
    | mk claim after =>
      cases hdelivery : turn.delivery with
      | reported =>
        cases claim with
        | none => exact .unclaimed hclaim (.inl rfl)
        | some claim => exact .claimed hclaim
      | failed => exact .quiet rfl rfl (.inl rfl) (by intro h; cases h)
      | lost => exact .unclaimed hclaim (.inr (by simp))
  | submitting claim => exact .submitted claim
  | finishing completion => exact finish_turned config p turn rfl
  | ended => exact .quiet rfl rfl (.inl rfl) id
  | panicked => exact .quiet rfl rfl (.inl rfl) id

end WorkerPoint

/-! ## Pools -/

/-- The gateway with the threads that were ever started, each with the number of its pool, and the
flags of the pools. -/
structure WorkerPools where
  gateway : Gateway
  stopped : List Bool
  workers : List (Nat × WorkerPoint)

inductive PoolInput where
  | produce (now : Timestamp) (input : Input)
  | start
  | stopClaiming (pool : Nat)
  | panicked (worker : Nat)
  | turn (worker : Nat) (turn : Turn)

inductive PoolAnswer where
  | produced (answer : GatewayAnswer)
  | started (result : Except ProducerError Unit)
  | turned (event : WorkerEvent)
  | idle

namespace WorkerPools

def new (ledgerId : String) (limits : CapacityLimits) : WorkerPools :=
  ⟨.new ledgerId limits, [], []⟩

/-- The flag of a pool. -/
def isStopped (s : WorkerPools) (pool : Nat) : Bool := s.stopped.getD pool true

/-- `TimestampWorkers::start`. -/
def start (config : TimestampWorkerConfig) (s : WorkerPools) : PoolAnswer × WorkerPools :=
  match config.validate with
  | .error error => (.started (.error error), s)
  | .ok () => (.started (.ok ()), { s with
      stopped := s.stopped ++ [false]
      workers := s.workers
        ++ List.replicate config.concurrency (s.stopped.length, .looping false none) })

variable [Sha256]

def step (config : TimestampWorkerConfig) (s : WorkerPools) : PoolInput → PoolAnswer × WorkerPools
  | .produce now input =>
    let (answer, gateway) := s.gateway.step config (.produce now input)
    (.produced answer, { s with gateway })
  | .start => s.start config
  | .stopClaiming pool => (.idle, { s with stopped := s.stopped.set pool true })
  | .panicked i =>
    (.idle, { s with workers := s.workers.modify i fun worker => (worker.1, .panicked) })
  | .turn i turn =>
    match s.workers[i]? with
    | none => (.idle, s)
    | some (pool, point) =>
      let (event, point, pipeline) :=
        point.turn config (s.isStopped pool) s.gateway.pipeline turn
      (.turned event,
        { s with gateway := { s.gateway with pipeline }, workers := s.workers.set i (pool, point) })

/-- Any number of inputs, on a ledger without rows and without workers. -/
def run (config : TimestampWorkerConfig) (ledgerId : String) (limits : CapacityLimits)
    (inputs : List PoolInput) : WorkerPools × List (PoolInput × PoolAnswer) :=
  runTrace (step config) (new ledgerId limits) inputs

end WorkerPools

end TrackOne
