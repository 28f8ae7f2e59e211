import TrackOne.Lib.Fencing
import TrackOne.Gateway.Pools

/-!
# What the threads submit and store

The attempt count of a row hands out the claims of its segment, and submitting a claim uses it: this
is `Fenced` of `Lib.Fencing`, with the threads as the holders. The rest is where things come from: a
result in hand from a submission, a verified row from a result, a failed row from its last attempt.

* `Pipeline.Carries`: rows stay with their artifacts, and a claim that was overtaken stays so.
* `Pipeline.finishTimestamp_finishes` and `Pipeline.row?_claimTimestamp` say what a worker's
  transaction does to a row.
* `WorkerPools.Stamping` is the invariant. `Stamping.next` keeps it when nothing is claimed or
  submitted, `Stamping.claimed` and `Stamping.submit` when something is.
* `WorkerPools.run_stamped` puts it together for every run.
-/

namespace TrackOne

/-! ## Rows under a transaction -/

/-- No step of the queue changes the artifact of a segment. -/
theorem RowStep.artifact {config : TimestampWorkerConfig} {row row' : QueueRow}
    (h : RowStep config row row') : row'.segment.artifact = row.segment.artifact := by
  cases h <;> rfl

/-- The pair that fences a claim. -/
def TimestampClaim.token (claim : TimestampClaim) : UInt64 × Int :=
  (claim.segmentNumber, claim.attempt)

/-- A later claim or a final status has overtaken a claim. -/
def Settled (row : QueueRow) (claim : TimestampClaim) : Prop :=
  row.segment.tsaStatus ≠ .queued ∨ claim.attempt < row.job.attemptCount

/-- A settled claim stays settled: a row with a verified or a failed timestamp keeps it. -/
theorem Settled.later {row row' : QueueRow} {claim : TimestampClaim} (h : Settled row claim)
    (hcontinues : Continues row row') : Settled row' claim := by
  rcases h with hstatus | hattempt
  · rw [hcontinues.settled hstatus]
    exact .inl hstatus
  · exact .inr (hattempt.trans_le hcontinues.attempts)

namespace Pipeline

variable {config : TimestampWorkerConfig} {p p' : Pipeline} {n : UInt64} {now : Timestamp}
  {locked : UInt64 → Bool} {claim : TimestampClaim}

/-- The attempts of a segment. -/
def attempts (p : Pipeline) (n : UInt64) : Int :=
  ((p.row? n).map fun row => row.job.attemptCount).getD 0

/-- The claim is one of its row. -/
def OfRow (p : Pipeline) (claim : TimestampClaim) : Prop :=
  ∃ row, p.row? claim.segmentNumber = some row ∧ claim.artifactCbor = row.segment.artifactCbor
    ∧ claim.artifactSha256 = row.segment.artifactSha256

/-- Rows stay with their artifacts, and go on. -/
def Carries (p p' : Pipeline) : Prop :=
  ∀ n row, p.row? n = some row → ∃ row', p'.row? n = some row'
    ∧ row'.segment.artifact = row.segment.artifact ∧ Continues row row'

/-- Nothing is lost where nothing happens. -/
theorem Carries.refl (p : Pipeline) : Carries p p := fun _ row hrow => ⟨row, hrow, rfl, .refl row⟩

/-- One step of the pipeline loses no row, no attempt and no settled claim. -/
theorem carries_step (config : TimestampWorkerConfig) (p : Pipeline) (input : PipelineInput) :
    Carries p (p.step config input).2 := by
  intro n row hrow
  obtain ⟨row', hrow', hstep⟩ := p.step_row config input hrow
  exact ⟨row', hrow', hstep.step.artifact, hstep.step.continues⟩

/-- A claim of a row stays one. -/
theorem Carries.ofRow (h : Carries p p') (hclaim : p.OfRow claim) : p'.OfRow claim := by
  obtain ⟨row, hrow, hcbor, hsha⟩ := hclaim
  obtain ⟨row', hrow', hartifact, -⟩ := h _ _ hrow
  simp only [SegmentRow.artifact, Prod.mk.injEq] at hartifact
  exact ⟨row', hrow', hcbor.trans hartifact.2.1.symm, hsha.trans hartifact.2.2.symm⟩

/-- A settled claim stays settled. -/
theorem Carries.settled (h : Carries p p')
    (hsettled : ∃ row, p.row? n = some row ∧ Settled row claim) :
    ∃ row, p'.row? n = some row ∧ Settled row claim := by
  obtain ⟨row, hrow, hclaim⟩ := hsettled
  obtain ⟨row', hrow', -, hcontinues⟩ := h _ _ hrow
  exact ⟨row', hrow', hclaim.later hcontinues⟩

/-- No row counts fewer attempts than none. -/
theorem attempts_nonneg (h : Queued config p) (n : UInt64) : 0 ≤ p.attempts n := by
  unfold attempts
  cases hrow : p.row? n with
  | none => exact Int.le_refl 0
  | some row =>
    obtain ⟨row', hrow', hinvariant⟩ := h n row.segment (row?_eq_some.mp hrow).1
    obtain rfl := Option.some.inj (hrow.symm.trans hrow')
    exact hinvariant.attempts.1

/-- The attempts of a row only grow. -/
theorem Carries.attempts_le (h : Carries p p') (hqueued : Queued config p') (n : UInt64) :
    p.attempts n ≤ p'.attempts n := by
  cases hrow : p.row? n with
  | none =>
    have hzero : p.attempts n = 0 := by rw [attempts, hrow]; rfl
    rw [hzero]
    exact attempts_nonneg hqueued n
  | some row =>
    obtain ⟨row', hrow', -, hcontinues⟩ := h n row hrow
    rw [attempts, attempts, hrow, hrow']
    exact hcontinues.attempts

/-- A claim is the next token of its segment. -/
theorem attempts_claimTimestamp
    (h : p.claimTimestamp now locked config.maxAttempts = (some claim, p')) :
    p'.attempts claim.segmentNumber = claim.attempt
      ∧ claim.attempt = p.attempts claim.segmentNumber + 1 := by
  have hstep : p.step config (.claimTimestamp now locked) = (.claimed (some claim), p') := by
    simp only [step, h]
  have hclaimed : claimOf claim.segmentNumber (.claimed (some claim)) = some claim := by
    simp [claimOf]
  cases hrow : p.row? claim.segmentNumber with
  | none =>
    have habsent := (p.step_absent config (.claimTimestamp now locked) hrow).1
    rw [hstep, hclaimed] at habsent
    cases habsent
  | some row =>
    obtain ⟨row', hrow', hsteps⟩ := p.step_row config (.claimTimestamp now locked) hrow
    rw [hstep] at hrow' hsteps
    obtain ⟨hattempt, hcount⟩ := hsteps.claimed claim hclaimed
    rw [attempts, attempts, hrow, hrow']
    exact ⟨hcount, hattempt⟩

/-- A claim is of the row that was claimed. -/
theorem ofRow_claimTimestamp {maxAttempts : UInt32}
    (h : p.claimTimestamp now locked maxAttempts = (some claim, p')) : p'.OfRow claim := by
  unfold claimTimestamp at h
  dsimp only at h
  rw [show ((p.select locked fun row => row.exhausted maxAttempts now).take 100).foldl
    (fun p entry => p.update entry.1 entry.2.fail) p = p.swept now locked maxAttempts from rfl] at h
  cases hhead : ((p.swept now locked maxAttempts).select locked
      fun row => row.due maxAttempts now).head? with
  | none =>
    rw [hhead] at h
    cases h
  | some entry =>
    obtain ⟨hrow, -, -⟩ := mem_select.mp (List.mem_of_head? hhead)
    rw [hhead] at h
    cases h
    exact ⟨entry.2.claim now, by rw [row?_update hrow, if_pos rfl], rfl, rfl⟩

/-- A row after a claim: as it was, failed because no attempts were left, or claimed. -/
theorem row?_claimTimestamp {maxAttempts : UInt32} {row' : QueueRow}
    (h : (p.claimTimestamp now locked maxAttempts).2.row? n = some row') :
    ∃ row, p.row? n = some row ∧ (row' = row
      ∨ row' = row.fail ∧ (maxAttempts.toNat : Int) ≤ row.job.attemptCount
      ∨ row' = row.claim now ∧ row.segment.tsaStatus = .queued) := by
  have hswept : (p.swept now locked maxAttempts).row? n = some row' →
      ∃ row, p.row? n = some row ∧ (row' = row
        ∨ row' = row.fail ∧ (maxAttempts.toNat : Int) ≤ row.job.attemptCount) := by
    intro hrow'
    rcases p.row?_swept now locked maxAttempts n with hsame | ⟨row, hrow, -, hlast, hfail⟩
    · exact ⟨row', hsame.symm.trans hrow', .inl rfl⟩
    · rw [hfail] at hrow'
      cases hrow'
      exact ⟨row, hrow, .inr ⟨rfl, hlast⟩⟩
  rcases p.claimTimestamp_eq now locked maxAttempts with hidle |
    ⟨number, target, claim, htarget, hqueued, -, -, -, hclaim⟩
  · rw [hidle] at h
    obtain ⟨row, hrow, hcases⟩ := hswept h
    exact ⟨row, hrow, hcases.imp_right .inl⟩
  · rw [hclaim] at h
    dsimp only at h
    rw [row?_update htarget] at h
    split_ifs at h with heq
    · cases h
      rcases p.row?_swept now locked maxAttempts number with hsame | ⟨row, -, -, -, hfail⟩
      · exact ⟨target, by rw [← heq, ← hsame, htarget], .inr (.inr ⟨rfl, hqueued⟩)⟩
      · rw [htarget] at hfail
        cases hfail
        cases hqueued
    · obtain ⟨row, hrow, hcases⟩ := hswept h
      exact ⟨row, hrow, hcases.imp_right .inl⟩

/-- What a finish can do. -/
inductive Finishes (config : TimestampWorkerConfig) (p : Pipeline) (now : Timestamp)
    (claim : TimestampClaim) (result : Except String Bytes) :
    Except ProducerError Bool → Pipeline → Prop where
  | refused (error : ProducerError) : Finishes config p now claim result (.error error) p
  | settled {row : QueueRow} (done : Bool) (hrow : p.row? claim.segmentNumber = some row)
      (hsettled : row.segment.tsaStatus ≠ .queued ∨ claim.attempt ≠ row.job.attemptCount) :
      Finishes config p now claim result (.ok done) p
  | attached {row : QueueRow} {response : Bytes} (hrow : p.row? claim.segmentNumber = some row)
      (hresult : result = .ok response) :
      Finishes config p now claim result (.ok true)
        (p.update claim.segmentNumber (row.attach response))
  | failed {row : QueueRow} {error : String} (hrow : p.row? claim.segmentNumber = some row)
      (hresult : result = .error error) :
      Finishes config p now claim result (.ok true)
        (p.update claim.segmentNumber (row.finishFailed config error now))

/-- The call that finishes a claim finishes it. -/
theorem finishTimestamp_finishes (config : TimestampWorkerConfig) (p : Pipeline) (now : Timestamp)
    (claim : TimestampClaim) (result : Except String Bytes) :
    Finishes config p now claim result (p.finishTimestamp now claim result config).1
      (p.finishTimestamp now claim result config).2 := by
  unfold finishTimestamp finishTimestampTarget
  cases hrow : p.row? claim.segmentNumber with
  | none => exact .refused _
  | some row =>
    dsimp only
    split_ifs with hdigest hverified hguard
    · exact .refused _
    · exact .settled true hrow (.inl (by rw [hverified]; decide))
    · refine .settled false hrow ?_
      rcases hguard with hstatus | hgeneration | ⟨hnone, -⟩
      · exact .inl hstatus
      · exact .inr (by simpa using hgeneration)
      · simp at hnone
    · cases result with
      | ok response =>
        dsimp only
        split_ifs
        · exact .refused _
        · exact .attached hrow rfl
      | error error => exact .failed hrow rfl

end Pipeline

/-- Where the status of a row comes from. -/
structure StatusFrom (config : TimestampWorkerConfig) (submitted : List Completion) (n : UInt64)
    (row : QueueRow) : Prop where
  verified : row.segment.tsaStatus = .verified → ∃ completion ∈ submitted,
    completion.claim.segmentNumber = n
      ∧ ∃ response, completion.result = .ok response ∧ row.segment.tsaResponse = some response
  failed : row.segment.tsaStatus = .failed → (config.maxAttempts.toNat : Int) ≤ row.job.attemptCount

namespace StatusFrom

variable {config : TimestampWorkerConfig} {submitted submitted' : List Completion} {n : UInt64}
  {row : QueueRow}

/-- More submissions account for no less. -/
theorem mono (h : StatusFrom config submitted n row) (hmore : submitted ⊆ submitted') :
    StatusFrom config submitted' n row where
  verified hstatus := by
    obtain ⟨completion, hcompletion, hrest⟩ := h.verified hstatus
    exact ⟨completion, hmore hcompletion, hrest⟩
  failed := h.failed

/-- A row that was just inserted has no response to account for. -/
theorem inserted (config : TimestampWorkerConfig) (submitted : List Completion) (n : UInt64)
    (segment : SealedSegment) (now : Timestamp) :
    StatusFrom config submitted n ⟨Tables.segmentRow segment, .inserted now⟩ where
  verified hstatus := by cases hstatus
  failed hstatus := by cases hstatus

/-- A claim changes no response: every row is still accounted for. -/
theorem claimTimestamp {p : Pipeline} {now : Timestamp} {locked : UInt64 → Bool} {row' : QueueRow}
    (h : ∀ n row, p.row? n = some row → StatusFrom config submitted n row)
    (hrow' : (p.claimTimestamp now locked config.maxAttempts).2.row? n = some row') :
    StatusFrom config submitted n row' := by
  obtain ⟨row, hrow, rfl | ⟨rfl, hlast⟩ | ⟨rfl, hqueued⟩⟩ := Pipeline.row?_claimTimestamp hrow'
  · exact h n row' hrow
  · exact ⟨fun hstatus => (by cases hstatus), fun _ => hlast⟩
  · refine ⟨fun hstatus => ?_, fun hstatus => ?_⟩
    · exact absurd (hqueued.symm.trans hstatus) (by decide)
    · exact absurd (hqueued.symm.trans hstatus) (by decide)

/-- A finished claim puts a response into a row only when it was submitted. -/
theorem finishTimestamp {p after : Pipeline} {now : Timestamp} {completion : Completion}
    {answer : Except ProducerError Bool} {row' : QueueRow}
    (h : ∀ n row, p.row? n = some row → StatusFrom config submitted n row)
    (hsubmitted : completion ∈ submitted)
    (hfinishes : Pipeline.Finishes config p now completion.claim completion.result answer after)
    (hrow' : after.row? n = some row') : StatusFrom config submitted n row' := by
  cases hfinishes with
  | refused error => exact h n row' hrow'
  | settled done hrow hsettled => exact h n row' hrow'
  | attached hrow hresult =>
    rw [Pipeline.row?_update hrow] at hrow'
    split_ifs at hrow' with heq
    · cases hrow'
      exact ⟨fun _ => ⟨completion, hsubmitted, heq, _, hresult, rfl⟩,
        fun hstatus => (by cases hstatus)⟩
    · exact h n row' hrow'
  | @failed row error hrow hresult =>
    rw [Pipeline.row?_update hrow] at hrow'
    split_ifs at hrow' with heq
    · cases hrow'
      unfold QueueRow.finishFailed
      split_ifs with hlast
      · exact ⟨fun hstatus => (by cases hstatus), fun _ => hlast⟩
      · exact ⟨fun hstatus => (by cases hstatus), fun hstatus => (by cases hstatus)⟩
    · exact h n row' hrow'

end StatusFrom

/-! ## Submissions -/

/-- What an entry of a trace submits. -/
def submissionOf : PoolInput × PoolAnswer → Option Completion
  | (.turn _ _, .turned (.submitted completion)) => some completion
  | _ => none

/-- The submissions to the authority, with their results. -/
def submissions (trace : List (PoolInput × PoolAnswer)) : List Completion :=
  trace.filterMap submissionOf

/-- The submissions of a longer trace. -/
theorem submissions_concat (trace : List (PoolInput × PoolAnswer))
    (entry : PoolInput × PoolAnswer) :
    submissions (trace ++ [entry]) = submissions trace ++ (submissionOf entry).toList := by
  unfold submissions
  rw [List.filterMap_append]
  cases hentry : submissionOf entry <;> simp [hentry]

/-- A submission of a longer trace, whose last entry is none, is one of the trace. -/
theorem mem_trace_of_concat {trace : List (PoolInput × PoolAnswer)} {entry : PoolInput × PoolAnswer}
    (hentry : submissionOf entry = none) {i : Nat} {turn : Turn} {completion : Completion}
    (hmem : (.turn i turn, .turned (.submitted completion)) ∈ trace ++ [entry]) :
    (.turn i turn, .turned (.submitted completion)) ∈ trace := by
  rcases List.mem_append.mp hmem with hold | hlast
  · exact hold
  · rw [← List.mem_singleton.mp hlast] at hentry
    cases hentry

/-- A submission is the answer to some turn of a worker. -/
theorem mem_submissions {trace : List (PoolInput × PoolAnswer)} {completion : Completion} :
    completion ∈ submissions trace
      ↔ ∃ i turn, (.turn i turn, .turned (.submitted completion)) ∈ trace := by
  unfold submissions
  rw [List.mem_filterMap]
  constructor
  · rintro ⟨⟨input, answer⟩, hentry, hsubmission⟩
    unfold submissionOf at hsubmission
    split at hsubmission
    · next i turn other heq =>
      cases hsubmission
      cases heq
      exact ⟨i, turn, hentry⟩
    · cases hsubmission
  · rintro ⟨i, turn, hentry⟩
    exact ⟨_, hentry, rfl⟩

namespace WorkerPools

variable {s s' : WorkerPools}

/-- The claim that a thread is about to submit. -/
def claimAt (s : WorkerPools) (i : Nat) : Option TimestampClaim :=
  s.workers[i]?.bind fun worker => worker.2.claim?

/-- The result that a thread has in hand. -/
def completionAt (s : WorkerPools) (i : Nat) : Option Completion :=
  s.workers[i]?.bind fun worker => worker.2.completion?

def overAt (s : WorkerPools) (i : Nat) : Bool := s.workers[i]?.any fun worker => worker.2.isOver

/-- The tokens that the threads may use. -/
def held (s : WorkerPools) (i : Nat) : Option (UInt64 × Int) :=
  (s.claimAt i).map TimestampClaim.token

/-- A response is not lost: its segment is settled, or another claim has overtaken it. -/
def Stored (s : WorkerPools) (completion : Completion) : Prop :=
  ∀ response, completion.result = .ok response →
    ∃ row, s.gateway.pipeline.row? completion.claim.segmentNumber = some row
      ∧ Settled row completion.claim

/-- Until it is stored, a thread has the response in hand, unless it has come to its end. -/
def Keeps (s : WorkerPools) (i : Nat) (completion : Completion) : Prop :=
  s.overAt i = true ∨ s.completionAt i = some completion ∨ s.Stored completion

/-- The threads, the rows and the submissions fit together. -/
structure Stamping [Sha256] (config : TimestampWorkerConfig) (s : WorkerPools)
    (trace : List (PoolInput × PoolAnswer)) : Prop where
  gateway : GatewayInvariant config (fun _ _ => True) s.gateway
  fenced : Fenced s.gateway.pipeline.attempts s.held
    ((submissions trace).map fun completion => completion.claim.token)
  inFlight : ∀ i claim, s.claimAt i = some claim → s.gateway.pipeline.OfRow claim
  submitted : ∀ completion ∈ submissions trace, s.gateway.pipeline.OfRow completion.claim
  inHand : ∀ i completion, s.completionAt i = some completion → completion ∈ submissions trace
  sourced : ∀ n row, s.gateway.pipeline.row? n = some row →
    StatusFrom config (submissions trace) n row
  asked : ∀ i turn completion, (.turn i turn, .turned (.submitted completion)) ∈ trace →
    completion.result = submitClaim turn.submit completion.claim
  kept : ∀ i turn completion, (.turn i turn, .turned (.submitted completion)) ∈ trace →
    s.Keeps i completion

/-- The pipeline after a transaction of a worker, or after none. -/
def Worked (config : TimestampWorkerConfig) (p p' : Pipeline) : Prop :=
  p' = p ∨ ∃ input : WorkerInput, p' = (p.step config input.transaction).2

variable [Sha256] {config : TimestampWorkerConfig} {trace : List (PoolInput × PoolAnswer)}

omit [Sha256] in
/-- The work of a worker loses nothing. -/
theorem Worked.carries {p p' : Pipeline} (h : Worked config p p') : p.Carries p' := by
  rcases h with rfl | ⟨input, rfl⟩
  · exact .refl p'
  · exact Pipeline.carries_step config p _

/-- The work of a worker keeps the invariant of the gateway. -/
theorem Worked.gateway {g : Gateway} {p' : Pipeline} (h : Worked config g.pipeline p')
    (hgateway : GatewayInvariant config (fun _ _ => True) g) :
    GatewayInvariant config (fun _ _ => True) { g with pipeline := p' } := by
  rcases h with rfl | ⟨input, rfl⟩
  · exact hgateway
  · exact Gateway.invariant_step hgateway ⟨fun _ _ _ => trivial, fun _ _ => trivial⟩ (.work input)

namespace Stamping

/-- A step that submits nothing and hands out no claim. -/
theorem next (h : Stamping config s trace) {entry : PoolInput × PoolAnswer}
    (hentry : submissionOf entry = none)
    (hgateway : GatewayInvariant config (fun _ _ => True) s'.gateway)
    (hcarries : s.gateway.pipeline.Carries s'.gateway.pipeline)
    (hsourced : ∀ n row, s'.gateway.pipeline.row? n = some row →
      StatusFrom config (submissions trace) n row)
    (hclaims : ∀ j claim, s'.claimAt j = some claim → s.claimAt j = some claim)
    (hcompletions : ∀ j completion, s'.completionAt j = some completion →
      s.completionAt j = some completion)
    (hover : ∀ j, s.overAt j = true → s'.overAt j = true)
    (hkept : ∀ j completion, s.completionAt j = some completion → s'.Keeps j completion) :
    Stamping config s' (trace ++ [entry]) := by
  have hsubmissions : submissions (trace ++ [entry]) = submissions trace := by
    rw [submissions_concat, hentry, Option.toList_none, List.append_nil]
  constructor
  · exact hgateway
  · rw [hsubmissions]
    refine h.fenced.mono (hcarries.attempts_le hgateway.queued) ?_
    intro j token hheld
    obtain ⟨claim, hclaim, rfl⟩ := Option.map_eq_some_iff.mp hheld
    rw [held, hclaims j claim hclaim]
    rfl
  · intro j claim hclaim
    exact hcarries.ofRow (h.inFlight j claim (hclaims j claim hclaim))
  · rw [hsubmissions]
    exact fun completion hmem => hcarries.ofRow (h.submitted completion hmem)
  · rw [hsubmissions]
    exact fun j completion hcompletion =>
      h.inHand j completion (hcompletions j completion hcompletion)
  · rw [hsubmissions]
    exact hsourced
  · exact fun i turn completion hmem =>
      h.asked i turn completion (mem_trace_of_concat hentry hmem)
  · intro i turn completion hmem
    rcases h.kept i turn completion (mem_trace_of_concat hentry hmem) with hdone | hhand | hstored
    · exact .inl (hover i hdone)
    · exact hkept i completion hhand
    · exact .inr (.inr fun response hresponse => hcarries.settled (hstored response hresponse))

end Stamping

/-! ### One thread moves -/

/-- The state after a turn of a thread. -/
def moved (s : WorkerPools) (i pool : Nat) (point : WorkerPoint) (p : Pipeline) : WorkerPools :=
  { s with gateway := { s.gateway with pipeline := p }, workers := s.workers.set i (pool, point) }

section

omit [Sha256]

variable {i pool : Nat} {point point' : WorkerPoint} {p : Pipeline}

/-- Where a worker moves the others stay. -/
theorem getElem?_moved (hworker : s.workers[i]? = some (pool, point)) (j : Nat) :
    (s.moved i pool point' p).workers[j]? = if j = i then some (pool, point')
      else s.workers[j]? := by
  obtain ⟨hlt, -⟩ := List.getElem?_eq_some_iff.mp hworker
  show (s.workers.set i (pool, point'))[j]? = _
  by_cases heq : j = i
  · rw [if_pos heq, heq, List.getElem?_set_self hlt]
  · rw [if_neg heq, List.getElem?_set_ne (Ne.symm heq)]

/-- A move changes the claim in hand of the worker that moves only. -/
theorem claimAt_moved (hworker : s.workers[i]? = some (pool, point)) (j : Nat) :
    (s.moved i pool point' p).claimAt j = if j = i then point'.claim? else s.claimAt j := by
  unfold claimAt
  rw [getElem?_moved hworker]
  split_ifs <;> rfl

/-- A move changes the completion in hand of the worker that moves only. -/
theorem completionAt_moved (hworker : s.workers[i]? = some (pool, point)) (j : Nat) :
    (s.moved i pool point' p).completionAt j
      = if j = i then point'.completion? else s.completionAt j := by
  unfold completionAt
  rw [getElem?_moved hworker]
  split_ifs <;> rfl

/-- A move ends the worker that moves only. -/
theorem overAt_moved (hworker : s.workers[i]? = some (pool, point)) (j : Nat) :
    (s.moved i pool point' p).overAt j = if j = i then point'.isOver else s.overAt j := by
  unfold overAt
  rw [getElem?_moved hworker]
  split_ifs <;> rfl

/-- The claim in hand is that of the worker's point. -/
theorem claimAt_eq (hworker : s.workers[i]? = some (pool, point)) : s.claimAt i = point.claim? := by
  rw [claimAt, hworker]
  rfl

/-- The completion in hand is that of the worker's point. -/
theorem completionAt_eq (hworker : s.workers[i]? = some (pool, point)) :
    s.completionAt i = point.completion? := by
  rw [completionAt, hworker]
  rfl

/-- Whether a worker is over is read off its point. -/
theorem overAt_eq (hworker : s.workers[i]? = some (pool, point)) : s.overAt i = point.isOver := by
  rw [overAt, hworker]
  rfl

/-- What is kept stays so when a thread moves that has nothing in hand and is not at its end. -/
theorem Keeps.moved {j : Nat} {completion : Completion} (h : s.Keeps j completion)
    (hworker : s.workers[i]? = some (pool, point)) (hover : point.isOver = false)
    (hnone : point.completion? = none) (hcarries : s.gateway.pipeline.Carries p) :
    (s.moved i pool point' p).Keeps j completion := by
  rcases h with hdone | hhand | hstored
  · by_cases heq : j = i
    · rw [heq, overAt_eq hworker, hover] at hdone
      cases hdone
    · left
      rw [overAt_moved hworker, if_neg heq]
      exact hdone
  · by_cases heq : j = i
    · rw [heq, completionAt_eq hworker, hnone] at hhand
      cases hhand
    · refine .inr (.inl ?_)
      rw [completionAt_moved hworker, if_neg heq]
      exact hhand
  · exact .inr (.inr fun response hresponse => hcarries.settled (hstored response hresponse))

/-- A thread with something in hand is not at its end. -/
theorem isOver_eq_false {completion : Completion} (h : point.completion? = some completion) :
    point.isOver = false := by
  cases point <;> first | rfl | cases h

end

namespace Stamping

variable {i pool : Nat} {point point' : WorkerPoint} {p' : Pipeline} {turn : Turn}
  {event : WorkerEvent}

/-- A thread moves and submits nothing, and no claim is handed to it. -/
theorem quiet (h : Stamping config s trace) (hworker : s.workers[i]? = some (pool, point))
    (hevent : submissionOf (.turn i turn, .turned event) = none)
    (hworked : Worked config s.gateway.pipeline p')
    (hsourced : ∀ n row, p'.row? n = some row → StatusFrom config (submissions trace) n row)
    (hclaim : point'.claim? = none)
    (hcompletion : ∀ completion, point'.completion? = some completion →
      point.completion? = some completion)
    (hover : point.isOver = true → point'.isOver = true)
    (hkept : ∀ completion, point.completion? = some completion →
      (s.moved i pool point' p').Keeps i completion) :
    Stamping config (s.moved i pool point' p') (trace ++ [(.turn i turn, .turned event)]) := by
  refine h.next hevent (hworked.gateway h.gateway) hworked.carries hsourced ?_ ?_ ?_ ?_
  · intro j claim hj
    rw [claimAt_moved hworker] at hj
    split_ifs at hj with heq
    · rw [hclaim] at hj
      cases hj
    · exact hj
  · intro j completion hj
    rw [completionAt_moved hworker] at hj
    split_ifs at hj with heq
    · rw [heq, completionAt_eq hworker]
      exact hcompletion completion hj
    · exact hj
  · intro j hj
    rw [overAt_moved hworker]
    split_ifs with heq
    · rw [heq, overAt_eq hworker] at hj
      exact hover hj
    · exact hj
  · intro j completion hj
    by_cases heq : j = i
    · rw [heq, completionAt_eq hworker] at hj
      rw [heq]
      exact hkept completion hj
    · refine .inr (.inl ?_)
      rw [completionAt_moved hworker, if_neg heq]
      exact hj

/-- A thread is handed a claim. -/
theorem claimed (h : Stamping config s trace) (hworker : s.workers[i]? = some (pool, .claiming))
    {claim : TimestampClaim}
    (hclaim : s.gateway.pipeline.claimTimestamp turn.now turn.locked config.maxAttempts
      = (some claim, p')) {delivery : Delivery} :
    Stamping config (s.moved i pool (.submitting claim) p')
      (trace ++ [(.turn i turn, .turned (.claimed (some claim) delivery))]) := by
  -- the claim is one transaction of a worker
  have hworked : Worked config s.gateway.pipeline p' :=
    .inr ⟨.claimTimestamp turn.now turn.locked, by
      rw [WorkerInput.transaction, Pipeline.step, hclaim]⟩
  have hcarries := hworked.carries
  have hgateway := hworked.gateway h.gateway
  obtain ⟨hcount, hattempt⟩ := Pipeline.attempts_claimTimestamp hclaim
  have hnonneg := Pipeline.attempts_nonneg h.gateway.queued claim.segmentNumber
  have hsubmissions : submissions
    (trace ++ [(.turn i turn, .turned (.claimed (some claim) delivery))])
      = submissions trace := by
    rw [submissions_concat]
    exact List.append_nil _
  constructor
  · exact hgateway
  · -- the claim is the next token of its segment
    rw [hsubmissions]
    refine h.fenced.take (i := i) (k := claim.segmentNumber)
      (hcarries.attempts_le hgateway.queued) ?_ ?_ ?_
    · show 0 < p'.attempts claim.segmentNumber
      omega
    · show s.gateway.pipeline.attempts claim.segmentNumber < p'.attempts claim.segmentNumber
      omega
    · intro j token hj
      rw [held, claimAt_moved hworker] at hj
      split_ifs at hj with heq
      · left
        cases hj
        refine ⟨heq, ?_⟩
        show claim.token = (claim.segmentNumber, p'.attempts claim.segmentNumber)
        rw [hcount]
        rfl
      · exact .inr ⟨heq, hj⟩
  -- the claim in hand is of its row
  · intro j other hj
    rw [claimAt_moved hworker] at hj
    split_ifs at hj with heq
    · cases hj
      exact Pipeline.ofRow_claimTimestamp hclaim
    · exact hcarries.ofRow (h.inFlight j other hj)
  · rw [hsubmissions]
    exact fun completion hmem => hcarries.ofRow (h.submitted completion hmem)
  -- no completion is in hand
  · rw [hsubmissions]
    intro j completion hj
    rw [completionAt_moved hworker] at hj
    split_ifs at hj with heq
    · cases hj
    · exact h.inHand j completion hj
  -- a claim gives no row a response
  · rw [hsubmissions]
    intro n row hrow
    have hafter :
      (s.gateway.pipeline.claimTimestamp turn.now turn.locked config.maxAttempts).2.row? n
        = some row := by
      rw [hclaim]
      exact hrow
    exact StatusFrom.claimTimestamp h.sourced hafter
  · exact fun j turn' completion hmem =>
      h.asked j turn' completion (mem_trace_of_concat rfl hmem)
  · intro j turn' completion hmem
    exact (h.kept j turn' completion (mem_trace_of_concat rfl hmem)).moved hworker rfl rfl hcarries

/-- A thread submits its claim. -/
theorem submit (h : Stamping config s trace) {claim : TimestampClaim}
    (hworker : s.workers[i]? = some (pool, .submitting claim)) :
    Stamping config
      (s.moved i pool (.finishing ⟨claim, submitClaim turn.submit claim⟩) s.gateway.pipeline)
      (trace ++ [(.turn i turn, .turned (.submitted ⟨claim, submitClaim turn.submit claim⟩))]) := by
  have hsubmissions : submissions
        (trace ++ [(.turn i turn, .turned (.submitted ⟨claim, submitClaim turn.submit claim⟩))])
      = submissions trace ++ [⟨claim, submitClaim turn.submit claim⟩] := submissions_concat _ _
  have hclaim : s.claimAt i = some claim := claimAt_eq hworker
  -- the submission is one more
  have hmore : submissions trace
      ⊆ submissions trace ++ [⟨claim, submitClaim turn.submit claim⟩] :=
    List.subset_append_left _ _
  constructor
  · exact h.gateway
  -- the token is used, and no other thread holds it
  · have htoken : s.held i = some claim.token := by
      rw [held, hclaim]
      rfl
    rw [hsubmissions, List.map_append]
    refine h.fenced.use htoken ?_
    intro j token hj
    rw [held, claimAt_moved hworker] at hj
    split_ifs at hj with heq
    · cases hj
    · exact ⟨heq, hj⟩
  -- the claim is no longer in hand
  · intro j other hj
    rw [claimAt_moved hworker] at hj
    split_ifs at hj with heq
    · cases hj
    · exact h.inFlight j other hj
  · rw [hsubmissions]
    intro completion hmem
    rcases List.mem_append.mp hmem with hold | hlast
    · exact h.submitted completion hold
    · rw [List.mem_singleton.mp hlast]
      exact h.inFlight i claim hclaim
  -- the completion is
  · rw [hsubmissions]
    intro j completion hj
    rw [completionAt_moved hworker] at hj
    split_ifs at hj with heq
    · cases hj
      exact List.mem_append_right _ (List.mem_singleton.mpr rfl)
    · exact hmore (h.inHand j completion hj)
  · rw [hsubmissions]
    exact fun n row hrow => (h.sourced n row hrow).mono hmore
  -- it was asked for the artifact of its claim
  · intro j turn' completion hmem
    rcases List.mem_append.mp hmem with hold | hlast
    · exact h.asked j turn' completion hold
    · cases List.mem_singleton.mp hlast
      rfl
  · intro j turn' completion hmem
    rcases List.mem_append.mp hmem with hold | hlast
    · exact (h.kept j turn' completion hold).moved hworker rfl rfl (.refl _)
    · cases List.mem_singleton.mp hlast
      refine .inr (.inl ?_)
      rw [completionAt_moved hworker, if_pos rfl]
      rfl

omit [Sha256] in
/-- A finish that was answered has stored what there was to store. -/
theorem stored_of_finishes {p after : Pipeline} {now : Timestamp} {completion : Completion}
    {done : Bool}
    (h : Pipeline.Finishes config p now completion.claim completion.result (.ok done) after)
    (hle : completion.claim.attempt ≤ p.attempts completion.claim.segmentNumber)
    {response : Bytes} (hresponse : completion.result = .ok response) :
    ∃ row, after.row? completion.claim.segmentNumber = some row ∧ Settled row completion.claim := by
  cases h with
  | @settled row done hrow hsettled =>
    refine ⟨row, hrow, ?_⟩
    rcases hsettled with hstatus | hattempt
    · exact .inl hstatus
    · have hcount : p.attempts completion.claim.segmentNumber = row.job.attemptCount := by
        rw [Pipeline.attempts, hrow]
        rfl
      exact .inr (lt_of_le_of_ne (hcount ▸ hle) hattempt)
  | @attached row response hrow hresult =>
    refine ⟨row.attach response, ?_, .inl (by simp [QueueRow.attach])⟩
    rw [Pipeline.row?_update hrow, if_pos rfl]
  | failed hrow hresult =>
    rw [hresponse] at hresult
    cases hresult

/-- Whatever a thread does in its turn. -/
theorem turned (h : Stamping config s trace) (hworker : s.workers[i]? = some (pool, point))
    (hturned : WorkerPoint.Turned config s.gateway.pipeline turn point event point' p') :
    Stamping config (s.moved i pool point' p') (trace ++ [(.turn i turn, .turned event)]) := by
  cases hturned with
  -- the thread changes neither the store nor its claim
  | quiet hclaim hclaim' hkept hover =>
    refine h.quiet hworker rfl (.inl rfl) h.sourced hclaim' ?_ hover ?_
    · intro completion hcompletion
      rcases hkept with heq | rfl
      · exact heq ▸ hcompletion
      · cases hcompletion
    · intro completion hcompletion
      rcases hkept with heq | rfl
      · refine .inr (.inl ?_)
        rw [completionAt_moved hworker, if_pos rfl, heq]
        exact hcompletion
      · left
        rw [overAt_moved hworker, if_pos rfl]
        rfl
  | claimed hclaim => exact h.claimed hworker hclaim
  -- the claim is lost with its delivery, but its attempt is counted
  | unclaimed hclaim hlost =>
    have hafter : p'
      = (s.gateway.pipeline.claimTimestamp turn.now turn.locked config.maxAttempts).2 := by
      rw [hclaim]
    refine h.quiet hworker rfl (.inr ⟨.claimTimestamp turn.now turn.locked, hafter⟩) ?_ rfl ?_ ?_ ?_
    · intro n row hrow
      rw [hafter] at hrow
      exact StatusFrom.claimTimestamp h.sourced hrow
    · intro completion hcompletion
      cases hcompletion
    · intro hover
      cases hover
    · intro completion hcompletion
      cases hcompletion
  | submitted claim => exact h.submit hworker
  -- the completion in hand is used, and the row has its response if it is still of its claim
  | @finished _ completion done _ hheld hfinish =>
    have hafter : p'
      = (s.gateway.pipeline.finishTimestamp turn.now completion.claim completion.result
        config).2 := by
      rw [hfinish]
    have hfinishes := s.gateway.pipeline.finishTimestamp_finishes config turn.now completion.claim
      completion.result
    rw [hfinish] at hfinishes
    have hmem := h.inHand i completion ((completionAt_eq hworker).trans hheld)
    refine h.quiet hworker rfl
      (.inr ⟨.finishTimestamp turn.now completion.claim completion.result, hafter⟩) ?_ rfl ?_ ?_ ?_
    · exact fun n row hrow => StatusFrom.finishTimestamp h.sourced hmem hfinishes hrow
    · intro other hother
      cases hother
    · intro hover
      rw [isOver_eq_false hheld] at hover
      cases hover
    · intro other hother
      obtain rfl := Option.some.inj (hheld.symm.trans hother)
      have hle := (h.fenced.used_le _ (List.mem_map_of_mem hmem)).2
      exact .inr (.inr fun response hresponse => stored_of_finishes hfinishes hle hresponse)
  -- the completion stays in hand: the commit failed, or was not reported
  | @retained _ completion _ hheld hafter =>
    have hfinishes := s.gateway.pipeline.finishTimestamp_finishes config turn.now completion.claim
      completion.result
    have hmem := h.inHand i completion ((completionAt_eq hworker).trans hheld)
    refine h.quiet hworker rfl ?_ ?_ rfl ?_ ?_ ?_
    · rcases hafter with rfl | hafter
      · exact .inl rfl
      · exact .inr ⟨.finishTimestamp turn.now completion.claim completion.result, hafter⟩
    · intro n row hrow
      rcases hafter with rfl | rfl
      · exact h.sourced n row hrow
      · exact StatusFrom.finishTimestamp h.sourced hmem hfinishes hrow
    · intro other hother
      exact hheld.trans hother
    · intro hover
      rw [isOver_eq_false hheld] at hover
      cases hover
    · intro other hother
      obtain rfl := Option.some.inj (hheld.symm.trans hother)
      refine .inr (.inl ?_)
      rw [completionAt_moved hworker, if_pos rfl]
      rfl

omit [Sha256] in
/-- New workers stand behind the old ones, at the head of their loop. -/
theorem getElem?_started (workers : List (Nat × WorkerPoint)) (pool count j : Nat) :
    (workers ++ List.replicate count (pool, .looping false none))[j]? = workers[j]?
      ∨ workers[j]? = none
        ∧ (workers ++ List.replicate count (pool, .looping false none))[j]?
          = some (pool, .looping false none) := by
  by_cases hlt : j < workers.length
  · exact .inl (List.getElem?_append_left hlt)
  · rw [List.getElem?_append_right (not_lt.mp hlt), List.getElem?_eq_none (not_lt.mp hlt),
      List.getElem?_replicate]
    split_ifs
    · exact .inr ⟨rfl, rfl⟩
    · exact .inl rfl

/-- One input keeps the invariant. Case split on what the pools did. -/
theorem step (h : Stamping config s trace) (input : PoolInput) :
    Stamping config (s.step config input).2 (trace ++ [(input, (s.step config input).1)]) := by
  -- most inputs leave the threads as they are, or start new ones
  have hsame : ∀ {input : PoolInput} {answer : PoolAnswer},
      submissionOf (input, answer) = none → Stamping config s (trace ++ [(input, answer)]) := by
    intro input answer hentry
    exact h.next hentry h.gateway (.refl _) h.sourced (fun _ _ hj => hj) (fun _ _ hj => hj)
      (fun _ hj => hj) (fun _ _ hj => .inr (.inl hj))
  cases input with
  | produce now input =>
    -- a commit loses nothing and gives no row a response
    have hgateway :=
      Gateway.invariant_step h.gateway ⟨fun _ _ _ => trivial, fun _ _ => trivial⟩
      (.produce now input)
    have hpipeline := @Gateway.pipeline_produce _ config s.gateway now input
    refine h.next rfl hgateway ?_ ?_ (fun _ _ hj => hj) (fun _ _ hj => hj) (fun _ hj => hj)
      (fun _ _ hj => .inr (.inl hj))
    · show s.gateway.pipeline.Carries (s.gateway.step config (.produce now input)).2.pipeline
      rcases hpipeline with hsame | ⟨expected, t, hcas⟩
      · rw [hsame]
        exact .refl _
      · rw [hcas]
        exact Pipeline.carries_step config _ (.compareAndSwap now expected t)
    -- the row is an old one, or that of a segment just sealed, with no response yet
    · intro n row hrow
      replace hrow : (s.gateway.step config (.produce now input)).2.pipeline.row? n = some row :=
        hrow
      rcases hpipeline with hsame | ⟨expected, t, hcas⟩
      · rw [hsame] at hrow
        exact h.sourced n row hrow
      · rw [hcas] at hrow
        rcases s.gateway.pipeline.row?_compareAndSwap now expected t n with hold |
          ⟨-, segment, -, -, hnew⟩
        · exact h.sourced n row (hold.symm.trans hrow)
        · rw [hnew] at hrow
          cases hrow
          exact .inserted config _ n segment now
  | start =>
    simp only [WorkerPools.step, start]
    cases config.validate with
    | error error => exact hsame rfl
    | ok _ =>
      -- the new threads hold no claim and no completion
      refine h.next rfl h.gateway (.refl _) h.sourced ?_ ?_ ?_ ?_
      · intro j claim hj
        rcases getElem?_started s.workers s.stopped.length config.concurrency j with heq | ⟨-, heq⟩
        · rw [claimAt, ← heq]
          exact hj
        · simp [claimAt, heq, WorkerPoint.claim?] at hj
      · intro j completion hj
        rcases getElem?_started s.workers s.stopped.length config.concurrency j with heq | ⟨-, heq⟩
        · rw [completionAt, ← heq]
          exact hj
        · simp [completionAt, heq, WorkerPoint.completion?] at hj
      · intro j hj
        rcases getElem?_started s.workers s.stopped.length config.concurrency j
          with heq | ⟨hnone, -⟩
        · rw [overAt, ← heq] at hj
          exact hj
        · simp [overAt, hnone] at hj
      · intro j completion hj
        rcases getElem?_started s.workers s.stopped.length config.concurrency j
          with heq | ⟨hnone, -⟩
        · rw [completionAt, ← heq] at hj
          exact .inr (.inl hj)
        · simp [completionAt, hnone] at hj
  -- the thread learns of it at the head of its loop
  | stopClaiming pool =>
    exact h.next rfl h.gateway (.refl _) h.sourced (fun _ _ hj => hj) (fun _ _ hj => hj)
      (fun _ hj => hj) (fun _ _ hj => .inr (.inl hj))
  | panicked i =>
    -- only the thread that panics changes, and it holds nothing any more
    have hget : ∀ j, (s.step config (.panicked i)).2.workers[j]?
        = if j = i then s.workers[j]?.map (fun worker => (worker.1, .panicked))
          else s.workers[j]? := by
      intro j
      show (s.workers.modify i fun worker => (worker.1, .panicked))[j]? = _
      rw [List.getElem?_modify]
      by_cases heq : j = i
      · simp [heq]
      · simp [heq, Ne.symm heq]
    refine h.next rfl h.gateway (.refl _) h.sourced ?_ ?_ ?_ ?_
    · intro j claim hj
      rw [claimAt, hget] at hj
      split_ifs at hj with heq
      · cases hworker : s.workers[j]? <;> simp [hworker, WorkerPoint.claim?] at hj
      · exact hj
    · intro j completion hj
      rw [completionAt, hget] at hj
      split_ifs at hj with heq
      · cases hworker : s.workers[j]? <;> simp [hworker, WorkerPoint.completion?] at hj
      · exact hj
    · intro j hj
      rw [overAt, hget]
      split_ifs with heq
      · cases hworker : s.workers[j]? with
        | none => simp [overAt, hworker] at hj
        | some worker => rfl
      · exact hj
    -- a completion in the thread's hand is lost with it
    · intro j completion hj
      by_cases heq : j = i
      · left
        rw [overAt, hget, if_pos heq]
        cases hworker : s.workers[j]? with
        | none => simp [completionAt, hworker] at hj
        | some worker => rfl
      · refine .inr (.inl ?_)
        rw [completionAt, hget, if_neg heq]
        exact hj
  | turn i turn =>
    simp only [WorkerPools.step]
    cases hworker : s.workers[i]? with
    | none => exact hsame rfl
    | some worker =>
      obtain ⟨pool, point⟩ := worker
      -- what a thread does in its turn is the lemma above
      exact h.turned hworker
        (point.turn_turned config (s.isStopped pool) s.gateway.pipeline turn)

end Stamping

/-- The digest of a row is that of its artifact. -/
theorem digest_of_row {g : Gateway} (h : GatewayInvariant config (fun _ _ => True) g) {n : UInt64}
    {row : QueueRow} (hrow : g.pipeline.row? n = some row) :
    row.segment.artifactSha256 = sha256Hex row.segment.artifactCbor := by
  have hsegment := (Pipeline.row?_eq_some.mp hrow).1
  cases h.ledger with
  | blank htables hproducer =>
    have htables' : g.pipeline.store.tables = Tables.empty := htables
    rw [htables'] at hsegment
    simp [Tables.empty] at hsegment
  | @ledger state segments hagrees hchained hholds hproducer =>
    have hartifact : g.pipeline.store.tables.sealedSegment[n]?.map SegmentRow.artifact
        = segments[n.toNat]?.map SealedSegment.artifact := hagrees.sealedSegment n
    rw [hsegment, Option.map_some] at hartifact
    obtain ⟨sealed, hsealed, heq⟩ := Option.map_eq_some_iff.mp hartifact.symm
    obtain ⟨r, hat⟩ := hchained.chain n.toNat sealed hsealed
    simp only [SegmentRow.artifact, SealedSegment.artifact, Prod.mk.injEq] at heq
    rw [← heq.2.1, ← heq.2.2]
    exact hat.artifactSha256

/-- The invariant holds after every run of the pools. Induction on the run. -/
theorem run_stamping (config : TimestampWorkerConfig) (ledgerId : String) (limits : CapacityLimits)
    (inputs : List PoolInput) :
    Stamping config (run config ledgerId limits inputs).1
      (run config ledgerId limits inputs).2 := by
  refine runTrace_induction (P := Stamping config) ?_ (fun s trace input h => h.step input) inputs
  have hrow : ∀ n, (new ledgerId limits).gateway.pipeline.row? n = none := by
    intro n
    simp [new, Gateway.new, Pipeline.new, Pipeline.row?, PostgresLedgerStore.new, Tables.empty]
  constructor
  · exact Gateway.run_invariant ⟨fun _ _ _ => trivial, fun _ _ => trivial⟩ config ledgerId limits []
  · exact .nil _
  · intro i claim hclaim
    cases hclaim
  · intro completion hcompletion
    cases hcompletion
  · intro i completion hcompletion
    cases hcompletion
  · intro n row h
    rw [hrow] at h
    cases h
  · intro i turn completion hmem
    cases hmem
  · intro i turn completion hmem
    cases hmem

/-- The timestamp workers stamp every segment with what the authority has answered for its artifact.
In every run of any number of pools beside a producer, with connections and transactions that fail
or are committed without a report, threads that are lost and pools that are stopped:

* no claim is submitted twice, so that the artifact of a segment is submitted at most as often as it
  was claimed, and this is at most `max_attempts` times;
* what is submitted is the artifact of the segment, whose digest is never found to be another one,
  and until a response is stored, or overtaken, its thread has it in hand or has come to its end;
* a segment is verified with a response that the authority gave for its artifact, and it fails only
  after all its attempts. -/
theorem run_stamped (config : TimestampWorkerConfig) (ledgerId : String) (limits : CapacityLimits)
    (inputs : List PoolInput) :
    let s := (run config ledgerId limits inputs).1
    let trace := (run config ledgerId limits inputs).2
    ((submissions trace).map fun completion => completion.claim.token).Nodup
      ∧ (∀ i turn completion, (.turn i turn, .turned (.submitted completion)) ∈ trace →
        s.Keeps i completion
          ∧ ∃ row, s.gateway.pipeline.row? completion.claim.segmentNumber = some row
            ∧ completion.claim.artifactCbor = row.segment.artifactCbor
            ∧ completion.result
              = (turn.submit row.segment.artifactCbor).mapError ProducerError.toString)
      ∧ ∀ n row, s.gateway.pipeline.row? n = some row →
        (((submissions trace).filter fun completion => completion.claim.segmentNumber
          = n).length : Int)
            ≤ row.job.attemptCount
          ∧ row.job.attemptCount ≤ (config.maxAttempts.toNat : Int)
          ∧ (row.segment.tsaStatus = .verified → ∃ i turn completion response,
            (.turn i turn, .turned (.submitted completion)) ∈ trace
              ∧ completion.claim.segmentNumber = n
              ∧ turn.submit row.segment.artifactCbor = .ok response
              ∧ row.segment.tsaResponse = some response)
          ∧ (row.segment.tsaStatus = .failed →
            row.job.attemptCount = (config.maxAttempts.toNat : Int)) := by
  intro s trace
  have h : Stamping config s trace := run_stamping config ledgerId limits inputs
  -- the response of a submission was given for the artifact of its row
  have hresult : ∀ i turn completion, (.turn i turn, .turned (.submitted completion)) ∈ trace →
      ∃ row, s.gateway.pipeline.row? completion.claim.segmentNumber = some row
        ∧ completion.claim.artifactCbor = row.segment.artifactCbor
        ∧ completion.result
          = (turn.submit row.segment.artifactCbor).mapError ProducerError.toString := by
    intro i turn completion hmem
    obtain ⟨row, hrow, hcbor, hsha⟩ :=
      h.submitted completion (mem_submissions.mpr ⟨i, turn, hmem⟩)
    refine ⟨row, hrow, hcbor, ?_⟩
    have hdigest := digest_of_row h.gateway hrow
    rw [h.asked i turn completion hmem, submitClaim, hcbor, hsha, hdigest]
    exact if_neg (by simp)
  refine ⟨h.fenced.nodup, fun i turn completion hmem =>
    ⟨h.kept i turn completion hmem, hresult i turn completion hmem⟩, ?_⟩
  intro n row hrow
  obtain ⟨row', hrow', hinvariant⟩ :=
    h.gateway.queued n row.segment (Pipeline.row?_eq_some.mp hrow).1
  obtain rfl := Option.some.inj (hrow.symm.trans hrow')
  refine ⟨?_, hinvariant.attempts.2, ?_, ?_⟩
  -- each submission used an attempt of its own
  · have hcount : s.gateway.pipeline.attempts n = row.job.attemptCount := by
      rw [Pipeline.attempts, hrow]
      rfl
    have hlength := h.fenced.length_le n
    rw [List.filter_map, List.length_map, hcount, max_eq_right hinvariant.attempts.1] at hlength
    exact hlength
  -- a response in a row was submitted, and the submission was answered with it
  · intro hverified
    obtain ⟨completion, hcompletion, hnumber, response, hok, hresponse⟩ :=
      (h.sourced n row hrow).verified hverified
    obtain ⟨i, turn, hmem⟩ := mem_submissions.mp hcompletion
    obtain ⟨row', hrow', -, hanswer⟩ := hresult i turn completion hmem
    rw [hnumber] at hrow'
    obtain rfl := Option.some.inj (hrow.symm.trans hrow')
    refine ⟨i, turn, completion, response, hmem, hnumber, ?_, hresponse⟩
    rw [hok] at hanswer
    cases hsubmit : turn.submit row.segment.artifactCbor with
    | ok answer =>
      rw [hsubmit] at hanswer
      cases hanswer
      rfl
    | error error =>
      rw [hsubmit] at hanswer
      cases hanswer
  · intro hfailed
    exact Int.le_antisymm hinvariant.attempts.2 ((h.sourced n row hrow).failed hfailed)

end WorkerPools

end TrackOne
