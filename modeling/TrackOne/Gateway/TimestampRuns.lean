import TrackOne.Gateway.TimestampQueue

/-!
# Timestamp evidence over runs

Workers may finish after their lease has ended, finish twice, and race with a response that is
attached from outside or with the sweep. What keeps the evidence is the row: `RowStep` lists what
any transaction can do to it, and every step but the idle one starts from a queued row.

* `Pipeline.step_row`: a transaction takes at most one such step on each row.
* `JobInvariant` is what the steps keep, and `Continues` what holds between two moments of a run.
* `Pipeline.step_claims`: the attempt count of a row counts its claims.
* `Pipeline.run_timestamps`: all of it for every run.
-/

namespace TrackOne

/-! ## Steps of a row -/

/-- What a transaction can do to a row. -/
inductive RowStep (config : TimestampWorkerConfig) (row : QueueRow) : QueueRow → Prop where
  | idle : RowStep config row row
  | exhausted (hqueued : row.segment.tsaStatus = .queued)
      (hattempts : (config.maxAttempts.toNat : Int) ≤ row.job.attemptCount) :
      RowStep config row row.fail
  | claimed (now : Timestamp) (hqueued : row.segment.tsaStatus = .queued)
      (hattempts : row.job.attemptCount < (config.maxAttempts.toNat : Int)) :
      RowStep config row (row.claim now)
  | attached (response : Bytes) (hqueued : row.segment.tsaStatus = .queued)
      (hresponse : response ≠ []) : RowStep config row (row.attach response)
  | finished (error : String) (now : Timestamp) (hqueued : row.segment.tsaStatus = .queued) :
      RowStep config row (row.finishFailed config error now)

/-- The state of a segment's timestamp that the public evidence shows; every other combination is an
integrity failure there. -/
def anchorState (row : SegmentRow) : Option String :=
  match row.tsaStatus, row.tsaResponse with
  | .queued, none => some "pending"
  | .failed, none => some "unavailable"
  | .verified, some response => if response ≠ [] then some "present" else none
  | _, _ => none

/-- The columns of a row fit together. -/
structure JobInvariant (config : TimestampWorkerConfig) (row : QueueRow) : Prop where
  verified : row.segment.tsaStatus = .verified →
    ∃ response, row.segment.tsaResponse = some response ∧ response ≠ []
  queued : row.segment.tsaStatus = .queued →
    row.segment.tsaResponse = none ∧ row.job.nextAttempt.isSome
  failed : row.segment.tsaStatus = .failed →
    row.segment.tsaResponse = none ∧ row.job.nextAttempt = none
  attempts : 0 ≤ row.job.attemptCount ∧ row.job.attemptCount ≤ (config.maxAttempts.toNat : Int)

/-- What a later row has to do with an earlier one: only a queued row changes, and attempts are not
taken back. -/
structure Continues (row row' : QueueRow) : Prop where
  settled : row.segment.tsaStatus ≠ .queued → row' = row
  attempts : row.job.attemptCount ≤ row'.job.attemptCount

variable {config : TimestampWorkerConfig} {row row' row'' : QueueRow}

theorem JobInvariant.inserted (config : TimestampWorkerConfig) (segment : SealedSegment)
    (now : Timestamp) : JobInvariant config ⟨Tables.segmentRow segment, .inserted now⟩ where
  verified := by simp [Tables.segmentRow]
  queued _ := ⟨rfl, rfl⟩
  failed := by simp [Tables.segmentRow]
  attempts := ⟨Int.le_refl 0, Int.natCast_nonneg _⟩

/-- Every step keeps the columns together. -/
theorem JobInvariant.step (h : JobInvariant config row) (hstep : RowStep config row row') :
    JobInvariant config row' := by
  obtain ⟨hnonneg, hmax⟩ := h.attempts
  cases hstep with
  | idle => exact h
  | exhausted hqueued =>
    exact ⟨by simp [QueueRow.fail], by simp [QueueRow.fail],
      fun _ => ⟨(h.queued hqueued).1, rfl⟩, hnonneg, hmax⟩
  | claimed now hqueued hattempts =>
    have hnot : ∀ {status : TsaStatus}, status ≠ .queued →
        (row.claim now).segment.tsaStatus ≠ status := by
      intro status hne heq
      exact hne (heq.symm.trans hqueued)
    refine ⟨fun hstatus => absurd hstatus (hnot (by simp)),
      fun _ => ⟨(h.queued hqueued).1, rfl⟩, fun hstatus => absurd hstatus (hnot (by simp)), ?_⟩
    show 0 ≤ row.job.attemptCount + 1 ∧ row.job.attemptCount + 1 ≤ _
    omega
  | attached response hqueued hresponse =>
    exact ⟨fun _ => ⟨response, rfl, hresponse⟩, by simp [QueueRow.attach],
      by simp [QueueRow.attach], hnonneg, hmax⟩
  | finished error now hqueued =>
    unfold QueueRow.finishFailed
    -- the last attempt fails the row, any other one leaves it queued
    split_ifs with hlast
    · exact ⟨by simp, by simp, fun _ => ⟨(h.queued hqueued).1, rfl⟩, hnonneg, hmax⟩
    · exact ⟨by simp, fun _ => ⟨(h.queued hqueued).1, rfl⟩, by simp, hnonneg, hmax⟩

/-- A row whose columns fit together is shown. -/
theorem JobInvariant.anchorState_isSome (h : JobInvariant config row) :
    (anchorState row.segment).isSome := by
  unfold anchorState
  cases hstatus : row.segment.tsaStatus with
  | queued => simp [(h.queued hstatus).1]
  | failed => simp [(h.failed hstatus).1]
  | verified =>
    obtain ⟨response, hresponse, hne⟩ := h.verified hstatus
    simp [hresponse, hne]

theorem Continues.refl (row : QueueRow) : Continues row row := ⟨fun _ => rfl, Int.le_refl _⟩

theorem Continues.trans (h : Continues row row') (h' : Continues row' row'') :
    Continues row row'' := by
  refine ⟨?_, Int.le_trans h.attempts h'.attempts⟩
  intro hsettled
  obtain rfl := h.settled hsettled
  exact h'.settled hsettled

theorem RowStep.continues (h : RowStep config row row') : Continues row row' := by
  cases h with
  | idle => exact .refl row
  | claimed now hqueued =>
    exact ⟨fun hsettled => absurd hqueued hsettled, Int.le_add_one (Int.le_refl _)⟩
  | exhausted hqueued => exact ⟨fun hsettled => absurd hqueued hsettled, Int.le_refl _⟩
  | attached response hqueued => exact ⟨fun hsettled => absurd hqueued hsettled, Int.le_refl _⟩
  | finished error now hqueued => exact ⟨fun hsettled => absurd hqueued hsettled, Int.le_refl _⟩

namespace Pipeline

variable {p : Pipeline} {n : UInt64}

/-! ## Transactions -/

/-- A finish takes at most one step on its target, and changes no other row. -/
theorem row?_finishTimestampTarget (p : Pipeline) (now : Timestamp) (number : UInt64)
    (digest : String) (generation : Option Int) (result : Except String Bytes)
    (config config' : TimestampWorkerConfig) (hconfig : result.isOk ∨ config' = config)
    (hrow : p.row? n = some row) :
    ∃ row', (p.finishTimestampTarget now number digest generation result config').2.row? n
        = some row' ∧ RowStep config row row' ∧ row'.job.attemptCount = row.job.attemptCount := by
  unfold finishTimestampTarget
  cases htarget : p.row? number with
  | none => exact ⟨row, hrow, .idle, rfl⟩
  | some target =>
    dsimp only
    split_ifs with hdigest hverified hguard
    · exact ⟨row, hrow, .idle, rfl⟩
    · exact ⟨row, hrow, .idle, rfl⟩
    · exact ⟨row, hrow, .idle, rfl⟩
    -- only a queued row is updated
    · have hqueued : target.segment.tsaStatus = .queued := by
        by_contra hne
        exact hguard (.inl hne)
      have hupdate : ∀ target', RowStep config target target' →
          target'.job.attemptCount = target.job.attemptCount →
          ∃ row', (p.update number target').row? n = some row' ∧ RowStep config row row'
            ∧ row'.job.attemptCount = row.job.attemptCount := by
        intro target' hstep hattempts
        rw [row?_update htarget]
        split_ifs with heq
        · rw [← heq, htarget] at hrow
          cases hrow
          exact ⟨target', rfl, hstep, hattempts⟩
        · exact ⟨row, hrow, .idle, rfl⟩
      -- the response is attached, or the error is noted
      cases result with
      | ok response =>
        dsimp only
        split_ifs with hempty
        · exact ⟨row, hrow, .idle, rfl⟩
        · exact hupdate _ (.attached response hqueued hempty) rfl
      | error error =>
        obtain rfl : config' = config := hconfig.resolve_left (by simp [Except.isOk, Except.toBool])
        exact hupdate _ (.finished error now hqueued) rfl

/-- The pipeline after the sweep of a claim. -/
def swept (p : Pipeline) (now : Timestamp) (locked : UInt64 → Bool) (maxAttempts : UInt32) :
    Pipeline :=
  ((p.select locked fun row => row.exhausted maxAttempts now).take 100).foldl
    (fun p entry => p.update entry.1 entry.2.fail) p

/-- A swept row is as it was, or it has failed because it was queued without attempts left. -/
theorem row?_swept (p : Pipeline) (now : Timestamp) (locked : UInt64 → Bool) (maxAttempts : UInt32)
    (n : UInt64) :
    (p.swept now locked maxAttempts).row? n = p.row? n
      ∨ ∃ row, p.row? n = some row ∧ row.segment.tsaStatus = .queued
        ∧ (maxAttempts.toNat : Int) ≤ row.job.attemptCount
        ∧ (p.swept now locked maxAttempts).row? n = some row.fail := by
  have hselected : ∀ entry ∈ (p.select locked fun row => row.exhausted maxAttempts now).take 100,
      p.row? entry.1 = some entry.2 ∧ entry.2.exhausted maxAttempts now = true := by
    intro entry hentry
    obtain ⟨hrow, -, hexhausted⟩ := mem_select.mp (List.mem_of_mem_take hentry)
    exact ⟨hrow, hexhausted⟩
  have hnodup : (((p.select locked fun row => row.exhausted maxAttempts now).take 100).map
      Prod.fst).Nodup :=
    (nodup_select locked _).sublist ((List.take_sublist 100 _).map _)
  unfold swept
  rw [row?_sweep hnodup (fun entry hentry => (hselected entry hentry).1)]
  by_cases hmem : n ∈ ((p.select locked fun row => row.exhausted maxAttempts now).take 100).map
      Prod.fst
  · right
    obtain ⟨⟨n', row⟩, hentry, rfl⟩ := List.mem_map.mp hmem
    obtain ⟨hrow, hexhausted⟩ := hselected _ hentry
    simp only [QueueRow.exhausted, Bool.and_eq_true, decide_eq_true_eq] at hexhausted
    exact ⟨row, hrow, hexhausted.1.1, hexhausted.1.2,
      by rw [hrow, Option.map_some, if_pos hmem]⟩
  · left
    simp only [if_neg hmem, Option.map_id']

/-- What `claim_timestamp` does: the sweep, and then at most one claim of a row that is queued. -/
theorem claimTimestamp_eq (p : Pipeline) (now : Timestamp) (locked : UInt64 → Bool)
    (maxAttempts : UInt32) :
    p.claimTimestamp now locked maxAttempts = (none, p.swept now locked maxAttempts)
      ∨ ∃ number row claim, (p.swept now locked maxAttempts).row? number = some row
        ∧ row.segment.tsaStatus = .queued
        ∧ row.job.attemptCount < (maxAttempts.toNat : Int)
        ∧ claim.segmentNumber = number ∧ claim.attempt = row.job.attemptCount + 1
        ∧ p.claimTimestamp now locked maxAttempts
          = (some claim, (p.swept now locked maxAttempts).update number (row.claim now)) := by
  unfold claimTimestamp
  dsimp only
  rw [show ((p.select locked fun row => row.exhausted maxAttempts now).take 100).foldl
    (fun p entry => p.update entry.1 entry.2.fail) p = p.swept now locked maxAttempts from rfl]
  cases hhead : ((p.swept now locked maxAttempts).select locked
      fun row => row.due maxAttempts now).head? with
  | none => exact .inl rfl
  | some entry =>
    obtain ⟨hrow, -, hdue⟩ := mem_select.mp (List.mem_of_head? hhead)
    simp only [QueueRow.due, Bool.and_eq_true, decide_eq_true_eq] at hdue
    exact .inr ⟨entry.1, entry.2, _, hrow, hdue.1.1.1, hdue.1.1.2, rfl, rfl, rfl⟩

/-- The claim that an answer hands out, if it is one of the given segment. -/
def claimOf (n : UInt64) : PipelineAnswer → Option TimestampClaim
  | .claimed claim => claim.filter fun claim => claim.segmentNumber = n
  | _ => none

/-- The claims of a segment in a trace, in order. -/
def claimsOf (n : UInt64) (trace : List (PipelineInput × PipelineAnswer)) : List TimestampClaim :=
  trace.filterMap fun entry => claimOf n entry.2

/-- What a transaction does to a row: one step, which raises the attempt count when, and only when,
the row is claimed. -/
structure StepsRow (config : TimestampWorkerConfig) (n : UInt64) (answer : PipelineAnswer)
    (row row' : QueueRow) : Prop where
  step : RowStep config row row'
  unclaimed : claimOf n answer = none → row'.job.attemptCount = row.job.attemptCount
  claimed : ∀ claim, claimOf n answer = some claim →
    claim.attempt = row.job.attemptCount + 1 ∧ row'.job.attemptCount = claim.attempt

theorem step_row (config : TimestampWorkerConfig) (p : Pipeline) (input : PipelineInput)
    (hrow : p.row? n = some row) :
    ∃ row', (p.step config input).2.row? n = some row'
      ∧ StepsRow config n (p.step config input).1 row row' := by
  have hfinished : ∀ {after : Pipeline} {answer : PipelineAnswer}, claimOf n answer = none →
      (∃ row', after.row? n = some row' ∧ RowStep config row row'
        ∧ row'.job.attemptCount = row.job.attemptCount) →
      ∃ row', after.row? n = some row' ∧ StepsRow config n answer row row' := by
    rintro after answer hanswer ⟨row', hrow', hstep, hattempts⟩
    exact ⟨row', hrow', hstep, fun _ => hattempts, by simp [hanswer]⟩
  cases input with
  -- a commit leaves the rows of older segments
  | compareAndSwap now expectedRevision t =>
    apply hfinished rfl
    rcases p.row?_compareAndSwap now expectedRevision t n with hsame | ⟨hnone, -⟩
    · exact ⟨row, hsame.trans hrow, .idle, rfl⟩
    · rw [hrow] at hnone
      cases hnone
  -- a claim that finishes moves its row
  | finishTimestamp now claim result =>
    apply hfinished rfl
    exact p.row?_finishTimestampTarget now _ _ _ result config config (.inr rfl) hrow
  -- a response that is attached moves its row as a claim does
  | attachTimestamp now number digest response generation =>
    apply hfinished rfl
    have hstep := p.row?_finishTimestampTarget now number digest generation (.ok response) config
      .default (.inl rfl) hrow
    show ∃ row', (p.attachTimestamp now number digest response generation).2.row? n = some row' ∧ _
    unfold attachTimestamp
    generalize p.finishTimestampTarget now number digest generation (.ok response) .default
      = finished at hstep ⊢
    obtain ⟨result, after⟩ := finished
    rcases result with error | (_ | _) <;> exact hstep
  -- a claim fails the rows out of attempts first, and then takes one that is queued
  | claimTimestamp now locked =>
    show ∃ row', (p.claimTimestamp now locked config.maxAttempts).2.row? n = some row'
      ∧ StepsRow config n (.claimed (p.claimTimestamp now locked config.maxAttempts).1) row row'
    have hswept := p.row?_swept now locked config.maxAttempts n
    rw [hrow] at hswept
    rcases p.claimTimestamp_eq now locked config.maxAttempts with hnone |
      ⟨number, target, claim, htarget, hqueued, hattempts, rfl, hattempt, hclaim⟩
    · rw [hnone]
      apply hfinished rfl
      rcases hswept with hsame | ⟨row', ⟨rfl⟩, hqueued, hlast, hfail⟩
      · exact ⟨row, hsame, .idle, rfl⟩
      · exact ⟨row.fail, hfail, .exhausted hqueued hlast, rfl⟩
    · rw [hclaim]
      dsimp only
      rw [row?_update htarget]
      by_cases heq : claim.segmentNumber = n
      · -- the row is claimed, so it was not swept
        rw [heq] at htarget
        rcases hswept with hsame | ⟨row', -, -, -, hfail⟩
        · rw [htarget] at hsame
          cases hsame
          have hclaimed : claimOf n (.claimed (some claim)) = some claim := by
            simp [claimOf, heq]
          refine ⟨row.claim now, if_pos heq, .claimed now hqueued hattempts, ?_, ?_⟩
          · rw [hclaimed]
            simp
          · rw [hclaimed]
            rintro _ ⟨rfl⟩
            exact ⟨hattempt, hattempt.symm⟩
        · rw [htarget] at hfail
          cases hfail
          cases hqueued
      -- another row is claimed
      · rw [if_neg heq]
        apply hfinished (by simp [claimOf, heq])
        rcases hswept with hsame | ⟨row', ⟨rfl⟩, hqueued, hlast, hfail⟩
        · exact ⟨row, hsame, .idle, rfl⟩
        · exact ⟨row.fail, hfail, .exhausted hqueued hlast, rfl⟩

/-- A row that is not there is not claimed, and comes up only by the commit of its segment. -/
theorem step_absent (config : TimestampWorkerConfig) (p : Pipeline) (input : PipelineInput)
    (hnone : p.row? n = none) :
    claimOf n (p.step config input).1 = none
      ∧ ((p.step config input).2.row? n = none
        ∨ ∃ segment now, (p.step config input).2.row? n
            = some ⟨Tables.segmentRow segment, .inserted now⟩) := by
  -- no row appears where one is updated
  have hupdate : ∀ {p : Pipeline} {number : UInt64} {target : QueueRow} (target' : QueueRow),
      p.row? n = none → p.row? number = some target → (p.update number target').row? n = none := by
    intro p number target target' hnone htarget
    rw [row?_update htarget, if_neg, hnone]
    rintro rfl
    rw [htarget] at hnone
    cases hnone
  -- nor where a claim is finished
  have hfinish : ∀ now number digest generation result config,
      (p.finishTimestampTarget now number digest generation result config).2.row? n = none := by
    intro now number digest generation result config
    unfold finishTimestampTarget
    cases htarget : p.row? number with
    | none => exact hnone
    | some target =>
      dsimp only
      split_ifs
      · exact hnone
      · exact hnone
      · exact hnone
      · cases result with
        | ok response =>
          dsimp only
          split_ifs
          · exact hnone
          · exact hupdate _ hnone htarget
        | error error => exact hupdate _ hnone htarget
  -- only a commit inserts a row
  cases input with
  | compareAndSwap now expectedRevision t =>
    refine ⟨rfl, ?_⟩
    rcases p.row?_compareAndSwap now expectedRevision t n with hsame | ⟨-, segment, -, -, hrow⟩
    · exact .inl (hsame.trans hnone)
    · exact .inr ⟨segment, now, hrow⟩
  | finishTimestamp now claim result => exact ⟨rfl, .inl (hfinish _ _ _ _ _ _)⟩
  | attachTimestamp now number digest response generation =>
    refine ⟨rfl, .inl ?_⟩
    have hfinished := hfinish now number digest generation (.ok response) .default
    show (p.attachTimestamp now number digest response generation).2.row? n = none
    unfold attachTimestamp
    generalize p.finishTimestampTarget now number digest generation (.ok response) .default
      = finished at hfinished ⊢
    obtain ⟨result, after⟩ := finished
    rcases result with error | (_ | _) <;> exact hfinished
  | claimTimestamp now locked =>
    show claimOf n (.claimed (p.claimTimestamp now locked config.maxAttempts).1) = none
      ∧ ((p.claimTimestamp now locked config.maxAttempts).2.row? n = none ∨ _)
    have hswept : (p.swept now locked config.maxAttempts).row? n = none := by
      rcases p.row?_swept now locked config.maxAttempts n with hsame | ⟨row, hrow, -⟩
      · exact hsame.trans hnone
      · rw [hnone] at hrow
        cases hrow
    rcases p.claimTimestamp_eq now locked config.maxAttempts with hidle |
      ⟨number, target, claim, htarget, -, -, rfl, -, hclaim⟩
    · rw [hidle]
      exact ⟨rfl, .inl hswept⟩
    · rw [hclaim]
      refine ⟨?_, .inl (hupdate _ hswept htarget)⟩
      have hne : claim.segmentNumber ≠ n := by
        rintro rfl
        rw [htarget] at hswept
        cases hswept
      simp [claimOf, hne]

/-! ## Runs -/

/-- The generations of the first claims of a segment. -/
def generations (count : Nat) : List Int := (List.range count).map fun i => (i : Int) + 1

/-- Every row is in order, and its attempt count counts the claims of its segment so far. -/
structure QueueKept (config : TimestampWorkerConfig) (p : Pipeline)
    (trace : List (PipelineInput × PipelineAnswer)) : Prop where
  rows : ∀ n row, p.row? n = some row → JobInvariant config row
  claims : ∀ n row, p.row? n = some row →
    (claimsOf n trace).map TimestampClaim.attempt = generations row.job.attemptCount.toNat
  absent : ∀ n, p.row? n = none → claimsOf n trace = []

theorem claimsOf_concat (n : UInt64) (trace : List (PipelineInput × PipelineAnswer))
    (input : PipelineInput) (answer : PipelineAnswer) :
    claimsOf n (trace ++ [(input, answer)]) = claimsOf n trace ++ (claimOf n answer).toList := by
  unfold claimsOf
  rw [List.filterMap_append]
  cases hclaim : claimOf n answer <;> simp [hclaim]

theorem generations_succ (count : Nat) :
    generations (count + 1) = generations count ++ [(count : Int) + 1] := by
  simp [generations, List.range_succ]

theorem QueueKept.step {trace : List (PipelineInput × PipelineAnswer)}
    (h : QueueKept config p trace) (input : PipelineInput) :
    QueueKept config (p.step config input).2 (trace ++ [(input, (p.step config input).1)]) := by
  have hrow : ∀ n row', (p.step config input).2.row? n = some row' →
      JobInvariant config row'
        ∧ (claimsOf n (trace ++ [(input, (p.step config input).1)])).map TimestampClaim.attempt
          = generations row'.job.attemptCount.toNat := by
    intro n row' hrow'
    rw [claimsOf_concat, List.map_append]
    -- the row is new, or it takes its step
    cases hrow : p.row? n with
    | none =>
      obtain ⟨hclaim, habsent | ⟨segment, now, hnew⟩⟩ := p.step_absent config input hrow
      · rw [habsent] at hrow'
        cases hrow'
      · rw [hnew] at hrow'
        cases hrow'
        rw [hclaim, h.absent n hrow]
        exact ⟨.inserted config segment now, rfl⟩
    | some row =>
      obtain ⟨_, hafter, hsteps⟩ := p.step_row config input hrow
      rw [hafter] at hrow'
      cases hrow'
      have hinvariant := h.rows n row hrow
      refine ⟨hinvariant.step hsteps.step, ?_⟩
      rw [h.claims n row hrow]
      cases hclaim : claimOf n (p.step config input).1 with
      | none =>
        rw [hsteps.unclaimed hclaim]
        simp
      | some claim =>
        obtain ⟨hattempt, hcount⟩ := hsteps.claimed claim hclaim
        have hnonneg := hinvariant.attempts.1
        have hsucc : row'.job.attemptCount.toNat = row.job.attemptCount.toNat + 1 := by omega
        rw [hsucc, generations_succ, Int.toNat_of_nonneg hnonneg, ← hattempt]
        rfl
  -- the invariant for every row, and the claims of every number without a row
  refine ⟨fun n row' hrow' => (hrow n row' hrow').1, fun n row' hrow' => (hrow n row' hrow').2, ?_⟩
  intro n hnone
  cases hbefore : p.row? n with
  | none =>
    rw [claimsOf_concat, h.absent n hbefore, (p.step_absent config input hbefore).1]
    rfl
  | some row =>
    obtain ⟨row', hafter, -⟩ := p.step_row config input hbefore
    rw [hafter] at hnone
    cases hnone

/-- A row stays in the table, and what it has settled stays as it is. -/
theorem continues_runTrace (p : Pipeline) (inputs : List PipelineInput)
    (hrow : p.row? n = some row) :
    ∃ row', (runTrace (Pipeline.step config) p inputs).1.row? n = some row'
      ∧ Continues row row' := by
  induction inputs generalizing p row with
  | nil => exact ⟨row, hrow, .refl row⟩
  | cons input inputs ih =>
    obtain ⟨mid, hmid, hsteps⟩ := p.step_row config input hrow
    obtain ⟨row', hrow', hlater⟩ := ih _ hmid
    rw [runTrace_cons]
    exact ⟨row', hrow', hsteps.step.continues.trans hlater⟩

/-- A finish under a generation that is not the current attempt count changes nothing. -/
theorem finishTimestampTarget_superseded (p : Pipeline) (now : Timestamp) (number : UInt64)
    (digest : String) {generation : Int} (result : Except String Bytes)
    (config : TimestampWorkerConfig) (hrow : p.row? number = some row)
    (hgeneration : generation ≠ row.job.attemptCount) :
    (p.finishTimestampTarget now number digest (some generation) result config).2 = p := by
  unfold finishTimestampTarget
  rw [hrow]
  dsimp only
  split_ifs with hdigest hverified hguard
  · rfl
  · rfl
  · rfl
  · exact absurd (.inr (.inl (by simpa using hgeneration))) hguard

/-- The timestamp queue never loses or replaces evidence. After every run of commits, claims,
finishes and attachments, by any number of workers and at any readings of the clock, for every row:

* its columns fit together: a verified row has a response, a queued one has none and a next attempt,
  a failed one has neither, so that the public evidence can show it;
* the claims of its segment carry the generations from one to its attempt count, in this order, and
  there are at most `max_attempts`;
* whatever happens next, the row stays, and once it is verified or failed it does not change;
* a finish under another generation than its attempt count changes nothing. -/
theorem run_timestamps (config : TimestampWorkerConfig) (ledgerId : String)
    (limits : CapacityLimits)
    (inputs : List PipelineInput) :
    let p := (run config ledgerId limits inputs).1
    let trace := (run config ledgerId limits inputs).2
    ∀ number row, p.row? number = some row →
      JobInvariant config row
        ∧ (anchorState row.segment).isSome
        ∧ (claimsOf number trace).map TimestampClaim.attempt
          = generations row.job.attemptCount.toNat
        ∧ (∀ later, ∃ row', (runTrace (Pipeline.step config) p later).1.row? number = some row'
          ∧ Continues row row')
        ∧ ∀ now digest generation result, generation ≠ row.job.attemptCount →
          (p.finishTimestampTarget now number digest (some generation) result config).2 = p := by
  intro p trace number row hrow
  have hkept : QueueKept config p trace := by
    refine runTrace_induction (P := QueueKept config) ?_ ?_ inputs
    · exact ⟨by simp [row?, new, PostgresLedgerStore.new, Tables.empty],
        by simp [row?, new, PostgresLedgerStore.new, Tables.empty], fun _ _ => rfl⟩
    · intro p trace input hkept
      exact hkept.step input
  have hinvariant := hkept.rows number row hrow
  refine ⟨hinvariant, hinvariant.anchorState_isSome, hkept.claims number row hrow, ?_, ?_⟩
  · intro later
    exact continues_runTrace p later hrow
  · intro now digest generation result hgeneration
    exact finishTimestampTarget_superseded p now number digest result config hrow hgeneration

/-- A ledger is created and seals a segment, which one worker claims. A response is attached under
the generation of the claim. -/
def sampleQueue : List PipelineInput :=
  let state := createdState {
    ledgerId := "b7a1d5e40c6f438e9a75db27c96f31aa"
    siteId := "an-001"
    policy := {
      intervalMs := 100, batchRecordLimit := 2, recordLimit := none, sizeLimitBytes := none
      emptyMode := .emit } } 1000 7
  let segment : SealedSegment := {
    segmentNumber := 0, closeReason := .interval, artifactCbor := [0xa0], artifactSha256 := "00"
    records := [] }
  [.compareAndSwap 0 none {
      previousOpenCount := 0, admittedRecords := [], nextState := state, sealed := []
      idempotency := none },
    .compareAndSwap 1 (some 0) {
      previousOpenCount := 0, admittedRecords := [], sealed := [segment], idempotency := none
      nextState := { state with revision := 1, nextSegmentNumber := 1 } },
    .claimTimestamp 2 fun _ => false,
    .attachTimestamp 3 0 "00" [1, 2, 3] (some 1)]

/-- The sample segment was claimed once, and keeps its response. -/
theorem run_timestamps_sampleQueue :
    let config := TimestampWorkerConfig.default
    let r := run config "b7a1d5e40c6f438e9a75db27c96f31aa" ⟨none, none⟩ sampleQueue
    ∃ row, r.1.row? 0 = some row ∧ row.segment.tsaResponse = some [1, 2, 3]
      ∧ (claimsOf 0 r.2).map TimestampClaim.attempt = [1]
      ∧ ∀ later, (runTrace (Pipeline.step config) r.1 later).1.row? 0 = some row := by
  intro config r
  have hrow : (r.1.row? 0).any (fun row => decide (row.segment.tsaStatus = .verified)
      && decide (row.segment.tsaResponse = some [1, 2, 3])
      && decide (row.job.attemptCount = 1)) = true := by
    decide +kernel
  obtain ⟨row, hrow, htest⟩ := (Option.any_eq_true _ _).mp hrow
  simp only [Bool.and_eq_true, decide_eq_true_eq] at htest
  obtain ⟨⟨hverified, hresponse⟩, hcount⟩ := htest
  obtain ⟨-, -, hclaims, hlater, -⟩ := run_timestamps config "b7a1d5e40c6f438e9a75db27c96f31aa"
    ⟨none, none⟩ sampleQueue 0 row hrow
  refine ⟨row, hrow, hresponse, ?_, ?_⟩
  · rw [show (claimsOf 0 r.2).map TimestampClaim.attempt = _ from hclaims, hcount]
    rfl
  · intro later
    obtain ⟨row', hrow', hcontinues⟩ := hlater later
    rw [hcontinues.settled (by rw [hverified]; simp)] at hrow'
    exact hrow'

end Pipeline

end TrackOne
