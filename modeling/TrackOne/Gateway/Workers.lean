import TrackOne.Gateway.PostgresRuns
import TrackOne.Gateway.TimestampRuns

/-!
# The producer and the timestamp workers

A gateway process runs one producer and any number of timestamp workers on the rows of one ledger.
Their transactions follow each other in any order, and the producer may be restarted in between.

* `StoreView.step`: a producer does the same on two stores that answer alike, so that what was
  proved of it on the tables holds with the queue beside them.
* `Restamped` is all that a worker does to the tables, and `Agrees.restamped` says that the producer
  does not notice.
* `Gateway.run_invariant`: the tables, the producer and every row of the queue fit together in every
  interleaving.
* `Gateway.standing_later` and `Gateway.row?_later`: sealed segments stay, and so does every
  timestamp once it is settled. -/

namespace TrackOne

/-! ## Views of a store -/

/-- Another store that answers in the same way. -/
structure StoreView (S T : Type) [LedgerStore S] [LedgerStore T] where
  view : S → T
  load : ∀ store, LedgerStore.load (view store) = LedgerStore.load store
  lookupIdempotency : ∀ store,
    LedgerStore.lookupIdempotency (view store) = LedgerStore.lookupIdempotency store
  compareAndSwap : ∀ store expected t, LedgerStore.compareAndSwap (view store) expected t
    = Prod.map id view (LedgerStore.compareAndSwap store expected t)

/-- The world on another store. -/
def World.map {S T : Type} (view : S → T) (w : World S) : World T := ⟨view w.store, w.producer⟩

namespace StoreView

variable {S T : Type} [LedgerStore S] [LedgerStore T]

/-- A plan does to a view of the store what it does to the store. -/
theorem executePlan (v : StoreView S T) (store : S) (plan : Except ProducerError Plan) :
    executePlan (v.view store) plan = Prod.map id v.view (executePlan store plan) := by
  cases plan with
  | error error => rfl
  | ok plan =>
    cases plan with
    | done state reply => rfl
    | commit expected t reply =>
      simp only [TrackOne.executePlan, Plan.execute, v.compareAndSwap]
      rcases LedgerStore.compareAndSwap store expected t with ⟨error | _, _⟩ <;> rfl

theorem settle (v : StoreView S T) (before : Option ProducerState)
    (result : Except ProducerError (ProducerState × Reply) × S) :
    World.settle before (Prod.map id v.view result)
      = Prod.map id (World.map v.view) (World.settle before result) := by
  rcases result with ⟨error | ⟨state, reply⟩, store⟩ <;> rfl

/-- A producer does not tell a store from a view of it. -/
theorem step [Sha256] (v : StoreView S T) (w : World S) (input : Input) :
    (w.map v.view).step input = Prod.map id (World.map v.view) (w.step input) := by
  cases input with
  | call clock op =>
    unfold World.step
    rcases w with ⟨store, _ | state⟩
    · rfl
    · dsimp only [World.map]
      rw [v.lookupIdempotency, v.executePlan, v.settle]
  | restart clock config =>
    unfold World.step
    dsimp only [World.map]
    rw [v.load, v.executePlan, v.settle]

end StoreView

/-- What a step does to a store: nothing, or one transition. -/
theorem World.store_step {S : Type} [LedgerStore S] [Sha256] (w : World S) (input : Input) :
    (w.step input).2.store = w.store
      ∨ ∃ expected t,
        (w.step input).2.store = (LedgerStore.compareAndSwap w.store expected t).2 := by
  have hexecute : ∀ (before : Option ProducerState) (plan : Except ProducerError Plan),
      (World.settle before (executePlan w.store plan)).2.store = w.store
        ∨ ∃ expected t, (World.settle before (executePlan w.store plan)).2.store
          = (LedgerStore.compareAndSwap w.store expected t).2 := by
    intro before plan
    cases plan with
    | error error => exact .inl rfl
    | ok plan =>
      cases plan with
      | done state reply => exact .inl rfl
      | commit expected t reply =>
        refine .inr ⟨expected, t, ?_⟩
        simp only [executePlan, Plan.execute]
        rcases LedgerStore.compareAndSwap w.store expected t with ⟨error | _, _⟩ <;> rfl
  cases input with
  | call clock op =>
    unfold World.step
    cases w.producer with
    | none => exact .inl rfl
    | some state => exact hexecute _ _
  | restart clock config => exact hexecute _ _

/-! ## The gateway -/

/-- The tables with the queue, in a transaction that started at the given time. -/
structure Transaction where
  pipeline : Pipeline
  now : Timestamp

instance : LedgerStore Transaction where
  load transaction := transaction.pipeline.store.load
  lookupIdempotency transaction := LedgerStore.lookupIdempotency transaction.pipeline.store
  compareAndSwap transaction expected t :=
    let (result, pipeline) := transaction.pipeline.compareAndSwap transaction.now expected t
    (result, { transaction with pipeline })

/-- The producer reads the tables alone. -/
def Transaction.tables : StoreView Transaction PostgresLedgerStore where
  view transaction := transaction.pipeline.store
  load _ := rfl
  lookupIdempotency _ := rfl
  compareAndSwap transaction expected t := by
    simp only [LedgerStore.compareAndSwap, Pipeline.compareAndSwap, Prod.map]
    rcases transaction.pipeline.store.compareAndSwap expected t with ⟨error | _, _⟩ <;> rfl

/-- A worker's transaction, or a response that is attached from outside. -/
inductive WorkerInput where
  | claimTimestamp (now : Timestamp) (locked : UInt64 → Bool)
  | finishTimestamp (now : Timestamp) (claim : TimestampClaim) (result : Except String Bytes)
  | attachTimestamp (now : Timestamp) (number : UInt64) (digest : String) (response : Bytes)
      (generation : Option Int)

def WorkerInput.transaction : WorkerInput → PipelineInput
  | .claimTimestamp now locked => .claimTimestamp now locked
  | .finishTimestamp now claim result => .finishTimestamp now claim result
  | .attachTimestamp now number digest response generation =>
    .attachTimestamp now number digest response generation

inductive GatewayInput where
  | produce (now : Timestamp) (input : Input)
  | work (input : WorkerInput)

inductive GatewayAnswer where
  | produced (answer : Answer)
  | worked (answer : PipelineAnswer)

structure Gateway where
  pipeline : Pipeline
  producer : Option ProducerState

namespace Gateway

/-- A gateway that has not started, on a ledger without rows. -/
def new (ledgerId : String) (limits : CapacityLimits) : Gateway := ⟨.new ledgerId limits, none⟩

/-- The producer's part of the gateway. -/
def world (g : Gateway) : World PostgresLedgerStore := ⟨g.pipeline.store, g.producer⟩

section

variable [Sha256]

def step (config : TimestampWorkerConfig) (g : Gateway) : GatewayInput → GatewayAnswer × Gateway
  | .produce now input =>
    let (answer, w) := World.step ⟨(⟨g.pipeline, now⟩ : Transaction), g.producer⟩ input
    (.produced answer, ⟨w.store.pipeline, w.producer⟩)
  | .work input =>
    let (answer, pipeline) := g.pipeline.step config input.transaction
    (.worked answer, { g with pipeline })

/-- Any number of transactions, on a ledger without rows. -/
def run (config : TimestampWorkerConfig) (ledgerId : String) (limits : CapacityLimits)
    (inputs : List GatewayInput) : Gateway × List (GatewayInput × GatewayAnswer) :=
  runTrace (step config) (new ledgerId limits) inputs

variable {config : TimestampWorkerConfig} {g : Gateway}

/-- A producer's input is a step of the world. -/
theorem world_produce (now : Timestamp) (input : Input) :
    (g.step config (.produce now input)).2.world = (g.world.step input).2 := by
  have hview := Transaction.tables.step ⟨⟨g.pipeline, now⟩, g.producer⟩ input
  exact (congrArg Prod.snd hview).symm

/-- To the queue, a producer's step is at most one transition. -/
theorem pipeline_produce (now : Timestamp) (input : Input) :
    (g.step config (.produce now input)).2.pipeline = g.pipeline
      ∨ ∃ expected t, (g.step config (.produce now input)).2.pipeline
        = (g.pipeline.compareAndSwap now expected t).2 := by
  rcases World.store_step (S := Transaction) ⟨⟨g.pipeline, now⟩, g.producer⟩ input
    with hsame | ⟨expected, t, hcas⟩
  · exact .inl (congrArg Transaction.pipeline hsame)
  · exact .inr ⟨expected, t, congrArg Transaction.pipeline hcas⟩

end

end Gateway

/-! ## What workers write -/

/-- The same rows but for the timestamps of the segments and the usage. -/
structure Restamped (store store' : PostgresLedgerStore) : Prop where
  ledgerId : store'.ledgerId = store.ledgerId
  ledgerState : store'.tables.ledgerState = store.tables.ledgerState
  openRecord : store'.tables.openRecord = store.tables.openRecord
  sealedSegment : ∀ n : UInt64, store'.tables.sealedSegment[n]?.map SegmentRow.artifact
    = store.tables.sealedSegment[n]?.map SegmentRow.artifact
  sealedRecord : store'.tables.sealedRecord = store.tables.sealedRecord
  idempotency : store'.tables.idempotency = store.tables.idempotency
  pipelineUsage : store.tables.pipelineUsage = none → store'.tables.pipelineUsage = none

namespace Restamped

variable {store store' store'' : PostgresLedgerStore} {p : Pipeline}

theorem refl (store : PostgresLedgerStore) : Restamped store store :=
  ⟨rfl, rfl, rfl, fun _ => rfl, rfl, rfl, id⟩

theorem trans (h : Restamped store store') (h' : Restamped store' store'') :
    Restamped store store'' where
  ledgerId := h'.ledgerId.trans h.ledgerId
  ledgerState := h'.ledgerState.trans h.ledgerState
  openRecord := h'.openRecord.trans h.openRecord
  sealedSegment n := (h'.sealedSegment n).trans (h.sealedSegment n)
  sealedRecord := h'.sealedRecord.trans h.sealedRecord
  idempotency := h'.idempotency.trans h.idempotency
  pipelineUsage hnone := h'.pipelineUsage (h.pipelineUsage hnone)

/-- An update that leaves the artifact of its segment as it is. -/
theorem update {number : UInt64} {row : QueueRow}
    (h : p.store.tables.sealedSegment[number]?.map SegmentRow.artifact
      = some row.segment.artifact) : Restamped p.store (p.update number row).store := by
  obtain ⟨old, hold, hartifact⟩ := Option.map_eq_some_iff.mp h
  have htables : (p.update number row).store.tables
      = { p.store.tables with
          sealedSegment := p.store.tables.sealedSegment.insert number row.segment
          pipelineUsage :=
            p.store.tables.pipelineUsage.map (accountSegment (some old) (some row.segment)) } := by
    simp only [Pipeline.update, Tables.updateSegment, hold]
  refine ⟨rfl, by rw [htables], by rw [htables], ?_, by rw [htables], by rw [htables], ?_⟩
  · intro n
    simp only [htables, Std.ExtTreeMap.getElem?_insert, Std.LawfulEqCmp.compare_eq_iff_eq]
    split_ifs with heq
    · rw [← heq, hold, Option.map_some, Option.map_some, hartifact]
    · rfl
  · intro hnone
    rw [htables]
    simp only [hnone, Option.map_none]

/-- A row of the queue is that of a sealed segment. -/
theorem artifact_of_row? {number : UInt64} {row : QueueRow} (h : p.row? number = some row) :
    p.store.tables.sealedSegment[number]?.map SegmentRow.artifact = some row.segment.artifact := by
  rw [(Pipeline.row?_eq_some.mp h).1, Option.map_some]

/-- A row may get its response: the artifacts stay. -/
theorem stamp {number : UInt64} {row row' : QueueRow} (h : p.row? number = some row)
    (hartifact : row.segment.artifact = row'.segment.artifact) :
    Restamped p.store (p.update number row').store :=
  update (hartifact ▸ artifact_of_row? h)

/-- The sweep leaves the artifacts as they are. -/
theorem swept (p : Pipeline) (now : Timestamp) (locked : UInt64 → Bool) (maxAttempts : UInt32) :
    Restamped p.store (p.swept now locked maxAttempts).store := by
  have hrows : ∀ entry ∈ (p.select locked fun row => row.exhausted maxAttempts now).take 100,
      p.row? entry.1 = some entry.2 := fun entry hentry =>
    (Pipeline.mem_select.mp (List.mem_of_mem_take hentry)).1
  refine List.foldlRecOn _ _ (motive := fun (after : Pipeline) => Restamped p.store after.store)
    (refl _) ?_
  intro after hafter entry hentry
  refine hafter.trans (update ?_)
  rw [hafter.sealedSegment, artifact_of_row? (hrows entry hentry)]
  rfl

/-- A finished claim changes no artifact. -/
theorem finishTimestampTarget (p : Pipeline) (now : Timestamp) (number : UInt64) (digest : String)
    (generation : Option Int) (result : Except String Bytes) (config : TimestampWorkerConfig) :
    Restamped p.store
      (p.finishTimestampTarget now number digest generation result config).2.store := by
  unfold Pipeline.finishTimestampTarget
  cases htarget : p.row? number with
  | none => exact refl _
  | some target =>
    dsimp only
    split_ifs
    · exact refl _
    · exact refl _
    · exact refl _
    · cases result with
      | ok response =>
        dsimp only
        split_ifs
        · exact refl _
        · exact stamp htarget rfl
      | error error => exact stamp htarget rfl

/-- A worker's transaction restamps the tables. -/
theorem work (config : TimestampWorkerConfig) (p : Pipeline) (input : WorkerInput) :
    Restamped p.store (p.step config input.transaction).2.store := by
  cases input with
  | finishTimestamp now claim result => exact finishTimestampTarget p now _ _ _ result config
  | attachTimestamp now number digest response generation =>
    have hfinished := finishTimestampTarget p now number digest generation (.ok response) .default
    show Restamped p.store (p.attachTimestamp now number digest response generation).2.store
    unfold Pipeline.attachTimestamp
    generalize p.finishTimestampTarget now number digest generation (.ok response) .default
      = finished at hfinished ⊢
    obtain ⟨result, after⟩ := finished
    rcases result with error | (_ | _) <;> exact hfinished
  | claimTimestamp now locked =>
    have hswept := swept p now locked config.maxAttempts
    show Restamped p.store (p.claimTimestamp now locked config.maxAttempts).2.store
    rcases p.claimTimestamp_eq now locked config.maxAttempts with hidle |
      ⟨number, target, claim, htarget, -, -, -, -, hclaim⟩
    · rw [hidle]
      exact hswept
    · rw [hclaim]
      exact hswept.trans (stamp htarget rfl)

/-- Tables without rows stay without rows. -/
theorem empty (h : Restamped store store') (hempty : store.tables = Tables.empty) :
    store'.tables = Tables.empty := by
  have hsegments : store'.tables.sealedSegment = ∅ := by
    refine Std.ExtTreeMap.ext_getElem? fun n => ?_
    have hn := h.sealedSegment n
    rw [hempty] at hn
    simpa [Tables.empty] using hn
  have hledger := h.ledgerState
  have hopen := h.openRecord
  have hsealed := h.sealedRecord
  have hidempotency := h.idempotency
  have husage := h.pipelineUsage (by rw [hempty]; rfl)
  rw [hempty] at hledger hopen hsealed hidempotency
  calc store'.tables = ⟨store'.tables.ledgerState, store'.tables.openRecord,
        store'.tables.sealedSegment, store'.tables.sealedRecord, store'.tables.idempotency,
        store'.tables.pipelineUsage⟩ := rfl
    _ = Tables.empty := by rw [hledger, hopen, hsegments, hsealed, hidempotency, husage]; rfl

end Restamped

/-- The producer does not see what workers write. -/
theorem Agrees.restamped {store store' : PostgresLedgerStore} {state : ProducerState}
    {segments : List SealedSegment} (h : Agrees store state segments)
    (hrestamped : Restamped store store') : Agrees store' state segments where
  ledgerId := h.ledgerId.trans hrestamped.ledgerId.symm
  ledgerState := hrestamped.ledgerState.trans h.ledgerState
  openRecord := hrestamped.openRecord ▸ h.openRecord
  openLength := h.openLength
  sealedSegment n := (hrestamped.sealedSegment n).trans (h.sealedSegment n)
  sealedRecord number ordinal := by rw [hrestamped.sealedRecord, h.sealedRecord]

/-! ## Runs of the gateway -/

/-- Every segment of the tables has a job, and its columns fit together. -/
def Queued (config : TimestampWorkerConfig) (p : Pipeline) : Prop :=
  ∀ n segment, p.store.tables.sealedSegment[n]? = some segment →
    ∃ row, p.row? n = some row ∧ JobInvariant config row

/-- The tables, the producer and the queue fit together. -/
structure GatewayInvariant [Sha256] (config : TimestampWorkerConfig)
    (P : ProducerState → List SealedSegment → Prop) (g : Gateway) : Prop where
  ledger : PostgresInvariant P g.world
  queued : Queued config g.pipeline

namespace Queued

variable {config : TimestampWorkerConfig} {p : Pipeline}

/-- A commit keeps the queue in order. -/
theorem compareAndSwap (h : Queued config p) (now : Timestamp) (expected : Option UInt64)
    (t : LedgerTransition) : Queued config (p.compareAndSwap now expected t).2 := by
  unfold Pipeline.compareAndSwap PostgresLedgerStore.compareAndSwap
  cases htransact : p.store.transact expected t with
  | error error => exact h
  | ok tables =>
    obtain ⟨stated, sealed, closed, admitted, hwrites⟩ := transact_eq_ok htransact
    obtain ⟨hrows, hnew⟩ := hwrites.sealedSegment
    intro n segment hsegment
    dsimp only at hsegment ⊢
    rw [hrows] at hsegment
    cases hrow : newRow t.sealed n with
    | none =>
      rw [hrow, Option.or_none] at hsegment
      obtain ⟨row, hold, hinvariant⟩ := h n segment hsegment
      obtain ⟨hstored, hjob⟩ := Pipeline.row?_eq_some.mp hold
      refine ⟨row, Pipeline.row?_eq_some.mpr ⟨?_, ?_⟩, hinvariant⟩
      · rw [hrows, hrow, Option.or_none, hstored]
      · rw [Pipeline.getElem?_insertedJobs, hrow]
        exact hjob
    | some new =>
      obtain ⟨sealedNew, hfind, rfl⟩ := Option.map_eq_some_iff.mp hrow
      have hnumber : sealedNew.segmentNumber = n := by simpa using List.find?_some hfind
      have hnone := hnew sealedNew (List.mem_of_find?_eq_some hfind)
      rw [hnumber] at hnone
      refine ⟨⟨Tables.segmentRow sealedNew, .inserted now⟩, Pipeline.row?_eq_some.mpr ⟨?_, ?_⟩,
        .inserted config sealedNew now⟩
      · rw [hrows, hrow, hnone, Option.none_or]
      · rw [Pipeline.getElem?_insertedJobs, hrow]
        rfl

theorem work (h : Queued config p) (input : WorkerInput) :
    Queued config (p.step config input.transaction).2 := by
  intro n segment hsegment
  have hartifact := (Restamped.work config p input).sealedSegment n
  rw [hsegment, Option.map_some] at hartifact
  obtain ⟨old, hold, -⟩ := Option.map_eq_some_iff.mp hartifact.symm
  obtain ⟨row, hrow, hinvariant⟩ := h n old hold
  obtain ⟨row', hrow', hstep⟩ := p.step_row config input.transaction hrow
  exact ⟨row', hrow', hinvariant.step hstep.step⟩

end Queued

namespace Gateway

variable [Sha256] {config : TimestampWorkerConfig} {g : Gateway}
variable {P : ProducerState → List SealedSegment → Prop}

/-- Every input of the gateway keeps the queue in order. -/
theorem queued_step (h : Queued config g.pipeline) (input : GatewayInput) :
    Queued config (g.step config input).2.pipeline := by
  cases input with
  | work input => exact h.work input
  | produce now input =>
    rcases @pipeline_produce _ config g now input with hsame | ⟨expected, t, hcas⟩
    · rw [hsame]
      exact h
    · rw [hcas]
      exact h.compareAndSwap now expected t

/-- A ledger stays, and keeps what its committed transitions keep. -/
theorem standing_step (h : Standing P g.world)
    (hP : ∀ {state : ProducerState} {segments : List SealedSegment}
      {admitted : List (Bytes × UInt64)} {t : LedgerTransition}, P state segments →
      Commits state admitted t → P t.nextState (segments ++ t.sealed))
    (input : GatewayInput) : Standing P (g.step config input).2.world := by
  obtain ⟨state, segments, hagrees, hchained, hholds, hsame⟩ := h
  cases input with
  | work input =>
    exact ⟨state, segments, hagrees.restamped (.work config g.pipeline input), hchained,
      hholds, hsame⟩
  | produce now input =>
    rw [world_produce]
    exact hagrees.step hchained hP hholds hsame input

/-- Every input of the gateway keeps its invariant. A producer's input is a step of the world, a
worker's changes no artifact. -/
theorem invariant_step (h : GatewayInvariant config P g) (hP : KeptByCommits P)
    (input : GatewayInput) : GatewayInvariant config P (g.step config input).2 := by
  refine ⟨?_, queued_step h.queued input⟩
  cases input with
  | produce now input =>
    rw [world_produce]
    exact h.ledger.step hP input
  | work input =>
    have hrestamped := Restamped.work config g.pipeline input
    cases h.ledger with
    | blank htables hnone => exact .blank (hrestamped.empty htables) hnone
    | ledger hagrees hchained hholds hsame =>
      exact .ledger (hagrees.restamped hrestamped) hchained hholds hsame

/-- The tables, the producer and the queue fit together after every run. -/
theorem run_invariant (hP : KeptByCommits P) (config : TimestampWorkerConfig) (ledgerId : String)
    (limits : CapacityLimits) (inputs : List GatewayInput) :
    GatewayInvariant config P (run config ledgerId limits inputs).1 := by
  refine runTrace_induction (P := fun g _ => GatewayInvariant config P g) ?_ ?_ inputs
  · refine ⟨.blank rfl rfl, ?_⟩
    intro n segment hsegment
    simp [new, Pipeline.new, PostgresLedgerStore.new, Tables.empty] at hsegment
  · intro g trace input h
    exact invariant_step h hP input

/-- Sealed segments stay. -/
theorem standing_later {state : ProducerState} {segments : List SealedSegment}
    (h : Agrees g.world.store state segments) (hchained : Chained state segments)
    (hsame : ∀ state', g.producer = some state' → state' = state) (later : List GatewayInput) :
    Standing (fun _ segments' => segments <+: segments')
      (runTrace (step config) g later).1.world := by
  refine runTrace_induction (P := fun (g' : Gateway) _ =>
    Standing (fun _ segments' => segments <+: segments') g'.world)
    ⟨state, segments, h, hchained, List.prefix_rfl, hsame⟩ ?_ later
  intro g' trace input hstanding
  exact standing_step hstanding
    (fun hprefix _ => hprefix.trans (List.prefix_append _ _)) input

/-- Every segment still has a job. -/
theorem queued_later (h : Queued config g.pipeline) (later : List GatewayInput) :
    Queued config (runTrace (step config) g later).1.pipeline :=
  runTrace_induction (P := fun (g' : Gateway) _ => Queued config g'.pipeline) h
    (fun _ _ input hqueued => queued_step hqueued input) later

/-- A row stays, and continues. -/
theorem row?_step {n : UInt64} {row : QueueRow} (hrow : g.pipeline.row? n = some row)
    (input : GatewayInput) :
    ∃ row', (g.step config input).2.pipeline.row? n = some row' ∧ Continues row row' := by
  cases input with
  | work input =>
    obtain ⟨row', hrow', hstep⟩ := g.pipeline.step_row config input.transaction hrow
    exact ⟨row', hrow', hstep.step.continues⟩
  | produce now input =>
    rcases @pipeline_produce _ config g now input with hsame | ⟨expected, t, hcas⟩
    · exact ⟨row, hsame ▸ hrow, .refl row⟩
    · rw [hcas]
      rcases g.pipeline.row?_compareAndSwap now expected t n with hsame | ⟨hnone, -⟩
      · exact ⟨row, hsame.trans hrow, .refl row⟩
      · rw [hrow] at hnone
        cases hnone

/-- A row stays, and what it has settled stays as it is. -/
theorem row?_later {n : UInt64} {row : QueueRow} (hrow : g.pipeline.row? n = some row)
    (later : List GatewayInput) :
    ∃ row', (runTrace (step config) g later).1.pipeline.row? n = some row'
      ∧ Continues row row' := by
  refine runTrace_induction (P := fun (g' : Gateway) _ =>
    ∃ row', g'.pipeline.row? n = some row' ∧ Continues row row') ⟨row, hrow, .refl row⟩ ?_ later
  rintro g' trace input ⟨row', hrow', hcontinues⟩
  obtain ⟨row'', hrow'', hlater⟩ := @row?_step _ config _ _ _ hrow' input
  exact ⟨row'', hrow'', hcontinues.trans hlater⟩

/-- The store stays that of its ledger. -/
theorem ledgerId_later (g : Gateway) (later : List GatewayInput) :
    (runTrace (step config) g later).1.pipeline.store.ledgerId = g.pipeline.store.ledgerId := by
  refine runTrace_induction (P := fun (g' : Gateway) _ =>
    g'.pipeline.store.ledgerId = g.pipeline.store.ledgerId) rfl ?_ later
  intro g' trace input h
  cases input with
  | work input => exact (Restamped.work config g'.pipeline input).ledgerId.trans h
  | produce now input =>
    rcases @pipeline_produce _ config g' now input with hsame | ⟨expected, t, hcas⟩
    · rw [hsame]
      exact h
    · rw [hcas, ← h]
      simp only [Pipeline.compareAndSwap, PostgresLedgerStore.compareAndSwap]
      cases g'.pipeline.store.transact expected t <;> rfl

/-! ## A sample -/

omit [Sha256] in
/-- A producer is opened, admits a record and closes its interval. -/
def sampleSealing : List GatewayInput :=
  (World.sampleInputs ++ [Input.call ⟨.ok 1050, 7, 7⟩ (.close .manual)]).map (.produce 0)

end Gateway

end TrackOne
