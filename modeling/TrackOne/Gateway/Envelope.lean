import TrackOne.Lib.Slice
import TrackOne.Lib.SplitTree
import TrackOne.Gateway.Runs

/-!
# Batch envelopes and replays

`parse_batch_envelope` of `trackone-gateway-svc/src/service.rs` reads the body of a batch request: a
CBOR array of byte strings, with every length in shortest form. The two routes of the gateway keep
their requests under one key space: a single record is identified by its own hash, a batch by the
hash of its envelope.

* `parseBatchEnvelope_length_lt`: a record of an envelope is shorter than the envelope, so no
  envelope is a batch of itself; `parseBatchEnvelope_of_canonical`: no canonical record is an
  envelope.
* `World.run_replay_envelope`: a replay acknowledges the records that were presented, unless a
  single record is the envelope of the batch that was accepted under its key.
-/

namespace TrackOne

/-! ## The parser -/

inductive BatchEnvelopeError where
  | limit
  | malformed (message : String)
deriving DecidableEq, Repr

/-- The big-endian number at an offset, and the offset after it. -/
def readUint (bytes : Bytes) (offset width : Nat) : Except BatchEnvelopeError (Nat × Nat) := do
  let stop ← Except.ofOption (.malformed "CBOR length overflows") (checkedAddUsize offset width)
  let slice ← Except.ofOption (.malformed "truncated CBOR length") (getRange bytes offset stop)
  pure (ofBeBytes slice, stop)

/-- The argument of an initial byte: its value, its width in bytes and the offset after it. -/
def readArgument (bytes : Bytes) (offset : Nat) (additional : UInt8) :
    Except BatchEnvelopeError (Nat × Nat × Nat) :=
  if additional ≤ 23 then .ok (additional.toNat, 0, offset)
  else if additional = 24 then do
    let (length, offset) ← readUint bytes offset 1
    pure (length, 1, offset)
  else if additional = 25 then do
    let (length, offset) ← readUint bytes offset 2
    pure (length, 2, offset)
  else if additional = 26 then do
    let (length, offset) ← readUint bytes offset 4
    pure (length, 4, offset)
  else if additional = 27 then do
    let (length, offset) ← readUint bytes offset 8
    pure (length, 8, offset)
  else .error (.malformed "indefinite or reserved CBOR length")

def readCborLen (bytes : Bytes) (offset : Nat) (expectedMajor : UInt8) :
    Except BatchEnvelopeError (Nat × Nat) := do
  let initial ← Except.ofOption (.malformed "truncated CBOR envelope") bytes[offset]?
  Except.require (.malformed "batch must be a definite array of byte strings")
    (initial >>> 5 = expectedMajor)
  let (length, width, offset) ← readArgument bytes (offset + 1) (initial &&& 0x1f)
  Except.require (.malformed "CBOR envelope length is not shortest-form")
    (¬ (width = 1 ∧ length < 24 ∨ width = 2 ∧ length ≤ 2 ^ 8 - 1
      ∨ width = 4 ∧ length ≤ 2 ^ 16 - 1 ∨ width = 8 ∧ length ≤ 2 ^ 32 - 1))
  pure (length, offset)

/-- The loop over the records. -/
def readRecords (bytes : Bytes) : Nat → Nat → Except BatchEnvelopeError (List Bytes × Nat)
  | 0, offset => .ok ([], offset)
  | count + 1, offset => do
    let (length, offset) ← readCborLen bytes offset 2
    let stop ← Except.ofOption (.malformed "record length overflows")
      (checkedAddUsize offset length)
    let record ← Except.ofOption (.malformed "truncated record byte string")
      (getRange bytes offset stop)
    let (records, offset) ← readRecords bytes count stop
    pure (record :: records, offset)

def parseBatchEnvelope (bytes : Bytes) (maxRecords : Nat) :
    Except BatchEnvelopeError (List Bytes) := do
  let (count, offset) ← readCborLen bytes 0 4
  Except.require (.malformed "batch must not be empty") (count ≠ 0)
  Except.require .limit (count ≤ maxRecords)
  let (records, offset) ← readRecords bytes count offset
  Except.require (.malformed "batch envelope has trailing bytes") (offset = bytes.length)
  pure records

/-! ## What an envelope determines -/

variable {bytes : Bytes} {maxRecords : Nat} {records : List Bytes}

/-- Inversion of the parser. -/
theorem parseBatchEnvelope_eq_ok :
    parseBatchEnvelope bytes maxRecords = .ok records
      ↔ ∃ count offset, readCborLen bytes 0 4 = .ok (count, offset) ∧ count ≠ 0
        ∧ count ≤ maxRecords ∧ readRecords bytes count offset = .ok (records, bytes.length) := by
  simp only [parseBatchEnvelope, Except.bind_eq_ok, Except.require_eq_ok, decide_eq_true_eq]
  constructor
  · rintro ⟨⟨count, offset⟩, hhead, -, hcount, -, hlimit, ⟨records', offset'⟩, hrecords, -, rfl, h⟩
    cases h
    exact ⟨count, offset, hhead, hcount, hlimit, hrecords⟩
  · rintro ⟨count, offset, hhead, hcount, hlimit, hrecords⟩
    exact ⟨(count, offset), hhead, (), hcount, (), hlimit, (records, bytes.length), hrecords, (),
      rfl, rfl⟩

/-- The limit on the number of records decides whether an envelope is read, not how. -/
theorem parseBatchEnvelope_unique {maxRecords' : Nat} {records' : List Bytes}
    (h : parseBatchEnvelope bytes maxRecords = .ok records)
    (h' : parseBatchEnvelope bytes maxRecords' = .ok records') : records = records' := by
  obtain ⟨count, offset, hhead, -, -, hrecords⟩ := parseBatchEnvelope_eq_ok.mp h
  obtain ⟨count', offset', hhead', -, -, hrecords'⟩ := parseBatchEnvelope_eq_ok.mp h'
  rw [hhead] at hhead'
  cases hhead'
  rw [hrecords] at hrecords'
  cases hrecords'
  rfl

theorem readUint_offset {offset width value next : Nat}
    (h : readUint bytes offset width = .ok (value, next)) :
    offset ≤ next ∧ next ≤ bytes.length := by
  simp only [readUint, Except.bind_eq_ok, Except.ofOption_eq_ok, checkedAddUsize_eq_some] at h
  obtain ⟨stop, ⟨-, hstop⟩, slice, hslice, h⟩ := h
  cases h
  obtain ⟨hle, hend, -⟩ := getRange_eq_some hslice
  exact ⟨hle, hend⟩

theorem readArgument_offset {offset value width next : Nat} {additional : UInt8}
    (h : readArgument bytes offset additional = .ok (value, width, next))
    (hoffset : offset ≤ bytes.length) : offset ≤ next ∧ next ≤ bytes.length := by
  unfold readArgument at h
  split_ifs at h
  · cases h
    exact ⟨Nat.le_refl _, hoffset⟩
  all_goals
    simp only [Except.bind_eq_ok] at h
    obtain ⟨⟨value', next'⟩, hread, h⟩ := h
    cases h
    exact readUint_offset hread

/-- Reading a head moves the offset, and stays within the bytes. -/
theorem readCborLen_offset {offset length next : Nat} {major : UInt8}
    (h : readCborLen bytes offset major = .ok (length, next)) :
    offset < next ∧ next ≤ bytes.length := by
  simp only [readCborLen, Except.bind_eq_ok, Except.ofOption_eq_ok] at h
  obtain ⟨initial, hinitial, -, -, ⟨value, width, next'⟩, hargument, -, -, h⟩ := h
  cases h
  obtain ⟨hlt, -⟩ := List.getElem?_eq_some_iff.mp hinitial
  exact readArgument_offset hargument hlt

theorem readRecords_length_lt {count offset next : Nat} (hoffset : 0 < offset)
    (h : readRecords bytes count offset = .ok (records, next)) :
    ∀ record ∈ records, record.length < bytes.length := by
  induction count generalizing offset records with
  | zero =>
    cases h
    simp
  | succ count ih =>
    simp only [readRecords, Except.bind_eq_ok, Except.ofOption_eq_ok, checkedAddUsize_eq_some] at h
    obtain ⟨⟨length, start⟩, hhead, stop, ⟨-, hstop⟩, record, hrecord, ⟨rest, last⟩, hrest, h⟩ := h
    cases h
    obtain ⟨hstart, -⟩ := readCborLen_offset hhead
    obtain ⟨hle, hend, hlength⟩ := getRange_eq_some hrecord
    dsimp only at hstop hle hlength hrest
    exact List.forall_mem_cons.mpr ⟨by omega, ih (by omega) hrest⟩

/-- A record of an envelope is shorter than the envelope. -/
theorem parseBatchEnvelope_length_lt (h : parseBatchEnvelope bytes maxRecords = .ok records) :
    ∀ record ∈ records, record.length < bytes.length := by
  obtain ⟨count, offset, hhead, -, -, hrecords⟩ := parseBatchEnvelope_eq_ok.mp h
  obtain ⟨hoffset, -⟩ := readCborLen_offset hhead
  exact readRecords_length_lt hoffset hrecords

/-- An envelope is not a batch of itself. -/
theorem parseBatchEnvelope_ne_self (h : parseBatchEnvelope bytes maxRecords = .ok records) :
    records ≠ [bytes] := by
  rintro rfl
  have hlength := parseBatchEnvelope_length_lt h bytes (by simp)
  omega

/-- A canonical record is no envelope: it starts with its version, which is not a byte string. -/
theorem parseBatchEnvelope_of_canonical {m : CanonicalRecordMetadataV1}
    (hcanonical : validateCanonicalRecord bytes = .ok m) :
    parseBatchEnvelope bytes maxRecords ≠ .ok records := by
  intro h
  obtain ⟨-, payload, -, hbytes⟩ := validateCanonicalRecord_eq_ok.mp hcanonical
  have hstart : ∃ rest, bytes = 0x87 :: 0x01 :: rest := by
    rw [hbytes, encode_recordItem]
    exact ⟨_, rfl⟩
  obtain ⟨rest, rfl⟩ := hstart
  have hhead : readCborLen (0x87 :: 0x01 :: rest) 0 4 = .ok (7, 1) := rfl
  obtain ⟨count, offset, hhead', -, -, hrecords⟩ := parseBatchEnvelope_eq_ok.mp h
  rw [hhead] at hhead'
  cases hhead'
  have herror : readCborLen (0x87 :: 0x01 :: rest) 1 2
      = .error (.malformed "batch must be a definite array of byte strings") := rfl
  simp only [readRecords, herror, bind, Except.bind] at hrecords
  cases hrecords

/-! ## Replays -/

/-- The bytes whose hash identifies an idempotent request. -/
def Operation.requestBytes : Operation → Option Bytes
  | .admitIdempotent _ record => some record
  | .admitBatchIdempotent _ _ canonicalEnvelope => some canonicalEnvelope
  | _ => none

/-- The byte strings that the requests of a run are identified by. -/
def hashedBy (inputs : List Input) : List Bytes :=
  inputs.filterMap fun input =>
    match input with
    | .call _ op => op.requestBytes
    | .restart _ _ => none

/-- The records of a batch request are those of its envelope, as `admit_batch` reads them. -/
def Input.EnvelopeParsed : Input → Prop
  | .call _ (.admitBatchIdempotent _ records canonicalEnvelope) =>
    ∃ maxRecords, parseBatchEnvelope canonicalEnvelope maxRecords = .ok records
  | _ => True

/-- A single record is the envelope of a batch that was accepted under its key. -/
def Confuses (trace : List (Input × Answer)) (op : Operation) : Prop :=
  ∃ key canonicalEnvelope clock records outcome, op = .admitIdempotent key canonicalEnvelope
    ∧ (Input.call clock (.admitBatchIdempotent key records canonicalEnvelope),
        some (.ok (.admitted outcome))) ∈ trace
    ∧ outcome.replayed = false

section Replays

variable [Sha256]

/-- An idempotent request is identified by the hash of its bytes. -/
theorem Operation.requestBytes_of_admission {op : Operation} {key digest : String}
    (hop : op.admission = some (records, some (key, digest))) :
    ∃ bytes, op.requestBytes = some bytes ∧ digest = sha256Hex bytes := by
  cases op with
  | admitIdempotent key' record =>
    cases hop
    exact ⟨record, rfl, rfl⟩
  | admitBatchIdempotent key' records' canonicalEnvelope =>
    cases hop
    exact ⟨canonicalEnvelope, rfl, rfl⟩
  | _ => cases hop

/-- A replay answers a request whose key and digest are those of an accepted call. -/
theorem WorldInvariant.of_replay {w : World MemoryLedgerStore} {trace : List (Input × Answer)}
    {clock : ClockReadings} {op : Operation} {key digest : String} {outcome : AdmissionOutcome}
    (h : WorldInvariant w trace) (hsourced : Sourced w.store (acceptedOf trace))
    (hop : op.admission = some (records, some (key, digest)))
    (hanswer : (w.step (.call clock op)).1 = some (.ok (.admitted outcome)))
    (hreplayed : outcome.replayed = true) :
    (∃ call ∈ acceptedOf trace, call.key? = some key)
      ∧ ∀ call ∈ acceptedOf trace, call.key? = some key → call.request = some (key, digest) := by
  generalize hafter : (w.step (.call clock op)).2 = after
  have hstepped := w.step_stepped (.call clock op)
  rw [hafter, hanswer] at hstepped
  cases hstepped with
  | @called _ _ state next plan _ store hproducer hplan hexecute =>
  -- only a lookup is answered so
  have hexisting : ∃ existing, w.store.idempotency[key]? = some existing
      ∧ existing.requestSha256 = digest := by
    have hplanned := Operation.plan_planned hplan
    cases plan with
    | done next' reply' =>
      cases hexecute
      cases hplanned with
      | idle hreply => exact absurd rfl (hreply outcome)
      | replayed hop' hlookup hdigest =>
        rw [hop] at hop'
        cases hop'
        simp only [LedgerStore.lookupIdempotency, Except.ok.injEq] at hlookup
        exact ⟨_, hlookup, hdigest⟩
    | commit expected t reply' =>
      obtain ⟨-, -, -, rfl, -⟩ := execute_commit hexecute
      cases hplanned with
      | maintained _ _ _ _ hreply => exact absurd rfl (hreply outcome)
      | admitted _ _ _ _ _ _ houtcome =>
        rw [houtcome.replayed] at hreplayed
        cases hreplayed
  obtain ⟨existing, hkept, hdigest⟩ := hexisting
  refine ⟨hsourced.keys key existing hkept, ?_⟩
  intro call hcall hkey
  obtain ⟨⟨key', digest'⟩, hrequest, rfl⟩ := Option.map_eq_some_iff.mp hkey
  obtain ⟨segments, -, -, hledger⟩ := h.store.of_state (h.producer state hproducer)
  obtain ⟨existing', hkept', hdigest', -⟩ := hledger.answered call hcall key' digest' hrequest
  rw [hkept] at hkept'
  cases hkept'
  rw [hrequest, ← hdigest, ← hdigest']

/-- Two accepted calls under one key are the same call. -/
theorem WorldInvariant.eq_of_key {w : World MemoryLedgerStore} {trace : List (Input × Answer)}
    {call call' : AcceptedCall} {key : String} (h : WorldInvariant w trace)
    (hcall : call ∈ acceptedOf trace) (hkey : call.key? = some key)
    (hcall' : call' ∈ acceptedOf trace) (hkey' : call'.key? = some key) : call' = call := by
  obtain ⟨before, after, haccepted, hother⟩ := h.store.split_key hcall hkey
  rw [haccepted, List.mem_append, List.mem_cons] at hcall'
  rcases hcall' with hbefore | rfl | hafter
  · exact absurd hkey' (hother call' (List.mem_append_left _ hbefore))
  · rfl
  · exact absurd hkey' (hother call' (List.mem_append_right _ hafter))

/-- One request answered for another with the same bytes: the records agree exactly when the two
are not confused. -/
theorem WorldInvariant.records_eq_iff {w : World MemoryLedgerStore}
    {trace : List (Input × Answer)} {call : AcceptedCall} {clock clock' : ClockReadings}
    {op op' : Operation} {key digest : String} (h : WorldInvariant w trace)
    (hsourced : Sourced w.store (acceptedOf trace))
    (hparsed : ∀ entry ∈ trace, entry.1.EnvelopeParsed)
    (hop : op.admission = some (records, some (key, digest)))
    (hopParsed : (Input.call clock op).EnvelopeParsed)
    (hcall : call ∈ acceptedOf trace) (hkey : call.key? = some key)
    (hentry : (Input.call clock' op', some (.ok (.admitted call.outcome))) ∈ trace)
    (hnew : call.outcome.replayed = false)
    (hop' : op'.admission = some (call.records, call.request))
    (hsame : op'.requestBytes = op.requestBytes) :
    call.records = records ↔ ¬ Confuses trace op := by
  obtain ⟨committed, request, outcome⟩ := call
  dsimp only at hentry hnew hop' ⊢
  have hopParsed' := hparsed _ hentry
  cases op with
  | admitIdempotent key' record =>
    cases hop
    cases op' with
    | admitIdempotent key' record' =>
      cases hop'
      cases hsame
      refine iff_of_true rfl ?_
      -- a batch that was accepted under the key would be this very call
      rintro ⟨_, _, clock'', records'', outcome'', ⟨rfl, rfl⟩, hbatch, hbatchNew⟩
      have haccepted : ⟨records'', some (key, sha256Hex record), outcome''⟩ ∈ acceptedOf trace :=
        mem_acceptedOf.mpr ⟨clock'', _, hbatch, rfl, hbatchNew⟩
      have hequal := h.eq_of_key hcall hkey haccepted rfl
      cases hequal
      obtain ⟨maxRecords, hparse⟩ := hparsed _ hbatch
      exact parseBatchEnvelope_ne_self hparse rfl
    | admitBatchIdempotent key' records' canonicalEnvelope =>
      cases hop'
      cases hsame
      obtain ⟨maxRecords, hparse⟩ := hopParsed'
      cases hkey
      exact iff_of_false (parseBatchEnvelope_ne_self hparse)
        (not_not.mpr ⟨_, _, clock', _, outcome, rfl, hentry, hnew⟩)
    | _ => cases hsame
  | admitBatchIdempotent key' records' canonicalEnvelope =>
    cases hop
    obtain ⟨maxRecords, hparse⟩ := hopParsed
    have hseparate : ¬ Confuses trace (.admitBatchIdempotent key records canonicalEnvelope) := by
      rintro ⟨_, _, _, _, _, hop, -⟩
      cases hop
    refine iff_of_true ?_ hseparate
    cases op' with
    | admitIdempotent key' record' =>
      cases hop'
      cases hsame
      -- the single record was checked when it was accepted
      obtain ⟨m, hcanonical⟩ := hsourced.canonical _ hcall canonicalEnvelope (by simp)
      exact absurd hparse (parseBatchEnvelope_of_canonical hcanonical)
    | admitBatchIdempotent key' records' canonicalEnvelope' =>
      cases hop'
      cases hsame
      obtain ⟨maxRecords', hparse'⟩ := hopParsed'
      exact parseBatchEnvelope_unique hparse' hparse
    | _ => cases hsame
  | _ => cases hop

namespace World

/-- A replay acknowledges the presented records, or two of the hashed byte strings collide, exactly
when the call does not present the envelope of the batch accepted under its key as a single record,
or the byte strings collide. The run is any run whose batch calls pass parsed envelopes, and the
call any call after it. -/
theorem run_replay_envelope (inputs : List Input) (clock : ClockReadings) (op : Operation)
    (records : List Bytes) (key digest : String) (outcome : AdmissionOutcome)
    (hparsed : ∀ input ∈ inputs ++ [.call clock op], input.EnvelopeParsed)
    (hop : op.admission = some (records, some (key, digest)))
    (hanswer : ((memoryRun inputs).1.step (.call clock op)).1 = some (.ok (.admitted outcome)))
    (hreplayed : outcome.replayed = true) :
    (∃ call ∈ acceptedOf (memoryRun inputs).2, call.key? = some key)
      ∧ ∀ call ∈ acceptedOf (memoryRun inputs).2, call.key? = some key →
        (call.records = records
            ∨ SplitTree.Collides sha256Digest (hashedBy (inputs ++ [.call clock op]))
          ↔ ¬ Confuses (memoryRun inputs).2 op
            ∨ SplitTree.Collides sha256Digest (hashedBy (inputs ++ [.call clock op]))) := by
  have h := run_invariant inputs
  have hsourced := run_sourced inputs
  obtain ⟨hexists, hrequests⟩ := h.of_replay hsourced hop hanswer hreplayed
  refine ⟨hexists, ?_⟩
  intro call hcall hkey
  obtain ⟨clock', op', hentry, hop', hnew⟩ := mem_acceptedOf.mp hcall
  have hinput : Input.call clock' op' ∈ inputs := by
    have hmem := List.mem_map_of_mem (f := Prod.fst) hentry
    rwa [memoryRun, run, map_fst_runTrace] at hmem
  have htrace : ∀ entry ∈ (memoryRun inputs).2, entry.1.EnvelopeParsed := by
    intro entry hentry
    have hmem := List.mem_map_of_mem (f := Prod.fst) hentry
    rw [memoryRun, run, map_fst_runTrace] at hmem
    exact hparsed _ (List.mem_append_left _ hmem)
  -- the two requests have the same digest
  have hrequest := hrequests call hcall hkey
  obtain ⟨bytes, hbytes, hdigest⟩ := Operation.requestBytes_of_admission hop
  obtain ⟨bytes', hbytes', hdigest'⟩ :=
    Operation.requestBytes_of_admission (hop'.trans (by rw [hrequest]))
  have hhash : sha256Digest bytes' = sha256Digest bytes :=
    sha256Hex_inj.mp (hdigest'.symm.trans hdigest)
  by_cases hsame : bytes' = bytes
  · have hiff := h.records_eq_iff hsourced htrace hop (hparsed (.call clock op) (by simp)) hcall
      hkey hentry hnew hop' (by rw [hbytes, hbytes', hsame])
    rw [hiff]
  · have hcollides : SplitTree.Collides sha256Digest (hashedBy (inputs ++ [.call clock op])) := by
      refine ⟨bytes', ?_, bytes, ?_, hsame, hhash⟩
      · exact List.mem_filterMap.mpr ⟨_, List.mem_append_left _ hinput, hbytes'⟩
      · exact List.mem_filterMap.mpr
          ⟨_, List.mem_append_right _ (List.mem_singleton.mpr rfl), hbytes⟩
    exact iff_of_true (.inr hcollides) (.inr hcollides)

omit [Sha256] in
/-- The envelope of a batch of one record. -/
def sampleEnvelope : Bytes := [0x81, 0x50] ++ sampleRecord

omit [Sha256] in
/-- A producer is opened and a batch is accepted. -/
def sampleBatch : List Input :=
  [sampleInputs.head (by simp [sampleInputs]),
    .call ⟨.ok 1000, 7, 7⟩ (.admitBatchIdempotent "key" [sampleRecord] sampleEnvelope)]

omit [Sha256] in
/-- The batch is presented again under its key. -/
theorem run_replay_envelope_batch :
    letI := Sha256.fips
    let call := Input.call ⟨.ok 1000, 7, 7⟩
      (.admitBatchIdempotent "key" [sampleRecord] sampleEnvelope)
    ∃ accepted ∈ acceptedOf (memoryRun sampleBatch).2, accepted.key? = some "key"
      ∧ (accepted.records = [sampleRecord]
        ∨ SplitTree.Collides sha256Digest (hashedBy (sampleBatch ++ [call]))) := by
  let := Sha256.fips
  intro call
  have hparse : parseBatchEnvelope sampleEnvelope 1 = .ok [sampleRecord] := by decide +kernel
  have hparsed : ∀ input ∈ sampleBatch ++ [call], input.EnvelopeParsed := by
    simpa [sampleBatch, sampleInputs, call, Input.EnvelopeParsed] using ⟨1, hparse⟩
  have hanswer : ((memoryRun sampleBatch).1.step call).1 = some (.ok (.admitted {
      stateRevision := 1, admittedSegmentNumber := 0, admittedRecordCount := 1
      admissionRuns := [⟨0, 1⟩], sealed := [], sealedSegmentNumbers := [],
      replayed := true })) := by
    decide +kernel
  obtain ⟨⟨accepted, haccepted, hkey⟩, hiff⟩ := run_replay_envelope sampleBatch _ _ [sampleRecord]
    "key" _ _ hparsed rfl hanswer rfl
  refine ⟨accepted, haccepted, hkey, (hiff accepted haccepted hkey).mpr (.inl ?_)⟩
  rintro ⟨_, _, _, _, _, hop, -⟩
  cases hop

omit [Sha256] in
/-- The envelope is presented as a single record under the key of its batch. It is no canonical
record, and it is acknowledged as a replay of the batch. -/
theorem run_replay_envelope_confused :
    letI := Sha256.fips
    let call := Input.call ⟨.ok 1000, 7, 7⟩ (.admitIdempotent "key" sampleEnvelope)
    parseBatchEnvelope sampleEnvelope 1 = .ok [sampleRecord]
      ∧ (acceptedOf (memoryRun sampleBatch).2).map (fun call => (call.key?, call.records))
          = [(some "key", [sampleRecord])]
      ∧ ((memoryRun sampleBatch).1.step call).1 = some (.ok (.admitted {
          stateRevision := 1, admittedSegmentNumber := 0, admittedRecordCount := 1
          admissionRuns := [⟨0, 1⟩], sealed := [], sealedSegmentNumbers := [], replayed := true }))
      ∧ [sampleRecord] ≠ [sampleEnvelope]
      ∧ ¬ SplitTree.Collides sha256Digest (hashedBy (sampleBatch ++ [call])) := by
  let := Sha256.fips
  intro call
  refine ⟨by decide +kernel, by decide +kernel, by decide +kernel, by decide, ?_⟩
  -- only the envelope is hashed
  have hhashed : hashedBy (sampleBatch ++ [call]) = [sampleEnvelope, sampleEnvelope] := rfl
  rintro ⟨x, hx, y, hy, hne, -⟩
  rw [hhashed] at hx hy
  simp only [List.mem_cons, List.not_mem_nil, or_false, or_self] at hx hy
  exact hne (hx.trans hy.symm)

end World

end Replays

end TrackOne
