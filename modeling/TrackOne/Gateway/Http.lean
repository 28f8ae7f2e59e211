import Mathlib.Data.List.DropRight
import TrackOne.Gateway.Gzip
import TrackOne.Gateway.Retelling
import TrackOne.Vtl.CanonicalCbor

/-!
# The admission routes

`trackone-gateway-svc/src/service.rs` in front of the producer: `require_bearer`, `admit`,
`admit_batch` and `admit_records`. A request is read from its headers and its body alone; what is
left of it is one call of the producer under the mutex, and for a replay that sealed segments a
second lock for the statuses of their timestamps.

* `HttpState.read`: everything a request is refused for before the producer is asked.
* `expand`: `expand_gzip` always has a result, so it is a function here.
* `admissionResponse` and `producerErrorResponse`: the answer of the producer as a response.
* `tsaStatus`: the statuses of the segments, as one word.
-/

namespace TrackOne.Http

open CCbor (JsonValue)

/-! ## Headers -/

/-- `HeaderMap`: the names in lowercase, with their values. -/
abbrev HeaderMap := List (String × Bytes)

/-- `HeaderValue::to_str`: visible ASCII characters, blanks and tabs. -/
def toStr (value : Bytes) : Option Bytes :=
  if value.all fun byte => (0x20 ≤ byte && byte < 0x7f) || byte == 0x09 then some value else none

/-- The first value of a header, as text. -/
def HeaderMap.getStr (headers : HeaderMap) (name : String) : Option Bytes :=
  (headers.lookup name).bind toStr

/-- Text that `to_str` has given, as a string. -/
def asciiString (text : Bytes) : String :=
  String.ofList (text.map fun byte => Char.ofNat byte.toNat)

def asciiLowercase (byte : UInt8) : UInt8 :=
  if 0x41 ≤ byte ∧ byte ≤ 0x5a then byte + 0x20 else byte

def eqIgnoreAsciiCase (a b : Bytes) : Bool := a.map asciiLowercase == b.map asciiLowercase

/-- The white space there is in such text. -/
def isBlank (byte : UInt8) : Bool := byte == 0x20 || byte == 0x09

def trim (text : Bytes) : Bytes := (text.dropWhile isBlank).rdropWhile isBlank

/-- `media_type`: what stands before the parameters. -/
def mediaType (headers : HeaderMap) : Option Bytes :=
  (headers.getStr "content-type").map fun value => trim (value.takeWhile (· ≠ 0x3b))

/-- `Prefer: return=minimal`, among other preferences. -/
def prefersMinimal (headers : HeaderMap) : Bool :=
  (headers.getStr "prefer").any fun value =>
    (value.splitOn 0x2c).any fun item => eqIgnoreAsciiCase (trim item) (utf8Bytes "return=minimal")

/-! ## Responses -/

structure Response where
  status : Nat
  headers : List (String × String)
  body : Option JsonValue

def errorResponse (status : Nat) (code message : String) : Response :=
  ⟨status, [], some (.object [
    ("error", .string code), ("message", .string message), ("ok", .bool false)])⟩

def unauthorizedResponse : Response :=
  { errorResponse 401 "unauthorized" "valid bearer authentication is required" with
    headers := [("www-authenticate", "Bearer realm=\"trackone-ingest\"")] }

/-- The code of an error without a status of its own. -/
def producerErrorCode : ProducerError → String
  | .queueCapacityExhausted => "queue_capacity_exhausted"
  | .storageCapacityExhausted => "storage_capacity_exhausted"
  | .storageUnavailable _ => "storage_unavailable"
  | _ => "producer_unavailable"

def producerErrorResponse : ProducerError → Response
  | .idempotencyConflict =>
    errorResponse 409 "idempotency_conflict"
      "Idempotency-Key was already used for different canonical bytes"
  | .invalidRecord message => errorResponse 422 "invalid_record" message
  | error =>
    ⟨503, [], some (.object [
      ("admission_available", .bool false), ("error", .string (producerErrorCode error)),
      ("message", .string error.toString), ("ok", .bool false)])⟩

/-- The response to a request whose blocking task has panicked or was cancelled. -/
def blockingTaskResponse (message : String) : Response := errorResponse 500 "blocking_task" message

/-! ## Credentials -/

structure AdmissionAuth where
  currentDigest : Digest
  previousDigest : Option Digest

inductive AdmissionAuthError where
  | invalidCurrentToken
  | invalidPreviousToken
deriving DecidableEq

def validBearerToken (token : Bytes) : Bool :=
  32 ≤ token.length && token.length ≤ 256 && token.all fun byte => 0x21 ≤ byte && byte ≤ 0x7e

namespace AdmissionAuth

variable [Sha256]

def new (current : Bytes) (previous : Option Bytes) : Except AdmissionAuthError AdmissionAuth := do
  Except.require .invalidCurrentToken (validBearerToken current)
  Except.require .invalidPreviousToken (!previous.any fun token => !validBearerToken token)
  pure ⟨sha256Digest current, previous.map sha256Digest⟩

/-- A token of the two, compared by its digest. -/
def authorizesToken (auth : AdmissionAuth) (token : Bytes) : Bool :=
  validBearerToken token
    && (sha256Digest token == auth.currentDigest
      || auth.previousDigest.any (sha256Digest token == ·))

def authorizes (auth : AdmissionAuth) (headers : HeaderMap) : Bool :=
  match headers.getStr "authorization" with
  | none => false
  | some raw =>
    match raw.span (· ≠ 0x20) with
    | (_, []) => false
    | (scheme, _ :: token) =>
      eqIgnoreAsciiCase scheme (utf8Bytes "bearer") && auth.authorizesToken token

end AdmissionAuth

/-! ## Requests -/

def cborMediaType : String := "application/cbor"

def batchCborMediaType : String := "application/vnd.trackone.record-batch.v1+cbor"

def hardMaxAdmissionBytes : Nat := 16777216

/-- The inflater that the gateway is linked with, and its checksum. -/
structure Gzip where
  inflater : Inflater
  bounded : inflater.Bounded
  crc32 : Bytes → UInt32

/-- The configuration of the routes; the bound is that of the argument parser. -/
structure HttpState where
  auth : AdmissionAuth
  maxBatchRecords : Nat
  maxAdmissionBytes : Nat
  withinHardLimit : maxAdmissionBytes ≤ hardMaxAdmissionBytes
  gzip : Gzip

inductive Route where
  | records
  | recordBatches
deriving DecidableEq

structure Request where
  route : Route
  headers : HeaderMap
  body : SliceBytes

/-- What `admit_records` is called with. -/
structure Admission where
  records : List Bytes
  envelope : Option Bytes
  batch : Bool

namespace HttpState

variable (http : HttpState)

theorem isSome_expandGzip (input : SliceBytes) :
    (expandGzip http.gzip.inflater http.gzip.crc32 input.1 http.maxAdmissionBytes
      (input.1.length + http.maxAdmissionBytes + 2)).isSome := by
  have hlimit : http.maxAdmissionBytes < 2 ^ 64 - 1 :=
    Nat.lt_of_le_of_lt http.withinHardLimit (by decide)
  obtain ⟨result, hends, -⟩ :=
    @expandGzip_ends _ http.gzip.crc32 input.1 _ http.gzip.bounded input.2 hlimit
  rw [hends _ (Nat.le_refl _)]
  rfl

/-- `expand_gzip`, with as many iterations as it takes. -/
def expand (input : SliceBytes) : Except GzipFailure Bytes :=
  (expandGzip http.gzip.inflater http.gzip.crc32 input.1 http.maxAdmissionBytes
    (input.1.length + http.maxAdmissionBytes + 2)).get (http.isSome_expandGzip input)

def admissionBytesResponse : Response :=
  errorResponse 413 "admission_bytes" "expanded admission exceeds TRACKONE_MAX_ADMISSION_BYTES"

/-- `admit`. -/
def admitRecord (headers : HeaderMap) (body : SliceBytes) : Except Response Admission := do
  Except.require (errorResponse 415 "content_type" "Content-Type must be application/cbor")
    (mediaType headers == some (utf8Bytes cborMediaType))
  Except.require
    (errorResponse 415 "content_encoding"
      "Content-Encoding is not supported for individual records")
    (!headers.any fun header => header.1 == "content-encoding")
  Except.require admissionBytesResponse (body.1.length ≤ http.maxAdmissionBytes)
  pure ⟨[body.1], none, false⟩

/-- The body without its content encoding. -/
def decodeBody (headers : HeaderMap) (body : SliceBytes) : Except Response Bytes :=
  match headers.getStr "content-encoding" with
  | none => .ok body.1
  | some encoding =>
    if encoding = utf8Bytes "identity" then .ok body.1
    else if encoding = utf8Bytes "gzip" then
      match http.expand body with
      | .ok bytes => .ok bytes
      | .error (.envelope .limit) => .error admissionBytesResponse
      | .error _ => .error (errorResponse 400 "batch_envelope" "gzip body is malformed")
    else
      .error (errorResponse 415 "content_encoding" "Content-Encoding must be identity or gzip")

def envelopeErrorResponse : BatchEnvelopeError → Response
  | .limit => errorResponse 413 "batch_records" "batch exceeds TRACKONE_MAX_BATCH_RECORDS"
  | .malformed message => errorResponse 400 "batch_envelope" message

def admitBatch (headers : HeaderMap) (body : SliceBytes) : Except Response Admission := do
  Except.require
    (errorResponse 415 "content_type"
      "Content-Type must be application/vnd.trackone.record-batch.v1+cbor")
    (mediaType headers == some (utf8Bytes batchCborMediaType))
  let expanded ← http.decodeBody headers body
  Except.require admissionBytesResponse (expanded.length ≤ http.maxAdmissionBytes)
  let records ← (parseBatchEnvelope expanded http.maxBatchRecords).mapError envelopeErrorResponse
  pure ⟨records, some expanded, true⟩

/-- A request that goes to the producer. -/
structure Reading where
  minimal : Bool
  batch : Bool
  key : String
  records : List Bytes
  /-- The bytes that identify the request under its key. -/
  identified : Bytes
  operation : Operation

/-- The first half of `admit_records`; a request for a single record has one. -/
def admitRecords (headers : HeaderMap) (admission : Admission) : Except Response Reading := do
  let key ← Except.ofOption (errorResponse 400 "idempotency_key" "Idempotency-Key is required")
    (headers.getStr "idempotency-key")
  let key := asciiString key
  match admission.envelope with
  | some envelope =>
    pure {
      minimal := prefersMinimal headers
      batch := admission.batch
      key
      records := admission.records
      identified := envelope
      operation := .admitBatchIdempotent key admission.records envelope }
  | none => do
    let record ← Except.ofOption
      (producerErrorResponse (.store "single-record admission contains no record"))
      admission.records.head?
    pure {
      minimal := prefersMinimal headers
      batch := admission.batch
      key
      records := [record]
      identified := record
      operation := .admitIdempotent key record }

/-- The handler of the route. -/
def admission (request : Request) : Except Response Admission :=
  match request.route with
  | .records => http.admitRecord request.headers request.body
  | .recordBatches => http.admitBatch request.headers request.body

/-- A request as far as it is refused without the producer. -/
def read [Sha256] (request : Request) : Except Response Reading := do
  Except.require unauthorizedResponse (http.auth.authorizes request.headers)
  let admission ← http.admission request
  admitRecords request.headers admission

end HttpState

/-! ## Answers of the producer -/

def decimal (n : UInt64) : JsonValue := .string (toString n)

def runValue (run : AdmissionRun) : JsonValue :=
  .object [("record_count", decimal run.recordCount), ("segment_number", decimal run.segmentNumber)]

/-- The body of a response, for either route. -/
def outcomeValue (batch : Bool) (outcome : AdmissionOutcome) (tsaStatus : String) : JsonValue :=
  if batch then
    .object [
      ("admission_runs", .array (outcome.admissionRuns.map runValue)),
      ("admitted_record_count", decimal outcome.admittedRecordCount),
      ("replayed", .bool outcome.replayed),
      ("sealed_segment_numbers", .array (outcome.sealedSegmentNumbers.map decimal)),
      ("state_revision", decimal outcome.stateRevision),
      ("tsa_status", .string tsaStatus)]
  else
    .object [
      ("admitted_segment_number", decimal outcome.admittedSegmentNumber),
      ("ok", .bool true),
      ("replayed", .bool outcome.replayed),
      ("sealed_segment_numbers", .array (outcome.sealedSegmentNumbers.map decimal)),
      ("state_revision", decimal outcome.stateRevision),
      ("tsa_status", .string tsaStatus)]

/-- The response to an admission: a new one, or the replay of an earlier one. -/
def admissionResponse (minimal batch : Bool) (outcome : AdmissionOutcome) (tsaStatus : String) :
    Response :=
  let status := if outcome.replayed then 200 else 201
  if minimal then ⟨status, [("preference-applied", "return=minimal")], none⟩
  else ⟨status, [], some (outcomeValue batch outcome tsaStatus)⟩

/-- `tsa_statuses`: a row for each of the numbers that has one. -/
def tsaStatuses (store : PostgresLedgerStore) (numbers : List UInt64) : List TsaStatus :=
  (store.tables.sealedSegment.toList.filter fun row => row.1 ∈ numbers).map
    fun row => row.2.tsaStatus

/-- The projection of the statuses of some segments. -/
def tsaStatus (numbers : List UInt64) (statuses : List TsaStatus) : String :=
  if statuses.any (· = .failed) then "failed"
  else if statuses.length = numbers.length ∧ statuses.all (· = .verified) then "verified"
  else "queued"

end TrackOne.Http
