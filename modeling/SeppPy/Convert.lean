import SeppPy.Protobuf
import SeppPy.Types
import SeppPy.Data.Except

/-! # Conversions between the messages and the domain types

Each definition follows the function of `_convert.py` of the same name. A check that raises is an
`Except` computation, so that the exception that leaves a decoder is part of its value; the message
of a time error is built by `ToJsonString`, which can itself raise.
-/

namespace SeppPy

variable (pb : Protobuf)

/-- `None` for a pre-epoch or unrepresentable time; `ToDatetime` raises nothing but the errors
caught here. -/
def timestampToDatetime (ts : Pb.Timestamp) : Option Datetime :=
  if ts.seconds < 0 ∨ ts.nanos < 0 then none
  else
    match pb.toDatetime ts with
    | .ok dt => some dt
    | .error _ => none

def primitiveToPb : Primitive → Except PyError Pb.PrimitiveValue
  | .bool value => .ok ⟨some (.bool value)⟩
  | .int value =>
    -- An `int_value` is an int64; protobuf refuses to store any other integer.
    if -2 ^ 63 ≤ value ∧ value < 2 ^ 63 then .ok ⟨some (.int value)⟩
    else .error (.valueError s!"Value out of range: {value}")
  | .float bits => .ok ⟨some (.double bits)⟩
  | .str value => .ok ⟨some (.string value)⟩

def primitiveFromPb (pv : Pb.PrimitiveValue) : Option Primitive :=
  pv.value.map fun
    | .string value => .str value
    | .double bits => .float bits
    | .int value => .int value
    | .bool value => .bool value

def payloadToPb (p : Payload) : Pb.Payload := ⟨p.data, p.encoding⟩

def payloadFromPb (p : Pb.Payload) : Payload := ⟨p.data, p.encoding⟩

def traceContextToPb (tc : TraceContext) : Pb.TraceContext := ⟨tc.traceparent, tc.tracestate⟩

/-- An invalid trace context is dropped rather than failing the whole reservation. -/
def traceContextFromPb (m : Pb.TraceContext) : Option TraceContext :=
  match TraceContext.init m.traceparent m.tracestate with
  | .ok tc => some tc
  | .error _ => none

/-- A `max_attempts` is a uint32; protobuf refuses to store any other integer. -/
def uint32 (value : ℤ) : Except PyError ℕ :=
  if 0 ≤ value ∧ value < 2 ^ 32 then .ok value.toNat
  else .error (.valueError s!"Value out of range: {value}")

/-- An optional field set through a conversion that may raise. -/
def setOptional {α β : Type} (convert : α → Except PyError β) :
    Option α → Except PyError (Option β)
  | none => .ok none
  | some value => return some (← convert value)

def enqueueRequestToPb (req : EnqueueRequest) : Except PyError Pb.EnqueueRequest := do
  let maxAttempts ← setOptional uint32 req.maxAttempts
  let custom ← Dict.fill (fun _ value => primitiveToPb value) req.custom.items .empty
  -- Pre-epoch schedules are dropped rather than sent as a negative instant.
  let scheduledAt ← setOptional pb.fromDatetime
    (req.scheduledAt.filter fun dt => decide (0 ≤ datetimeToMillis dt))
  return {
    queue := req.queue
    jobType := req.jobType
    payload := req.payload.map payloadToPb
    idempotencyKey := req.idempotencyKey
    priority := req.priority.map Priority.value
    maxAttempts
    traceContext := req.traceContext.map traceContextToPb
    custom
    scheduledAt }

def enqueueAckFromPb (r : Pb.EnqueueResponse) : EnqueueAck := ⟨r.jobId, r.deduplicated⟩

def jobRejectionFromPb (r : Pb.JobRejection) : Except PyError JobRejection :=
  match r.reason with
  | none => .ok .unknownRejection
  | some reason =>
    match reason with
    | .unknownQueue queue => .ok (.unknownQueue queue)
    | .payloadTooLarge limit actual => .ok (.payloadTooLarge limit actual)
    | .encodingNotAllowed encoding allowed => .ok (.encodingNotAllowed encoding allowed)
    | .jobTypeNotAllowed jobType allowed => .ok (.jobTypeNotAllowed jobType allowed)
    | .customEntriesTooMany limit actual => .ok (.customEntriesTooMany limit actual)
    | .customMapTooLarge limit actual => .ok (.customMapTooLarge limit actual)
    | .customKeyTooLong key limit actual => .ok (.customKeyTooLong key limit actual)
    | .queueNameTooLong limit actual => .ok (.queueNameTooLong limit actual)
    | .jobTypeNameTooLong limit actual => .ok (.jobTypeNameTooLong limit actual)
    | .idempotencyKeyTooLong limit actual => .ok (.idempotencyKeyTooLong limit actual)
    | .scheduledTooFar horizon actual => do
      let horizon ← pb.toTimedelta (horizon.getD {})
      let actual ← pb.toDatetime (actual.getD {})
      return .scheduledTooFar horizon actual
    | .invalidRequest message => .ok (.invalidRequest message)
    | .queueFull queue limit => .ok (.queueFull queue limit)
    | .queueClosing queue => .ok (.queueClosing queue)

def jobValidationErrorFromPb (e : Pb.JobValidationError) : Except PyError JobValidationError := do
  let rejection ← match e.rejection with
    | some rejection => jobRejectionFromPb pb rejection
    | none => pure .unknownRejection
  return ⟨e.index, rejection⟩

/-- `raise errors.ServerInfoError(message)`. -/
def serverInfoError {α : Type} (message : String) : Except PyError α :=
  .error (.sepp (.serverInfoError message))

def serverInfoFromPb (r : Pb.GetServerInfoResponse) : Except PyError ServerInfo :=
  if r.serverVersion = "" then
    serverInfoError "server info is missing required field `server_version`"
  else
    match timestampToDatetime pb (r.serverTime.getD {}) with
    | none => do
      let text ← pb.toJsonString (r.serverTime.getD {})
      serverInfoError s!"server_time is not a representable time ({text})"
    | some serverTime => do
      let maxScheduleHorizon ← pb.toTimedelta (r.maxScheduleHorizon.getD {})
      let maxWaitTimeout ← pb.toTimedelta (r.maxWaitTimeout.getD {})
      let maxLeaseDuration ← pb.toTimedelta (r.maxLeaseDuration.getD {})
      return {
        version := r.serverVersion
        supportedProtocolVersions := r.supportedProtocolVersions
        serverTime
        restrictsEncodings := r.restrictsEncodings
        allowedEncodings := r.allowedEncodings
        maxPayloadBytes := r.maxPayloadBytes
        maxCustomEntries := r.maxCustomEntries
        maxCustomTotalBytes := r.maxCustomTotalBytes
        maxCustomKeyBytes := r.maxCustomKeyBytes
        maxQueueNameBytes := r.maxQueueNameBytes
        maxJobTypeBytes := r.maxJobTypeBytes
        maxIdempotencyKeyBytes := r.maxIdempotencyKeyBytes
        maxScheduleHorizon
        maxEnqueueBatch := r.maxEnqueueBatch
        maxReserveBatch := r.maxReserveBatch
        maxReserveQueues := r.maxReserveQueues
        maxWaitTimeout
        maxLeaseDuration
        strictQueues := r.strictQueues
        deadLetterRetentionEnabled := r.deadLetterRetentionEnabled }

/-! ## The decoders of a job -/

/-- `raise errors.JobConversionError(message)`. -/
def conversionError {α : Type} (message : String) : Except PyError α :=
  .error (.sepp (.jobConversionError message))

/-- Raise unless a required string field is non-empty. -/
def requireField (value message : String) : Except PyError Unit :=
  if value = "" then conversionError message else .ok ()

/-- The `Priority`, with its range error turned into a conversion error. -/
def requirePriority (value : ℕ) : Except PyError Priority :=
  match Priority.init value with
  | .ok priority => .ok priority
  | .error _ => conversionError s!"job priority {value} is out of range (expected 0-9)"

/-- The time of a required field. The text of the conversion error is formatted before the error
is raised, so a failing `ToJsonString` raises in its place. -/
def requireTime (what : String) (ts : Pb.Timestamp) : Except PyError Datetime :=
  match timestampToDatetime pb ts with
  | some dt => .ok dt
  | none => do
    let text ← pb.toJsonString ts
    conversionError s!"{what} is not a representable time ({text})"

/-- One entry of the `custom` map. -/
def requireValue (key : String) (pv : Pb.PrimitiveValue) : Except PyError Primitive :=
  match primitiveFromPb pv with
  | some value => .ok value
  | none => conversionError s!"custom value for key `{key}` has no value set"

/-- `_scheduled_at_from_pb`: unset means "was available immediately". -/
def scheduledAtFromPb (j : Pb.Job) : Option Datetime :=
  match j.scheduledAt with
  | none => none
  | some ts => timestampToDatetime pb ts

def jobFromPb (j : Pb.Job) (workerId : Option String) : Except PyError Job := do
  requireField j.id "job is missing required field `id`"
  requireField j.jobType "job is missing required field `job_type`"
  let priority ← requirePriority j.priority
  let enqueuedAt ← requireTime pb "job timestamp `enqueued_at`" (j.enqueuedAt.getD {})
  let leaseExpiresAt ← requireTime pb "job timestamp `lease_expires_at`" (j.leaseExpiresAt.getD {})
  let custom ← Dict.fill requireValue j.custom.items .empty
  return {
    payload := j.payload.map payloadFromPb
    ctx := {
      id := j.id
      queue := j.queue
      jobType := j.jobType
      priority
      attempt := j.attempt
      maxAttempts := j.maxAttempts
      enqueuedAt
      custom
      traceContext := j.traceContext.bind traceContextFromPb
      leaseExpiresAt
      scheduledAt := scheduledAtFromPb pb j
      lease := ⟨j.id, j.attempt, workerId, datetimeToMillis leaseExpiresAt⟩ } }

/-- `_CAUSE_FROM_PB.get(cause, DeadLetterCause.UNSPECIFIED)`. -/
def causeFromPb (cause : ℤ) : DeadLetterCause :=
  if cause = 1 then .attemptsExhausted
  else if cause = 2 then .rejected
  else if cause = 3 then .leaseExpired
  else if cause = 4 then .admin
  else .unspecified

def deadLetterRecordFromPb (r : Pb.DeadLetterRecord) : Except PyError DeadLetterRecord :=
  match r.job with
  | none => conversionError "dead-letter record is missing required field `job`"
  | some j => do
    requireField j.id "job is missing required field `id`"
    requireField j.jobType "job is missing required field `job_type`"
    let priority ← requirePriority j.priority
    let enqueuedAt ← requireTime pb "job timestamp `enqueued_at`" (j.enqueuedAt.getD {})
    let failedAt ← requireTime pb "dead-letter timestamp `failed_at`" (r.failedAt.getD {})
    let custom ← Dict.fill requireValue j.custom.items .empty
    return {
      queue := j.queue
      jobId := j.id
      jobType := j.jobType
      payload := j.payload.map payloadFromPb
      priority
      maxAttempts := j.maxAttempts
      custom
      traceContext := j.traceContext.bind traceContextFromPb
      enqueuedAt
      scheduledAt := scheduledAtFromPb pb j
      cause := causeFromPb r.cause
      failedAt
      finalAttempt := r.finalAttempt
      lastReason := r.lastReason }

end SeppPy
