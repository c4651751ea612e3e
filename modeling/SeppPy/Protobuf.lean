import SeppPy.Errors
import SeppPy.Data.Dict

/-! # The protobuf runtime and the queue messages

The messages of `queue.proto` that the modelled functions read or build: an optional field and a
submessage are `Option`s, a `oneof` is an inductive type under `Option`, and a map is a `Dict`.
`Protobuf` is the runtime package, which is not part of the repository: its well-known-type
conversions are fields, together with the documented behaviour that the library relies on.
-/

namespace SeppPy

namespace Pb

/-- `google.protobuf.Timestamp`; an absent field reads as the default instance. -/
structure Timestamp where
  seconds : ℤ := 0
  nanos : ℤ := 0
deriving DecidableEq, Repr

/-- `google.protobuf.Duration`. -/
structure Duration where
  seconds : ℤ := 0
  nanos : ℤ := 0
deriving DecidableEq, Repr

/-- The instants protobuf can convert: years 1 to 9999, with normalized nanoseconds. -/
def Timestamp.Valid (ts : Timestamp) : Prop :=
  -62135596800 ≤ ts.seconds ∧ ts.seconds ≤ 253402300799 ∧ 0 ≤ ts.nanos ∧ ts.nanos ≤ 999999999

instance (ts : Timestamp) : Decidable ts.Valid :=
  inferInstanceAs (Decidable (_ ∧ _ ∧ _ ∧ _))

/-- Nanoseconds since the epoch. -/
def Timestamp.nanoseconds (ts : Timestamp) : ℤ := ts.seconds * 1000000000 + ts.nanos

/-- The timestamp of an instant in nanoseconds, normalized. -/
def Timestamp.ofNanoseconds (instant : ℤ) : Timestamp :=
  ⟨instant / 1000000000, instant % 1000000000⟩

@[simp]
theorem Timestamp.nanoseconds_ofNanoseconds (instant : ℤ) :
    (ofNanoseconds instant).nanoseconds = instant := Int.ediv_mul_add_emod instant 1000000000

/-- A UTC `datetime`, truncated to microseconds. -/
def Timestamp.toUtc (ts : Timestamp) : Datetime := ⟨ts.seconds * 1000000 + ts.nanos / 1000, some 0⟩

/-- The duration in microseconds, nanoseconds rounded toward zero. -/
def Duration.micros (d : Duration) : Timedelta := d.seconds * 1000000 + d.nanos.tdiv 1000

/-- Nanoseconds are cut twice, to microseconds and to milliseconds; the second cut is the only one
that counts. -/
theorem Timestamp.datetimeToMillis_toUtc (ts : Timestamp) :
    datetimeToMillis ts.toUtc = ts.nanoseconds / 1000000 := by
  simp only [datetimeToMillis, Datetime.instant, toUtc, nanoseconds, Option.getD_some]
  omega

/-- The length in nanoseconds. -/
def Duration.nanoseconds (d : Duration) : ℤ := d.seconds * 1000000000 + d.nanos

/-- Between `timedelta.min` and `timedelta.max`. -/
def Duration.InRange (d : Duration) : Prop :=
  -86399999913600000000 ≤ d.micros ∧ d.micros ≤ 86399999999999999999

instance (d : Duration) : Decidable d.InRange := inferInstanceAs (Decidable (_ ∧ _))

/-- The `value` oneof; a double is its IEEE bit pattern. -/
inductive Primitive
  | string (value : String)
  | double (bits : BitVec 64)
  | int (value : ℤ)
  | bool (value : Bool)
deriving DecidableEq, Repr

structure PrimitiveValue where
  value : Option Primitive
deriving DecidableEq, Repr

structure TraceContext where
  traceparent : String
  tracestate : Option String
deriving DecidableEq, Repr

structure Payload where
  data : List UInt8
  encoding : String
deriving DecidableEq, Repr

structure Job where
  id : String
  jobType : String
  payload : Option Payload
  priority : ℕ
  traceContext : Option TraceContext
  enqueuedAt : Option Timestamp
  attempt : ℕ
  maxAttempts : ℕ
  leaseExpiresAt : Option Timestamp
  custom : Dict String PrimitiveValue
  scheduledAt : Option Timestamp
  queue : String
deriving DecidableEq, Repr

structure ReserveResponse where
  jobs : List Job
deriving DecidableEq, Repr

structure AckRequest where
  jobId : String
  attempt : ℕ
  workerId : Option String := none
deriving DecidableEq, Repr

structure AckResponse where
  jobId : String
deriving DecidableEq, Repr

/-- The `strategy` oneof of `NackRetry`. -/
inductive NackStrategy
  | default
  | delay (delay : Duration)
  | deadLetter
deriving DecidableEq, Repr

structure NackRetry where
  strategy : Option NackStrategy
deriving DecidableEq, Repr

structure NackRequest where
  jobId : String
  attempt : ℕ
  reason : Option String := none
  retry : Option NackRetry := none
  workerId : Option String := none
deriving DecidableEq, Repr

structure NackResponse where
  jobId : String
  deadLettered : Bool
deriving DecidableEq, Repr

structure ExtendRequest where
  jobId : String
  attempt : ℕ
  leaseDuration : Duration
  workerId : Option String
deriving DecidableEq, Repr

structure ExtendResponse where
  leaseExpiresAt : Option Timestamp
deriving DecidableEq, Repr

structure DeadLetterRecord where
  job : Option Job
  cause : ℤ
  failedAt : Option Timestamp
  finalAttempt : ℕ
  lastReason : Option String
deriving DecidableEq, Repr

structure DrainDeadLettersResponse where
  records : List DeadLetterRecord
deriving DecidableEq, Repr

structure EnqueueRequest where
  queue : String
  jobType : String
  payload : Option Payload := none
  idempotencyKey : Option String := none
  priority : Option ℕ := none
  maxAttempts : Option ℕ := none
  traceContext : Option TraceContext := none
  custom : Dict String PrimitiveValue := .empty
  scheduledAt : Option Timestamp := none
deriving DecidableEq, Repr

structure EnqueueResponse where
  jobId : String
  deduplicated : Bool
deriving DecidableEq, Repr

/-- The `reason` oneof of `JobRejection`, with the fields of each variant's message. -/
inductive RejectionReason
  | unknownQueue (queue : String)
  | payloadTooLarge (limit actual : ℕ)
  | encodingNotAllowed (encoding : String) (allowed : List String)
  | jobTypeNotAllowed (jobType : String) (allowed : List String)
  | customEntriesTooMany (limit actual : ℕ)
  | customMapTooLarge (limit actual : ℕ)
  | customKeyTooLong (key : String) (limit actual : ℕ)
  | queueNameTooLong (limit actual : ℕ)
  | jobTypeNameTooLong (limit actual : ℕ)
  | idempotencyKeyTooLong (limit actual : ℕ)
  | scheduledTooFar (horizon : Option Duration) (actual : Option Timestamp)
  | invalidRequest (message : String)
  | queueFull (queue : String) (limit : ℕ)
  | queueClosing (queue : String)
deriving DecidableEq, Repr

structure JobRejection where
  reason : Option RejectionReason
deriving DecidableEq, Repr

/-- The `outcome` oneof of `JobResult`. -/
inductive JobOutcome
  | success (response : EnqueueResponse)
  | rejection (rejection : JobRejection)
deriving DecidableEq, Repr

structure JobResult where
  outcome : Option JobOutcome
deriving DecidableEq, Repr

structure EnqueueBatchResponse where
  results : List JobResult
deriving DecidableEq, Repr

structure JobValidationError where
  index : ℕ
  rejection : Option JobRejection
deriving DecidableEq, Repr

/-- The `outcome` oneof of `EnqueueAtomicResponse`. -/
inductive AtomicOutcome
  | success (responses : List EnqueueResponse)
  | rejection (errors : List JobValidationError)
deriving DecidableEq, Repr

structure EnqueueAtomicResponse where
  outcome : Option AtomicOutcome
deriving DecidableEq, Repr

structure GetServerInfoResponse where
  serverVersion : String
  supportedProtocolVersions : List String
  serverTime : Option Timestamp
  restrictsEncodings : Bool
  allowedEncodings : List String
  maxPayloadBytes : ℕ
  maxCustomEntries : ℕ
  maxCustomTotalBytes : ℕ
  maxCustomKeyBytes : ℕ
  maxQueueNameBytes : ℕ
  maxJobTypeBytes : ℕ
  maxIdempotencyKeyBytes : ℕ
  maxScheduleHorizon : Option Duration
  maxEnqueueBatch : ℕ
  maxReserveBatch : ℕ
  maxReserveQueues : ℕ
  maxWaitTimeout : Option Duration
  maxLeaseDuration : Option Duration
  strictQueues : Bool
  deadLetterRetentionEnabled : Bool
deriving DecidableEq, Repr

end Pb

/-- The protobuf runtime, with the documented behaviour of its conversions. -/
structure Protobuf where
  toDatetime : Pb.Timestamp → Except PyError Datetime
  toJsonString : Pb.Timestamp → Except PyError String
  toTimedelta : Pb.Duration → Except PyError Timedelta
  fromDatetime : Datetime → Except PyError Pb.Timestamp
  fromTimedelta : Timedelta → Pb.Duration
  toDatetime_valid : ∀ ts, ts.Valid → toDatetime ts = .ok ts.toUtc
  toDatetime_invalid : ∀ ts, ¬ ts.Valid → ∃ msg, toDatetime ts = .error (.valueError msg)
  toJsonString_valid : ∀ ts, ts.Valid → ∃ text, toJsonString ts = .ok text
  toJsonString_invalid : ∀ ts, ¬ ts.Valid → ∃ msg, toJsonString ts = .error (.valueError msg)
  toTimedelta_inRange : ∀ d, d.InRange → toTimedelta d = .ok d.micros
  toTimedelta_outOfRange : ∀ d, ¬ d.InRange → ∃ msg, toTimedelta d = .error (.overflowError msg)
  /-- A `timedelta` is converted exactly. -/
  nanoseconds_fromTimedelta : ∀ td, (fromTimedelta td).nanoseconds = td * 1000

/-- The documented behaviour is consistent: the runtime checks the range, then converts. -/
def Protobuf.checked : Protobuf where
  toDatetime ts :=
    if ts.Valid then .ok ts.toUtc
    else .error (.valueError s!"Timestamp is not valid: {ts.seconds}, {ts.nanos}")
  toJsonString ts :=
    if ts.Valid then .ok s!"{ts.seconds}.{ts.nanos}"
    else .error (.valueError s!"Timestamp is not valid: {ts.seconds}, {ts.nanos}")
  toTimedelta d :=
    if d.InRange then .ok d.micros
    else .error (.overflowError s!"Duration is out of range: {d.seconds}, {d.nanos}")
  fromDatetime dt :=
    let instant := dt.wall - dt.utcoffset.getD 0
    .ok ⟨instant / 1000000, instant % 1000000 * 1000⟩
  -- seconds and nanoseconds have the sign of the whole
  fromTimedelta td := ⟨Int.tdiv td 1000000, Int.tmod td 1000000 * 1000⟩
  toDatetime_valid _ valid := if_pos valid
  toDatetime_invalid _ invalid := ⟨_, if_neg invalid⟩
  toJsonString_valid _ valid := ⟨_, if_pos valid⟩
  toJsonString_invalid _ invalid := ⟨_, if_neg invalid⟩
  toTimedelta_inRange _ inRange := if_pos inRange
  toTimedelta_outOfRange _ outOfRange := ⟨_, if_neg outOfRange⟩
  nanoseconds_fromTimedelta td := by
    have whole := Int.mul_tdiv_add_tmod td 1000000
    simp only [Pb.Duration.nanoseconds]
    omega

end SeppPy
