import SeppPy.Errors
import SeppPy.Data.Dict

/-! # Domain types of the client

Values that a constructor validates carry the proof of what it checked: a `Priority` lies in
`0..=9`, a `TraceContext` has a valid `traceparent`, an `EnqueueRequest` names its queue and job
type, and `ReserveOptions` can be sent. Each `init` is the constructor with its checks in the
order of the source; it returns the exception the check raises.
-/

namespace SeppPy

/-- A scalar in a job's `custom` map; a float is its IEEE bit pattern. -/
inductive Primitive
  | str (value : String)
  | int (value : ℤ)
  | float (bits : BitVec 64)
  | bool (value : Bool)
deriving DecidableEq, Repr

structure Payload where
  data : List UInt8
  encoding : String
deriving DecidableEq, Repr

/-- A job priority in `0..=9`, where higher values dequeue first. -/
structure Priority where
  value : ℕ
  inRange : value ≤ 9
deriving DecidableEq, Repr

/-- `Priority(value)`. -/
def Priority.init (value : ℤ) : Except PyError Priority :=
  if bounds : value < 0 ∨ value > 9 then .error (.valueError s!"priority must be 0-9, got {value}")
  else .ok ⟨value.toNat, by omega⟩

/-- `_is_hex`. -/
def isHex (s : List Char) : Bool := s.all fun c => c ∈ "0123456789abcdefABCDEF".toList

/-- `set(s) == {"0"}`. -/
def allZero (s : List Char) : Bool := !s.isEmpty && s.all (· = '0')

/-- `_validate_traceparent`: the message of the `TraceContextError`, unless the header is valid. -/
def validateTraceparent (traceparent : String) : Except String Unit :=
  match traceparent.toList.splitOn '-' with
  | [version, traceId, spanId, flags] =>
    if version.length ≠ 2 ∨ !isHex version then
      .error "invalid traceparent: version must be 2 hex chars"
    else if traceId.length ≠ 32 ∨ !isHex traceId then
      .error "invalid traceparent: trace_id must be 32 hex chars"
    else if allZero traceId then
      .error "invalid traceparent: trace_id must not be all zeros"
    else if spanId.length ≠ 16 ∨ !isHex spanId then
      .error "invalid traceparent: span_id must be 16 hex chars"
    else if allZero spanId then
      .error "invalid traceparent: span_id must not be all zeros"
    else if flags.length ≠ 2 ∨ !isHex flags then
      .error "invalid traceparent: flags must be 2 hex chars"
    else .ok ()
  | _ => .error "invalid traceparent: expected 4 hyphen-separated fields"

/-- A W3C trace context; the `traceparent` is validated on construction. -/
structure TraceContext where
  traceparent : String
  tracestate : Option String
  valid : validateTraceparent traceparent = .ok ()
deriving DecidableEq

/-- `TraceContext(traceparent, tracestate)`. -/
def TraceContext.init (traceparent : String) (tracestate : Option String) :
    Except PyError TraceContext :=
  match checked : validateTraceparent traceparent with
  | .ok () => .ok ⟨traceparent, tracestate, checked⟩
  | .error msg => .error (.traceContextError msg)

/-- A job to enqueue. -/
structure EnqueueRequest where
  queue : String
  jobType : String
  payload : Option Payload := none
  idempotencyKey : Option String := none
  priority : Option Priority := none
  maxAttempts : Option ℤ := none
  custom : Dict String Primitive := .empty
  traceContext : Option TraceContext := none
  scheduledAt : Option Datetime := none
  queueNonempty : queue ≠ ""
  jobTypeNonempty : jobType ≠ ""
deriving DecidableEq

/-- `Priority | int`, as a caller may pass a priority. -/
inductive PriorityArg
  | checked (priority : Priority)
  | int (value : ℤ)
deriving DecidableEq, Repr

/-- A bare integer is coerced, which checks its range. -/
def PriorityArg.coerce : PriorityArg → Except PyError Priority
  | .checked priority => .ok priority
  | .int value => Priority.init value

/-- `EnqueueRequest(...)`, with the checks of `__post_init__` in order. -/
def EnqueueRequest.init (queue jobType : String) (payload : Option Payload)
    (idempotencyKey : Option String) (priority : Option PriorityArg) (maxAttempts : Option ℤ)
    (custom : Dict String Primitive) (traceContext : Option TraceContext)
    (scheduledAt : Option Datetime) : Except PyError EnqueueRequest :=
  if queueNonempty : queue = "" then .error (.valueError "queue name must not be empty")
  else if jobTypeNonempty : jobType = "" then .error (.valueError "job type must not be empty")
  else do
    let priority ← match priority with
      | none => pure none
      | some priority => some <$> priority.coerce
    return {
      queue, jobType, payload, idempotencyKey, priority, maxAttempts, custom, traceContext
      scheduledAt, queueNonempty, jobTypeNonempty }

structure EnqueueAck where
  jobId : String
  deduplicated : Bool
deriving DecidableEq, Repr

/-- The handle that renews a reserved job's lease. -/
structure Lease where
  jobId : String
  attempt : ℕ
  workerId : Option String
  knownExpiryMs : ℤ
deriving DecidableEq, Repr

/-- A reserved job without its payload. `reserve` is the only source of contexts here, and it
always attaches a lease. -/
structure JobCtx where
  id : String
  queue : String
  jobType : String
  priority : Priority
  attempt : ℕ
  maxAttempts : ℕ
  enqueuedAt : Datetime
  custom : Dict String Primitive
  traceContext : Option TraceContext
  leaseExpiresAt : Datetime
  scheduledAt : Option Datetime
  lease : Lease
deriving DecidableEq

structure Job where
  payload : Option Payload
  ctx : JobCtx
deriving DecidableEq

/-- Parameters of a `reserve` call, as validated by `__post_init__`. -/
structure ReserveOptions where
  queues : List String
  leaseDuration : Timedelta
  waitTimeout : Timedelta
  workerId : Option String
  maxJobs : Option ℤ
  queuesNonempty : queues ≠ []
  queueNamesNonempty : ∀ q ∈ queues, q ≠ ""
  leasePositive : 0 < leaseDuration
  maxJobsPositive : ∀ n ∈ maxJobs, 1 ≤ n
  workerIdNonempty : ∀ w ∈ workerId, w ≠ ""
deriving DecidableEq

/-- `_DEFAULT_WAIT_TIMEOUT`. -/
def DEFAULT_WAIT_TIMEOUT : Timedelta := 30000000

/-- `ReserveOptions(...)`, with the checks of `__post_init__` in order. -/
def ReserveOptions.init (queues : List String) (leaseDuration waitTimeout : Timedelta)
    (workerId : Option String) (maxJobs : Option ℤ) : Except PyError ReserveOptions :=
  if queuesNonempty : queues = [] then .error (.valueError "at least one queue must be specified")
  else if queueNamesNonempty : ¬ ∀ q ∈ queues, q ≠ "" then
    let index := queues.idxOf ""
    .error (.valueError s!"queue name at index {index} must not be empty")
  else if leasePositive : leaseDuration ≤ 0 then
    .error (.valueError "lease_duration must be at least 1ms")
  else if maxJobsPositive : ¬ ∀ n ∈ maxJobs, 1 ≤ n then
    .error (.valueError "max_jobs must be at least 1")
  else if workerIdNonempty : ¬ ∀ w ∈ workerId, w ≠ "" then
    .error (.valueError "worker_id must not be empty when set")
  else .ok {
    queues, leaseDuration, waitTimeout, workerId, maxJobs, queuesNonempty
    queueNamesNonempty := not_not.mp queueNamesNonempty
    leasePositive := not_le.mp leasePositive
    maxJobsPositive := not_not.mp maxJobsPositive
    workerIdNonempty := not_not.mp workerIdNonempty }

/-- Options that leave all but the queue and the lease at their defaults. -/
def emailOptions : ReserveOptions where
  queues := ["emails"]
  leaseDuration := 30000000
  waitTimeout := DEFAULT_WAIT_TIMEOUT
  workerId := none
  maxJobs := none
  queuesNonempty := by decide
  queueNamesNonempty := by decide
  leasePositive := by decide
  maxJobsPositive := by decide
  workerIdNonempty := by decide

/-- `dataclasses.replace(opts, max_jobs=...)`, which runs the validation again. -/
def ReserveOptions.replaceMaxJobs (opts : ReserveOptions) (maxJobs : ℤ) :
    Except PyError ReserveOptions :=
  if positive : 1 ≤ maxJobs then
    .ok { opts with
      maxJobs := some maxJobs
      maxJobsPositive := fun _ same => Option.some.inj same ▸ positive }
  else .error (.valueError "max_jobs must be at least 1")

/-- The server's version, capabilities, and limits. -/
structure ServerInfo where
  version : String
  supportedProtocolVersions : List String
  serverTime : Datetime
  restrictsEncodings : Bool
  allowedEncodings : List String
  maxPayloadBytes : ℕ
  maxCustomEntries : ℕ
  maxCustomTotalBytes : ℕ
  maxCustomKeyBytes : ℕ
  maxQueueNameBytes : ℕ
  maxJobTypeBytes : ℕ
  maxIdempotencyKeyBytes : ℕ
  maxScheduleHorizon : Timedelta
  maxEnqueueBatch : ℕ
  maxReserveBatch : ℕ
  maxReserveQueues : ℕ
  maxWaitTimeout : Timedelta
  maxLeaseDuration : Timedelta
  strictQueues : Bool
  deadLetterRetentionEnabled : Bool
deriving DecidableEq, Repr

inductive DeadLetterCause
  | unspecified | attemptsExhausted | rejected | leaseExpired | admin
deriving DecidableEq, Repr

/-- A dead-lettered job retained by the server. -/
structure DeadLetterRecord where
  queue : String
  jobId : String
  jobType : String
  payload : Option Payload
  priority : Priority
  maxAttempts : ℕ
  custom : Dict String Primitive
  traceContext : Option TraceContext
  enqueuedAt : Datetime
  scheduledAt : Option Datetime
  cause : DeadLetterCause
  failedAt : Datetime
  finalAttempt : ℕ
  lastReason : Option String
deriving DecidableEq

/-- `DeadLetterRecord.to_enqueue_request`: a fresh job that runs now. -/
def DeadLetterRecord.toEnqueueRequest (record : DeadLetterRecord) : Except PyError EnqueueRequest :=
  let maxAttempts : Option ℤ := if record.maxAttempts = 0 then none else some record.maxAttempts
  EnqueueRequest.init record.queue record.jobType record.payload none
    (some (.checked record.priority)) maxAttempts record.custom record.traceContext none

/-- How the server should handle a nacked job's next delivery. -/
structure RetryDirective where
  kind : String
  delay : Option Timedelta := none
deriving DecidableEq, Repr

namespace RetryDirective

def DEFAULT : RetryDirective := ⟨"default", none⟩

def DEAD_LETTER : RetryDirective := ⟨"dead_letter", none⟩

def after (delay : Timedelta) : RetryDirective := ⟨"after", some delay⟩

end RetryDirective

end SeppPy
