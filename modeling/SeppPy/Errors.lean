import SeppPy.Datetime

/-! # Exceptions and rejections of the client

`StatusCode` and `AioRpcError` are what gRPC raises. `SeppError` lists the library's own exceptions
that the modelled functions raise, each with the arguments its constructor keeps, and
`JobRejection` the per-job refusals, which are values. `PyError` is any exception that can leave
one of the client's functions: the `except` clauses of the client and of the worker tell exactly
these cases apart.
-/

namespace SeppPy

/-- `grpc.StatusCode`. -/
inductive StatusCode
  | ok | cancelled | unknown | invalidArgument | deadlineExceeded | notFound | alreadyExists
  | permissionDenied | resourceExhausted | failedPrecondition | aborted | outOfRange
  | unimplemented | internal | unavailable | dataLoss | unauthenticated
deriving DecidableEq, Repr

/-- `grpc.aio.AioRpcError`. -/
structure AioRpcError where
  code : StatusCode
  details : Option String
deriving DecidableEq, Repr

/-- Why the server refused a single job; a value, not an exception. -/
inductive JobRejection
  | unknownQueue (queue : String)
  | payloadTooLarge (limit actual : ℕ)
  | encodingNotAllowed (encoding : String) (allowed : List String)
  | jobTypeNotAllowed (jobType : String) (allowed : List String)
  | customEntriesTooMany (limit actual : ℕ)
  | customMapTooLarge (limit actual : ℕ)
  | customKeyTooLong (key : String) (limit actual : ℕ)
  | queueNameTooLong (limit actual : ℕ)
  | jobTypeNameTooLong (limit actual : ℕ)
  | idempotencyKeyTooLong (limit actual : ℕ)
  | scheduledTooFar (horizon : Timedelta) (actual : Datetime)
  | invalidRequest (detail : String)
  | queueFull (queue : String) (limit : ℕ)
  | queueClosing (queue : String)
  | unknownRejection
deriving DecidableEq, Repr

/-- A single job's rejection within an atomic batch, with its position in the request. -/
structure JobValidationError where
  index : ℕ
  rejection : JobRejection
deriving DecidableEq, Repr

/-- The exceptions below `errors.SeppError`. -/
inductive SeppError
  | transportError (message : String)
  | unauthenticatedError (message : String)
  | overloadedError (message : String)
  | invalidRequestError (message : String)
  | serverInternalError (message : String)
  | unexpectedStatusError (code : StatusCode) (message : String)
  | emptyBatchError
  | batchResultCountMismatchError (expected got : ℕ)
  | malformedResponseError (message : String)
  | malformedServerInfoError (cause : String)
  | jobConversionError (message : String)
  | serverInfoError (message : String)
  | jobRejectedError (rejection : JobRejection)
  | batchValidationError (errors : List JobValidationError)
  | jobNotFoundError
  | attemptMismatchError
  | unknownQueuesError (message : String)
  | duplicateHandlerError (jobType : String)
deriving DecidableEq, Repr

/-- An exception leaving a function of the client. A `TraceContextError` is a `ValueError` of its
own class. -/
inductive PyError
  | sepp (err : SeppError)
  | rpc (err : AioRpcError)
  | valueError (message : String)
  | traceContextError (message : String)
  | overflowError (message : String)
  | indexError (message : String)
  | exception (name : String)
  | cancelledError
deriving DecidableEq, Repr

/-- `except errors.JobConversionError`. -/
def PyError.isJobConversionError : PyError → Bool
  | .sepp (.jobConversionError _) => true
  | _ => false

/-- `except errors.SeppError`. -/
def PyError.isSeppError : PyError → Bool
  | .sepp _ => true
  | _ => false

def TRANSPORT_CODES : List StatusCode := [.unavailable, .deadlineExceeded, .aborted, .cancelled]

/-- Codes worth retrying. `cancelled` is a transport error but is not retried. -/
def RETRYABLE_CODES : List StatusCode :=
  [.unavailable, .deadlineExceeded, .aborted, .resourceExhausted]

/-- The retryable codes after which the server has committed nothing. -/
def KEYLESS_ENQUEUE_RETRYABLE_CODES : List StatusCode := [.unavailable, .resourceExhausted]

def clientErrorFromRpc (err : AioRpcError) : SeppError :=
  let msg := err.details.getD ""
  if err.code ∈ TRANSPORT_CODES then .transportError msg
  else if err.code ∈ [StatusCode.unauthenticated, .permissionDenied] then .unauthenticatedError msg
  else if err.code = .resourceExhausted then .overloadedError msg
  else if err.code = .invalidArgument then .invalidRequestError msg
  else if err.code ∈ [StatusCode.internal, .dataLoss, .unknown] then .serverInternalError msg
  else .unexpectedStatusError err.code msg

def leaseErrorFromRpc (err : AioRpcError) : SeppError :=
  match err.code with
  | .notFound => .jobNotFoundError
  | .failedPrecondition => .attemptMismatchError
  | _ => clientErrorFromRpc err

def reserveErrorFromRpc (err : AioRpcError) : SeppError :=
  match err.code with
  | .failedPrecondition => .unknownQueuesError (err.details.getD "")
  | _ => clientErrorFromRpc err

end SeppPy
