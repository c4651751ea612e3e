import SeppPy.Types

/-! # Handlers and what becomes of a job

A handler is seen through its behaviour: calling it gives an awaitable or raises at once (an
ordinary function may, a coroutine function cannot), and the awaitable returns or raises.
`Registry.lookup` chooses the handler of a job, and `disposal` the call that tells the server how
the handler ended.
-/

namespace SeppPy

/-- A callable a user registers. `truthy` is `bool(handler)`: true of every function. -/
structure Handler where
  name : String
  coroutineFunction : Bool := true
  truthy : Bool := true
deriving DecidableEq, Repr

/-- The handlers of a worker: `_handlers` and `_catch_all_handler`. -/
structure Registry where
  handlers : Dict String Handler := .empty
  catchAllHandler : Option Handler := none
deriving DecidableEq, Repr

namespace Registry

def handle (r : Registry) (jobType : String) (handler : Handler) : Except PyError Registry :=
  if (r.handlers.get? jobType).isSome then .error (.sepp (.duplicateHandlerError jobType))
  else .ok { r with handlers := r.handlers.set jobType handler }

def replaceHandler (r : Registry) (jobType : String) (handler : Handler) : Registry :=
  { r with handlers := r.handlers.set jobType handler }

def removeHandler (r : Registry) (jobType : String) : Registry :=
  { r with handlers := r.handlers.pop jobType }

def catchAll (r : Registry) (handler : Handler) : Registry :=
  { r with catchAllHandler := some handler }

/-- `self._handlers.get(job_type) or self._catch_all_handler`. -/
def lookup (r : Registry) (jobType : String) : Option Handler :=
  match r.handlers.get? jobType with
  | some handler => if handler.truthy then some handler else r.catchAllHandler
  | none => r.catchAllHandler

/-- A specific handler takes precedence over the catch-all. -/
theorem lookup_of_truthy {r : Registry} {jobType : String} {handler : Handler}
    (found : r.handlers.get? jobType = some handler) (truthy : handler.truthy = true) :
    r.lookup jobType = some handler := by
  simp only [lookup, found, truthy, ↓reduceIte]

end Registry

/-- `HandlerError`: a handler's request to nack its job. -/
structure HandlerError where
  reason : String
  directive : RetryDirective
deriving DecidableEq, Repr

namespace HandlerError

def retry (reason : String) : HandlerError := ⟨reason, .DEFAULT⟩

def retryAfter (reason : String) (delay : Timedelta) : HandlerError := ⟨reason, .after delay⟩

def permanent (reason : String) : HandlerError := ⟨reason, .DEAD_LETTER⟩

end HandlerError

/-- An instance of `Exception` raised by a handler; `text` is what its `__str__` does. -/
inductive HandlerException
  | handlerError (err : HandlerError)
  | other (text : Except PyError String)
deriving DecidableEq, Repr

/-- What user code raises, as the `except` clauses of the worker tell it apart. -/
inductive Raised
  | exception (err : HandlerException)
  | cancelledError
  | baseException
deriving DecidableEq, Repr

/-- What the call `handler(job.payload, job.ctx)` itself does. -/
inductive HandlerCall
  | awaitable
  | raises (what : Raised)
deriving DecidableEq, Repr

/-- How awaiting the handler ends. -/
inductive HandlerEnd
  | returned
  | raised (what : Raised)
deriving DecidableEq, Repr

/-- What `_run_plain` and `_run_with_auto_extend` return. -/
inductive Outcome
  | completed
  | failed (err : HandlerException)
  | leaseLost
deriving DecidableEq, Repr

/-- How the task of a job ends. -/
inductive TaskEnd
  | returned
  | cancelled
  | crashed
deriving DecidableEq, Repr

/-- The end of a task that lets out what a handler raised. -/
def Raised.taskEnd : Raised → TaskEnd
  | .exception _ => .crashed
  | .cancelledError => .cancelled
  | .baseException => .crashed

/-- A call of the client that disposes of a delivery. -/
inductive Call
  | ack (ctx : JobCtx)
  | nack (ctx : JobCtx) (directive : RetryDirective) (reason : String)
deriving DecidableEq

/-- The context a disposal call is made with. -/
def Call.ctx : Call → JobCtx
  | .ack ctx => ctx
  | .nack ctx _ _ => ctx

/-- The call `_dispose(ctx, error)` makes; the text of the reason is formatted before the call, so
a failing `__str__` raises instead. -/
def disposal (ctx : JobCtx) : Option HandlerException → Except PyError Call
  | none => .ok (.ack ctx)
  | some (.handlerError err) => .ok (.nack ctx err.directive err.reason)
  | some (.other (.ok text)) => .ok (.nack ctx .DEFAULT ("handler raised: " ++ text))
  | some (.other (.error err)) => .error err

/-- The nack of a job that no handler takes. -/
def unhandledNack (ctx : JobCtx) : Call := .nack ctx .DEFAULT "no handler registered for job_type"

/-- How the task ends after its disposal call: the worker catches every `SeppError`. -/
def disposalEnd : Except PyError Unit → TaskEnd
  | .ok () => .returned
  | .error (.sepp _) => .returned
  | .error .cancelledError => .cancelled
  | .error _ => .crashed

/-- What a handler that returns, or raises an `Exception`, has passed to `_dispose`. -/
def HandlerEnd.verdict : HandlerEnd → Option (Option HandlerException)
  | .returned => some none
  | .raised (.exception err) => some (some err)
  | .raised _ => none

/-- The handler returned, or raised an `Exception` whose text can be put into a reason. -/
def HandlerEnd.Reportable : HandlerEnd → Prop
  | .returned => True
  | .raised (.exception (.handlerError _)) => True
  | .raised (.exception (.other text)) => ∃ reason, text = .ok reason
  | .raised .cancelledError => False
  | .raised .baseException => False

/-- These are the ends after which `_dispose` makes a call. -/
theorem HandlerEnd.reportable_iff {how : HandlerEnd} (ctx : JobCtx) :
    how.Reportable ↔ ∃ error call, how.verdict = some error ∧ disposal ctx error = .ok call := by
  cases how with
  | returned => exact ⟨fun _ => ⟨none, _, rfl, rfl⟩, fun _ => trivial⟩
  | raised what =>
    cases what with
    | exception err =>
      cases err with
      | handlerError err => exact ⟨fun _ => ⟨_, _, rfl, rfl⟩, fun _ => trivial⟩
      | other text =>
        cases text with
        | ok text => exact ⟨fun _ => ⟨_, _, rfl, rfl⟩, fun _ => ⟨text, rfl⟩⟩
        | error err =>
          constructor
          · rintro ⟨_, ⟨⟩⟩
          · rintro ⟨_, _, ⟨⟩, ⟨⟩⟩
    | cancelledError | baseException => exact ⟨False.elim, by rintro ⟨_, _, ⟨⟩, _⟩⟩

variable {ctx : JobCtx} {error : Option HandlerException} {call : Call}

/-- A disposal call is made with the job's own context. -/
theorem ctx_of_disposal (disposed : disposal ctx error = .ok call) : call.ctx = ctx := by
  revert disposed
  fun_cases disposal ctx error <;> rintro ⟨⟩ <;> rfl

/-- Only a handler that returned has its job acked. -/
theorem disposal_eq_ack (acked : disposal ctx error = .ok (.ack ctx)) : error = none := by
  revert acked
  fun_cases disposal ctx error with
  | case1 =>
    intro _
    rfl
  | case2 err | case3 text | case4 err => rintro ⟨⟩

end SeppPy
