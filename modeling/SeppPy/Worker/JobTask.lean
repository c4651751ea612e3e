import SeppPy.Machine.Run
import SeppPy.Worker.Config
import SeppPy.Worker.Handlers

/-! # The task of a job

`JobTask` is the task that `_spawn` creates, together with the handler task and the heartbeat task
that `_run_with_auto_extend` creates beside it. An event is one step of one of the three tasks, up
to its next `await`, or a cancellation from outside; what user code, the client and the clock do is
part of the event. `step` follows `_run_job` in both modes.

Cancelling a task that awaits another task is passed on to that task, and the `CancelledError`
surfaces only when it has finished; a `gather` that is cancelled behaves alike. When the awaited
task has already finished, the cancellation stays with the awaiting one (`mustCancel`) and is
raised when it resumes. A job task inside its handler (plain mode) or inside a call of the client
passes the cancellation into that code, which decides how it ends.
-/

namespace SeppPy

/-! ## The heartbeat -/

/-- `_heartbeat_interval`. -/
def heartbeatInterval (lease : Timedelta) : Timedelta := max (lease.divide 3) (.ofMillis 1)

/-- The interval of the next cycle: the explicit one, or one derived from the granted lease. -/
def AutoExtend.interval (cfg : AutoExtend) (knownExpiryMs now : ℤ) : Timedelta :=
  cfg.explicitInterval.getD (heartbeatInterval (.ofMillis (max 0 (knownExpiryMs - now))))

/-- What the heartbeat makes of the end of an `extend` call. -/
inductive Verdict
  | renewed (knownExpiryMs : ℤ)
  | lost
  | tolerated
  | crashed
deriving DecidableEq, Repr

/-- The `except` clauses around `lease.extend`; `now` is `now_millis()` after the failure. -/
def judgeExtend (knownExpiryMs now : ℤ) : Except PyError Datetime → Verdict
  | .ok expiry => .renewed (datetimeToMillis expiry)
  | .error (.sepp .attemptMismatchError) => .lost
  | .error (.sepp .jobNotFoundError) => .lost
  | .error (.sepp _) => if now ≥ knownExpiryMs then .lost else .tolerated
  | .error _ => .crashed

/-- The heartbeat task; `cancelRequested` is a cancellation it has not yet seen. -/
inductive Heartbeat
  | absent
  | created (cancelRequested : Bool)
  | sleeping (interval : Timedelta) (cancelRequested : Bool)
  | extending (cancelRequested : Bool)
  | done
deriving DecidableEq, Repr

/-- `hb_task.cancel()`. -/
def Heartbeat.cancel : Heartbeat → Heartbeat
  | .created _ => .created true
  | .sleeping interval _ => .sleeping interval true
  | .extending _ => .extending true
  | hb => hb

theorem Heartbeat.cancel_ne_absent {hb : Heartbeat} (beating : hb ≠ .absent) :
    hb.cancel ≠ .absent := by
  cases hb <;> simp_all [cancel]

/-- The task that awaits the handler in auto-extend mode. -/
inductive HandlerTask
  | absent
  | running (cancelRequested : Bool)
  | done (how : HandlerEnd)
deriving DecidableEq, Repr

/-- `handler_task.cancel()`. -/
def HandlerTask.cancel : HandlerTask → HandlerTask
  | .running _ => .running true
  | ht => ht

/-! ## The job task -/

namespace JobTask

/-- What waits for the heartbeat to be reaped: an outcome, or an exception on its way out. -/
inductive Pending
  | settle (outcome : Outcome)
  | propagate (how : TaskEnd)
deriving DecidableEq, Repr

/-- The `await` a job task is suspended at. -/
inductive Pc
  | created
  | noHandler
  | plain
  | awaitHandler
  | reap (pending : Pending)
  | disposing
  | ended (how : TaskEnd)
deriving DecidableEq, Repr

end JobTask

/-- A job task and the tasks it created. The last fields record what has happened so far: the
registry the handler was looked up in, what calling the handler did and how it ended, what was
passed to `_dispose` and the disposal calls that were made. -/
structure JobTask where
  job : Job
  pc : JobTask.Pc
  mustCancel : Bool
  handlerTask : HandlerTask
  heartbeat : Heartbeat
  leaseLost : Bool
  knownExpiryMs : ℤ
  lookedUp : Option Registry
  handlerCall : Option HandlerCall
  handlerEnd : Option HandlerEnd
  disposed : Option (Option HandlerException)
  calls : List Call
deriving DecidableEq

namespace JobTask

/-- `asyncio.create_task(self._process_job(job))`. -/
def spawned (job : Job) : JobTask where
  job
  pc := .created
  mustCancel := false
  handlerTask := .absent
  heartbeat := .absent
  leaseLost := false
  knownExpiryMs := job.ctx.lease.knownExpiryMs
  lookedUp := none
  handlerCall := none
  handlerEnd := none
  disposed := none
  calls := []

/-- A reserved job. -/
def emailJob : Job where
  payload := none
  ctx := {
    id := "job"
    queue := "emails"
    jobType := "email"
    priority := ⟨1, by decide⟩
    attempt := 1
    maxAttempts := 3
    enqueuedAt := ⟨0, some 0⟩
    custom := .empty
    traceContext := none
    leaseExpiresAt := ⟨30000000, some 0⟩
    scheduledAt := none
    lease := ⟨"job", 1, none, 30000⟩ }

/-- The catch-all takes every job. -/
def catchAllOnly : Registry where
  catchAllHandler := some { name := "fallback" }

/-- The handler that the job's task selected when it started. -/
def selected (t : JobTask) : Option Handler :=
  t.lookedUp.bind fun registry => registry.lookup t.job.ctx.jobType

/-- The task has finished. -/
def Ended (t : JobTask) : Prop := ∃ how, t.pc = .ended how

instance (t : JobTask) : Decidable t.Ended :=
  match found : t.pc with
  | .ended how => .isTrue ⟨how, found⟩
  | .created | .noHandler | .plain | .awaitHandler | .reap _ | .disposing =>
    .isFalse fun ⟨_, ended⟩ => Pc.noConfusion (found.symm.trans ended)

inductive Event
  /-- The first step, in which the handler is looked up and called. -/
  | start (registry : Registry) (call : HandlerCall)
  /-- Awaiting the handler ends: in the job task, or in the handler task. -/
  | handlerEnds (how : HandlerEnd)
  /-- The job task resumes after the handler task or the heartbeat task has finished. -/
  | resume
  /-- The first step of the heartbeat, at `now`. -/
  | heartbeatStarts (now : ℤ)
  /-- The heartbeat's sleep is over. -/
  | heartbeatWakes
  /-- The heartbeat's `extend` ends; a failure is judged at `judgedAt`, the next cycle begins at
  `now`. -/
  | heartbeatExtends (result : Except PyError Datetime) (judgedAt now : ℤ)
  /-- The heartbeat meets its cancellation before its first step, or in its sleep. -/
  | heartbeatCancelled
  /-- The handler has extended the lease through its context. -/
  | ctxExtends (expiry : Datetime)
  /-- The ack or nack ends. -/
  | callEnds (result : Except PyError Unit)
  /-- The job task is cancelled from outside. -/
  | cancel

/-- `_dispose(ctx, error)`, up to its call of the client. -/
def dispose (t : JobTask) (error : Option HandlerException) : JobTask :=
  match disposal t.job.ctx error with
  | .ok call => { t with pc := .disposing, disposed := some error, calls := t.calls ++ [call] }
  | .error err => { t with pc := .ended (disposalEnd (.error err)), disposed := some error }

/-- The rest of `_run_job` once the outcome is known. -/
def conclude (t : JobTask) : Outcome → JobTask
  | .leaseLost => { t with pc := .ended .returned }
  | .completed => t.dispose none
  | .failed err => t.dispose (some err)

/-- The `except` clauses of `_run_plain`, once the handler has ended. -/
def endPlain (t : JobTask) (how : HandlerEnd) : JobTask :=
  let t := { t with handlerEnd := some how }
  match how with
  | .returned => t.conclude .completed
  | .raised (.exception err) => t.conclude (.failed err)
  | .raised what => { t with pc := .ended what.taskEnd }

/-- The first step of `_run_job`. Only an ordinary function raises when it is called; in auto-extend
mode that happens outside the `try`. -/
def start (autoExtend : Option AutoExtend) (registry : Registry) (call : HandlerCall)
    (t : JobTask) : Option JobTask :=
  if t.pc ≠ .created then none
  else if t.mustCancel then some { t with pc := .ended .cancelled }
  else
    let t := { t with lookedUp := some registry }
    match registry.lookup t.job.ctx.jobType with
    | none => some { t with pc := .noHandler, calls := [unhandledNack t.job.ctx] }
    | some handler =>
      let t := { t with handlerCall := some call }
      match call, autoExtend with
      | .raises what, _ =>
        if handler.coroutineFunction then none
        else if autoExtend.isNone then some (t.endPlain (.raised what))
        else some { t with handlerEnd := some (.raised what), pc := .ended what.taskEnd }
      | .awaitable, none => some { t with pc := .plain }
      | .awaitable, some _ =>
        some { t with
          pc := .awaitHandler
          handlerTask := .running false
          heartbeat := .created false }

def handlerEnds (how : HandlerEnd) (t : JobTask) : Option JobTask :=
  match t.pc, t.handlerTask with
  | .plain, _ => some (t.endPlain how)
  | .awaitHandler, .running _ => some { t with handlerTask := .done how, handlerEnd := some how }
  | _, _ => none

/-- What the `try` of `_run_with_auto_extend` makes of the end of the handler task. -/
def pendingOf (leaseLost : Bool) : HandlerEnd → Pending
  | .returned => .settle .completed
  | .raised (.exception err) => .settle (.failed err)
  | .raised .cancelledError =>
    if leaseLost then .settle .leaseLost else .propagate .cancelled
  | .raised .baseException => .propagate .crashed

/-- The `finally` of `_run_with_auto_extend`, up to the `gather`. -/
def resumeHandler (how : HandlerEnd) (t : JobTask) : JobTask :=
  let seen := if t.mustCancel then .raised .cancelledError else how
  { t with
    pc := .reap (pendingOf t.leaseLost seen)
    mustCancel := false
    heartbeat := t.heartbeat.cancel }

/-- What follows the `gather`: the exception goes on, or the heartbeat's verdict is applied. -/
def resumeReap (pending : Pending) (t : JobTask) : JobTask :=
  if t.mustCancel then { t with pc := .ended .cancelled, mustCancel := false }
  else
    match pending with
    | .propagate how => { t with pc := .ended how }
    | .settle outcome => t.conclude (if t.leaseLost then .leaseLost else outcome)

def resume (t : JobTask) : Option JobTask :=
  match t.pc, t.handlerTask, t.heartbeat with
  | .awaitHandler, .done how, _ => some (t.resumeHandler how)
  | .reap pending, _, .done => some (t.resumeReap pending)
  | _, _, _ => none

/-- The head of the heartbeat's loop, up to its sleep. -/
def sleep (cfg : AutoExtend) (now : ℤ) (t : JobTask) : JobTask :=
  { t with heartbeat := .sleeping (cfg.interval t.knownExpiryMs now) false }

def heartbeatStarts (autoExtend : Option AutoExtend) (now : ℤ) (t : JobTask) : Option JobTask :=
  match t.heartbeat, autoExtend with
  | .created false, some cfg => some (t.sleep cfg now)
  | _, _ => none

def heartbeatWakes (t : JobTask) : Option JobTask :=
  match t.heartbeat with
  | .sleeping _ false => some { t with heartbeat := .extending false }
  | _ => none

def heartbeatExtends (autoExtend : Option AutoExtend) (result : Except PyError Datetime)
    (judgedAt now : ℤ) (t : JobTask) : Option JobTask :=
  match t.heartbeat, autoExtend with
  | .extending _, some cfg =>
    match judgeExtend t.knownExpiryMs judgedAt result with
    | .renewed expiry => some ({ t with knownExpiryMs := expiry }.sleep cfg now)
    | .tolerated => some (t.sleep cfg now)
    | .crashed => some { t with heartbeat := .done }
    | .lost =>
      some { t with heartbeat := .done, leaseLost := true, handlerTask := t.handlerTask.cancel }
  | _, _ => none

def heartbeatCancelled (t : JobTask) : Option JobTask :=
  match t.heartbeat with
  | .created true => some { t with heartbeat := .done }
  | .sleeping _ true => some { t with heartbeat := .done }
  | _ => none

def callEnds (result : Except PyError Unit) (t : JobTask) : Option JobTask :=
  match t.pc with
  | .noHandler => some { t with pc := .ended (disposalEnd result) }
  | .disposing => some { t with pc := .ended (disposalEnd result) }
  | _ => none

/-- `task.cancel()`. -/
def cancel (t : JobTask) : JobTask :=
  match t.pc, t.handlerTask with
  | .created, _ => { t with mustCancel := true }
  | .awaitHandler, .running _ => { t with handlerTask := t.handlerTask.cancel }
  | .awaitHandler, _ => { t with mustCancel := true }
  | .reap _, _ => { t with mustCancel := true, heartbeat := t.heartbeat.cancel }
  | _, _ => t

/-- One step of the job task, its handler task or its heartbeat task. -/
def step (autoExtend : Option AutoExtend) (t : JobTask) : Event → Option JobTask
  | .start registry call => t.start autoExtend registry call
  | .handlerEnds how => t.handlerEnds how
  | .resume => t.resume
  | .heartbeatStarts now => t.heartbeatStarts autoExtend now
  | .heartbeatWakes => t.heartbeatWakes
  | .heartbeatExtends result judgedAt now => t.heartbeatExtends autoExtend result judgedAt now
  | .heartbeatCancelled => t.heartbeatCancelled
  | .ctxExtends expiry => some { t with knownExpiryMs := datetimeToMillis expiry }
  | .callEnds result => t.callEnds result
  | .cancel => some t.cancel

/-! ## What a step can do -/

variable {autoExtend : Option AutoExtend} {t t' : JobTask}

/-- The outcome of the handler is known: a disposal call is under way or the task has ended, and
what led to the outcome is as it was. -/
structure Concluded (t t' : JobTask) : Prop where
  job : t'.job = t.job
  mustCancel : t'.mustCancel = t.mustCancel
  leaseLost : t'.leaseLost = t.leaseLost
  lookedUp : t'.lookedUp = t.lookedUp
  handlerCall : t'.handlerCall = t.handlerCall
  handlerEnd : t'.handlerEnd = t.handlerEnd
  out : t'.pc = .disposing ∨ t'.Ended
  calls : t.calls <+: t'.calls

/-- Ending without a call concludes, too. -/
theorem concluded_ended (t : JobTask) (how : TaskEnd) : t.Concluded { t with pc := .ended how } :=
  ⟨rfl, rfl, rfl, rfl, rfl, rfl, .inr ⟨how, rfl⟩, List.prefix_rfl⟩

private theorem concluded_dispose (t : JobTask) (error : Option HandlerException) :
    t.Concluded (t.dispose error) := by
  unfold dispose
  split
  · exact ⟨rfl, rfl, rfl, rfl, rfl, rfl, .inl rfl, List.prefix_append _ _⟩
  · exact ⟨rfl, rfl, rfl, rfl, rfl, rfl, .inr ⟨_, rfl⟩, List.prefix_rfl⟩

private theorem concluded_conclude (t : JobTask) (outcome : Outcome) :
    t.Concluded (t.conclude outcome) := by
  cases outcome with
  | completed => exact concluded_dispose t none
  | failed err => exact concluded_dispose t (some err)
  | leaseLost => exact concluded_ended t .returned

theorem concluded_endPlain (t : JobTask) (how : HandlerEnd) :
    Concluded { t with handlerEnd := some how } (t.endPlain how) := by
  unfold endPlain
  split
  · exact concluded_conclude _ _
  · exact concluded_conclude _ _
  · exact concluded_ended _ _

theorem concluded_resumeReap (t : JobTask) (pending : Pending) :
    Concluded { t with mustCancel := false } (t.resumeReap pending) := by
  unfold resumeReap
  split
  · exact concluded_ended { t with mustCancel := false } .cancelled
  next unflagged =>
  have calm : { t with mustCancel := false } = t := by
    rw [← Bool.eq_false_iff.mpr unflagged]
  rw [calm]
  split
  · exact concluded_ended t _
  · exact concluded_conclude t _

/-- A step of the heartbeat task. -/
def Event.IsBeat : Event → Prop
  | .heartbeatStarts _ => True
  | .heartbeatWakes => True
  | .heartbeatExtends _ _ _ => True
  | .heartbeatCancelled => True
  | _ => False

/-- What a step can do, with the conditions under which it does. -/
inductive Moves (autoExtend : Option AutoExtend) (t : JobTask) : Event → JobTask → Prop
  | cancelledEarly (registry : Registry) (call : HandlerCall) (created : t.pc = .created)
      (flagged : t.mustCancel = true) :
    Moves autoExtend t (.start registry call) { t with pc := .ended .cancelled }
  | unhandled (registry : Registry) (call : HandlerCall) (created : t.pc = .created)
      (missing : registry.lookup t.job.ctx.jobType = none) (calm : t.mustCancel = false) :
    Moves autoExtend t (.start registry call)
      { t with lookedUp := some registry, pc := .noHandler, calls := [unhandledNack t.job.ctx] }
  | raisesInPlain (registry : Registry) (what : Raised) (handler : Handler)
      (created : t.pc = .created) (found : registry.lookup t.job.ctx.jobType = some handler)
      (ordinary : handler.coroutineFunction = false) (plain : autoExtend = none)
      (calm : t.mustCancel = false) :
    Moves autoExtend t (.start registry (.raises what))
      ({ t with lookedUp := some registry, handlerCall := some (.raises what) }.endPlain
        (.raised what))
  | raisesInExtended (registry : Registry) (what : Raised) (handler : Handler)
      (created : t.pc = .created) (found : registry.lookup t.job.ctx.jobType = some handler)
      (ordinary : handler.coroutineFunction = false) (extended : autoExtend.isSome = true)
      (calm : t.mustCancel = false) :
    Moves autoExtend t (.start registry (.raises what)) { t with
      lookedUp := some registry
      handlerCall := some (.raises what)
      handlerEnd := some (.raised what)
      pc := .ended what.taskEnd }
  | callsPlain (registry : Registry) (handler : Handler) (created : t.pc = .created)
      (found : registry.lookup t.job.ctx.jobType = some handler) (plain : autoExtend = none)
      (calm : t.mustCancel = false) :
    Moves autoExtend t (.start registry .awaitable)
      { t with lookedUp := some registry, handlerCall := some .awaitable, pc := .plain }
  | callsExtended (registry : Registry) (handler : Handler) (created : t.pc = .created)
      (found : registry.lookup t.job.ctx.jobType = some handler)
      (extended : autoExtend.isSome = true) (calm : t.mustCancel = false) :
    Moves autoExtend t (.start registry .awaitable) { t with
      lookedUp := some registry
      handlerCall := some .awaitable
      pc := .awaitHandler
      handlerTask := .running false
      heartbeat := .created false }
  | endsPlain (how : HandlerEnd) (at_pc : t.pc = .plain) :
    Moves autoExtend t (.handlerEnds how) (t.endPlain how)
  | endsTask (how : HandlerEnd) (flag : Bool) (at_pc : t.pc = .awaitHandler)
      (running : t.handlerTask = .running flag) :
    Moves autoExtend t (.handlerEnds how)
      { t with handlerTask := .done how, handlerEnd := some how }
  | resumesHandler (how : HandlerEnd) (at_pc : t.pc = .awaitHandler)
      (done : t.handlerTask = .done how) :
    Moves autoExtend t .resume (t.resumeHandler how)
  | resumesReap (pending : Pending) (at_pc : t.pc = .reap pending) (reaped : t.heartbeat = .done) :
    Moves autoExtend t .resume (t.resumeReap pending)
  | beats {e : Event} (heartbeat : Heartbeat) (knownExpiryMs : ℤ) (beat : e.IsBeat)
      (beating : t.heartbeat ≠ .absent) (alive : t.heartbeat ≠ .done)
      (next : heartbeat ≠ .absent) :
    Moves autoExtend t e { t with heartbeat, knownExpiryMs }
  | givesUp (result : Except PyError Datetime) (judgedAt now : ℤ)
      (beating : t.heartbeat ≠ .absent) (alive : t.heartbeat ≠ .done)
      (judged : judgeExtend t.knownExpiryMs judgedAt result = .lost) :
    Moves autoExtend t (.heartbeatExtends result judgedAt now)
      { t with heartbeat := .done, leaseLost := true, handlerTask := t.handlerTask.cancel }
  | ctxExtends (expiry : Datetime) :
    Moves autoExtend t (.ctxExtends expiry) { t with knownExpiryMs := datetimeToMillis expiry }
  | callEnds (result : Except PyError Unit) (at_pc : t.pc = .noHandler ∨ t.pc = .disposing) :
    Moves autoExtend t (.callEnds result) { t with pc := .ended (disposalEnd result) }
  | cancel : Moves autoExtend t .cancel t.cancel

private theorem moves_of_start {registry : Registry} {call : HandlerCall}
    (started : t.start autoExtend registry call = some t') :
    Moves autoExtend t (.start registry call) t' := by
  unfold start at started
  split at started
  · contradiction
  next at_pc =>
  have created : t.pc = .created := not_not.mp at_pc
  split at started
  · next flagged =>
    cases started
    exact .cancelledEarly registry call created flagged
  next unflagged =>
  have calm := Bool.eq_false_iff.mpr unflagged
  dsimp only at started
  split at started
  · next missing =>
    cases started
    exact .unhandled registry call created missing calm
  next handler found =>
  split at started
  · next what =>
    split at started
    · contradiction
    next coroutine =>
    have ordinary := Bool.eq_false_iff.mpr coroutine
    split at started
    · next plain =>
      cases started
      exact .raisesInPlain registry what handler created found ordinary
        (Option.isNone_iff_eq_none.mp plain) calm
    · next extended =>
      cases started
      exact .raisesInExtended registry what handler created found ordinary
        (Option.isSome_iff_ne_none.mpr (mt Option.isNone_iff_eq_none.mpr extended)) calm
  · cases started
    exact .callsPlain registry handler created found rfl calm
  · cases started
    exact .callsExtended registry handler created found rfl calm

private theorem moves_of_beat {e : Event} (beat : e.IsBeat)
    (taken : t.step autoExtend e = some t') : Moves autoExtend t e t' := by
  cases e with
  | heartbeatStarts now =>
    simp only [step, heartbeatStarts] at taken
    split at taken
    · next created =>
      cases taken
      exact .beats _ _ beat (by simp [created]) (by simp [created]) (by simp)
    · contradiction
  | heartbeatWakes =>
    simp only [step, heartbeatWakes] at taken
    split at taken
    · next sleeping =>
      cases taken
      exact .beats _ _ beat (by simp [sleeping]) (by simp [sleeping]) (by simp)
    · contradiction
  | heartbeatExtends result judgedAt now =>
    simp only [step, heartbeatExtends] at taken
    split at taken
    · next extending =>
      have beating : t.heartbeat ≠ .absent := by simp [extending]
      have alive : t.heartbeat ≠ .done := by simp [extending]
      split at taken
      · cases taken
        exact .beats _ _ beat beating alive (by simp)
      · cases taken
        exact .beats _ _ beat beating alive (by simp)
      · cases taken
        exact .beats _ _ beat beating alive (by simp)
      · next judged =>
        cases taken
        exact .givesUp result judgedAt now beating alive judged
    · contradiction
  | heartbeatCancelled =>
    simp only [step, heartbeatCancelled] at taken
    split at taken
    · next created =>
      cases taken
      exact .beats _ _ beat (by simp [created]) (by simp [created]) (by simp)
    · next sleeping =>
      cases taken
      exact .beats _ _ beat (by simp [sleeping]) (by simp [sleeping]) (by simp)
    · contradiction
  | start | handlerEnds | resume | ctxExtends | callEnds | cancel => exact beat.elim

/-- Every step is one of these. -/
theorem moves_of_step {e : Event} (taken : t.step autoExtend e = some t') :
    Moves autoExtend t e t' := by
  cases e with
  | start registry call => exact moves_of_start taken
  | handlerEnds how =>
    simp only [step, handlerEnds] at taken
    split at taken
    · next at_pc =>
      cases taken
      exact .endsPlain how at_pc
    · next flag at_pc running =>
      cases taken
      exact .endsTask how flag at_pc running
    · contradiction
  | resume =>
    simp only [step, resume] at taken
    split at taken
    · next how at_pc done =>
      cases taken
      exact .resumesHandler how at_pc done
    · next pending at_pc reaped =>
      cases taken
      exact .resumesReap pending at_pc reaped
    · contradiction
  | heartbeatStarts | heartbeatWakes | heartbeatExtends | heartbeatCancelled =>
    exact moves_of_beat (by trivial) taken
  | ctxExtends expiry =>
    cases taken
    exact .ctxExtends expiry
  | callEnds result =>
    simp only [step, callEnds] at taken
    split at taken
    · next at_pc =>
      cases taken
      exact .callEnds result (.inl at_pc)
    · next at_pc =>
      cases taken
      exact .callEnds result (.inr at_pc)
    · contradiction
  | cancel =>
    cases taken
    exact .cancel

end JobTask

end SeppPy
