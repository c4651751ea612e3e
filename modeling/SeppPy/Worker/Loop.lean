import SeppPy.Worker.JobTask

/-! # The loop of a worker

`Loop` is the task of `run()` together with everything it created: the race that `_or_shutdown` is
waiting for, the job tasks it has spawned, the semaphore. An event is one step of `run()` up to its
next `await`, one step of a child, a done callback, the shutdown signal, or a cancellation of
`run()`'s own task.

The semaphore is atomic: a permit belongs to the loop only once its `acquire` has completed, and a
cancelled `acquire` takes none. A done callback runs some time after its task has ended. `gather`
waits for the callbacks of its children, which come after `_done`; with `eagerGather` (CPython 3.12
and later) it does not wait for a child that has already ended when it is called.
-/

namespace SeppPy

/-- A job task in the eyes of `run()`; `reaped` says that its `_done` callback has run and `asked`
that `run()` has cancelled it. -/
structure Slot where
  task : JobTask
  reaped : Bool
  asked : Bool
deriving DecidableEq

/-- The awaitable that `_or_shutdown` races against the shutdown signal. -/
inductive Awaitable
  | acquire
  | reserve (opts : ReserveOptions) (started : ℤ)
  | sleep (delay : Timedelta)
deriving DecidableEq

/-- The task around the awaitable; only a reserve call has a result of interest. -/
inductive RaceTask
  | pending (cancelRequested : Bool)
  | done (result : Except PyError (Option (List Job)))
deriving DecidableEq

def RaceTask.cancel : RaceTask → RaceTask
  | .pending _ => .pending true
  | task => task

/-- The task that waits for the shutdown signal. -/
inductive ShutdownWait
  | pending (cancelRequested : Bool)
  | done
deriving DecidableEq, Repr

def ShutdownWait.cancel : ShutdownWait → ShutdownWait
  | .pending _ => .pending true
  | sd => sd

/-- The two tasks of one call of `_or_shutdown`. -/
structure Race where
  awaitable : Awaitable
  task : RaceTask
  shutdownWait : ShutdownWait
deriving DecidableEq

/-- The `await`s of `_or_shutdown`. -/
inductive Stage
  | waiting
  | reapBoth
  | reapTask
  | reapShutdownWait
deriving DecidableEq, Repr

/-- Cancelling `run()` in a `gather` of `_or_shutdown` cancels the gathered children. -/
def Race.cancelAt (r : Race) : Stage → Race
  | .waiting => r
  | .reapBoth => { r with task := r.task.cancel, shutdownWait := r.shutdownWait.cancel }
  | .reapTask => { r with task := r.task.cancel }
  | .reapShutdownWait => { r with shutdownWait := r.shutdownWait.cancel }

@[simp]
theorem Race.awaitable_cancelAt (r : Race) (stage : Stage) :
    (r.cancelAt stage).awaitable = r.awaitable := by
  cases stage <;> rfl

/-- A cancellation leaves a task that has ended alone. -/
theorem Race.task_cancelAt_of_done {r : Race} {result : Except PyError (Option (List Job))}
    (ended : r.task = .done result) (stage : Stage) : (r.cancelAt stage).task = .done result := by
  cases stage <;> simp [cancelAt, ended, RaceTask.cancel]

theorem Race.task_cancelAt_of_pending {r : Race} {flag : Bool} (running : r.task = .pending flag)
    (stage : Stage) : ∃ flag, (r.cancelAt stage).task = .pending flag ∧
      (stage = .reapTask → flag = true) := by
  cases stage <;> simp [cancelAt, running, RaceTask.cancel]

/-- A change of the registered handlers while the worker runs. -/
inductive Registration
  | handle (jobType : String) (handler : Handler)
  | replaceHandler (jobType : String) (handler : Handler)
  | removeHandler (jobType : String)
  | catchAll (handler : Handler)
deriving DecidableEq, Repr

/-- A registration that raises changes nothing. -/
def Registry.apply (r : Registry) : Registration → Registry
  | .handle jobType handler =>
    match r.handle jobType handler with
    | .ok r' => r'
    | .error _ => r
  | .replaceHandler jobType handler => r.replaceHandler jobType handler
  | .removeHandler jobType => r.removeHandler jobType
  | .catchAll handler => r.catchAll handler

namespace Loop

/-- Where `run()` is suspended. `batch` holds the jobs still to be spawned, `reap` and `drain` the
positions of the tasks whose callbacks their `gather` waits for. -/
inductive Pc
  | notStarted
  | race (race : Race) (stage : Stage)
  | batch (rest : List Job)
  | reap (awaited : List ℕ)
  | drain (awaited : List ℕ)
  | returned
  | raised (err : PyError)
deriving DecidableEq

inductive Event
  | shutdown
  /-- `run()`'s own task is cancelled. -/
  | cancel
  /-- An `acquire` or a backoff ends: cancelled if that was requested, otherwise successfully. -/
  | waitEnds
  | reserveEnds (result : Except PyError (Option (List Job)))
  | shutdownWaitEnds
  /-- `run()` resumes; `monotonic` is the clock it reads, in microseconds. -/
  | resume (monotonic : ℤ)
  | job (i : ℕ) (e : JobTask.Event)
  /-- The `_done` callback of a job task. -/
  | taskDone (i : ℕ)
  | register (change : Registration)

end Loop

/-- A worker's run. `past` records the races that are over. -/
structure Loop where
  pc : Loop.Pc
  mustCancel : Bool
  shutdown : Bool
  free : ℕ
  held : Bool
  inFlight : ℤ
  slots : List Slot
  registry : Registry
  past : List Race
deriving DecidableEq

namespace Loop

/-- A run that has not taken its first step, with `_in_flight` as it is then. -/
def init (worker : Worker) (registry : Registry) (inFlight : ℤ) : Loop where
  pc := .notStarted
  mustCancel := false
  shutdown := false
  free := worker.maxInFlight.toNat
  held := false
  inFlight
  slots := []
  registry
  past := []

/-- The positions of the tasks whose callbacks a `gather(*tasks)` called now would wait for. -/
def gathered (eagerGather : Bool) (w : Loop) : List ℕ :=
  (List.range w.slots.length).filter fun i =>
    (w.slots[i]?).any fun slot => !slot.reaped && !(eagerGather && decide slot.task.Ended)

/-- The `gather` of these tasks is complete. -/
def gatheredDone (w : Loop) (awaited : List ℕ) : Bool :=
  awaited.all fun i => (w.slots[i]?).all Slot.reaped

/-- `t.cancel()` for every task that is still in the set. -/
def cancelTasks (slots : List Slot) : List Slot :=
  slots.map fun slot =>
    if slot.reaped then slot else { slot with task := slot.task.cancel, asked := true }

section Resume

variable (worker : Worker) (eagerGather : Bool)

/-- After the loop: wait for the jobs in flight, if there are any. -/
def afterLoop (w : Loop) : Pc :=
  match w.gathered eagerGather with
  | [] => .returned
  | awaited => .drain awaited

def startRace (awaitable : Awaitable) : Pc :=
  .race ⟨awaitable, .pending false, .pending false⟩ .waiting

/-- The head of the `while` loop. -/
def loopHead (w : Loop) : Pc :=
  if w.shutdown then w.afterLoop eagerGather else startRace .acquire

/-- `sem.release()` by the loop. -/
def release (w : Loop) : Loop := { w with free := w.free + 1, held := false }

/-- `_spawn`, which passes the loop's permit on to the job. -/
def spawn (job : Job) (w : Loop) : Loop :=
  { w with
    slots := w.slots ++ [⟨.spawned job, false, false⟩]
    inFlight := w.inFlight + 1
    held := false }

/-- The next round of the batch loop, or the head of the `while` loop after the last. -/
def nextJob (rest : List Job) (w : Loop) : Pc :=
  match rest with
  | [] => w.loopHead eagerGather
  | rest => .batch rest

/-- `except asyncio.CancelledError`: cancel the job tasks, reap them and raise again. -/
def reapTasks (w : Loop) : Loop :=
  { w with
    slots := cancelTasks w.slots
    mustCancel := false
    pc := match w.gathered eagerGather with
      | [] => .raised .cancelledError
      | awaited => .reap awaited }

/-- An exception leaves the body of the loop. -/
def raiseInBody (err : PyError) (w : Loop) : Loop :=
  match err with
  | .cancelledError => w.reapTasks eagerGather
  | err => { w with pc := .raised err }

/-- The loop goes on with what the reserve call returned or raised. -/
def onReserved (opts : ReserveOptions) (elapsed : Timedelta) (w : Loop) :
    Except PyError (Option (List Job)) → Loop
  | .ok none =>
    let w := w.release
    { w with
      pc := if earlyEmpty opts elapsed then startRace (.sleep EARLY_EMPTY_BACKOFF)
        else w.loopHead eagerGather }
  | .ok (some []) => w.raiseInBody eagerGather (.indexError "list index out of range")
  | .ok (some (job :: rest)) =>
    let w := w.spawn job
    { w with pc := w.nextJob eagerGather rest }
  | .error (.sepp _) => { w.release with pc := startRace (.sleep worker.reserveErrorBackoff) }
  | .error err => w.raiseInBody eagerGather err

/-- `_or_shutdown` returns `(result, False)`, or raises what the task raised. -/
def onResult (monotonic : ℤ) (w : Loop) (awaitable : Awaitable)
    (result : Except PyError (Option (List Job))) : Loop :=
  match awaitable, result with
  | .reserve opts started, result => w.onReserved worker eagerGather opts (monotonic - started) result
  | _, .error err => w.raiseInBody eagerGather err
  | .acquire, .ok _ =>
    match worker.reserveOptsWithCapacity w.inFlight with
    | .ok opts => { w with pc := startRace (.reserve opts monotonic) }
    | .error err => w.raiseInBody eagerGather err
  | _, .ok _ => { w with pc := w.loopHead eagerGather }

/-- `_or_shutdown` returns `(None, True)`, and the loop breaks. -/
def onShutdown (w : Loop) (awaitable : Awaitable) : Loop :=
  let w := match awaitable with
    | .reserve _ _ => w.release
    | _ => w
  { w with pc := w.afterLoop eagerGather }

/-- The race is over, and `_or_shutdown` goes on. -/
def closeRace (w : Loop) (r : Race) : Loop := { w with past := w.past ++ [r] }

/-- `run()` resumes in `_or_shutdown`. If both tasks have ended the awaited result wins. -/
def resumeRace (monotonic : ℤ) (w : Loop) (r : Race) : Stage → Option Loop
  | .waiting =>
    if w.mustCancel then
      some { w with pc := .race (r.cancelAt .reapBoth) .reapBoth, mustCancel := false }
    else
      match r.task, r.shutdownWait with
      | .pending _, .pending _ => none
      | .pending _, .done => some { w with pc := .race (r.cancelAt .reapTask) .reapTask }
      | .done _, .pending _ =>
        some { w with pc := .race (r.cancelAt .reapShutdownWait) .reapShutdownWait }
      | .done result, .done =>
        some ((w.closeRace r).onResult worker eagerGather monotonic r.awaitable result)
  | .reapBoth =>
    match r.task, r.shutdownWait with
    | .done _, .done => some ((w.closeRace r).raiseInBody eagerGather .cancelledError)
    | _, _ => none
  | .reapTask =>
    match r.task with
    | .done _ =>
      some <| if w.mustCancel then (w.closeRace r).raiseInBody eagerGather .cancelledError
        else (w.closeRace r).onShutdown eagerGather r.awaitable
    | _ => none
  | .reapShutdownWait =>
    match r.task, r.shutdownWait with
    | .done result, .done =>
      some <| if w.mustCancel then (w.closeRace r).raiseInBody eagerGather .cancelledError
        else (w.closeRace r).onResult worker eagerGather monotonic r.awaitable result
    | _, _ => none

/-- What resuming in `_or_shutdown` can do, stage by stage. -/
inductive RaceResumes (monotonic : ℤ) (w : Loop) (r : Race) : Stage → Loop → Prop
  | cancelled (flagged : w.mustCancel = true) :
    RaceResumes monotonic w r .waiting
      { w with pc := .race (r.cancelAt .reapBoth) .reapBoth, mustCancel := false }
  | shutdownWins (calm : w.mustCancel = false) (running : ∃ flag, r.task = .pending flag)
      (signalled : r.shutdownWait = .done) :
    RaceResumes monotonic w r .waiting { w with pc := .race (r.cancelAt .reapTask) .reapTask }
  | taskWins (calm : w.mustCancel = false) (ended : ∃ result, r.task = .done result)
      (unsignalled : ∃ flag, r.shutdownWait = .pending flag) :
    RaceResumes monotonic w r .waiting
      { w with pc := .race (r.cancelAt .reapShutdownWait) .reapShutdownWait }
  | result {stage : Stage} {result : Except PyError (Option (List Job))}
      (calm : w.mustCancel = false) (ended : r.task = .done result)
      (signalled : r.shutdownWait = .done) (here : stage = .waiting ∨ stage = .reapShutdownWait) :
    RaceResumes monotonic w r stage
      ((w.closeRace r).onResult worker eagerGather monotonic r.awaitable result)
  | shutdown (calm : w.mustCancel = false) (ended : ∃ result, r.task = .done result) :
    RaceResumes monotonic w r .reapTask ((w.closeRace r).onShutdown eagerGather r.awaitable)
  | raises {stage : Stage} (ended : ∃ result, r.task = .done result)
      (signalled : r.shutdownWait = .done ∨ stage = .reapTask)
      (here : stage = .reapBoth ∨ w.mustCancel = true ∧ stage ≠ .waiting) :
    RaceResumes monotonic w r stage ((w.closeRace r).raiseInBody eagerGather .cancelledError)

private theorem resumeRace_cases {worker : Worker} {eagerGather : Bool} {monotonic : ℤ}
    {w w' : Loop} {r : Race} {stage : Stage}
    (resumed : w.resumeRace worker eagerGather monotonic r stage = some w') :
    RaceResumes worker eagerGather monotonic w r stage w' := by
  cases stage with
  | waiting =>
    simp only [resumeRace] at resumed
    split at resumed
    · next flagged =>
      cases resumed
      exact .cancelled flagged
    · next calm =>
      rw [Bool.not_eq_true] at calm
      split at resumed
      · contradiction
      · next flag running signalled =>
        cases resumed
        exact .shutdownWins calm ⟨_, running⟩ signalled
      · next ended unsignalled =>
        cases resumed
        exact .taskWins calm ⟨_, ended⟩ ⟨_, unsignalled⟩
      · next ended signalled =>
        cases resumed
        exact .result calm ended signalled (.inl rfl)
  | reapBoth =>
    simp only [resumeRace] at resumed
    split at resumed
    · next ended signalled =>
      cases resumed
      exact .raises ⟨_, ended⟩ (.inl signalled) (.inl rfl)
    · contradiction
  | reapTask =>
    simp only [resumeRace] at resumed
    split at resumed
    · next ended =>
      split at resumed
      · next flagged =>
        cases resumed
        exact .raises ⟨_, ended⟩ (.inr rfl) (.inr ⟨flagged, nofun⟩)
      · next calm =>
        cases resumed
        exact .shutdown (Bool.not_eq_true _ ▸ calm) ⟨_, ended⟩
    · contradiction
  | reapShutdownWait =>
    simp only [resumeRace] at resumed
    split at resumed
    · next ended signalled =>
      split at resumed
      · next flagged =>
        cases resumed
        exact .raises ⟨_, ended⟩ (.inl signalled) (.inr ⟨flagged, nofun⟩)
      · next calm =>
        cases resumed
        exact .result (Bool.not_eq_true _ ▸ calm) ended signalled (.inr rfl)
    · contradiction

/-- `run()` resumes at `sem.acquire()` in the batch loop. -/
def resumeBatch (w : Loop) : List Job → Option Loop
  | [] => none
  | job :: rest =>
    if w.mustCancel then some (w.raiseInBody eagerGather .cancelledError)
    else if w.free = 0 then none
    else
      let w := { w with free := w.free - 1 }.spawn job
      some { w with pc := w.nextJob eagerGather rest }

def resume (monotonic : ℤ) (w : Loop) : Option Loop :=
  match w.pc with
  | .notStarted =>
    some { w with pc := if w.mustCancel then .raised .cancelledError else w.loopHead eagerGather }
  | .race r stage => w.resumeRace worker eagerGather monotonic r stage
  | .batch rest => w.resumeBatch eagerGather rest
  | .reap awaited =>
    if w.gatheredDone awaited then some { w with pc := .raised .cancelledError } else none
  | .drain awaited =>
    if w.gatheredDone awaited then
      some { w with pc := if w.mustCancel then .raised .cancelledError else .returned }
    else none
  | .returned => none
  | .raised _ => none

end Resume

/-- `task.cancel()` on the task of `run()`. -/
def cancel (w : Loop) : Loop :=
  match w.pc with
  | .notStarted => { w with mustCancel := true }
  | .race r stage => { w with pc := .race (r.cancelAt stage) stage, mustCancel := true }
  | .batch _ => { w with mustCancel := true }
  | .reap _ => { w with slots := cancelTasks w.slots, mustCancel := true }
  | .drain _ => { w with slots := cancelTasks w.slots, mustCancel := true }
  | .returned => w
  | .raised _ => w

/-- The raced `acquire` or backoff ends. -/
def waitEnds (w : Loop) : Option Loop :=
  match w.pc with
  | .race r stage =>
    match r.awaitable, r.task with
    | .reserve _ _, _ => none
    | _, .done _ => none
    | _, .pending true => some { w with pc := .race { r with task := .done (.error .cancelledError) } stage }
    | .acquire, .pending false =>
      if w.free = 0 then none
      else some { w with
        pc := .race { r with task := .done (.ok none) } stage
        free := w.free - 1
        held := true }
    | _, .pending false => some { w with pc := .race { r with task := .done (.ok none) } stage }
  | _ => none

/-- The raced reserve call ends. -/
def reserveEnds (result : Except PyError (Option (List Job))) (w : Loop) : Option Loop :=
  match w.pc with
  | .race r stage =>
    match r.awaitable, r.task with
    | .reserve _ _, .pending _ => some { w with pc := .race { r with task := .done result } stage }
    | _, _ => none
  | _ => none

/-- The wait for the shutdown signal ends: the signal was given, or the wait cancelled. -/
def shutdownWaitEnds (w : Loop) : Option Loop :=
  match w.pc with
  | .race r stage =>
    match r.shutdownWait with
    | .pending cancelRequested =>
      if w.shutdown ∨ cancelRequested then
        some { w with pc := .race { r with shutdownWait := .done } stage }
      else none
    | .done => none
  | _ => none

/-- A job task looks its handler up among those registered when it starts. -/
def sees (registry : Registry) : JobTask.Event → Bool
  | .start looked _ => decide (looked = registry)
  | _ => true

/-- A step of a job task, or its cancellation by other code. -/
def jobStep (worker : Worker) (i : ℕ) (e : JobTask.Event) (w : Loop) : Option Loop :=
  if sees w.registry e then
    (w.slots[i]?).bind fun slot =>
      (slot.task.step worker.autoExtend e).map fun task =>
        { w with slots := w.slots.set i { slot with task } }
  else none

/-- `_done`. -/
def taskDone (i : ℕ) (w : Loop) : Option Loop :=
  match w.slots[i]? with
  | some slot =>
    if slot.task.Ended ∧ slot.reaped = false then
      some { w with
        slots := w.slots.set i { slot with reaped := true }
        free := w.free + 1
        inFlight := w.inFlight - 1 }
    else none
  | none => none

/-- One step of the worker's tasks. -/
def step (worker : Worker) (eagerGather : Bool) (w : Loop) : Event → Option Loop
  | .shutdown => some { w with shutdown := true }
  | .cancel => some w.cancel
  | .waitEnds => w.waitEnds
  | .reserveEnds result => w.reserveEnds result
  | .shutdownWaitEnds => w.shutdownWaitEnds
  | .resume monotonic => w.resume worker eagerGather monotonic
  | .job i e => w.jobStep worker i e
  | .taskDone i => w.taskDone i
  | .register change => some { w with registry := w.registry.apply change }

/-! ## What a step can do -/

variable {worker : Worker} {eagerGather : Bool} {monotonic : ℤ} {w w' : Loop} {e : Event}

/-- What resuming `run()` can do, `await` by `await`. -/
inductive Resumes (worker : Worker) (eagerGather : Bool) (monotonic : ℤ) (w : Loop) : Loop → Prop
  | starts (at_pc : w.pc = .notStarted) (calm : w.mustCancel = false) :
    Resumes worker eagerGather monotonic w { w with pc := w.loopHead eagerGather }
  | neverStarts (at_pc : w.pc = .notStarted) (flagged : w.mustCancel = true) :
    Resumes worker eagerGather monotonic w { w with pc := .raised .cancelledError }
  | races {r : Race} {stage : Stage} {w' : Loop} (at_pc : w.pc = .race r stage)
      (resumed : RaceResumes worker eagerGather monotonic w r stage w') :
    Resumes worker eagerGather monotonic w w'
  | batchRaises {rest : List Job} (at_pc : w.pc = .batch rest) (flagged : w.mustCancel = true) :
    Resumes worker eagerGather monotonic w (w.raiseInBody eagerGather .cancelledError)
  | batchSpawns {job : Job} {rest : List Job} (at_pc : w.pc = .batch (job :: rest))
      (calm : w.mustCancel = false) (available : w.free ≠ 0) :
    Resumes worker eagerGather monotonic w
      { { w with free := w.free - 1 }.spawn job with
        pc := ({ w with free := w.free - 1 }.spawn job).nextJob eagerGather rest }
  | reaped {awaited : List ℕ} (at_pc : w.pc = .reap awaited)
      (done : w.gatheredDone awaited = true) :
    Resumes worker eagerGather monotonic w { w with pc := .raised .cancelledError }
  | drained {awaited : List ℕ} (at_pc : w.pc = .drain awaited)
      (done : w.gatheredDone awaited = true) (calm : w.mustCancel = false) :
    Resumes worker eagerGather monotonic w { w with pc := .returned }
  | drainRaises {awaited : List ℕ} (at_pc : w.pc = .drain awaited)
      (done : w.gatheredDone awaited = true) (flagged : w.mustCancel = true) :
    Resumes worker eagerGather monotonic w { w with pc := .raised .cancelledError }

theorem resumes_of_resume (resumed : w.resume worker eagerGather monotonic = some w') :
    Resumes worker eagerGather monotonic w w' := by
  unfold resume at resumed
  split at resumed
  · next at_pc =>
    cases resumed
    by_cases flagged : w.mustCancel = true
    · rw [if_pos flagged]
      exact .neverStarts at_pc flagged
    · rw [if_neg flagged]
      exact .starts at_pc (Bool.eq_false_iff.mpr flagged)
  · next at_pc => exact .races at_pc (resumeRace_cases resumed)
  · next rest at_pc =>
    cases rest with
    | nil => cases resumed
    | cons job rest =>
      simp only [resumeBatch] at resumed
      split at resumed
      · next flagged =>
        cases resumed
        exact .batchRaises at_pc flagged
      next calm =>
      split at resumed
      · contradiction
      next available =>
      cases resumed
      exact .batchSpawns at_pc (Bool.eq_false_iff.mpr calm) available
  · next at_pc =>
    split at resumed
    · next done =>
      cases resumed
      exact .reaped at_pc done
    · contradiction
  · next at_pc =>
    split at resumed
    · next done =>
      cases resumed
      by_cases flagged : w.mustCancel = true
      · rw [if_pos flagged]
        exact .drainRaises at_pc done flagged
      · rw [if_neg flagged]
        exact .drained at_pc done (Bool.eq_false_iff.mpr flagged)
    · contradiction
  · contradiction
  · contradiction

/-- What a child of the race can do. -/
inductive ChildMoves (w : Loop) : Event → Loop → Prop
  | acquires {r : Race} {stage : Stage} (at_pc : w.pc = .race r stage)
      (awaitable : r.awaitable = .acquire) (running : r.task = .pending false)
      (available : w.free ≠ 0) :
    ChildMoves w .waitEnds { w with
      pc := .race { r with task := .done (.ok none) } stage
      free := w.free - 1
      held := true }
  | cancelled {r : Race} {stage : Stage} (at_pc : w.pc = .race r stage)
      (other : ∀ opts started, r.awaitable ≠ .reserve opts started)
      (running : r.task = .pending true) :
    ChildMoves w .waitEnds
      { w with pc := .race { r with task := .done (.error .cancelledError) } stage }
  | sleeps {r : Race} {stage : Stage} (at_pc : w.pc = .race r stage)
      (other : ∀ opts started, r.awaitable ≠ .reserve opts started)
      (backoff : r.awaitable ≠ .acquire) (running : r.task = .pending false) :
    ChildMoves w .waitEnds { w with pc := .race { r with task := .done (.ok none) } stage }
  | reserves {r : Race} {stage : Stage} {opts : ReserveOptions} {started : ℤ} {flag : Bool}
      (result : Except PyError (Option (List Job))) (at_pc : w.pc = .race r stage)
      (awaitable : r.awaitable = .reserve opts started) (running : r.task = .pending flag) :
    ChildMoves w (.reserveEnds result) { w with pc := .race { r with task := .done result } stage }
  | signalled {r : Race} {stage : Stage} {flag : Bool} (at_pc : w.pc = .race r stage)
      (waiting : r.shutdownWait = .pending flag) (why : w.shutdown = true ∨ flag = true) :
    ChildMoves w .shutdownWaitEnds
      { w with pc := .race { r with shutdownWait := .done } stage }

/-- What a step can do, with the conditions under which it does. -/
inductive Moves (worker : Worker) (eagerGather : Bool) (w : Loop) : Event → Loop → Prop
  | shutdown : Moves worker eagerGather w .shutdown { w with shutdown := true }
  | cancel : Moves worker eagerGather w .cancel w.cancel
  | child {e : Event} {w' : Loop} (moved : ChildMoves w e w') : Moves worker eagerGather w e w'
  | resume (monotonic : ℤ) {w' : Loop} (resumed : Resumes worker eagerGather monotonic w w') :
    Moves worker eagerGather w (.resume monotonic) w'
  | job (i : ℕ) (e : JobTask.Event) {slot : Slot} {task : JobTask} (sees : sees w.registry e = true)
      (found : w.slots[i]? = some slot) (taken : slot.task.step worker.autoExtend e = some task) :
    Moves worker eagerGather w (.job i e) { w with slots := w.slots.set i { slot with task } }
  | taskDone (i : ℕ) {slot : Slot} (found : w.slots[i]? = some slot) (ended : slot.task.Ended)
      (unreaped : slot.reaped = false) :
    Moves worker eagerGather w (.taskDone i) { w with
      slots := w.slots.set i { slot with reaped := true }
      free := w.free + 1
      inFlight := w.inFlight - 1 }
  | register (change : Registration) :
    Moves worker eagerGather w (.register change)
      { w with registry := w.registry.apply change }

private theorem childMoves_of_waitEnds
    (ends : w.waitEnds = some w') : ChildMoves w .waitEnds w' := by
  unfold waitEnds at ends
  split at ends
  · next r stage at_pc =>
    split at ends
    · contradiction
    · contradiction
    · next running other =>
      cases ends
      exact .cancelled at_pc other running
    · next awaitable running =>
      split at ends
      · contradiction
      next available =>
      cases ends
      exact .acquires at_pc awaitable running available
    · next running other backoff =>
      cases ends
      exact .sleeps at_pc other backoff running
  · contradiction

/-- Every step is one of these. -/
theorem moves_of_step (taken : w.step worker eagerGather e = some w') :
    Moves worker eagerGather w e w' := by
  cases e with
  | shutdown =>
    cases taken
    exact .shutdown
  | cancel =>
    cases taken
    exact .cancel
  | waitEnds => exact .child (childMoves_of_waitEnds taken)
  | reserveEnds result =>
    simp only [step, reserveEnds] at taken
    split at taken
    · next at_pc =>
      split at taken
      · next awaitable running =>
        cases taken
        exact .child (.reserves result at_pc awaitable running)
      · contradiction
    · contradiction
  | shutdownWaitEnds =>
    simp only [step, shutdownWaitEnds] at taken
    split at taken
    · next at_pc =>
      split at taken
      · next waiting =>
        split at taken
        · next why =>
          cases taken
          exact .child (.signalled at_pc waiting why)
        · contradiction
      · contradiction
    · contradiction
  | resume monotonic => exact .resume monotonic (resumes_of_resume taken)
  | job i e =>
    simp only [step, jobStep] at taken
    split at taken
    · next sees =>
      obtain ⟨slot, found, moved⟩ := Option.bind_eq_some_iff.mp taken
      obtain ⟨task, next, rfl⟩ := Option.map_eq_some_iff.mp moved
      exact .job i e sees found next
    · contradiction
  | taskDone i =>
    simp only [step, taskDone] at taken
    split at taken
    · next slot found =>
      split at taken
      · next done =>
        cases taken
        exact .taskDone i found done.1 done.2
      · contradiction
    · contradiction
  | register change =>
    cases taken
    exact .register change

/-- How the raced task ends if nobody cancels it. -/
def EndsAs (e : Event) : Awaitable → Except PyError (Option (List Job)) → Prop
  | .reserve _ _, result => e = .reserveEnds result
  | _, result => result = .ok none

private theorem endsAs_of_ne_reserve {awaitable : Awaitable}
    (other : ∀ opts started, awaitable ≠ .reserve opts started) : EndsAs e awaitable (.ok none) := by
  cases awaitable with
  | reserve opts started => exact absurd rfl (other opts started)
  | acquire | sleep => rfl

/-- A child of the race has moved; a child that has ended stays as it is. -/
structure RaceAdvances (e : Event) (r r' : Race) : Prop where
  awaitable : r'.awaitable = r.awaitable
  task : r'.task = r.task ∨ ∃ flag result, r.task = .pending flag ∧ r'.task = .done result ∧
    (flag = false → EndsAs e r.awaitable result)
  waits : r'.shutdownWait = r.shutdownWait ∨ r'.shutdownWait = .done

private theorem raceAdvances_task {r : Race} {flag : Bool}
    {result : Except PyError (Option (List Job))}
    (running : r.task = .pending flag) (ends : flag = false → EndsAs e r.awaitable result) :
    RaceAdvances e r { r with task := .done result } :=
  ⟨rfl, .inr ⟨flag, result, running, rfl, ends⟩, .inl rfl⟩

theorem RaceAdvances.task_of_done {r r' : Race} {result : Except PyError (Option (List Job))}
    (advances : RaceAdvances e r r') (ended : r.task = .done result) : r'.task = .done result := by
  rcases advances.task with same | ⟨flag, _, running, _⟩
  · exact same.trans ended
  · rw [ended] at running
    contradiction

theorem RaceAdvances.shutdownWait {r r' : Race} (advances : RaceAdvances e r r')
    (signalled : r.shutdownWait = .done) : r'.shutdownWait = .done :=
  advances.waits.elim (·.trans signalled) id

/-- A race that has not been cancelled goes on, or ends with what it can end with. -/
theorem RaceAdvances.task_of_uncancelled {r r' : Race}
    {expected : Except PyError (Option (List Job)) → Prop} (advances : RaceAdvances e r r')
    (before : r.task = .pending false ∨ ∃ result, r.task = .done result ∧ expected result)
    (ends : ∀ result, r.task = .pending false → EndsAs e r.awaitable result → expected result) :
    r'.task = .pending false ∨ ∃ result, r'.task = .done result ∧ expected result := by
  rcases advances.task with same | ⟨flag, result, running, ended, endsAs⟩
  · rwa [same]
  rcases before with uncancelled | ⟨result', ended', _⟩
  · obtain rfl : flag = false := RaceTask.pending.inj (running.symm.trans uncancelled)
    exact .inr ⟨result, ended, ends result running (endsAs rfl)⟩
  · rw [running] at ended'
    contradiction

/-- Nothing changes but the race and the loop's permit. -/
structure RaceMoves (w : Loop) (e : Event) (w' : Loop) : Prop where
  races : ∃ r r' stage, w.pc = .race r stage ∧ w'.pc = .race r' stage ∧ RaceAdvances e r r'
  mustCancel : w'.mustCancel = w.mustCancel
  slots : w'.slots = w.slots
  past : w'.past = w.past

theorem ChildMoves.raceMoves (moved : ChildMoves w e w') : RaceMoves w e w' := by
  cases moved with
  | acquires at_pc awaitable running =>
    refine ⟨⟨_, _, _, at_pc, rfl, raceAdvances_task running fun _ => ?_⟩, rfl, rfl, rfl⟩
    rw [awaitable]
    rfl
  | cancelled at_pc other running =>
    exact ⟨⟨_, _, _, at_pc, rfl, raceAdvances_task running nofun⟩, rfl, rfl, rfl⟩
  | sleeps at_pc other backoff running =>
    exact ⟨⟨_, _, _, at_pc, rfl, raceAdvances_task running fun _ => endsAs_of_ne_reserve other⟩,
      rfl, rfl, rfl⟩
  | reserves result at_pc awaitable running =>
    refine ⟨⟨_, _, _, at_pc, rfl, raceAdvances_task running fun _ => ?_⟩, rfl, rfl, rfl⟩
    rw [awaitable]
    rfl
  | signalled at_pc =>
    exact ⟨⟨_, _, _, at_pc, rfl, rfl, .inl rfl, .inr rfl⟩, rfl, rfl, rfl⟩

end Loop

end SeppPy
