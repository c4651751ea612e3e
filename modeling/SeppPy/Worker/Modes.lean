import SeppPy.Worker.Disposal

/-! # Plain and auto-extend processing

A `Behaviour` fixes what the worker cannot influence: the handlers registered when the job's task
starts, what calling the selected handler does and how awaiting it ends. `Processes` lists the
disposal calls that a mode can make for it when the lease is kept and nobody cancels the task. The
modes agree except where an ordinary function raises an `Exception` before it returns its awaitable:
plain mode calls the handler inside its `try` and nacks, auto-extend mode calls it outside and drops
the job.
-/

namespace SeppPy.JobTask

open Machine

structure Behaviour where
  registry : Registry
  call : HandlerCall
  ending : HandlerEnd
deriving DecidableEq

/-- How calling and awaiting the handler ends. -/
def Behaviour.ends (b : Behaviour) : HandlerEnd :=
  match b.call with
  | .awaitable => b.ending
  | .raises what => .raised what

/-- The events of a run in which user code behaves so and nobody cancels the task. -/
def Behaviour.Follows (b : Behaviour) : Event → Prop
  | .start registry call => registry = b.registry ∧ call = b.call
  | .handlerEnds how => how = b.ending
  | .cancel => False
  | _ => True

/-- The mode can finish the job, its lease kept, with exactly these disposal calls. -/
def Processes (autoExtend : Option AutoExtend) (job : Job) (b : Behaviour) (calls : List Call) :
    Prop :=
  ∃ es t, Run (Guarded (Steps (step autoExtend)) fun _ => b.Follows) (spawned job) es t ∧
    t.Ended ∧ t.leaseLost = false ∧ t.calls = calls

/-- The selected handler is an ordinary function that raises an `Exception`, one that can be
formatted, when it is called. -/
def FailsEarly (job : Job) (b : Behaviour) : Prop :=
  ∃ handler err call, b.registry.lookup job.ctx.jobType = some handler ∧
    handler.coroutineFunction = false ∧ b.call = .raises (.exception err) ∧
    disposal job.ctx (some err) = .ok call

variable {autoExtend : Option AutoExtend} {job : Job} {b : Behaviour} {t t' : JobTask}

/-- What the task has recorded agrees with the behaviour. -/
structure Records (job : Job) (b : Behaviour) (t : JobTask) : Prop where
  job_eq : t.job = job
  lookedUp : ∀ registry, t.lookedUp = some registry → registry = b.registry
  handlerCall : ∀ call, t.handlerCall = some call → call = b.call
  handlerEnd : ∀ how, t.handlerEnd = some how → how = b.ends
  awaited : t.pc = .plain ∨ t.pc = .awaitHandler → t.handlerCall = some .awaitable

namespace Records

/-- The records stay as they are, and the handler is not awaited anew. -/
theorem moved (records : t.Records job b) (same : t'.job = t.job) (lookedUp : t'.lookedUp = t.lookedUp)
    (handlerCall : t'.handlerCall = t.handlerCall) (handlerEnd : t'.handlerEnd = t.handlerEnd)
    (awaited : t'.pc = .plain ∨ t'.pc = .awaitHandler → t.pc = .plain ∨ t.pc = .awaitHandler) :
    t'.Records job b where
  job_eq := same.trans records.job_eq
  lookedUp registry looked := records.lookedUp registry (lookedUp.symm.trans looked)
  handlerCall call called := records.handlerCall call (handlerCall.symm.trans called)
  handlerEnd how ended := records.handlerEnd how (handlerEnd.symm.trans ended)
  awaited waits := handlerCall.trans (records.awaited (awaited waits))

private theorem concluded (records : t.Records job b) (concluded : t.Concluded t') :
    t'.Records job b := by
  refine records.moved concluded.job concluded.lookedUp concluded.handlerCall
    concluded.handlerEnd fun waits => ?_
  rcases concluded.out with at_pc | ⟨how, at_pc⟩
  · simp [at_pc] at waits
  · simp [at_pc] at waits

/-- The handler has been looked up and called. -/
theorem called (records : t.Records job b) (same : t'.job = t.job)
    (lookedUp : t'.lookedUp = some b.registry) (handlerCall : t'.handlerCall = some b.call)
    (handlerEnd : ∀ how, t'.handlerEnd = some how → how = b.ends)
    (awaited : t'.pc = .plain ∨ t'.pc = .awaitHandler → b.call = .awaitable) :
    t'.Records job b where
  job_eq := same.trans records.job_eq
  lookedUp _ looked := Option.some.inj (looked.symm.trans lookedUp)
  handlerCall _ called := Option.some.inj (called.symm.trans handlerCall)
  handlerEnd
  awaited waits := handlerCall.trans (congrArg some (awaited waits))

/-- The awaited handler has ended. -/
theorem ended (records : t.Records job b) (waits : t.pc = .plain ∨ t.pc = .awaitHandler)
    (handlerTask : HandlerTask) :
    Records job b { t with handlerTask, handlerEnd := some b.ending } where
  job_eq := records.job_eq
  lookedUp := records.lookedUp
  handlerCall := records.handlerCall
  handlerEnd how same := by
    have awaitable : b.call = .awaitable := (records.handlerCall _ (records.awaited waits)).symm
    rw [Behaviour.ends, awaitable]
    exact (Option.some.inj same).symm
  awaited := records.awaited

theorem step {e : Event} (records : t.Records job b) (follows : b.Follows e)
    (taken : t.step autoExtend e = some t') : t'.Records job b := by
  cases moves_of_step taken with
  | cancelledEarly => exact records.moved rfl rfl rfl rfl (by simp)
  | unhandled registry call =>
    obtain ⟨rfl, rfl⟩ := follows
    exact ⟨records.job_eq, fun _ looked => (Option.some.inj looked).symm, records.handlerCall,
      records.handlerEnd, by simp⟩
  | raisesInPlain registry what handler created =>
    obtain ⟨rfl, raises⟩ := follows
    refine concluded ?_ (concluded_endPlain _ _)
    refine called records rfl rfl (congrArg some raises) (fun how ended => ?_) ?_
    · rw [Behaviour.ends, ← raises]
      exact (Option.some.inj ended).symm
    · simp [created]
  | raisesInExtended registry what =>
    obtain ⟨rfl, raises⟩ := follows
    refine called records rfl rfl (congrArg some raises) (fun how ended => ?_) (by simp)
    rw [Behaviour.ends, ← raises]
    exact (Option.some.inj ended).symm
  | callsPlain registry =>
    obtain ⟨rfl, calls⟩ := follows
    exact called records rfl rfl (congrArg some calls) records.handlerEnd fun _ => calls.symm
  | callsExtended registry =>
    obtain ⟨rfl, calls⟩ := follows
    exact called records rfl rfl (congrArg some calls) records.handlerEnd fun _ => calls.symm
  | endsPlain how at_pc =>
    obtain rfl : how = b.ending := follows
    exact (records.ended (.inl at_pc) t.handlerTask).concluded (concluded_endPlain t _)
  | endsTask how flag at_pc =>
    obtain rfl : how = b.ending := follows
    exact records.ended (.inr at_pc) _
  | resumesHandler => exact records.moved rfl rfl rfl rfl (by simp [resumeHandler])
  | resumesReap pending =>
    have calm : Records job b { t with mustCancel := false } := records.moved rfl rfl rfl rfl id
    exact calm.concluded (concluded_resumeReap t pending)
  | beats | givesUp | ctxExtends => exact records.moved rfl rfl rfl rfl id
  | callEnds => exact records.moved rfl rfl rfl rfl (by simp)
  | cancel => exact follows.elim

end Records

/-- The disposal calls of a task that nobody cancelled and whose lease was kept: the nack of an
unhandled job, those for the handler's end, or none after an early raise in auto-extend mode. -/
theorem calls_of_processes {calls : List Call} (processes : Processes autoExtend job b calls) :
    (b.registry.lookup job.ctx.jobType = none ∧ calls = [unhandledNack job.ctx]) ∨
      ∃ handler, b.registry.lookup job.ctx.jobType = some handler ∧
        (calls = (b.ends.verdict.map (disposalCalls job.ctx)).getD [] ∨
          autoExtend.isSome = true ∧ handler.coroutineFunction = false ∧ calls = [] ∧
            ∃ what, b.call = .raises what) := by
  obtain ⟨es, t, run, ended, kept, rfl⟩ := processes
  have reached : t.Reached autoExtend True ∧ t.Records job b := by
    refine run.invariant (fun t => t.Reached autoExtend True ∧ t.Records job b) ?_
      ⟨⟨⟨rfl, rfl, rfl, rfl, rfl, rfl, rfl, rfl⟩, fun _ => rfl⟩, ?_⟩
    · rintro a e c ⟨reached, records⟩ ⟨taken, follows⟩
      have quiet : e ≠ .cancel := by
        rintro rfl
        exact follows
      exact ⟨⟨phase_step reached.phase reached.calm taken,
        fun q => mustCancel_step (reached.calm q) quiet taken⟩, records.step follows taken⟩
    · exact ⟨rfl, nofun, nofun, nofun, by simp [spawned]⟩
  obtain ⟨⟨phase, _⟩, records⟩ := reached
  have lookup {handler : Handler} (selected : t.selected = some handler) :
      b.registry.lookup job.ctx.jobType = some handler := by
    obtain ⟨registry, lookedUp, found⟩ := Option.bind_eq_some_iff.mp selected
    rwa [records.lookedUp registry lookedUp, records.job_eq] at found
  rcases phase.disposed_of_quiet trivial ended kept with
    unhandled | ⟨error, disposed⟩ | ⟨undisposed, ⟨how, ended, verdict⟩ | early⟩
  · obtain ⟨registry, lookedUp, missing⟩ := unhandled.lookedUp
    rw [records.lookedUp registry lookedUp, records.job_eq] at missing
    exact .inl ⟨missing, by rw [unhandled.calls, records.job_eq]⟩
  · obtain ⟨handler, selected⟩ := disposed.selected
    obtain ⟨how, ended, verdict⟩ := disposed.handlerEnd
    refine .inr ⟨handler, lookup selected, .inl ?_⟩
    rw [← records.handlerEnd how ended, verdict, disposed.calls, records.job_eq]
    rfl
  · obtain ⟨handler, selected⟩ := undisposed.selected
    refine .inr ⟨handler, lookup selected, .inl ?_⟩
    rw [← records.handlerEnd how ended, verdict, undisposed.calls]
    rfl
  · obtain ⟨handler, what, selected, ordinary, extended, called, _⟩ := early
    exact .inr ⟨handler, lookup selected, .inr ⟨extended, ordinary, undisposed.calls, what,
      (records.handlerCall _ called).symm⟩⟩

/-! ## Processing to the end -/

section Finishing

/-- One step of a quiet run of the behaviour. -/
abbrev QuietStep (autoExtend : Option AutoExtend) (b : Behaviour) : JobTask → Event → JobTask → Prop :=
  Guarded (Steps (step autoExtend)) fun _ => b.Follows

/-- The task ends with its lease kept. -/
def Finishes (autoExtend : Option AutoExtend) (b : Behaviour) (t : JobTask) : Prop :=
  ∃ es t', Run (QuietStep autoExtend b) t es t' ∧ t'.Ended ∧ t'.leaseLost = false

theorem Finishes.step {e : Event} (next : QuietStep autoExtend b t e t')
    (finishes : Finishes autoExtend b t') : Finishes autoExtend b t := by
  obtain ⟨es, last, run, ended⟩ := finishes
  exact ⟨e :: es, last, .cons next run, ended⟩

/-- Once the outcome of the handler is known, at most a call of the client is left. -/
theorem Concluded.finishes (concluded : t.Concluded t') (kept : t.leaseLost = false) :
    Finishes autoExtend b t' := by
  have kept' := concluded.leaseLost.trans kept
  rcases concluded.out with disposing | ended
  · have answered : JobTask.step autoExtend t' (.callEnds (.ok ())) =
        some { t' with pc := .ended (disposalEnd (.ok ())) } := by
      simp only [JobTask.step, callEnds, disposing]
    apply Finishes.step ⟨answered, trivial⟩
    exact ⟨[], _, .nil _, ⟨_, rfl⟩, kept'⟩
  · exact ⟨[], t', .nil t', ended, kept'⟩

/-- The job task reaps its heartbeat after the handler has returned or raised. -/
theorem finishes_awaitHandler (cfg : AutoExtend) (at_pc : t.pc = .awaitHandler)
    (running : t.handlerTask = .running false) (created : t.heartbeat = .created false)
    (calm : t.mustCancel = false) (kept : t.leaseLost = false) : Finishes (some cfg) b t := by
  let finished : JobTask :=
    { t with handlerTask := .done b.ending, handlerEnd := some b.ending }
  have ends : t.step (some cfg) (.handlerEnds b.ending) = some finished := by
    simp only [JobTask.step, handlerEnds, at_pc, running, finished]
  apply Finishes.step ⟨ends, rfl⟩
  have resumes : finished.step (some cfg) .resume = some (finished.resumeHandler b.ending) := by
    simp only [JobTask.step, resume, finished, at_pc]
  apply Finishes.step ⟨resumes, trivial⟩
  -- the heartbeat meets its cancellation before its first step
  let reaping : JobTask := { finished.resumeHandler b.ending with heartbeat := .done }
  have cancelled : (finished.resumeHandler b.ending).step (some cfg) .heartbeatCancelled =
      some reaping := by
    simp only [JobTask.step, heartbeatCancelled, resumeHandler, finished, created, Heartbeat.cancel,
      reaping]
  apply Finishes.step ⟨cancelled, trivial⟩
  have reaps : reaping.step (some cfg) .resume =
      some (reaping.resumeReap (pendingOf false b.ending)) := by
    simp only [JobTask.step, resume, reaping, resumeHandler, finished, calm, kept, Bool.false_eq_true,
      ↓reduceIte]
  apply Finishes.step ⟨reaps, trivial⟩
  exact (concluded_resumeReap reaping _).finishes kept

end Finishing

/-- Both modes can process every job to its end with its lease kept, whatever its handler does; a
coroutine function does not raise when it is called. -/
theorem exists_processes (autoExtend : Option AutoExtend) (job : Job) (b : Behaviour)
    (callable : ∀ handler, b.registry.lookup job.ctx.jobType = some handler →
      handler.coroutineFunction = true → b.call = .awaitable) :
    ∃ calls, Processes autoExtend job b calls := by
  suffices finishes : Finishes autoExtend b (spawned job) by
    obtain ⟨es, t, run, ended, kept⟩ := finishes
    exact ⟨t.calls, es, t, run, ended, kept, rfl⟩
  let looked : JobTask := { spawned job with lookedUp := some b.registry }
  have starts (t : JobTask)
      (taken : (spawned job).start autoExtend b.registry b.call = some t)
      (finishes : Finishes autoExtend b t) : Finishes autoExtend b (spawned job) := by
    have next : QuietStep autoExtend b (spawned job) (.start b.registry b.call) t :=
      ⟨taken, rfl, rfl⟩
    exact finishes.step next
  cases found : b.registry.lookup job.ctx.jobType with
  | none =>
    let unhandled : JobTask := { looked with pc := .noHandler, calls := [unhandledNack job.ctx] }
    refine starts unhandled (by simp [start, spawned, found, unhandled, looked]) ?_
    have answered : unhandled.step autoExtend (.callEnds (.ok ())) =
      some { unhandled with pc := .ended (disposalEnd (.ok ())) } := rfl
    exact .step ⟨answered, trivial⟩ ⟨[], _, .nil _, ⟨_, rfl⟩, rfl⟩
  | some handler =>
    let entered : JobTask := { looked with handlerCall := some b.call }
    cases call : b.call with
    | raises what =>
      have ordinary : handler.coroutineFunction = false := by
        by_contra coroutine
        have awaitable := callable handler found (Bool.not_eq_false _ ▸ coroutine)
        rw [call] at awaitable
        contradiction
      cases autoExtend with
      | none =>
        refine starts (entered.endPlain (.raised what)) ?_
          ((concluded_endPlain entered (.raised what)).finishes rfl)
        simp [start, spawned, found, call, ordinary, entered, looked]
      | some cfg =>
        let crashed : JobTask := { entered with handlerEnd := some (.raised what) }
        refine starts { crashed with pc := .ended what.taskEnd } ?_
          ((concluded_ended crashed what.taskEnd).finishes rfl)
        simp [start, spawned, found, call, ordinary, crashed, entered, looked]
    | awaitable =>
      cases autoExtend with
      | none =>
        let plain : JobTask := { entered with pc := .plain }
        refine starts plain (by simp [start, spawned, found, call, plain, entered, looked]) ?_
        have ends : plain.step none (.handlerEnds b.ending) = some (plain.endPlain b.ending) := rfl
        exact .step ⟨ends, rfl⟩ ((concluded_endPlain plain b.ending).finishes rfl)
      | some cfg =>
        refine starts { entered with
          pc := .awaitHandler
          handlerTask := .running false
          heartbeat := .created false } ?_ (finishes_awaitHandler cfg rfl rfl rfl rfl rfl)
        simp [start, spawned, found, call, entered, looked]

section EarlyFailure

variable {handler : Handler} {err : HandlerException} {call : Call}

/-- Where a handler fails early, plain mode nacks the job. -/
theorem processes_plain_of_failsEarly
    (found : b.registry.lookup job.ctx.jobType = some handler)
    (ordinary : handler.coroutineFunction = false) (raises : b.call = .raises (.exception err))
    (disposed : disposal job.ctx (some err) = .ok call) : Processes none job b [call] := by
  let nacked : JobTask := { spawned job with
    pc := .disposing
    lookedUp := some b.registry
    handlerCall := some b.call
    handlerEnd := some (.raised (.exception err))
    disposed := some (some err)
    calls := [call] }
  have started : step none (spawned job) (.start b.registry b.call) = some nacked := by
    simp [step, start, endPlain, conclude, dispose, spawned, found, ordinary, raises, disposed, nacked]
  exact ⟨_, { nacked with pc := .ended .returned },
    .cons ⟨started, rfl, rfl⟩ (.single ⟨show step none nacked (.callEnds (.ok ())) = _ from rfl,
      trivial⟩), ⟨.returned, rfl⟩, rfl, rfl⟩

/-- Where a handler fails early, auto-extend mode drops the job. -/
theorem processes_extended_of_failsEarly (cfg : AutoExtend)
    (found : b.registry.lookup job.ctx.jobType = some handler)
    (ordinary : handler.coroutineFunction = false) (raises : b.call = .raises (.exception err)) :
    Processes (some cfg) job b [] := by
  let crashed : JobTask := { spawned job with
    pc := .ended .crashed
    lookedUp := some b.registry
    handlerCall := some b.call
    handlerEnd := some (.raised (.exception err)) }
  have started : step (some cfg) (spawned job) (.start b.registry b.call) = some crashed := by
    simp [step, start, spawned, found, ordinary, raises, Raised.taskEnd, crashed]
  exact ⟨_, crashed, .single ⟨started, rfl, rfl⟩, ⟨.crashed, rfl⟩, rfl, rfl⟩

end EarlyFailure

/-- The modes make the same disposal calls for a job whose lease is kept, exactly unless the
selected handler is an ordinary function that fails before it returns its awaitable. -/
theorem modes_agree_iff (cfg : AutoExtend) (job : Job) (b : Behaviour) :
    (∀ plain extended, Processes none job b plain → Processes (some cfg) job b extended →
      plain = extended) ↔ ¬ FailsEarly job b := by
  constructor
  · rintro agree ⟨handler, err, call, found, ordinary, raises, disposed⟩
    have same := agree [call] [] (processes_plain_of_failsEarly found ordinary raises disposed)
      (processes_extended_of_failsEarly cfg found ordinary raises)
    contradiction
  · intro orderly plain extended inPlain inExtended
    rcases calls_of_processes inPlain with
      ⟨missing, rfl⟩ | ⟨handler, found, rfl | ⟨extended, _⟩⟩
    · rcases calls_of_processes inExtended with ⟨_, rfl⟩ | ⟨handler, found, _⟩
      · rfl
      · rw [missing] at found
        contradiction
    · rcases calls_of_processes inExtended with
        ⟨missing, _⟩ | ⟨handler', found', rfl | ⟨_, ordinary, rfl, what, raises⟩⟩
      · rw [missing] at found
        contradiction
      · rfl
      · cases what with
        | cancelledError => simp [Behaviour.ends, raises, HandlerEnd.verdict]
        | baseException => simp [Behaviour.ends, raises, HandlerEnd.verdict]
        | exception err =>
          cases disposed : disposal job.ctx (some err) with
          | ok call =>
            exact absurd ⟨handler', err, call, found', ordinary, raises, disposed⟩ orderly
          | error err' =>
            simp [Behaviour.ends, raises, HandlerEnd.verdict, disposalCalls, disposed]
    · contradiction

/-- An ordinary function that raises before it returns its awaitable. -/
def brokenHandler : Behaviour where
  registry := { catchAllHandler := some { name := "broken", coroutineFunction := false } }
  call := .raises (.exception (.other (.ok "broken")))
  ending := .returned

/-- The job of such a handler is nacked in plain mode and dropped in auto-extend mode. -/
theorem modes_disagree :
    ¬ ∀ plain extended, Processes none emailJob brokenHandler plain →
      Processes (some ⟨none, 30000000⟩) emailJob brokenHandler extended →
        plain = extended := by
  intro agree
  have same := agree _ _ (processes_plain_of_failsEarly rfl rfl rfl rfl)
    (processes_extended_of_failsEarly _ rfl rfl rfl)
  contradiction

end SeppPy.JobTask
