import SeppPy.Worker.JobTask

/-! # What becomes of a job

`Phase` says what holds of a job task in every reachable state, case by case along its life: which
handler was selected, how it ended, whether a lost lease was recorded and which disposal calls were
made. The parameter `quiet` stands for the absence of a cancellation from outside; only then is the
end of the handler all that decides.
-/

namespace SeppPy.JobTask

open Machine

/-- Neither the handler task nor the heartbeat task is running. -/
def Settled (t : JobTask) : Prop :=
  (t.handlerTask = .absent ∧ t.heartbeat = .absent) ∨
    ∃ how, t.handlerTask = .done how ∧ t.heartbeat = .done

/-- The task has not taken its first step. -/
structure Untouched (t : JobTask) : Prop where
  lookedUp : t.lookedUp = none
  handlerCall : t.handlerCall = none
  handlerTask : t.handlerTask = .absent
  heartbeat : t.heartbeat = .absent
  leaseLost : t.leaseLost = false
  handlerEnd : t.handlerEnd = none
  disposed : t.disposed = none
  calls : t.calls = []

/-- No handler takes the job, and it has been nacked for that. -/
structure Unhandled (t : JobTask) : Prop where
  lookedUp : ∃ registry, t.lookedUp = some registry ∧ registry.lookup t.job.ctx.jobType = none
  handlerCall : t.handlerCall = none
  handlerTask : t.handlerTask = .absent
  heartbeat : t.heartbeat = .absent
  leaseLost : t.leaseLost = false
  handlerEnd : t.handlerEnd = none
  disposed : t.disposed = none
  calls : t.calls = [unhandledNack t.job.ctx]

/-- A handler was selected and called, and no disposal call has been made. -/
structure Undisposed (t : JobTask) : Prop where
  selected : ∃ handler, t.selected = some handler
  called : t.handlerCall ≠ none
  disposed : t.disposed = none
  calls : t.calls = []

/-- The disposal calls for an outcome: one, unless its text cannot be formatted. -/
def disposalCalls (ctx : JobCtx) (error : Option HandlerException) : List Call :=
  match disposal ctx error with
  | .ok call => [call]
  | .error _ => []

/-- The handler's outcome has been passed to `_dispose`. -/
structure Disposed (t : JobTask) (error : Option HandlerException) : Prop where
  selected : ∃ handler, t.selected = some handler
  settled : t.Settled
  leaseLost : t.leaseLost = false
  handlerEnd : ∃ how, t.handlerEnd = some how ∧ how.verdict = some error
  disposed : t.disposed = some error
  calls : t.calls = disposalCalls t.job.ctx error

/-- In auto-extend mode an ordinary function raised when it was called. -/
def RaisedEarly (autoExtend : Option AutoExtend) (t : JobTask) : Prop :=
  ∃ handler what, t.selected = some handler ∧ handler.coroutineFunction = false ∧
    autoExtend.isSome = true ∧ t.handlerCall = some (.raises what) ∧
    t.handlerEnd = some (.raised what)

/-- `_run_plain` awaits the handler. -/
structure InPlain (t : JobTask) : Prop where
  undisposed : t.Undisposed
  handlerTask : t.handlerTask = .absent
  heartbeat : t.heartbeat = .absent
  leaseLost : t.leaseLost = false
  handlerEnd : t.handlerEnd = none

/-- `_run_with_auto_extend` awaits the handler task. -/
structure Awaiting (t : JobTask) : Prop where
  undisposed : t.Undisposed
  task : (∃ flag, t.handlerTask = .running flag ∧ t.handlerEnd = none) ∨
    ∃ how, t.handlerTask = .done how ∧ t.handlerEnd = some how
  beating : t.heartbeat ≠ .absent
  verdict : t.leaseLost = true → t.heartbeat = .done

/-- The handler task has finished and the heartbeat is being reaped. What waits was decided when
the handler's end was seen, under the flag `before`. -/
structure Reaping (quiet : Prop) (pending : Pending) (t : JobTask) : Prop where
  undisposed : t.Undisposed
  task : ∃ how, t.handlerTask = .done how ∧ t.handlerEnd = some how
  view : ∃ seen before, pending = pendingOf before seen ∧ (before = true → t.leaseLost = true) ∧
    (t.handlerEnd = some seen ∨ ¬ quiet ∧ seen = .raised .cancelledError)
  beating : t.heartbeat ≠ .absent
  verdict : t.leaseLost = true → t.heartbeat = .done

/-- How a job task can have ended. -/
inductive Finished (autoExtend : Option AutoExtend) (quiet : Prop) (t : JobTask) : Prop
  | neverStarted (untouched : t.Untouched) (noisy : ¬ quiet)
  | unhandled (unhandled : t.Unhandled)
  | disposed (error : Option HandlerException) (disposed : t.Disposed error)
  | dropped (undisposed : t.Undisposed) (settled : t.Settled)
      (reason : quiet → t.leaseLost = false →
        (∃ how, t.handlerEnd = some how ∧ how.verdict = none) ∨ t.RaisedEarly autoExtend)

/-- What holds of a job task at each of its `await`s. -/
def Phase (autoExtend : Option AutoExtend) (quiet : Prop) (t : JobTask) : Prop :=
  match t.pc with
  | .created => t.Untouched
  | .noHandler => t.Unhandled
  | .plain => t.InPlain
  | .awaitHandler => t.Awaiting
  | .reap pending => t.Reaping quiet pending
  | .disposing => ∃ error, t.Disposed error
  | .ended _ => t.Finished autoExtend quiet

variable {autoExtend : Option AutoExtend} {quiet : Prop} {t t' : JobTask}

/-! ## One step -/

theorem Untouched.moved (untouched : t.Untouched) (pc : Pc) (flag : Bool) (known : ℤ) :
    Untouched { t with pc, mustCancel := flag, knownExpiryMs := known } :=
  ⟨untouched.lookedUp, untouched.handlerCall, untouched.handlerTask, untouched.heartbeat,
    untouched.leaseLost, untouched.handlerEnd, untouched.disposed, untouched.calls⟩

theorem Unhandled.moved (unhandled : t.Unhandled) (pc : Pc) (known : ℤ) :
    Unhandled { t with pc, knownExpiryMs := known } :=
  ⟨unhandled.lookedUp, unhandled.handlerCall, unhandled.handlerTask, unhandled.heartbeat,
    unhandled.leaseLost, unhandled.handlerEnd, unhandled.disposed, unhandled.calls⟩

theorem Disposed.moved {error : Option HandlerException} (disposed : t.Disposed error) (pc : Pc)
    (known : ℤ) : Disposed { t with pc, knownExpiryMs := known } error :=
  ⟨disposed.selected, disposed.settled, disposed.leaseLost, disposed.handlerEnd,
    disposed.disposed, disposed.calls⟩

private theorem phase_dispose {error : Option HandlerException} {how : HandlerEnd}
    (undisposed : t.Undisposed) (settled : t.Settled) (kept : t.leaseLost = false)
    (ended : t.handlerEnd = some how) (verdict : how.verdict = some error) :
    Phase autoExtend quiet (t.dispose error) := by
  simp only [dispose]
  cases found : disposal t.job.ctx error with
  | ok call =>
    refine ⟨error, undisposed.selected, settled, kept, ⟨how, ended, verdict⟩, rfl, ?_⟩
    simp [disposalCalls, found, undisposed.calls]
  | error err =>
    refine .disposed error ⟨undisposed.selected, settled, kept, ⟨how, ended, verdict⟩, rfl, ?_⟩
    simp [disposalCalls, found, undisposed.calls]

private theorem Undisposed.congr (undisposed : t.Undisposed) (job : t'.job = t.job)
    (lookedUp : t'.lookedUp = t.lookedUp) (handlerCall : t'.handlerCall = t.handlerCall)
    (disposed : t'.disposed = t.disposed) (calls : t'.calls = t.calls) : t'.Undisposed where
  selected := by
    rw [JobTask.selected, lookedUp, job]
    exact undisposed.selected
  called := handlerCall ▸ undisposed.called
  disposed := disposed.trans undisposed.disposed
  calls := calls.trans undisposed.calls

private theorem phase_endPlain (undisposed : t.Undisposed) (noTask : t.handlerTask = .absent)
    (noHeartbeat : t.heartbeat = .absent) (kept : t.leaseLost = false) (how : HandlerEnd) :
    Phase autoExtend quiet (t.endPlain how) := by
  have undisposed' : Undisposed { t with handlerEnd := some how } :=
    undisposed.congr rfl rfl rfl rfl rfl
  have settled : Settled { t with handlerEnd := some how } := .inl ⟨noTask, noHeartbeat⟩
  unfold endPlain
  split
  · exact phase_dispose undisposed' settled kept rfl rfl
  · exact phase_dispose undisposed' settled kept rfl rfl
  · next what other =>
    refine .dropped (undisposed.congr rfl rfl rfl rfl rfl) (.inl ⟨noTask, noHeartbeat⟩)
      fun _ _ => .inl ⟨.raised what, rfl, ?_⟩
    cases what with
    | exception err => exact absurd rfl (other err)
    | cancelledError => rfl
    | baseException => rfl

/-- The selected handler has been called, and nothing else has happened. -/
theorem Untouched.undisposed {registry : Registry} {handler : Handler} (untouched : t.Untouched)
    (found : registry.lookup t.job.ctx.jobType = some handler) (job : t'.job = t.job)
    (lookedUp : t'.lookedUp = some registry) (called : t'.handlerCall ≠ none)
    (disposed : t'.disposed = t.disposed) (calls : t'.calls = t.calls) : t'.Undisposed where
  selected := ⟨handler, by rw [JobTask.selected, lookedUp, job]; exact found⟩
  called
  disposed := disposed.trans untouched.disposed
  calls := calls.trans untouched.calls

private theorem phase_resumeHandler {how : HandlerEnd} (waiting : t.Awaiting)
    (done : t.handlerTask = .done how) (calm : quiet → t.mustCancel = false) :
    Phase autoExtend quiet (t.resumeHandler how) := by
  have ended : t.handlerEnd = some how := by
    rcases waiting.task with ⟨flag, running, _⟩ | ⟨how', done', ended⟩
    · rw [done] at running
      contradiction
    · rw [done] at done'
      cases done'
      exact ended
  refine ⟨waiting.undisposed.congr rfl rfl rfl rfl rfl, ⟨how, done, ended⟩,
    ⟨_, t.leaseLost, rfl, id, ?_⟩, Heartbeat.cancel_ne_absent waiting.beating, fun lost => ?_⟩
  · by_cases cancelled : t.mustCancel = true
    · exact .inr ⟨fun q => Bool.false_ne_true ((calm q).symm.trans cancelled), if_pos cancelled⟩
    · rw [if_neg cancelled]
      exact .inl ended
  · exact congrArg Heartbeat.cancel (waiting.verdict lost)

private theorem phase_resumeReap {pending : Pending} (reaping : t.Reaping quiet pending)
    (reaped : t.heartbeat = .done) (calm : quiet → t.mustCancel = false) :
    Phase autoExtend quiet (t.resumeReap pending) := by
  obtain ⟨how, done, ended⟩ := reaping.task
  have settled : t.Settled := .inr ⟨how, done, reaped⟩
  have dropped (how' : TaskEnd) (flag : Bool)
      (reason : quiet → t.leaseLost = false → how.verdict = none) :
      Phase autoExtend quiet { t with pc := .ended how', mustCancel := flag } :=
    .dropped (reaping.undisposed.congr rfl rfl rfl rfl rfl) settled
      fun q kept => .inl ⟨how, ended, reason q kept⟩
  unfold resumeReap
  split
  · next cancelled =>
    exact dropped _ _ fun q => absurd ((calm q).symm.trans cancelled) Bool.false_ne_true
  obtain ⟨seen, before, rfl, earlier, view⟩ := reaping.view
  by_cases lost : t.leaseLost = true
  · have gone (how' : TaskEnd) := dropped how' t.mustCancel fun _ kept =>
      absurd (kept.symm.trans lost) Bool.false_ne_true
    split
    · exact gone _
    · rw [if_pos lost]
      exact gone _
  have kept : t.leaseLost = false := Bool.eq_false_iff.mpr lost
  obtain rfl : before = false := Bool.eq_false_iff.mpr fun flagged => lost (earlier flagged)
  rw [ended] at view
  cases seen with
  | returned =>
    obtain rfl : how = .returned := by simpa using view
    simp only [pendingOf, if_neg lost]
    exact phase_dispose reaping.undisposed settled kept ended rfl
  | raised what =>
    cases what with
    | exception err =>
      obtain rfl : how = .raised (.exception err) := by simpa using view
      simp only [pendingOf, if_neg lost]
      exact phase_dispose reaping.undisposed settled kept ended rfl
    | cancelledError =>
      refine dropped .cancelled t.mustCancel fun q _ => ?_
      obtain rfl : how = .raised .cancelledError := by simpa [q] using view
      rfl
    | baseException =>
      refine dropped .crashed t.mustCancel fun q _ => ?_
      obtain rfl : how = .raised .baseException := by simpa using view
      rfl

/-- While the heartbeat runs, the job task awaits the handler or the heartbeat. -/
theorem Phase.pc_of_beating (phase : Phase autoExtend quiet t) (beating : t.heartbeat ≠ .absent)
    (alive : t.heartbeat ≠ .done) : t.pc = .awaitHandler ∨ ∃ pending, t.pc = .reap pending := by
  have idle (settled : t.Settled) : False := by
    rcases settled with ⟨_, absent⟩ | ⟨_, _, done⟩
    · exact beating absent
    · exact alive done
  cases at_pc : t.pc with
  | created =>
    simp only [Phase, at_pc] at phase
    exact absurd phase.heartbeat beating
  | noHandler =>
    simp only [Phase, at_pc] at phase
    exact absurd phase.heartbeat beating
  | plain =>
    simp only [Phase, at_pc] at phase
    exact absurd phase.heartbeat beating
  | awaitHandler => exact .inl rfl
  | reap pending => exact .inr ⟨pending, rfl⟩
  | disposing =>
    simp only [Phase, at_pc] at phase
    obtain ⟨error, disposed⟩ := phase
    exact (idle disposed.settled).elim
  | ended how =>
    simp only [Phase, at_pc] at phase
    cases phase with
    | neverStarted untouched _ => exact absurd untouched.heartbeat beating
    | unhandled unhandled => exact absurd unhandled.heartbeat beating
    | disposed error disposed => exact (idle disposed.settled).elim
    | dropped _ settled _ => exact (idle settled).elim

/-- A step of the heartbeat that gives no verdict. -/
theorem phase_of_beat {hb : Heartbeat} (phase : Phase autoExtend quiet t)
    (beating : t.heartbeat ≠ .absent) (alive : t.heartbeat ≠ .done) (next : hb ≠ .absent)
    (known : ℤ) : Phase autoExtend quiet { t with heartbeat := hb, knownExpiryMs := known } := by
  have unlost (verdict : t.leaseLost = true → t.heartbeat = .done) : t.leaseLost = true → hb = .done :=
    fun lost => absurd (verdict lost) alive
  rcases phase.pc_of_beating beating alive with at_pc | ⟨pending, at_pc⟩
  · simp only [Phase, at_pc] at phase ⊢
    exact ⟨phase.undisposed.congr rfl rfl rfl rfl rfl, phase.task, next, unlost phase.verdict⟩
  · simp only [Phase, at_pc] at phase ⊢
    exact ⟨phase.undisposed.congr rfl rfl rfl rfl rfl, phase.task, phase.view, next,
      unlost phase.verdict⟩

/-- The step with which the heartbeat gives up. -/
theorem phase_of_lost (phase : Phase autoExtend quiet t) (beating : t.heartbeat ≠ .absent)
    (alive : t.heartbeat ≠ .done) :
    Phase autoExtend quiet
      { t with heartbeat := .done, leaseLost := true, handlerTask := t.handlerTask.cancel } := by
  rcases phase.pc_of_beating beating alive with at_pc | ⟨pending, at_pc⟩
  · simp only [Phase, at_pc] at phase ⊢
    refine ⟨phase.undisposed.congr rfl rfl rfl rfl rfl, ?_, by simp, fun _ => rfl⟩
    rcases phase.task with ⟨flag, running, none⟩ | ⟨how, done, ended⟩
    · exact .inl ⟨true, by simp [running, HandlerTask.cancel], none⟩
    · exact .inr ⟨how, by simp [done, HandlerTask.cancel], ended⟩
  · simp only [Phase, at_pc] at phase ⊢
    obtain ⟨how, done, ended⟩ := phase.task
    obtain ⟨seen, before, same, _, view⟩ := phase.view
    exact ⟨phase.undisposed.congr rfl rfl rfl rfl rfl,
      ⟨how, by simp [done, HandlerTask.cancel], ended⟩,
      ⟨seen, before, same, fun _ => rfl, view⟩, by simp, fun _ => rfl⟩

private theorem phase_cancel
    (phase : Phase autoExtend quiet t) : Phase autoExtend quiet t.cancel := by
  unfold cancel
  split
  · next at_pc =>
    simp only [Phase, at_pc] at phase ⊢
    exact phase.moved _ _ _
  · next flag at_pc running =>
    simp only [Phase, at_pc] at phase ⊢
    refine ⟨phase.undisposed.congr rfl rfl rfl rfl rfl, ?_, phase.beating, phase.verdict⟩
    rcases phase.task with ⟨flag, running, none⟩ | ⟨how, done, _⟩
    · exact .inl ⟨true, by simp [running, HandlerTask.cancel], none⟩
    · rw [done] at running
      contradiction
  · next at_pc _ =>
    simp only [Phase, at_pc] at phase ⊢
    exact ⟨phase.undisposed.congr rfl rfl rfl rfl rfl, phase.task, phase.beating, phase.verdict⟩
  · next pending at_pc =>
    simp only [Phase, at_pc] at phase ⊢
    exact ⟨phase.undisposed.congr rfl rfl rfl rfl rfl, phase.task, phase.view,
      Heartbeat.cancel_ne_absent phase.beating,
      fun lost => congrArg Heartbeat.cancel (phase.verdict lost)⟩
  · exact phase

private theorem phase_ctxExtends (phase : Phase autoExtend quiet t) (known : ℤ) :
    Phase autoExtend quiet { t with knownExpiryMs := known } := by
  have congr (pc : Pc) (undisposed : t.Undisposed) :
      Undisposed { t with pc, knownExpiryMs := known } := undisposed.congr rfl rfl rfl rfl rfl
  cases at_pc : t.pc with
  | created =>
    simp only [Phase, at_pc] at phase ⊢
    exact phase.moved _ _ _
  | noHandler =>
    simp only [Phase, at_pc] at phase ⊢
    exact phase.moved _ _
  | plain =>
    simp only [Phase, at_pc] at phase ⊢
    exact ⟨congr _ phase.undisposed, phase.handlerTask, phase.heartbeat, phase.leaseLost,
      phase.handlerEnd⟩
  | awaitHandler =>
    simp only [Phase, at_pc] at phase ⊢
    exact ⟨congr _ phase.undisposed, phase.task, phase.beating, phase.verdict⟩
  | reap pending =>
    simp only [Phase, at_pc] at phase ⊢
    exact ⟨congr _ phase.undisposed, phase.task, phase.view, phase.beating, phase.verdict⟩
  | disposing =>
    simp only [Phase, at_pc] at phase ⊢
    obtain ⟨error, disposed⟩ := phase
    exact ⟨error, disposed.moved _ _⟩
  | ended how =>
    simp only [Phase, at_pc] at phase ⊢
    cases phase with
    | neverStarted untouched noisy => exact .neverStarted (untouched.moved _ _ _) noisy
    | unhandled unhandled => exact .unhandled (unhandled.moved _ _)
    | disposed error disposed => exact .disposed error (disposed.moved _ _)
    | dropped undisposed settled reason => exact .dropped (congr _ undisposed) settled reason

/-- Every step keeps what holds of the task's phase. -/
theorem phase_step {e : Event} (phase : Phase autoExtend quiet t)
    (calm : quiet → t.mustCancel = false) (taken : t.step autoExtend e = some t') :
    Phase autoExtend quiet t' := by
  have before (created : t.pc = .created) : t.Untouched := by
    simpa only [Phase, created] using phase
  cases moves_of_step taken with
  | cancelledEarly registry call created flagged =>
    exact .neverStarted ((before created).moved _ _ _)
      fun q => Bool.false_ne_true ((calm q).symm.trans flagged)
  | unhandled registry call created missing =>
    have untouched := before created
    exact ⟨⟨registry, rfl, missing⟩, untouched.2, untouched.3, untouched.4, untouched.5,
      untouched.6, untouched.7, rfl⟩
  | raisesInPlain registry what handler created found =>
    have untouched := before created
    apply phase_endPlain
    · exact untouched.undisposed found rfl rfl nofun rfl rfl
    · exact untouched.handlerTask
    · exact untouched.heartbeat
    · exact untouched.leaseLost
  | raisesInExtended registry what handler created found ordinary extended =>
    have untouched := before created
    exact .dropped (untouched.undisposed found rfl rfl nofun rfl rfl)
      (.inl ⟨untouched.handlerTask, untouched.heartbeat⟩)
      fun _ _ => .inr ⟨handler, what, found, ordinary, extended, rfl, rfl⟩
  | callsPlain registry handler created found =>
    have untouched := before created
    exact ⟨untouched.undisposed found rfl rfl nofun rfl rfl, untouched.handlerTask,
      untouched.heartbeat, untouched.leaseLost, untouched.handlerEnd⟩
  | callsExtended registry handler created found =>
    have untouched := before created
    exact ⟨untouched.undisposed found rfl rfl nofun rfl rfl, .inl ⟨false, rfl, untouched.handlerEnd⟩,
      nofun, fun lost => absurd (untouched.leaseLost.symm.trans lost) Bool.false_ne_true⟩
  | endsPlain how at_pc =>
    simp only [Phase, at_pc] at phase
    exact phase_endPlain phase.undisposed phase.handlerTask phase.heartbeat phase.leaseLost how
  | endsTask how flag at_pc running =>
    simp only [Phase, at_pc] at phase ⊢
    exact ⟨phase.undisposed.congr rfl rfl rfl rfl rfl, .inr ⟨how, rfl, rfl⟩, phase.beating,
      phase.verdict⟩
  | resumesHandler how at_pc done =>
    simp only [Phase, at_pc] at phase
    exact phase_resumeHandler phase done calm
  | resumesReap pending at_pc reaped =>
    simp only [Phase, at_pc] at phase
    exact phase_resumeReap phase reaped calm
  | beats heartbeat known _ beating alive next => exact phase_of_beat phase beating alive next known
  | givesUp _ _ _ beating alive => exact phase_of_lost phase beating alive
  | ctxExtends expiry => exact phase_ctxExtends phase _
  | callEnds result at_pc =>
    rcases at_pc with at_pc | at_pc
    · simp only [Phase, at_pc] at phase
      exact .unhandled (phase.moved _ _)
    · simp only [Phase, at_pc] at phase
      obtain ⟨error, disposed⟩ := phase
      exact .disposed error (disposed.moved _ _)
  | cancel => exact phase_cancel phase

/-- A task that nobody cancels has no cancellation outstanding. -/
theorem mustCancel_step {e : Event} (calm : t.mustCancel = false) (quiet : e ≠ .cancel)
    (taken : t.step autoExtend e = some t') : t'.mustCancel = false := by
  cases moves_of_step taken with
  | raisesInPlain => exact (concluded_endPlain _ _).mustCancel.trans calm
  | endsPlain => exact (concluded_endPlain t _).mustCancel.trans calm
  | resumesHandler => rfl
  | resumesReap pending => exact (concluded_resumeReap t pending).mustCancel
  | cancel => exact absurd rfl quiet
  | _ => exact calm

/-- A job task that has ended stays so. -/
theorem ended_step {e : Event} (ended : t.Ended) (taken : t.step autoExtend e = some t') :
    t'.Ended := by
  obtain ⟨how, at_pc⟩ := ended
  have elsewhere {pc : Pc} (here : t.pc = pc) (other : pc ≠ .ended how) : t'.Ended :=
    absurd (here.symm.trans at_pc) other
  cases moves_of_step taken with
  | cancelledEarly _ _ here | unhandled _ _ here | raisesInPlain _ _ _ here
  | raisesInExtended _ _ _ here | callsPlain _ _ here | callsExtended _ _ here | endsPlain _ here
  | endsTask _ _ here | resumesHandler _ here | resumesReap _ here => exact elsewhere here nofun
  | beats | givesUp | ctxExtends => exact ⟨how, at_pc⟩
  | callEnds => exact ⟨_, rfl⟩
  | cancel =>
    simp only [cancel, at_pc]
    exact ⟨how, at_pc⟩

theorem job_cancel (t : JobTask) : t.cancel.job = t.job := by
  unfold cancel
  split <;> rfl

/-- The task is about the same job throughout. -/
theorem job_step {e : Event} (taken : t.step autoExtend e = some t') : t'.job = t.job := by
  cases moves_of_step taken with
  | raisesInPlain => exact (concluded_endPlain _ _).job
  | endsPlain => exact (concluded_endPlain t _).job
  | resumesReap pending => exact (concluded_resumeReap t pending).job
  | cancel => exact job_cancel t
  | _ => rfl

/-! ## Whole runs -/

/-- The phase of a reachable job task; without a cancellation none is outstanding. -/
structure Reached (autoExtend : Option AutoExtend) (quiet : Prop) (t : JobTask) : Prop where
  phase : t.Phase autoExtend quiet
  calm : quiet → t.mustCancel = false

theorem reached_of_run {job : Job} {es : List Event} (quiet : Prop)
    (silent : quiet → ∀ e ∈ es, e ≠ .cancel)
    (run : Run (Steps (step autoExtend)) (spawned job) es t) : t.Reached autoExtend quiet := by
  have guarded : Run (Guarded (Steps (step autoExtend)) fun _ e => quiet → e ≠ .cancel)
      (spawned job) es t := run.guard fun _ e member q => silent q e member
  have keeps {a e b} (reached : Reached autoExtend quiet a)
      (taken : Guarded (Steps (step autoExtend)) (fun _ e => quiet → e ≠ .cancel) a e b) :
      Reached autoExtend quiet b :=
    ⟨phase_step reached.phase reached.calm taken.1,
      fun q => mustCancel_step (reached.calm q) (taken.2 q) taken.1⟩
  exact guarded.invariant _ keeps ⟨⟨rfl, rfl, rfl, rfl, rfl, rfl, rfl, rfl⟩, fun _ => rfl⟩

/-- Any disposal call is the nack of an unhandled job or the one `_dispose` makes. -/
theorem Phase.calls_cases (phase : t.Phase autoExtend quiet) :
    t.calls = [] ∨ t.Unhandled ∨ ∃ error, t.Disposed error := by
  cases at_pc : t.pc with
  | created =>
    simp only [Phase, at_pc] at phase
    exact .inl phase.calls
  | noHandler =>
    simp only [Phase, at_pc] at phase
    exact .inr (.inl phase)
  | plain | awaitHandler | reap pending =>
    simp only [Phase, at_pc] at phase
    exact .inl phase.undisposed.calls
  | disposing =>
    simp only [Phase, at_pc] at phase
    exact .inr (.inr phase)
  | ended how =>
    simp only [Phase, at_pc] at phase
    cases phase with
    | neverStarted untouched _ => exact .inl untouched.calls
    | unhandled unhandled => exact .inr (.inl unhandled)
    | disposed error disposed => exact .inr (.inr ⟨error, disposed⟩)
    | dropped undisposed _ _ => exact .inl undisposed.calls

/-- No call is made for a job whose lease was lost. -/
theorem Phase.calls_of_lost (phase : t.Phase autoExtend quiet) (lost : t.leaseLost = true) :
    t.calls = [] := by
  rcases phase.calls_cases with none | unhandled | ⟨error, disposed⟩
  · exact none
  · exact absurd (unhandled.leaseLost.symm.trans lost) Bool.false_ne_true
  · exact absurd (disposed.leaseLost.symm.trans lost) Bool.false_ne_true

/-- Once the task disposes of its job or has ended, the tasks it created have finished. -/
theorem Phase.settled (phase : t.Phase autoExtend quiet) (out : t.pc = .disposing ∨ t.Ended) :
    t.Settled := by
  rcases out with at_pc | ⟨how, at_pc⟩
  · simp only [Phase, at_pc] at phase
    obtain ⟨error, disposed⟩ := phase
    exact disposed.settled
  · simp only [Phase, at_pc] at phase
    cases phase with
    | neverStarted untouched _ => exact .inl ⟨untouched.handlerTask, untouched.heartbeat⟩
    | unhandled unhandled => exact .inl ⟨unhandled.handlerTask, unhandled.heartbeat⟩
    | disposed error disposed => exact disposed.settled
    | dropped _ settled _ => exact settled

/-- How an uncancelled task whose lease was kept has ended. -/
theorem Phase.disposed_of_quiet (phase : t.Phase autoExtend quiet) (q : quiet) (ended : t.Ended)
    (kept : t.leaseLost = false) :
    t.Unhandled ∨ (∃ error, t.Disposed error) ∨
      t.Undisposed ∧ ((∃ how, t.handlerEnd = some how ∧ how.verdict = none) ∨
        t.RaisedEarly autoExtend) := by
  obtain ⟨how, at_pc⟩ := ended
  simp only [Phase, at_pc] at phase
  cases phase with
  | neverStarted _ noisy => exact absurd q noisy
  | unhandled unhandled => exact .inl unhandled
  | disposed error disposed => exact .inr (.inl ⟨error, disposed⟩)
  | dropped undisposed _ reason => exact .inr (.inr ⟨undisposed, reason q kept⟩)

end SeppPy.JobTask
