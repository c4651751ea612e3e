import SeppPy.Worker.Calling
import SeppPy.Worker.Handed

/-! # Progress

Until its `run()` has ended a worker is never stuck: one of its tasks is about to go on, or a handler
runs, or a call of the client is on its way, and however that turns out there is a step. It takes no
cancellation, no signal and no extension by the handler, and a reserve call may come back empty.
-/

namespace SeppPy

open Machine

namespace JobTask

variable {autoExtend : Option AutoExtend} {quiet : Prop} {t t' : JobTask} {registry : Registry}

/-- What a job task, its handler task or its heartbeat is about to do, or waits for. -/
inductive Occasion
  | starts
  | handler
  | resumes
  | heartbeatStarts
  | heartbeatWakes
  | heartbeatCancelled
  | extension

/-- How it can turn out. Only an ordinary function raises when it is called. -/
def Occasion.outcomes (registry : Registry) (t : JobTask) : Occasion → Set Event
  | .starts => {e | ∃ call, e = .start registry call ∧ ∀ what, call = .raises what → ∀ handler,
      registry.lookup t.job.ctx.jobType = some handler → handler.coroutineFunction = false}
  | .handler => Set.range Event.handlerEnds
  | .resumes => {.resume}
  | .heartbeatStarts => Set.range Event.heartbeatStarts
  | .heartbeatWakes => {.heartbeatWakes}
  | .heartbeatCancelled => {.heartbeatCancelled}
  | .extension => {e | ∃ result judgedAt now, e = .heartbeatExtends result judgedAt now}

/-- The end of the disposal call is not among these. -/
theorem Occasion.own {o : Occasion} {e : Event} (outcome : e ∈ o.outcomes registry t)
    (result : Except PyError Unit) : e ≠ .callEnds result := by
  rintro rfl
  cases o with
  | handler | heartbeatStarts =>
    obtain ⟨_, same⟩ := outcome
    contradiction
  | resumes | heartbeatWakes | heartbeatCancelled => cases outcome
  | starts =>
    obtain ⟨_, same, _⟩ := outcome
    contradiction
  | extension =>
    obtain ⟨_, _, _, same⟩ := outcome
    contradiction

theorem Occasion.sees {o : Occasion} {e : Event} (outcome : e ∈ o.outcomes registry t) :
    Loop.sees registry e = true := by
  unfold Loop.sees
  split
  · cases o with
    | starts =>
      obtain ⟨_, same, _⟩ := outcome
      cases same
      exact decide_eq_true rfl
    | handler | heartbeatStarts =>
      obtain ⟨_, same⟩ := outcome
      contradiction
    | resumes | heartbeatWakes | heartbeatCancelled => cases outcome
    | extension =>
      obtain ⟨_, _, _, same⟩ := outcome
      contradiction
  · rfl

/-- Only auto-extend mode has a heartbeat. -/
def Extended (autoExtend : Option AutoExtend) (t : JobTask) : Prop :=
  t.heartbeat ≠ .absent → autoExtend.isSome = true

private theorem heartbeat_dispose (error : Option HandlerException) :
    (t.dispose error).heartbeat = t.heartbeat := by
  unfold dispose
  split <;> rfl

private theorem heartbeat_conclude (outcome : Outcome) :
    (t.conclude outcome).heartbeat = t.heartbeat := by
  cases outcome with
  | leaseLost => rfl
  | completed => exact heartbeat_dispose none
  | failed err => exact heartbeat_dispose (some err)

private theorem heartbeat_endPlain (how : HandlerEnd) :
    (t.endPlain how).heartbeat = t.heartbeat := by
  unfold endPlain
  split
  · exact heartbeat_conclude _
  · exact heartbeat_conclude _
  · rfl

private theorem heartbeat_resumeReap (pending : Pending) :
    (t.resumeReap pending).heartbeat = t.heartbeat := by
  unfold resumeReap
  split
  · rfl
  · split
    · rfl
    · exact heartbeat_conclude _

theorem Extended.step {e : Event} (extended : t.Extended autoExtend)
    (taken : t.step autoExtend e = some t') : t'.Extended autoExtend := by
  intro beating
  cases moves_of_step taken with
  | callsExtended _ _ _ _ mode => exact mode
  | beats _ _ _ before | givesUp _ _ _ before => exact extended before
  | raisesInPlain =>
    rw [heartbeat_endPlain] at beating
    exact extended beating
  | endsPlain => exact extended (heartbeat_endPlain _ ▸ beating)
  | resumesReap => exact extended (heartbeat_resumeReap _ ▸ beating)
  | resumesHandler =>
    refine extended fun absent => beating ?_
    simp only [resumeHandler, absent, Heartbeat.cancel]
  | cancel =>
    refine extended fun absent => beating ?_
    unfold cancel
    split <;> simp [absent, Heartbeat.cancel]
  | _ => exact extended beating

/-- A heartbeat that has not finished goes on. -/
theorem offers_beat (registry : Registry) (cfg : AutoExtend) (beating : t.heartbeat ≠ .absent)
    (alive : t.heartbeat ≠ .done) :
    ∃ o : Occasion, Offers (step (some cfg)) t (o.outcomes registry t) := by
  cases found : t.heartbeat with
  | absent => exact absurd found beating
  | created cancelRequested =>
    cases cancelRequested with
    | false =>
      refine ⟨.heartbeatStarts, ⟨_, 0, rfl⟩, ?_⟩
      rintro _ ⟨now, rfl⟩
      simp only [step, JobTask.heartbeatStarts, found]
      exact ⟨_, rfl⟩
    | true => exact ⟨.heartbeatCancelled, .single (by simp [step, heartbeatCancelled, found])⟩
  | sleeping interval cancelRequested =>
    cases cancelRequested with
    | false => exact ⟨.heartbeatWakes, .single (by simp [step, heartbeatWakes, found])⟩
    | true => exact ⟨.heartbeatCancelled, .single (by simp [step, heartbeatCancelled, found])⟩
  | extending cancelRequested =>
    refine ⟨.extension, ⟨_, .error .cancelledError, 0, 0, rfl⟩, ?_⟩
    rintro _ ⟨result, judgedAt, now, rfl⟩
    simp only [step, heartbeatExtends, found]
    split <;> exact ⟨_, rfl⟩
  | done => exact absurd found alive

/-- The first step of a job task. -/
theorem offers_start (registry : Registry) (created : t.pc = .created) :
    Offers (step autoExtend) t (Occasion.starts.outcomes registry t) := by
  refine ⟨⟨_, .awaitable, rfl, nofun⟩, ?_⟩
  rintro _ ⟨call, rfl, ordinary⟩
  simp only [step, start, created, ne_eq, not_true_eq_false, ↓reduceIte]
  split
  · exact ⟨_, rfl⟩
  · cases found : registry.lookup t.job.ctx.jobType with
    | none => exact ⟨_, rfl⟩
    | some handler =>
      cases call with
      | awaitable => cases autoExtend <;> exact ⟨_, rfl⟩
      | raises what =>
        simp only [ordinary what rfl handler found, Bool.false_eq_true, ↓reduceIte]
        split <;> exact ⟨_, rfl⟩

/-- A job task that has not ended goes on, or a task that it waits for does, unless it waits for its
disposal call. -/
theorem offers_step (registry : Registry) (phase : t.Phase autoExtend quiet)
    (extended : t.Extended autoExtend) (running : ¬ t.Ended) (idle : ¬ t.Waiting) :
    ∃ o : Occasion, Offers (step autoExtend) t (o.outcomes registry t) := by
  have handler (enabled : ∀ how, (t.handlerEnds how).isSome = true) :
      Offers (step autoExtend) t (Occasion.handler.outcomes registry t) := by
    refine ⟨⟨_, .returned, rfl⟩, ?_⟩
    rintro _ ⟨how, rfl⟩
    exact Option.isSome_iff_exists.mp (enabled how)
  cases at_pc : t.pc with
  | created => exact ⟨.starts, offers_start registry at_pc⟩
  | noHandler => exact absurd (.inl at_pc) idle
  | disposing => exact absurd (.inr at_pc) idle
  | plain => exact ⟨.handler, handler fun how => by simp [handlerEnds, at_pc]⟩
  | awaitHandler =>
    simp only [Phase, at_pc] at phase
    rcases phase.task with ⟨flag, task, _⟩ | ⟨how, task, _⟩
    · exact ⟨.handler, handler fun how => by simp [handlerEnds, at_pc, task]⟩
    · exact ⟨.resumes, .single (by simp [step, resume, at_pc, task])⟩
  | reap pending =>
    simp only [Phase, at_pc] at phase
    by_cases reaped : t.heartbeat = .done
    · exact ⟨.resumes, .single (by simp [step, resume, at_pc, reaped])⟩
    · obtain ⟨cfg, rfl⟩ := Option.isSome_iff_exists.mp (extended phase.beating)
      exact offers_beat registry cfg phase.beating reaped
  | ended how => exact absurd ⟨how, at_pc⟩ running

end JobTask

namespace Loop

variable {worker : Worker} {eagerGather : Bool} {initial : ℤ} {w w' : Loop}

/-- What `run()`, its race or a job task is about to do, or waits for. -/
inductive Occasion
  | resumes
  | waits
  | shutdownWait
  | reserve
  | callback (i : ℕ)
  | job (i : ℕ) (o : JobTask.Occasion)

/-- How it can turn out. -/
def Occasion.outcomes (w : Loop) : Occasion → Set Event
  | .resumes => Set.range Event.resume
  | .waits => {.waitEnds}
  | .shutdownWait => {.shutdownWaitEnds}
  | .reserve => Set.range Event.reserveEnds
  | .callback i => {.taskDone i}
  | .job i o => {e | ∃ t e', w.taskAt i = some t ∧ e' ∈ o.outcomes w.registry t ∧ e = .job i e'}

theorem Occasion.own {o : Occasion} {e : Event} (outcome : e ∈ o.outcomes w) (i : ℕ)
    (result : Except PyError Unit) : e ≠ .job i (.callEnds result) := by
  rintro rfl
  cases o with
  | job j o =>
    obtain ⟨t, e', _, inner, same⟩ := outcome
    cases same
    exact o.own inner result rfl
  | resumes | reserve =>
    obtain ⟨_, same⟩ := outcome
    contradiction
  | waits | shutdownWait | callback => cases outcome

/-- Where `run()` waits for its shutdown wait to be reaped, it has cancelled it. -/
def WaitCancelled : Pc → Prop
  | .race r .reapBoth | .race r .reapShutdownWait => r.shutdownWait ≠ .pending false
  | _ => True

private theorem waitCancelled_cancelAt (r : Race) (stage : Stage) :
    WaitCancelled (.race (r.cancelAt stage) stage) := by
  cases stage with
  | waiting | reapTask => trivial
  | reapBoth | reapShutdownWait =>
    simp only [WaitCancelled, Race.cancelAt]
    cases r.shutdownWait <;> simp [ShutdownWait.cancel]

private theorem waitCancelled_step {e : Event} (before : WaitCancelled w.pc)
    (taken : w.step worker eagerGather e = some w') : WaitCancelled w'.pc := by
  cases moves_of_step taken with
  | shutdown | register | job | taskDone => exact before
  | cancel =>
    cases at_pc : w.pc with
    | race r stage =>
      simp only [cancel, at_pc]
      exact waitCancelled_cancelAt r stage
    | _ => simp [cancel, at_pc, WaitCancelled]
  | child moved =>
    cases moved with
    | @signalled r stage =>
      cases stage <;> simp [WaitCancelled]
    | @acquires r stage at_pc | @cancelled r stage at_pc | @sleeps r stage at_pc
    | @reserves r stage _ _ _ _ at_pc =>
      rw [at_pc] at before
      cases stage <;> exact before
  | resume monotonic resumed =>
    cases turns_of_resumes resumed with
    | stays _ at_pc' =>
      rw [at_pc']
      exact waitCancelled_cancelAt _ _
    | opens at_pc' =>
      rw [at_pc']
      trivial
    | batches at_pc' =>
      rw [at_pc']
      trivial
    | leaves out =>
      cases at_pc' : w'.pc with
      | race => simp [current, at_pc'] at out
      | _ => trivial

private theorem waitCancelled_of_run {registry : Registry} {es : List Event}
    (run : Run (Steps (step worker eagerGather)) (init worker registry initial) es w) :
    WaitCancelled w.pc :=
  run.invariant (fun w : Loop => WaitCancelled w.pc)
    (fun before taken => waitCancelled_step before taken) trivial

private theorem slots_extended {registry : Registry} {es : List Event}
    (run : Run (Steps (step worker eagerGather)) (init worker registry initial) es w) (slot : Slot)
    (member : slot ∈ w.slots) : slot.task.Extended worker.autoExtend := by
  obtain ⟨es', _, history⟩ := slots_arise run slot member
  exact history.invariant (JobTask.Extended worker.autoExtend)
    (fun extended taken => extended.step taken) fun beating => absurd rfl beating

/-- With no job task in the set, the permits are free or held by the loop. -/
theorem free_of_unreaped (permits : Permits worker initial w) (idle : unreaped w.slots = 0)
    (unheld : w.held = false) : w.free ≠ 0 := by
  have balance := permits.balance
  have positive := worker.maxInFlightPositive
  rw [permits.inFlight_eq, idle, unheld] at balance
  simp only [Bool.false_eq_true, ↓reduceIte, Nat.cast_zero] at balance
  omega

/-- When nothing that it has started is running, `run()` itself can go on. -/
theorem exists_resume (permits : Permits worker initial w) (here : TidyAt w.pc)
    (going : ¬ w.Over) (idle : unreaped w.slots = 0)
    (races : ∀ r stage, w.pc = .race r stage → r.Over) (monotonic : ℤ) :
    ∃ w', w.resume worker eagerGather monotonic = some w' := by
  have gathered (awaited : List ℕ) : w.gatheredDone awaited = true := by
    refine List.all_eq_true.mpr fun i _ => ?_
    cases found : w.slots[i]? with
    | none => rfl
    | some slot =>
      have reaped := List.countP_eq_zero.mp idle slot (List.mem_of_getElem? found)
      simpa using reaped
  cases at_pc : w.pc with
  | notStarted =>
    simp only [resume, at_pc]
    exact ⟨_, rfl⟩
  | race r stage =>
    obtain ⟨⟨result, ended⟩, signalled⟩ := races r stage at_pc
    cases stage with
    | waiting =>
      simp only [resume, at_pc, resumeRace, ended, signalled]
      split <;> exact ⟨_, rfl⟩
    | reapBoth | reapTask | reapShutdownWait =>
      simp only [resume, at_pc, resumeRace, ended, signalled]
      exact ⟨_, rfl⟩
  | batch rest =>
    have unheld := permits.holds
    rw [at_pc] at here unheld
    cases rest with
    | nil => exact absurd rfl here
    | cons job rest =>
      simp only [resume, at_pc, resumeBatch, if_neg (free_of_unreaped permits idle unheld)]
      split <;> exact ⟨_, rfl⟩
  | reap awaited | drain awaited =>
    simp only [resume, at_pc, if_pos (gathered awaited)]
    exact ⟨_, rfl⟩
  | returned => exact absurd (.inl at_pc) going
  | raised err => exact absurd (.inr ⟨err, at_pc⟩) going

variable (worker eagerGather w) in
/-- One of the worker's tasks goes on, however what it waits for turns out. -/
def GoesOn : Prop := ∃ o : Occasion, Offers (step worker eagerGather) w (o.outcomes w)

private theorem goesOn_of_resume
    (resumes : ∀ monotonic, ∃ w', w.resume worker eagerGather monotonic = some w') :
    w.GoesOn worker eagerGather := by
  refine ⟨.resumes, ⟨_, 0, rfl⟩, ?_⟩
  rintro _ ⟨monotonic, rfl⟩
  exact resumes monotonic

/-- A job task in the set goes on, or its callback runs, unless it waits for its disposal call. -/
theorem goesOn_slot {i : ℕ} {slot : Slot} {quiet : Prop} (found : w.slots[i]? = some slot)
    (unreaped : slot.reaped = false) (phase : slot.task.Phase worker.autoExtend quiet)
    (extended : slot.task.Extended worker.autoExtend) (idle : ¬ slot.task.Waiting) :
    w.GoesOn worker eagerGather := by
  by_cases ended : slot.task.Ended
  · exact ⟨.callback i, .single (by simp [step, taskDone, found, ended, unreaped])⟩
  · obtain ⟨o, ⟨e, outcome⟩, goes⟩ := JobTask.offers_step w.registry phase extended ended idle
    have here : w.taskAt i = some slot.task := congrArg (Option.map Slot.task) found
    refine ⟨.job i o, ⟨_, slot.task, e, here, outcome, rfl⟩, ?_⟩
    rintro _ ⟨t, e', here', outcome', rfl⟩
    obtain rfl := Option.some.inj (here.symm.trans here')
    obtain ⟨t', taken⟩ := goes e' outcome'
    exact exists_jobStep here (o.sees outcome') taken

/-- A race that is not over goes on once no job task is left. -/
theorem goesOn_race {r : Race} {stage : Stage} (permits : Permits worker initial w)
    (at_pc : w.pc = .race r stage) (tidy : TidyAt w.pc) (cancelled : WaitCancelled w.pc)
    (idle : unreaped w.slots = 0) (going : ¬ r.Over) : w.GoesOn worker eagerGather := by
  have holds := permits.holds
  rw [at_pc] at holds tidy cancelled
  cases task : r.task with
  | pending flag =>
    cases awaitable : r.awaitable with
    | reserve opts started =>
      refine ⟨.reserve, ⟨_, .ok none, rfl⟩, ?_⟩
      rintro _ ⟨result, rfl⟩
      simp only [step, reserveEnds, at_pc, awaitable, task]
      exact ⟨_, rfl⟩
    | sleep delay =>
      cases flag with
      | false => exact ⟨.waits, .single (by simp [step, waitEnds, at_pc, awaitable, task])⟩
      | true => exact ⟨.waits, .single (by simp [step, waitEnds, at_pc, awaitable, task])⟩
    | acquire =>
      cases flag with
      | true => exact ⟨.waits, .single (by simp [step, waitEnds, at_pc, awaitable, task])⟩
      | false =>
        have unheld : w.held = false := by
          simp only [HoldsAt, awaitable, task] at holds
          rcases holds with ⟨_, ended, _⟩ | ⟨unheld, _⟩
          · contradiction
          · exact unheld
        have available := free_of_unreaped permits idle unheld
        exact ⟨.waits, .single (by simp [step, waitEnds, at_pc, awaitable, task, available])⟩
  | done result =>
    cases wait : r.shutdownWait with
    | done => exact absurd ⟨⟨result, task⟩, wait⟩ going
    | pending flag =>
      cases stage with
      | waiting =>
        refine goesOn_of_resume fun monotonic => ?_
        simp only [resume, at_pc, resumeRace, task, wait]
        split <;> exact ⟨_, rfl⟩
      | reapTask =>
        have ended := wait.symm.trans tidy
        contradiction
      | reapBoth | reapShutdownWait =>
        cases flag with
        | false => exact absurd wait cancelled
        | true =>
          exact ⟨.shutdownWait, .single (by simp [step, shutdownWaitEnds, at_pc, wait])⟩

/-- As long as `run()` has not ended, one of the worker's tasks goes on or waits for its disposal
call. -/
theorem goesOn_of_run {registry : Registry} {es : List Event}
    (run : Run (Steps (step worker eagerGather)) (init worker registry initial) es w)
    (going : ¬ w.Over) :
    w.GoesOn worker eagerGather ∨ ∃ i t, w.taskAt i = some t ∧ t.Waiting := by
  have permits : Permits worker initial w := .of_run run
  have tidy : Tidy w := .of_run run
  by_cases idle : unreaped w.slots = 0
  · refine .inl ?_
    by_cases races : ∀ r stage, w.pc = .race r stage → r.Over
    · exact goesOn_of_resume (exists_resume permits tidy.here going idle races)
    · simp only [not_forall] at races
      obtain ⟨r, stage, at_pc, unfinished⟩ := races
      exact goesOn_race permits at_pc tidy.here (waitCancelled_of_run run) idle unfinished
  · obtain ⟨slot, member, kept⟩ := List.countP_pos_iff.mp (Nat.pos_of_ne_zero idle)
    obtain ⟨i, found⟩ := List.getElem?_of_mem member
    by_cases waiting : slot.task.Waiting
    · exact .inr ⟨i, slot.task, congrArg (Option.map Slot.task) found, waiting⟩
    · exact .inl (goesOn_slot found (by simpa using kept) (slots_phase run slot member)
        (slots_extended run slot member) waiting)

end Loop

namespace Calling

variable {F : Type} [PyFloat F] {pb : Protobuf} {policy : RetryPolicy F} {worker : Worker}
  {eagerGather : Bool} {registry : Registry} {inFlight : ℤ} {es : List (Event F)} {s s' : Calling F}
  {i : ℕ}

/-- What the worker or one of its disposal calls is about to do, or waits for. -/
inductive Occasion
  | worker (o : Loop.Occasion)
  /-- An attempt of a disposal call is on its way. -/
  | attempt (i : ℕ)
  | wakes (i : ℕ)

/-- How it can turn out. -/
def Occasion.outcomes (s : Calling F) : Occasion → Set (Event F)
  | .worker o => Event.worker '' o.outcomes s.loop
  | .attempt i => {e | ∃ c outcome random, s.calls i = some c ∧ c.op.Fits outcome ∧
      e = .call i (.callEnds outcome random)}
  | .wakes i => {.call i .wakes}

omit [PyFloat F] in
/-- The task of a call goes on with it. -/
theorem exists_settle (worker : Worker) (eagerGather : Bool) {t : JobTask}
    (found : s.loop.taskAt i = some t) (waiting : t.Waiting) (c : Underway F) : ∃ s', s.settle worker eagerGather i c = some s' := by
  unfold settle
  split
  · exact ⟨_, rfl⟩
  · next result ended =>
    obtain ⟨loop, goesOn⟩ := Loop.exists_callEnds worker eagerGather found waiting
      (result.map fun _ => ())
    dsimp only
    rw [goesOn]
    exact ⟨_, rfl⟩

/-- What the worker can do by itself it can do with its calls under way. -/
theorem Coupled.exists_step {e : Loop.Event} {loop : Loop} (coupled : Coupled pb policy s)
    (phases : ∀ slot ∈ s.loop.slots, slot.task.Phase worker.autoExtend False)
    (own : ∀ i result, e ≠ .job i (.callEnds result))
    (taken : s.loop.step worker eagerGather e = some loop) :
    ∃ s', s.step pb policy worker eagerGather (.worker e) = some s' := by
  rw [step_worker own, taken, Option.bind_some]
  split
  · exact ⟨_, rfl⟩
  · next i c turned =>
    obtain ⟨e', loop', op, rfl, idle, taken', made, rfl⟩ := begins_of_turn turned
    obtain rfl := Option.some.inj (taken.symm.trans taken')
    obtain ⟨t, here, _, waiting⟩ := coupled.waiting_of_callOf phases own taken idle made
    exact exists_settle worker eagerGather here waiting _

/-- A call that a task waits for goes on. -/
theorem offers_call {t : JobTask} (coupled : Coupled pb policy s)
    (found : s.loop.taskAt i = some t) (waiting : t.Waiting) :
    ∃ o : Occasion, Offers (step pb policy worker eagerGather) s (o.outcomes s) := by
  have agrees := coupled i
  rw [found] at agrees
  obtain ⟨c, here, underWay⟩ := agrees.waits.mp waiting
  have goes {e : RetryCall.Event F LeaseResponse} {c' : Underway F}
      (taken : c.step policy e = some c') :
      ∃ s', s.step pb policy worker eagerGather (.call i e) = some s' := by
    obtain ⟨s', settled⟩ := exists_settle worker eagerGather found waiting c'
    refine ⟨s', ?_⟩
    rw [step, turn, here, Option.bind_some, taken, Option.map_some, Option.bind_some, settled]
  rcases Underway.exists_step policy underWay with ⟨_, _, _, answers⟩ | ⟨c', taken⟩
  · refine ⟨.attempt i, ⟨_, c, .error .cancelledError, PyFloat.ofRat 0, here, ?_, rfl⟩, ?_⟩
    · cases c.op <;> trivial
    · rintro _ ⟨c₀, outcome, random, here', fits, rfl⟩
      obtain rfl := Option.some.inj (here.symm.trans here')
      obtain ⟨c', taken⟩ := answers outcome random fits
      exact goes taken
  · obtain ⟨s', stepped⟩ := goes taken
    exact ⟨.wakes i, .single (Option.isSome_iff_exists.mpr ⟨s', stepped⟩)⟩

/-- No reachable state is a deadlock: as long as `run()` has not ended, one of the worker's tasks or
calls is about to go on, and does so however what it waits for turns out. -/
theorem never_stuck
    (run : Run (Steps (step pb policy worker eagerGather)) (init worker registry inFlight) es s)
    (going : ¬ s.loop.Over) :
    ∃ o : Occasion, Offers (step pb policy worker eagerGather) s (o.outcomes s) := by
  have coupled := coupled_of_run run
  obtain ⟨_, own⟩ := exists_loop_run run
  rcases Loop.goesOn_of_run own going with ⟨o, ⟨e, outcome⟩, goes⟩ | ⟨i, t, found, waiting⟩
  · refine ⟨.worker o, ⟨_, e, outcome, rfl⟩, ?_⟩
    rintro _ ⟨e', outcome', rfl⟩
    obtain ⟨loop, taken⟩ := goes e' outcome'
    exact coupled.exists_step (Loop.slots_phase own) (o.own outcome') taken
  · exact offers_call coupled found waiting

/-- `run()` has left its loop and waits for its only job task, whose ack has been refused once. -/
def draining : List (Event Binary64) :=
  (Loop.reserved [JobTask.emailJob]).map .worker ++
    [.worker (.job 0 (.start JobTask.catchAllOnly .awaitable)),
      .worker (.job 0 (.handlerEnds .returned)),
      .call 0 (.callEnds (.error (.rpc ⟨.unavailable, none⟩)) (.finite 0)),
      .worker .shutdown, .worker .shutdownWaitEnds, .worker (.resume 0), .worker .waitEnds,
      .worker (.resume 0)]

theorem never_stuck_draining :
    ∃ s, Run (Steps (step .checked (.init 3 : RetryPolicy Binary64) .sole true))
        (init .sole JobTask.catchAllOnly 0) draining s ∧ s.loop.pc = .drain [0] ∧
      ∃ o : Occasion, Offers (step .checked (.init 3) .sole true) s (o.outcomes s) := by
  have drains : ((run? (step .checked (.init 3 : RetryPolicy Binary64) .sole true)
      (init .sole JobTask.catchAllOnly 0) draining).map fun s => s.loop.pc) = some (.drain [0]) := by
    decide +kernel
  obtain ⟨s, found, at_pc⟩ := Option.map_eq_some_iff.mp drains
  have run := (run?_eq_some_iff _ _ _ _).mp found
  exact ⟨s, run, at_pc, never_stuck run (by simp [Loop.Over, at_pc])⟩

end Calling

end SeppPy
