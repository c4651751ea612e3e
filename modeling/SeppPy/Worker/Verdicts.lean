import SeppPy.Worker.Slots

/-! # What the server is told about a delivery

Whatever happens to a run, each delivery gets at most one ack or nack, and the one that fits how its
handler ended. A delivery may also get none: `_run_plain` and `_run_with_auto_extend` let a
`CancelledError` out, and with nobody cancelling anything it may still come out of the handler
itself.
-/

namespace SeppPy

namespace JobTask

variable {autoExtend : Option AutoExtend} {quiet : Prop} {t t' : JobTask}

/-! ## The calls of one job task -/

theorem calls_cancel (t : JobTask) : t.cancel.calls = t.calls := by
  unfold cancel
  split <;> rfl

/-- A call that has been made stays on record. -/
theorem calls_step {e : Event} (phase : Phase autoExtend quiet t)
    (taken : t.step autoExtend e = some t') : t.calls <+: t'.calls := by
  cases moves_of_step taken with
  | unhandled _ _ created | raisesInPlain _ _ _ created =>
    have untouched : t.Untouched := by simpa only [Phase, created] using phase
    rw [untouched.calls]
    exact List.nil_prefix
  | endsPlain how => exact (concluded_endPlain t how).calls
  | resumesReap pending => exact (concluded_resumeReap t pending).calls
  | cancel => exact (calls_cancel t).symm ▸ List.prefix_rfl
  | _ => exact List.prefix_rfl

/-- What the worker may have told the server about its delivery. -/
structure Told (t : JobTask) : Prop where
  once : t.calls.length ≤ 1
  own : ∀ call ∈ t.calls, call.ctx = t.job.ctx
  acked : ∀ ctx, .ack ctx ∈ t.calls → t.handlerEnd = some .returned ∧ t.leaseLost = false
  afterHandlerError : ∀ err, t.handlerEnd = some (.raised (.exception (.handlerError err))) →
    ∀ call ∈ t.calls, call = .nack t.job.ctx err.directive err.reason
  afterOther : ∀ text, t.handlerEnd = some (.raised (.exception (.other text))) →
    ∀ call ∈ t.calls, ∃ reason, call = .nack t.job.ctx .DEFAULT reason
  unhandled : ∀ registry, t.lookedUp = some registry →
    registry.handlers.get? t.job.ctx.jobType = none → registry.catchAllHandler = none →
    t.handlerCall = none ∧
      t.calls = [.nack t.job.ctx .DEFAULT "no handler registered for job_type"]
  called : t.handlerCall ≠ none → ∃ handler, t.selected = some handler
  precedence : ∀ registry handler, t.lookedUp = some registry →
    registry.handlers.get? t.job.ctx.jobType = some handler → handler.truthy = true →
    t.selected = some handler

private theorem selected_of_precedence {registry : Registry} {handler : Handler}
    (looked : t.lookedUp = some registry)
    (found : registry.handlers.get? t.job.ctx.jobType = some handler)
    (truthy : handler.truthy = true) : t.selected = some handler := by
  simp only [selected, looked, Option.bind_some]
  exact Registry.lookup_of_truthy found truthy

/-- Without a handler and a catch-all nothing is selected. -/
theorem selected_of_missing {registry : Registry} (looked : t.lookedUp = some registry)
    (missing : registry.handlers.get? t.job.ctx.jobType = none)
    (noCatchAll : registry.catchAllHandler = none) : t.selected = none := by
  simp only [selected, looked, Option.bind_some, Registry.lookup, missing, noCatchAll]

private theorem Untouched.told (untouched : t.Untouched) : t.Told where
  once := by simp [untouched.calls]
  own := by simp [untouched.calls]
  acked := by simp [untouched.calls]
  afterHandlerError := by simp [untouched.calls]
  afterOther := by simp [untouched.calls]
  unhandled _ looked := by simp [untouched.lookedUp] at looked
  called happened := absurd untouched.handlerCall happened
  precedence _ _ := selected_of_precedence

private theorem Unhandled.told (unhandled : t.Unhandled) : t.Told where
  once := by simp [unhandled.calls]
  own := by simp [unhandled.calls, unhandledNack, Call.ctx]
  acked := by simp [unhandled.calls, unhandledNack]
  afterHandlerError := by simp [unhandled.handlerEnd]
  afterOther := by simp [unhandled.handlerEnd]
  unhandled _ _ _ _ := ⟨unhandled.handlerCall, unhandled.calls⟩
  called happened := absurd unhandled.handlerCall happened
  precedence _ _ := selected_of_precedence

/-- A selected handler rules out that the job has none. -/
theorem not_missing {P : Prop} {registry : Registry} (chosen : ∃ handler, t.selected = some handler)
    (looked : t.lookedUp = some registry)
    (missing : registry.handlers.get? t.job.ctx.jobType = none)
    (noCatchAll : registry.catchAllHandler = none) : P := by
  obtain ⟨handler, found⟩ := chosen
  rw [selected_of_missing looked missing noCatchAll] at found
  contradiction

private theorem Undisposed.told (undisposed : t.Undisposed) : t.Told where
  once := by simp [undisposed.calls]
  own := by simp [undisposed.calls]
  acked := by simp [undisposed.calls]
  afterHandlerError := by simp [undisposed.calls]
  afterOther := by simp [undisposed.calls]
  unhandled _ := not_missing undisposed.selected
  called _ := undisposed.selected
  precedence _ _ := selected_of_precedence

/-- A call by `_dispose` is the disposal of what was passed to it. -/
theorem mem_disposalCalls {ctx : JobCtx} {error : Option HandlerException} {call : Call} :
    call ∈ disposalCalls ctx error ↔ disposal ctx error = .ok call := by
  unfold disposalCalls
  split
  · next found => simp [found, eq_comm]
  · next found => simp [found]

private theorem length_disposalCalls (ctx : JobCtx) (error : Option HandlerException) :
    (disposalCalls ctx error).length ≤ 1 := by
  unfold disposalCalls
  split
  · exact le_rfl
  · exact Nat.zero_le 1

/-- What was passed to `_dispose` is how the handler ended. -/
theorem Disposed.eq_of_verdict {error : Option HandlerException} {how : HandlerEnd}
    (disposed : t.Disposed error) (ended : t.handlerEnd = some how) : how.verdict = some error := by
  obtain ⟨how', ended', verdict⟩ := disposed.handlerEnd
  obtain rfl : how = how' := Option.some.inj (ended.symm.trans ended')
  exact verdict

theorem verdict_eq_none {how : HandlerEnd} (completed : how.verdict = some none) :
    how = .returned := by
  revert completed
  fun_cases HandlerEnd.verdict how with
  | case1 =>
    intro _
    rfl
  | case2 | case3 => rintro ⟨⟩

private theorem Disposed.told {error : Option HandlerException} (disposed : t.Disposed error) :
    t.Told where
  once := disposed.calls ▸ length_disposalCalls _ _
  own call made := by
    rw [disposed.calls, mem_disposalCalls] at made
    exact ctx_of_disposal made
  acked ctx made := by
    rw [disposed.calls, mem_disposalCalls] at made
    obtain rfl : ctx = t.job.ctx := ctx_of_disposal made
    obtain ⟨how, ended, verdict⟩ := disposed.handlerEnd
    rw [disposal_eq_ack made] at verdict
    exact ⟨ended.trans (congrArg some (verdict_eq_none verdict)), disposed.leaseLost⟩
  afterHandlerError err ended call made := by
    rw [disposed.calls, mem_disposalCalls] at made
    obtain rfl := Option.some.inj (disposed.eq_of_verdict ended)
    exact (Except.ok.inj made).symm
  afterOther text ended call made := by
    rw [disposed.calls, mem_disposalCalls] at made
    obtain rfl := Option.some.inj (disposed.eq_of_verdict ended)
    cases text with
    | ok text => exact ⟨_, (Except.ok.inj made).symm⟩
    | error err => cases made
  unhandled _ := not_missing disposed.selected
  called _ := disposed.selected
  precedence _ _ := selected_of_precedence

private theorem Phase.told (phase : t.Phase autoExtend quiet) : t.Told := by
  cases at_pc : t.pc with
  | created =>
    simp only [Phase, at_pc] at phase
    exact phase.told
  | noHandler =>
    simp only [Phase, at_pc] at phase
    exact phase.told
  | plain | awaitHandler | reap pending =>
    simp only [Phase, at_pc] at phase
    exact phase.undisposed.told
  | disposing =>
    simp only [Phase, at_pc] at phase
    obtain ⟨error, disposed⟩ := phase
    exact disposed.told
  | ended how =>
    simp only [Phase, at_pc] at phase
    cases phase with
    | neverStarted untouched _ => exact untouched.told
    | unhandled unhandled => exact unhandled.told
    | disposed error disposed => exact disposed.told
    | dropped undisposed _ _ => exact undisposed.told

end JobTask

namespace Loop

open Machine

variable {worker : Worker} {eagerGather : Bool} {initial : ℤ} {w w' : Loop}

/-! ## One delivery, told once -/

/-- What every allowed step and every cancellation of a job task does to it, a step of the worker
does to each of its job tasks, or nothing. -/
theorem SlotsMove.each {R : JobTask → JobTask → Prop} {e : Event} (move : SlotsMove worker w e w')
    (same : ∀ t, R t t) (cancels : ∀ t, R t t.cancel)
    (steps : ∀ slot ∈ w.slots, ∀ e' t',
      slot.task.step worker.autoExtend e' = some t' → R slot.task t')
    {i : ℕ} {slot : Slot} (here : w.slots[i]? = some slot) :
    ∃ slot', w'.slots[i]? = some slot' ∧ R slot.task slot'.task := by
  have set {j : ℕ} {moved : Slot} (changed : i = j → R slot.task moved.task) :
      ∃ slot', (w.slots.set j moved)[i]? = some slot' ∧ R slot.task slot'.task := by
    by_cases at_j : j = i
    · subst at_j
      have bound := (List.getElem?_eq_some_iff.mp here).1
      exact ⟨moved, List.getElem?_set_self bound, changed rfl⟩
    · exact ⟨slot, (List.getElem?_set_ne at_j).trans here, same _⟩
  cases move with
  | kept slots => exact ⟨slot, slots ▸ here, same _⟩
  | spawned job slots =>
    have bound := (List.getElem?_eq_some_iff.mp here).1
    exact ⟨slot, slots ▸ (List.getElem?_append_left bound).trans here, same _⟩
  | moved j e' other task which found taken slots =>
    rw [slots]
    refine set fun at_j => ?_
    subst at_j
    obtain rfl := Option.some.inj (here.symm.trans found)
    exact steps slot (List.mem_of_getElem? here) e' task taken
  | reaped j other found slots =>
    rw [slots]
    refine set fun at_j => ?_
    subst at_j
    obtain rfl := Option.some.inj (here.symm.trans found)
    exact same _
  | cancelled why slots =>
    refine ⟨_, by rw [slots, cancelTasks, List.getElem?_map, here, Option.map_some], ?_⟩
    split
    · exact same _
    · exact cancels _

/-- In a run the calls of each job task only grow. -/
theorem calls_of_run {registry : Registry} {es es' : List Event}
    (run : Run (Steps (step worker eagerGather)) (init worker registry initial) es w)
    (run' : Run (Steps (step worker eagerGather)) w es' w') {i : ℕ} {slot : Slot}
    (here : w.slots[i]? = some slot) :
    ∃ slot', w'.slots[i]? = some slot' ∧ slot.task.calls <+: slot'.task.calls := by
  induction run' generalizing es slot with
  | nil _ => exact ⟨slot, here, List.prefix_rfl⟩
  | cons taken _ ih =>
    obtain ⟨slot', here', grows⟩ := (slotsMove_of_step taken).each
      (R := fun t t' => t.calls <+: t'.calls) (fun _ => List.prefix_rfl)
      (fun t => (JobTask.calls_cancel t).symm ▸ List.prefix_rfl)
      (fun slot member e' t' next =>
        JobTask.calls_step (slots_phase run slot member) next) here
    obtain ⟨slot'', here'', grows'⟩ := ih (run.snoc taken) here'
    exact ⟨slot'', here'', grows.trans grows'⟩

/-- In every run and for every spawned job: the worker makes at most one disposal call, about the
job's own delivery, that fits how the handler ended, and whatever becomes of that call no other
follows. -/
theorem disposed_once (worker : Worker) (eagerGather : Bool) (registry : Registry) (initial : ℤ)
    (es : List Event) (w : Loop)
    (run : Run (Steps (step worker eagerGather)) (init worker registry initial) es w) (i : ℕ)
    (slot : Slot) (here : w.slots[i]? = some slot) :
    slot.task.Told ∧
      ∀ es' w', Run (Steps (step worker eagerGather)) w es' w' → slot.task.calls ≠ [] →
        ∃ slot', w'.slots[i]? = some slot' ∧ slot'.task.calls = slot.task.calls := by
  refine ⟨(slots_phase run slot (List.mem_of_getElem? here)).told,
    fun es' w' run' made => ?_⟩
  obtain ⟨slot', here', grows⟩ := calls_of_run run run' here
  have told' := (slots_phase (run.append run') slot' (List.mem_of_getElem? here')).told
  have some : 1 ≤ slot.task.calls.length := List.length_pos_iff.mpr made
  exact ⟨slot', here', (grows.eq_of_length_le (told'.once.trans some)).symm⟩

/-- The handler gives its job up, and the nack fails. -/
def failedNack : List Event :=
  reserved [JobTask.emailJob] ++
    [.job 0 (.start JobTask.catchAllOnly .awaitable),
      .job 0 (.handlerEnds (.raised (.exception (.handlerError (.permanent "gone"))))),
      .job 0 (.callEnds (.error (.sepp .jobNotFoundError)))]

/-- A failed nack of a job that its handler has given up is the last call for it. -/
theorem disposed_once_failedNack :
    ∃ w slot, Run (Steps (step .sole true)) (init .sole JobTask.catchAllOnly 0) failedNack w ∧
      w.slots[0]? = some slot ∧
      slot.task.calls = [.nack JobTask.emailJob.ctx .DEAD_LETTER "gone"] ∧ slot.task.Told ∧
      ∃ w' slot', Run (Steps (step .sole true)) w [.taskDone 0] w' ∧ w'.slots[0]? = some slot' ∧
        slot'.task.calls = slot.task.calls := by
  obtain ⟨w, slot, found, here, calls⟩ : ∃ w slot, run? (step .sole true)
      (init .sole JobTask.catchAllOnly 0) failedNack = some w ∧ w.slots[0]? = some slot ∧
      slot.task.calls = [.nack JobTask.emailJob.ctx .DEAD_LETTER "gone"] := ⟨_, _, rfl, rfl, rfl⟩
  obtain ⟨w', found'⟩ : ∃ w', (run? (step .sole true) (init .sole JobTask.catchAllOnly 0)
      failedNack).bind (fun w => run? (step .sole true) w [.taskDone 0]) = some w' := ⟨_, rfl⟩
  rw [found, Option.bind_some] at found'
  have run := (run?_eq_some_iff _ _ _ _).mp found
  have run' := (run?_eq_some_iff _ _ _ _).mp found'
  obtain ⟨told, final⟩ := disposed_once .sole true _ _ _ w run 0 slot here
  obtain ⟨slot', here', same⟩ := final _ w' run' (calls ▸ List.cons_ne_nil _ _)
  exact ⟨w, slot, run, here, calls, told, w', slot', run', here', same⟩

/-! ## Deliveries the server is told nothing about -/

/-- Nobody cancels `run()` or a job task from outside. -/
def Uncancelled : Event → Prop
  | .cancel => False
  | .job _ .cancel => False
  | _ => True

/-- Moreover no reserve call raises a `CancelledError` of its own accord: `run()` would take it for
its own cancellation and cancel the job tasks. -/
def Undisturbed (w : Loop) (e : Event) : Prop :=
  Uncancelled e ∧ ∀ result, e = .reserveEnds result →
    result ≠ .error .cancelledError ∨ ∃ r stage, w.pc = .race r stage ∧ r.task = .pending true

/-- No `CancelledError` has reached the loop. -/
def QuietAt : Pc → Prop
  | .race r .waiting =>
    r.task = .pending false ∨ ∃ result, r.task = .done result ∧ result ≠ .error .cancelledError
  | .race r .reapShutdownWait => ∃ result, r.task = .done result ∧ result ≠ .error .cancelledError
  | .race _ .reapBoth | .reap _ => False
  | .raised err => err ≠ .cancelledError
  | _ => True

structure Quiet (w : Loop) : Prop where
  calm : w.mustCancel = false
  here : QuietAt w.pc

private theorem quietAt_afterLoop : QuietAt (w.afterLoop eagerGather) := by
  rcases afterLoop_cases eagerGather w with at_pc | ⟨awaited, at_pc⟩ <;> rw [at_pc] <;> trivial

private theorem quietAt_loopHead : QuietAt (w.loopHead eagerGather) := by
  unfold loopHead
  split
  · exact quietAt_afterLoop
  · exact .inl rfl

private theorem quietAt_nextJob (rest : List Job) : QuietAt (w.nextJob eagerGather rest) := by
  unfold nextJob
  split
  · exact quietAt_loopHead
  · trivial

private theorem quiet_raiseInBody (calm : w.mustCancel = false) {err : PyError}
    (other : err ≠ .cancelledError) : Quiet (w.raiseInBody eagerGather err) := by
  unfold raiseInBody
  split
  · exact absurd rfl other
  · exact ⟨calm, other⟩

private theorem quiet_onReserved (calm : w.mustCancel = false) (opts : ReserveOptions)
    (elapsed : Timedelta)
    {result : Except PyError (Option (List Job))} (proper : result ≠ .error .cancelledError) :
    Quiet (w.onReserved worker eagerGather opts elapsed result) := by
  unfold onReserved
  split
  · refine ⟨calm, ?_⟩
    dsimp only
    split
    · exact .inl rfl
    · exact quietAt_loopHead
  · exact quiet_raiseInBody calm nofun
  · exact ⟨calm, quietAt_nextJob _⟩
  · exact ⟨calm, .inl rfl⟩
  · exact quiet_raiseInBody calm fun same => proper (congrArg Except.error same)

private theorem quiet_onResult (calm : w.mustCancel = false) (monotonic : ℤ) (awaitable : Awaitable)
    {result : Except PyError (Option (List Job))} (proper : result ≠ .error .cancelledError) :
    Quiet (w.onResult worker eagerGather monotonic awaitable result) := by
  unfold onResult
  split
  · exact quiet_onReserved calm _ _ proper
  · exact quiet_raiseInBody calm fun same => proper (congrArg Except.error same)
  · obtain ⟨opts, _, built, _⟩ := worker.exists_reserveOptsWithCapacity w.inFlight
    rw [built]
    exact ⟨calm, .inl rfl⟩
  · exact ⟨calm, quietAt_loopHead⟩

private theorem quiet_onShutdown (calm : w.mustCancel = false) (awaitable : Awaitable) :
    Quiet (w.onShutdown eagerGather awaitable) := by
  cases awaitable <;> exact ⟨calm, quietAt_afterLoop⟩

private theorem quiet_resume {monotonic : ℤ} (quiet : Quiet w)
    (resumed : Resumes worker eagerGather monotonic w w') : Quiet w' := by
  obtain ⟨calm, here⟩ := quiet
  have unflagged (flagged : w.mustCancel = true) : False :=
    Bool.false_ne_true (calm.symm.trans flagged)
  cases resumed with
  | starts => exact ⟨calm, quietAt_loopHead⟩
  | neverStarts _ flagged | batchRaises _ flagged | drainRaises _ _ flagged =>
    exact (unflagged flagged).elim
  | @races r stage _ at_pc resumed =>
    rw [at_pc] at here
    have proper {result : Except PyError (Option (List Job))} (ended : r.task = .done result)
        (at_stage : stage = .waiting ∨ stage = .reapShutdownWait) :
        result ≠ .error .cancelledError := by
      rcases at_stage with rfl | rfl
      · rcases here with running | ⟨result', ended', proper⟩
        · rw [ended] at running
          contradiction
        · exact RaceTask.done.inj (ended'.symm.trans ended) ▸ proper
      · obtain ⟨result', ended', proper⟩ := here
        exact RaceTask.done.inj (ended'.symm.trans ended) ▸ proper
    cases resumed with
    | cancelled flagged => exact (unflagged flagged).elim
    | shutdownWins => exact ⟨calm, trivial⟩
    | taskWins _ ended _ =>
      obtain ⟨result, ended⟩ := ended
      exact ⟨calm, result, Race.task_cancelAt_of_done ended _, proper ended (.inl rfl)⟩
    | result _ ended _ at_stage =>
      exact quiet_onResult (w := w.closeRace r) calm _ _ (proper ended at_stage)
    | shutdown => exact quiet_onShutdown (w := w.closeRace r) calm _
    | raises _ _ at_stage =>
      rcases at_stage with rfl | ⟨flagged, _⟩
      · exact here.elim
      · exact (unflagged flagged).elim
  | @batchSpawns job rest => exact ⟨calm, quietAt_nextJob rest⟩
  | reaped at_pc =>
    rw [at_pc] at here
    exact here.elim
  | drained => exact ⟨calm, trivial⟩

private theorem quiet_child {e : Event} (quiet : Quiet w) (undisturbed : Undisturbed w e)
    (moves : RaceMoves w e w') : Quiet w' := by
  refine ⟨moves.mustCancel.trans quiet.calm, ?_⟩
  obtain ⟨r, r', stage, at_pc, at_pc', advances⟩ := moves.races
  have here := quiet.here
  rw [at_pc] at here
  rw [at_pc']
  cases stage with
  | waiting =>
    refine advances.task_of_uncancelled here ?_
    intro result running ends
    cases found : r.awaitable with
    | reserve opts started =>
      rw [found] at ends
      rcases undisturbed.2 result ends with proper | ⟨r'', stage', at_race, cancelled⟩
      · exact proper
      · obtain ⟨rfl, rfl⟩ := Pc.race.inj (at_pc.symm.trans at_race)
        rw [running] at cancelled
        contradiction
    | acquire | sleep =>
      rw [found] at ends
      obtain rfl : result = .ok none := ends
      intro raised
      contradiction
  | reapBoth => exact here.elim
  | reapTask => trivial
  | reapShutdownWait =>
    obtain ⟨result, ended, proper⟩ := here
    exact ⟨result, advances.task_of_done ended, proper⟩

private theorem quiet_step {e : Event} (quiet : Quiet w) (undisturbed : Undisturbed w e)
    (taken : w.step worker eagerGather e = some w') : Quiet w' := by
  cases moves_of_step taken with
  | shutdown | register | job | taskDone => exact ⟨quiet.calm, quiet.here⟩
  | cancel => exact undisturbed.1.elim
  | child moved => exact quiet_child quiet undisturbed moved.raceMoves
  | resume monotonic resumed => exact quiet_resume quiet resumed

/-- In an undisturbed run no job task meets a cancellation. -/
theorem slots_undisturbed {registry : Registry} {es : List Event}
    (run : Run (Guarded (Steps (step worker eagerGather)) Undisturbed)
      (init worker registry initial) es w) :
    ∀ slot ∈ w.slots, Arises worker.autoExtend (· ≠ .cancel) slot.task := by
  have both := run.invariant
    (fun w => Quiet w ∧ ∀ slot ∈ w.slots, Arises worker.autoExtend (· ≠ .cancel) slot.task) ?_
    ⟨⟨rfl, trivial⟩, fun _ member => absurd member List.not_mem_nil⟩
  · exact both.2
  rintro a e b ⟨quiet, before⟩ ⟨taken, undisturbed⟩
  have after := quiet_step quiet undisturbed taken
  refine ⟨after, (slotsMove_of_step taken).all before (fun job => arises_spawned _ _ job)
    (fun t i e' t' which arises next => arises.step ?_ next) fun t why => ?_⟩
  · rintro rfl
    subst which
    exact undisturbed.1
  · have here := after.here
    rcases why with rfl | ⟨awaited, at_pc⟩ | at_pc
    · exact undisturbed.1.elim
    · rw [at_pc] at here
      exact here.elim
    · rw [at_pc] at here
      exact absurd rfl here

/-- What the documentation promises: a job whose coroutine function has finished, and whose lease
was not lost, has been acked or nacked by the time its task ends. -/
def DropsNoJob (worker : Worker) (eagerGather : Bool) (registry : Registry) (initial : ℤ) : Prop :=
  ∀ es w, Run (Guarded (Steps (step worker eagerGather)) fun _ => Uncancelled)
      (init worker registry initial) es w → ∀ slot ∈ w.slots, ∀ handler how,
    slot.task.selected = some handler → handler.coroutineFunction = true →
      slot.task.handlerEnd = some how → slot.task.leaseLost = false → slot.task.Ended →
        slot.task.calls ≠ []

/-- The handler of the only job ends in this way. -/
def endsWith (how : HandlerEnd) : List Event :=
  reserved [JobTask.emailJob] ++
    [.job 0 (.start JobTask.catchAllOnly .awaitable), .job 0 (.handlerEnds how)]

private theorem undisturbed_endsWith (how : HandlerEnd) (w : Loop) (e : Event)
    (member : e ∈ endsWith how) : Undisturbed w e := by
  simp only [endsWith, reserved, List.cons_append, List.nil_append, List.mem_cons,
    List.not_mem_nil, or_false] at member
  rcases member with rfl | rfl | rfl | rfl | rfl | rfl | rfl | rfl | rfl | rfl | rfl
  all_goals
    refine ⟨trivial, ?_⟩
    rintro _ ⟨⟩
  exact .inl nofun

/-- A `CancelledError` of the handler's own goes past every `except Exception`, and the job is
dropped. -/
theorem drops_job : ¬ DropsNoJob .sole true JobTask.catchAllOnly 0 := by
  intro kept
  obtain ⟨w, slot, found, slots, chosen, handlerEnd, leaseLost, ended, calls⟩ : ∃ w slot,
      run? (step .sole true) (init .sole JobTask.catchAllOnly 0)
          (endsWith (.raised .cancelledError)) = some w ∧
        w.slots = [slot] ∧ slot.task.selected = some { name := "fallback" } ∧
        slot.task.handlerEnd = some (.raised .cancelledError) ∧ slot.task.leaseLost = false ∧
        slot.task.Ended ∧ slot.task.calls = [] :=
    ⟨_, _, rfl, rfl, rfl, rfl, rfl, ⟨.cancelled, rfl⟩, rfl⟩
  have run : Run (Guarded (Steps (step .sole true)) fun _ => Uncancelled) _ _ w :=
    ((run?_eq_some_iff _ _ _ _).mp found).guard fun w e member =>
      (undisturbed_endsWith _ w e member).1
  exact kept _ w run slot (slots ▸ List.mem_singleton_self slot) _ _ chosen rfl handlerEnd leaseLost
    ended calls

/-- In an undisturbed run a finished job, whose coroutine function has ended and whose lease was
kept, has been acked or nacked exactly if the function returned or raised an `Exception` whose text
can be put into a reason. -/
theorem drops_no_job_iff (worker : Worker) (eagerGather : Bool) (registry : Registry) (initial : ℤ)
    (es : List Event) (w : Loop)
    (run : Run (Guarded (Steps (step worker eagerGather)) Undisturbed)
      (init worker registry initial) es w)
    (slot : Slot) (member : slot ∈ w.slots) (handler : Handler) (how : HandlerEnd)
    (chosen : slot.task.selected = some handler) (coroutine : handler.coroutineFunction = true)
    (handlerEnd : slot.task.handlerEnd = some how) (leaseKept : slot.task.leaseLost = false)
    (ended : slot.task.Ended) : slot.task.calls ≠ [] ↔ how.Reportable := by
  obtain ⟨es', quiet, history⟩ := slots_undisturbed run slot member
  have phase := (JobTask.reached_of_run True (fun _ => quiet) history).phase
  rw [how.reportable_iff slot.task.job.ctx]
  rcases phase.disposed_of_quiet trivial ended leaseKept with
    unhandled | ⟨error, disposed⟩ | ⟨undisposed, silent⟩
  · rw [unhandled.handlerEnd] at handlerEnd
    contradiction
  · have verdict := disposed.eq_of_verdict handlerEnd
    rw [disposed.calls]
    constructor
    · intro made
      obtain ⟨call, member⟩ := List.exists_mem_of_ne_nil _ made
      exact ⟨error, call, verdict, JobTask.mem_disposalCalls.mp member⟩
    · rintro ⟨error', call, verdict', made⟩
      obtain rfl : error = error' := Option.some.inj (verdict.symm.trans verdict')
      exact List.ne_nil_of_mem (JobTask.mem_disposalCalls.mpr made)
  · refine iff_of_false (fun made => made undisposed.calls) ?_
    rintro ⟨error, call, verdict, _⟩
    rcases silent with ⟨how', handlerEnd', none⟩ | ⟨handler', what, chosen', ordinary, _⟩
    · obtain rfl : how = how' := Option.some.inj (handlerEnd.symm.trans handlerEnd')
      rw [none] at verdict
      contradiction
    · obtain rfl : handler = handler' := Option.some.inj (chosen.symm.trans chosen')
      rw [coroutine] at ordinary
      contradiction

/-- A job whose handler raises an ordinary exception has been nacked when its task ends, whatever
became of the nack. -/
theorem drops_no_job_iff_exception :
    ∃ w slot, Run (Guarded (Steps (step .sole true)) Undisturbed)
        (init .sole JobTask.catchAllOnly 0)
        (endsWith (.raised (.exception (.other (.ok "boom")))) ++ [.job 0 (.callEnds (.ok ()))]) w ∧
      slot ∈ w.slots ∧ slot.task.Ended ∧ slot.task.calls ≠ [] := by
  obtain ⟨w, slot, found, slots, chosen, handlerEnd, leaseKept, ended⟩ : ∃ w slot,
      run? (step .sole true) (init .sole JobTask.catchAllOnly 0)
          (endsWith (.raised (.exception (.other (.ok "boom")))) ++
            [.job 0 (.callEnds (.ok ()))]) = some w ∧
        w.slots = [slot] ∧ slot.task.selected = some { name := "fallback" } ∧
        slot.task.handlerEnd = some (.raised (.exception (.other (.ok "boom")))) ∧
        slot.task.leaseLost = false ∧ slot.task.Ended :=
    ⟨_, _, rfl, rfl, rfl, rfl, rfl, ⟨.returned, rfl⟩⟩
  have run : Run (Guarded (Steps (step .sole true)) Undisturbed) _ _ w :=
    ((run?_eq_some_iff _ _ _ _).mp found).guard fun w e member => by
      rcases List.mem_append.mp member with before | after
      · exact undisturbed_endsWith _ w e before
      · obtain rfl := List.mem_singleton.mp after
        exact ⟨trivial, nofun⟩
  have member : slot ∈ w.slots := slots ▸ List.mem_singleton_self slot
  exact ⟨w, slot, run, member, ended,
    (drops_no_job_iff .sole true _ 0 _ w run slot member _ _ chosen rfl handlerEnd leaseKept
      ended).mpr ⟨"boom", rfl⟩⟩

end Loop

end SeppPy
