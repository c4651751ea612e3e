import SeppPy.Worker.Handed
import SeppPy.Worker.Progress
import SeppPy.Worker.Reservations

/-! # Shutting down ends a run

Once shutdown has been signalled `run()` takes a bounded number of steps, and it is held up by
nothing but the tasks it has started. The bound counts the races that can still be on the way, and
a step for each job that the loop holds or that a reserve call still brings in.
-/

namespace SeppPy.Loop

open Machine

variable {worker : Worker} {eagerGather : Bool} {initial : ℤ} {w w' : Loop}

/-- How often `run()` resumes in a race and after it, from the reaping of the shutdown wait on: an
`acquire` is followed by a reserve call, and that by a backoff. -/
def turnsLeft : Awaitable → ℕ
  | .acquire => 6
  | .reserve _ _ => 4
  | .sleep _ => 2

/-- How often `run()` can still resume, but for the jobs it holds. -/
def stepsLeft : Pc → ℕ
  | .race r .waiting => turnsLeft r.awaitable + 1
  | .race r .reapShutdownWait => turnsLeft r.awaitable
  | .race _ .reapBoth | .race _ .reapTask | .notStarted | .batch _ => 2
  | .reap _ | .drain _ => 1
  | .returned | .raised _ => 0

/-- How often `run()` can still resume. -/
def potential (pc : Pc) : ℕ := stepsLeft pc + pc.handed.length

private theorem two_le_turnsLeft (awaitable : Awaitable) : 2 ≤ turnsLeft awaitable := by
  cases awaitable <;> simp [turnsLeft]

private theorem stepsLeft_le (pc : Pc) : stepsLeft pc ≤ 7 := by
  unfold stepsLeft
  split
  · next r => cases r.awaitable <;> simp [turnsLeft]
  · next r => cases r.awaitable <;> simp [turnsLeft]
  all_goals decide

private theorem potential_afterLoop : potential (w.afterLoop eagerGather) ≤ 1 := by
  rcases afterLoop_cases eagerGather w with at_pc | ⟨awaited, at_pc⟩
  all_goals
    rw [at_pc]
    simp [potential, stepsLeft, Pc.handed]

private theorem potential_loopHead (signalled : w.shutdown = true) :
    potential (w.loopHead eagerGather) ≤ 1 := by
  rw [loopHead, if_pos signalled]
  exact potential_afterLoop

private theorem potential_nextJob (signalled : w.shutdown = true) (rest : List Job) :
    potential (w.nextJob eagerGather rest) ≤ 2 + rest.length := by
  unfold nextJob
  split
  · exact (potential_loopHead signalled).trans (by simp)
  · exact le_rfl

private theorem potential_raiseInBody (err : PyError) :
    potential (w.raiseInBody eagerGather err).pc ≤ 1 := by
  unfold raiseInBody
  split
  · rcases reapTasks_cases eagerGather w with at_pc | ⟨awaited, at_pc⟩
    all_goals
      rw [at_pc]
      simp [potential, stepsLeft, Pc.handed]
  · simp [potential, stepsLeft, Pc.handed]

private theorem potential_onReserved (signalled : w.shutdown = true) (opts : ReserveOptions)
    (started : ℤ) (elapsed : Timedelta) (result : Except PyError (Option (List Job))) :
    potential (w.onReserved worker eagerGather opts elapsed result).pc ≤
      3 + (jobsOf (.reserve opts started) result).length := by
  have small {pc : Pc} (bound : potential pc ≤ 1) :
      potential pc ≤ 3 + (jobsOf (.reserve opts started) result).length :=
    bound.trans (by omega)
  have backoff (delay : Timedelta) : potential (startRace (.sleep delay)) ≤
      3 + (jobsOf (.reserve opts started) result).length :=
    Nat.le_add_right 3 _
  unfold onReserved
  split
  · dsimp only
    split
    · exact backoff _
    · exact small (potential_loopHead (w := w.release) signalled)
  · exact small (potential_raiseInBody _)
  · next job rest =>
    refine (potential_nextJob (w := w.spawn job) signalled rest).trans ?_
    simp only [jobsOf, List.length_cons]
    omega
  · exact backoff _
  · exact small (potential_raiseInBody _)

private theorem potential_onResult (signalled : w.shutdown = true) (monotonic : ℤ)
    (awaitable : Awaitable) (result : Except PyError (Option (List Job))) :
    potential (w.onResult worker eagerGather monotonic awaitable result).pc <
      turnsLeft awaitable + (jobsOf awaitable result).length := by
  have small {pc : Pc} (bound : potential pc ≤ 1) :
      potential pc < turnsLeft awaitable + (jobsOf awaitable result).length := by
    have turns := two_le_turnsLeft awaitable
    omega
  unfold onResult
  split
  · next opts started =>
    refine Nat.lt_of_le_of_lt (potential_onReserved signalled opts started _ result) ?_
    exact Nat.add_lt_add_right (by decide : 3 < 4) _
  · exact small (potential_raiseInBody _)
  · split
    · simp [potential, startRace, stepsLeft, turnsLeft, Pc.handed, jobsOf]
    · exact small (potential_raiseInBody _)
  · exact small (potential_loopHead signalled)

private theorem potential_onShutdown (awaitable : Awaitable) :
    potential (w.onShutdown eagerGather awaitable).pc ≤ 1 := by
  cases awaitable with
  | reserve opts started => exact potential_afterLoop (w := w.release)
  | acquire | sleep => exact potential_afterLoop

/-- A race that `run()` goes on with has steps left but for the one it takes. -/
theorem two_le_stepsLeft_race (r : Race) (stage : Stage) : 2 ≤ stepsLeft (.race r stage) := by
  have turns := two_le_turnsLeft r.awaitable
  cases stage <;> simp only [stepsLeft] <;> omega

/-- Every resumption takes a step off the potential. -/
theorem potential_resume {monotonic : ℤ} (signalled : w.shutdown = true)
    (resumed : Resumes worker eagerGather monotonic w w') : potential w'.pc < potential w.pc := by
  have last {pc : Pc} (bound : potential pc ≤ 1) (steps : 2 ≤ stepsLeft w.pc) :
      potential pc < potential w.pc :=
    Nat.lt_of_le_of_lt bound (Nat.lt_add_right _ steps)
  cases resumed with
  | starts at_pc => exact last (potential_loopHead signalled) (at_pc ▸ le_rfl)
  | neverStarts at_pc | reaped at_pc | drained at_pc | drainRaises at_pc =>
    rw [at_pc]
    simp [potential, stepsLeft, Pc.handed]
  | @races r stage _ at_pc resumed =>
    have steps : 2 ≤ stepsLeft w.pc := at_pc ▸ two_le_stepsLeft_race r stage
    cases resumed with
    | cancelled | shutdownWins | taskWins =>
      have turns := two_le_turnsLeft r.awaitable
      rw [at_pc]
      simp only [potential, handed_cancelAt r _ _ .waiting, stepsLeft, Race.awaitable_cancelAt]
      omega
    | @result _ result _ ended _ here =>
      refine Nat.lt_of_lt_of_le
        (potential_onResult (w := w.closeRace r) signalled monotonic r.awaitable result) ?_
      rw [at_pc]
      rcases here with rfl | rfl
      all_goals
        simp only [potential, stepsLeft, Pc.handed, ended]
        omega
    | shutdown => exact last (potential_onShutdown (w := w.closeRace r) _) steps
    | raises => exact last (potential_raiseInBody (w := w.closeRace r) _) steps
  | batchRaises at_pc => exact last (potential_raiseInBody _) (at_pc ▸ le_rfl)
  | @batchSpawns job rest at_pc =>
    refine Nat.lt_of_le_of_lt
      (potential_nextJob (w := { w with free := w.free - 1 }.spawn job) signalled rest) ?_
    rw [at_pc]
    simp only [potential, stepsLeft, Pc.handed, List.length_cons]
    omega

private theorem potential_cancel : potential w.cancel.pc = potential w.pc := by
  unfold cancel
  split
  · rfl
  · next r stage at_pc =>
    have steps : stepsLeft (.race (r.cancelAt stage) stage) = stepsLeft (.race r stage) := by
      cases stage <;> simp only [stepsLeft, Race.awaitable_cancelAt]
    simp only [potential, at_pc, steps, handed_cancelAt r stage stage stage]
  all_goals rfl

/-- A child of the race adds no step to it, and no job but those it brings in. -/
theorem potential_child {e : Event} (moved : ChildMoves w e w') :
    potential w'.pc ≤ potential w.pc + e.brings.length := by
  obtain ⟨r, r', stage, at_pc, at_pc', advances⟩ := moved.raceMoves.races
  have steps : stepsLeft w'.pc = stepsLeft w.pc := by
    rw [at_pc, at_pc']
    cases stage <;> simp only [stepsLeft, advances.awaitable]
  have jobs := (handed_child moved).length_le
  rw [List.length_append] at jobs
  simp only [potential, steps]
  omega

/-- Nothing but the jobs of a reserve call adds to the potential. -/
theorem potential_step {e : Event} (signalled : w.shutdown = true)
    (taken : w.step worker eagerGather e = some w') :
    potential w'.pc ≤ potential w.pc + e.brings.length := by
  cases moves_of_step taken with
  | shutdown | register | job | taskDone => exact Nat.le_add_right _ _
  | cancel => exact potential_cancel.le.trans (Nat.le_add_right _ _)
  | child moved => exact potential_child moved
  | resume monotonic resumed =>
    exact (potential_resume signalled resumed).le.trans (Nat.le_add_right _ _)

/-- After the shutdown signal `run()` resumes at most seven times, and once more for each job that
it holds or that a reserve call brings in. -/
theorem resumes_le {es : List Event} (signalled : w.shutdown = true)
    (run : Run (Steps (step worker eagerGather)) w es w') :
    es.countP Event.isResume ≤ 7 + w.pc.handed.length + (es.flatMap Event.brings).length := by
  have bound := run.countP_add_le_credit (fun w => w.shutdown = true) (fun w => potential w.pc)
    (fun e => e.brings.length) Event.isResume (fun before taken => shutdown_step taken before)
    (fun {a e b} before taken resumes => ?_) (fun before taken => potential_step before taken)
    signalled
  · have steps := stepsLeft_le w.pc
    rw [List.length_flatMap]
    unfold potential at bound
    omega
  · cases e with
    | resume monotonic =>
      cases moves_of_step taken with
      | resume _ resumed => exact Nat.lt_add_right _ (potential_resume before resumed)
      | child moved => cases moved
    | _ => cases resumes

/-! ## Reserve calls -/

/-- The reserve calls whose results `run()` can still wait for. -/
def callsLeft : Pc → ℕ
  | .race r _ =>
    match r.awaitable, r.task with
    | .acquire, _ => 1
    | .reserve _ _, .pending _ => 1
    | _, _ => 0
  | _ => 0

/-- The end of a reserve call. -/
def Event.endsReserve : Event → Bool
  | .reserveEnds _ => true
  | _ => false

private theorem callsLeft_le (pc : Pc) : callsLeft pc ≤ 1 := by
  unfold callsLeft
  split
  · split <;> decide
  · decide

private theorem callsLeft_cancelAt (r : Race) (at_stage stage stage' : Stage) :
    callsLeft (.race (r.cancelAt at_stage) stage) = callsLeft (.race r stage') := by
  cases found : r.task with
  | done result =>
    simp only [callsLeft, Race.task_cancelAt_of_done found, found, Race.awaitable_cancelAt]
  | pending flag =>
    obtain ⟨flag', running, _⟩ := Race.task_cancelAt_of_pending found at_stage
    cases awaitable : r.awaitable <;>
      simp only [callsLeft, running, found, Race.awaitable_cancelAt, awaitable]

private theorem callsLeft_cancel : callsLeft w.cancel.pc = callsLeft w.pc := by
  unfold cancel
  split
  · rfl
  · next r stage at_pc => simp only [at_pc, callsLeft_cancelAt r stage stage stage]
  all_goals rfl

private theorem callsLeft_child {e : Event} (moved : ChildMoves w e w') :
    callsLeft w'.pc + [e].countP Event.endsReserve ≤ callsLeft w.pc := by
  cases moved with
  | acquires at_pc awaitable | signalled at_pc | reserves result at_pc awaitable running =>
    simp [*, callsLeft, Event.endsReserve]
  | @cancelled r _ at_pc other | @sleeps r _ at_pc other =>
    rw [at_pc]
    cases awaitable : r.awaitable with
    | reserve opts started => exact absurd awaitable (other opts started)
    | acquire | sleep => simp [callsLeft, awaitable, Event.endsReserve]

/-- After the signal a reserve call is only started with the permit of the race being run. -/
theorem callsLeft_resume {monotonic : ℤ} (signalled : w.shutdown = true)
    (resumed : Resumes worker eagerGather monotonic w w') : callsLeft w'.pc ≤ callsLeft w.pc := by
  cases turns_of_resumes resumed with
  | stays at_pc at_pc' =>
    rw [at_pc, at_pc']
    exact (callsLeft_cancelAt _ _ _ _).le
  | @opens awaitable at_pc' _ why =>
    cases awaitable with
    | acquire => exact absurd (signalled.symm.trans why) Bool.noConfusion
    | reserve opts started =>
      obtain ⟨_, r, stage, value, at_pc, acquiring, _⟩ := why.1
      simp only [at_pc, callsLeft, acquiring]
      exact callsLeft_le _
    | sleep => simp [at_pc', startRace, callsLeft]
  | batches at_pc' => simp [at_pc', callsLeft]
  | leaves out =>
    cases at_pc' : w'.pc with
    | race => simp [current, at_pc'] at out
    | _ => exact Nat.zero_le _

private theorem callsLeft_step {e : Event} (signalled : w.shutdown = true)
    (taken : w.step worker eagerGather e = some w') :
    callsLeft w'.pc + [e].countP Event.endsReserve ≤ callsLeft w.pc := by
  cases moves_of_step taken with
  | shutdown | register | job | taskDone => exact le_rfl
  | cancel => exact callsLeft_cancel.le
  | child moved => exact callsLeft_child moved
  | resume monotonic resumed => exact callsLeft_resume signalled resumed

/-- At most one reserve call still ends after the signal. -/
theorem reserveEnds_le {es : List Event} (signalled : w.shutdown = true)
    (run : Run (Steps (step worker eagerGather)) w es w') : es.countP Event.endsReserve ≤ 1 := by
  refine (run.countP_le (fun w => w.shutdown = true) (fun w => callsLeft w.pc) Event.endsReserve
    (fun before taken => shutdown_step taken before) (fun before taken ends => ?_)
    (fun before taken => (Nat.le_add_right _ _).trans (callsLeft_step before taken))
    signalled).trans (callsLeft_le _)
  have lowered := callsLeft_step before taken
  rw [List.countP_cons_of_pos ends] at lowered
  exact lowered

/-! ## Whole runs -/

/-- Once shutdown is signalled, at most one more reserve call ends, and `run()` resumes at most
seven times, and once more for each job that it holds or that this call brings in. As long as it has
not ended, it can resume whenever the job tasks and the race that it has started are over. -/
theorem shutdown_run_ends (worker : Worker) (eagerGather : Bool) (registry : Registry)
    (initial : ℤ) (es es' : List Event) (w w' : Loop)
    (run : Run (Steps (step worker eagerGather)) (init worker registry initial) es w)
    (signalled : w.shutdown = true) (run' : Run (Steps (step worker eagerGather)) w es' w') :
    es'.countP Event.endsReserve ≤ 1 ∧
      es'.countP Event.isResume ≤ 7 + w.pc.handed.length + (es'.flatMap Event.brings).length ∧
      (¬ w'.Over → unreaped w'.slots = 0 → (∀ r stage, w'.pc = .race r stage → r.Over) →
        ∀ monotonic, ∃ w'', w'.step worker eagerGather (.resume monotonic) = some w'') := by
  have whole := run.append run'
  have tidy : Tidy w' := .of_run whole
  exact ⟨reserveEnds_le signalled run', resumes_le signalled run',
    fun going idle races => exists_resume (.of_run whole) tidy.here going idle races⟩

/-- Signalled late, the loop still gets two jobs, and has settled the first of them. -/
def lateBatch : List Event :=
  [.shutdownWaitEnds, .resume 0, .reserveEnds (.ok (some [JobTask.emailJob, JobTask.emailJob])),
    .shutdownWaitEnds, .resume 0, .job 0 (.start {} .awaitable), .job 0 (.callEnds (.ok ())),
    .taskDone 0]

/-- The second job is next. -/
theorem shutdown_run_ends_late :
    ∃ w w', Run (Steps (step .sole true)) (init .sole {} 0) signalledLate w ∧
      Run (Steps (step .sole true)) w lateBatch w' ∧ w'.pc = .batch [JobTask.emailJob] ∧
      lateBatch.countP Event.isResume = 2 ∧
      ∃ w'', w'.step .sole true (.resume 0) = some w'' := by
  obtain ⟨w, found, signalled⟩ : ∃ w, run? (step .sole true) (init .sole {} 0)
      signalledLate = some w ∧ w.shutdown = true := ⟨_, rfl, rfl⟩
  obtain ⟨w', found', at_pc, idle⟩ : ∃ w',
      ((run? (step .sole true) (init .sole {} 0) signalledLate).bind
        fun w => run? (step .sole true) w lateBatch) = some w' ∧
      w'.pc = .batch [JobTask.emailJob] ∧ unreaped w'.slots = 0 := ⟨_, rfl, rfl, rfl⟩
  rw [found, Option.bind_some] at found'
  have run := (run?_eq_some_iff _ _ _ _).mp found
  have run' := (run?_eq_some_iff _ _ _ _).mp found'
  obtain ⟨_, _, resumes⟩ := shutdown_run_ends .sole true _ _ _ _ w w' run signalled run'
  exact ⟨w, w', run, run', at_pc, rfl,
    resumes (by simp [Over, at_pc]) idle (by simp [at_pc]) 0⟩

end SeppPy.Loop
