import SeppPy.Worker.Slots

/-! # Cancelling a run

From the moment `run()` is cancelled it is `Doomed`: wherever it is suspended, it resumes into its
cleanup and then ends with a `CancelledError`. It spawns no job and starts no race on the way, and
it resumes at most three times, each time as soon as the children it waits for have finished.
-/

namespace SeppPy

/-- Both tasks of the race have finished. -/
def Race.Over (r : Race) : Prop := (∃ result, r.task = .done result) ∧ r.shutdownWait = .done

namespace Loop

open Machine

variable {worker : Worker} {eagerGather : Bool} {initial : ℤ} {w w' : Loop}

/-! ## The races of a run -/

/-- What is known of the race or the batch at an `await`. -/
def TidyAt : Pc → Prop
  | .race r .reapTask => r.shutdownWait = .done
  | .race r .reapShutdownWait => ∃ result, r.task = .done result
  | .batch rest => rest ≠ []
  | _ => True

/-- The races that `_or_shutdown` has left are over. -/
structure Tidy (w : Loop) : Prop where
  past : ∀ r ∈ w.past, r.Over
  here : TidyAt w.pc

private theorem tidyAt_afterLoop : TidyAt (w.afterLoop eagerGather) := by
  rcases afterLoop_cases eagerGather w with at_pc | ⟨awaited, at_pc⟩ <;> rw [at_pc] <;> trivial

private theorem tidyAt_loopHead : TidyAt (w.loopHead eagerGather) := by
  unfold loopHead
  split
  · exact tidyAt_afterLoop
  · trivial

private theorem tidyAt_nextJob (rest : List Job) : TidyAt (w.nextJob eagerGather rest) := by
  unfold nextJob
  split
  · exact tidyAt_loopHead
  · next other => exact other

namespace Tidy

theorem goto (tidy : Tidy w) {next : Loop} (past : next.past = w.past) (here : TidyAt next.pc) :
    Tidy next := ⟨past ▸ tidy.past, here⟩

theorem closeRace {r : Race} (tidy : Tidy w) (finished : r.Over) : Tidy (w.closeRace r) := by
  refine ⟨fun other member => ?_, tidy.here⟩
  rcases List.mem_append.mp member with old | new
  · exact tidy.past other old
  · exact List.mem_singleton.mp new ▸ finished

theorem raiseInBody (tidy : Tidy w) (err : PyError) : Tidy (w.raiseInBody eagerGather err) := by
  unfold Loop.raiseInBody
  split
  · refine tidy.goto rfl ?_
    simp only [reapTasks]
    split <;> trivial
  · exact tidy.goto rfl trivial

theorem onReserved (tidy : Tidy w) (opts : ReserveOptions) (elapsed : Timedelta)
    (result : Except PyError (Option (List Job))) :
    Tidy (w.onReserved worker eagerGather opts elapsed result) := by
  unfold Loop.onReserved
  split
  · refine tidy.goto rfl ?_
    dsimp only
    split
    · trivial
    · exact tidyAt_loopHead
  · exact tidy.raiseInBody _
  · exact tidy.goto rfl (tidyAt_nextJob _)
  · exact tidy.goto rfl trivial
  · exact tidy.raiseInBody _

theorem onResult (tidy : Tidy w) (monotonic : ℤ) (awaitable : Awaitable)
    (result : Except PyError (Option (List Job))) :
    Tidy (w.onResult worker eagerGather monotonic awaitable result) := by
  unfold Loop.onResult
  split
  · exact tidy.onReserved _ _ _
  · exact tidy.raiseInBody _
  · split
    · exact tidy.goto rfl trivial
    · exact tidy.raiseInBody _
  · exact tidy.goto rfl tidyAt_loopHead

theorem onShutdown (tidy : Tidy w) (awaitable : Awaitable) :
    Tidy (w.onShutdown eagerGather awaitable) := by
  cases awaitable <;> exact tidy.goto rfl tidyAt_afterLoop

theorem resume {monotonic : ℤ} (tidy : Tidy w)
    (resumed : Resumes worker eagerGather monotonic w w') : Tidy w' := by
  have here := tidy.here
  cases resumed with
  | starts => exact tidy.goto rfl tidyAt_loopHead
  | neverStarts | reaped | drained | drainRaises => exact tidy.goto rfl trivial
  | @races r stage _ at_pc resumed =>
    rw [at_pc] at here
    cases resumed with
    | cancelled => exact tidy.goto rfl trivial
    | shutdownWins _ _ signalled => exact tidy.goto rfl signalled
    | taskWins _ ended _ => exact tidy.goto rfl ended
    | result _ ended signalled _ =>
      exact (tidy.closeRace ⟨⟨_, ended⟩, signalled⟩).onResult _ _ _
    | shutdown _ ended => exact (tidy.closeRace ⟨ended, here⟩).onShutdown _
    | raises ended signalled _ =>
      refine (tidy.closeRace ⟨ended, ?_⟩).raiseInBody _
      rcases signalled with done | rfl
      · exact done
      · exact here
  | batchRaises => exact tidy.raiseInBody _
  | @batchSpawns job rest => exact tidy.goto rfl (tidyAt_nextJob rest)

/-- A race whose task has ended, or whose wait is over, stays so. -/
theorem child {e : Event} (tidy : Tidy w) (moves : RaceMoves w e w') : Tidy w' := by
  refine tidy.goto moves.past ?_
  obtain ⟨r, r', stage, at_pc, at_pc', advances⟩ := moves.races
  have here := tidy.here
  rw [at_pc] at here
  rw [at_pc']
  cases stage with
  | waiting | reapBoth => trivial
  | reapTask => exact advances.shutdownWait here
  | reapShutdownWait =>
    obtain ⟨result, ended⟩ := here
    exact ⟨result, advances.task_of_done ended⟩

theorem cancel (tidy : Tidy w) : Tidy w.cancel := by
  have here := tidy.here
  unfold Loop.cancel
  split
  · next at_pc => exact tidy.goto rfl here
  · next r stage at_pc =>
    rw [at_pc] at here
    refine tidy.goto rfl ?_
    cases stage with
    | waiting | reapBoth => trivial
    | reapTask => exact here
    | reapShutdownWait =>
      obtain ⟨result, ended⟩ := here
      exact ⟨result, Race.task_cancelAt_of_done ended _⟩
  · exact tidy.goto rfl here
  · exact tidy.goto rfl here
  · exact tidy.goto rfl here
  · exact tidy
  · exact tidy

theorem step {e : Event} (tidy : Tidy w) (taken : w.step worker eagerGather e = some w') :
    Tidy w' := by
  cases moves_of_step taken with
  | shutdown | register | job | taskDone => exact tidy.goto rfl tidy.here
  | cancel => exact tidy.cancel
  | child moved => exact tidy.child moved.raceMoves
  | resume monotonic resumed => exact tidy.resume resumed

theorem of_run {registry : Registry} {es : List Event}
    (run : Run (Steps (Loop.step worker eagerGather)) (init worker registry initial) es w) :
    Tidy w :=
  run.invariant Tidy (fun tidy taken => tidy.step taken)
    ⟨fun _ member => absurd member List.not_mem_nil, trivial⟩

end Tidy

/-! ## A doomed run -/

/-- `run()` has ended. -/
def Over (w : Loop) : Prop := w.pc = .returned ∨ ∃ err, w.pc = .raised err

/-- A cancellation is still to be delivered, or is being cleaned up after. -/
def Doomed (w : Loop) : Prop :=
  match w.pc with
  | .race _ .reapBoth | .reap _ | .raised .cancelledError => True
  | .returned | .raised _ => False
  | _ => w.mustCancel = true

/-- What `run()` waits for has finished, or has been asked to stop. -/
def Asked (w : Loop) : Prop :=
  match w.pc with
  | .race r .reapBoth => r.task ≠ .pending false ∧ r.shutdownWait ≠ .pending false
  | .race r .reapTask => r.task ≠ .pending false
  | .race r .reapShutdownWait => r.shutdownWait ≠ .pending false
  | .reap _ | .drain _ => ∀ slot ∈ w.slots, slot.reaped = true ∨ slot.asked = true
  | _ => True

/-- The number of races that were started. -/
def started (w : Loop) : ℕ :=
  w.past.length +
    match w.pc with
    | .race _ _ => 1
    | _ => 0

/-- How often a doomed run can still resume. -/
def resumesLeft : Pc → ℕ
  | .race _ .waiting => 3
  | .race _ _ | .batch _ => 2
  | .notStarted | .reap _ | .drain _ => 1
  | .returned | .raised _ => 0

/-- One step on the way out. -/
structure DoomedStep (w w' : Loop) : Prop where
  doomed : w'.Doomed
  asked : w'.Asked
  spawned : spawnedJobs w'.slots = spawnedJobs w.slots
  started : w'.started = w.started

private theorem asked_of_cancelTasks (slots : List Slot) :
    ∀ slot ∈ cancelTasks slots, slot.reaped = true ∨ slot.asked = true := by
  intro slot member
  obtain ⟨before, _, rfl⟩ := List.mem_map.mp member
  cases reaped : before.reaped with
  | true => exact .inl (by simp [reaped])
  | false => exact .inr (by simp)

private theorem asked_reapTasks (eagerGather : Bool) (w : Loop) :
    (w.reapTasks eagerGather).Asked := by
  rcases reapTasks_cases eagerGather w with at_pc | ⟨awaited, at_pc⟩
  · simp only [Asked, at_pc]
  · simp only [Asked, at_pc]
    exact asked_of_cancelTasks w.slots

/-- Cancelling a `gather` of `_or_shutdown` asks the children it gathers to stop. -/
theorem asked_cancelAt (w : Loop) (r : Race) (stage : Stage) (flag : Bool) :
    Asked { w with pc := .race (r.cancelAt stage) stage, mustCancel := flag } := by
  have task : r.task.cancel ≠ .pending false := by cases r.task <;> simp [RaceTask.cancel]
  have wait : r.shutdownWait.cancel ≠ .pending false := by
    cases r.shutdownWait <;> simp [ShutdownWait.cancel]
  cases stage with
  | waiting => trivial
  | reapBoth => exact ⟨task, wait⟩
  | reapTask => exact task
  | reapShutdownWait => exact wait

private theorem asked_cancel (w : Loop) : w.cancel.Asked := by
  cases at_pc : w.pc with
  | race r stage =>
    simp only [cancel, at_pc]
    exact asked_cancelAt w r stage true
  | reap | drain =>
    simp only [cancel, at_pc, Asked]
    exact asked_of_cancelTasks w.slots
  | notStarted | batch | returned | raised => simp only [cancel, at_pc, Asked]

/-- A child that has been asked to stop has been, whatever else happens in its race. -/
theorem Asked.child {e : Event} (asked : w.Asked) (moves : RaceMoves w e w') : w'.Asked := by
  obtain ⟨r, r', stage, at_pc, at_pc', advances⟩ := moves.races
  have task (before : r.task ≠ .pending false) : r'.task ≠ .pending false := by
    rcases advances.task with same | ⟨_, result, _, ended, _⟩
    · rwa [same]
    · rw [ended]
      exact fun pending => by cases pending
  have wait (before : r.shutdownWait ≠ .pending false) : r'.shutdownWait ≠ .pending false := by
    rcases advances.waits with same | ended
    · rwa [same]
    · rw [ended]
      exact fun pending => by cases pending
  unfold Asked at asked ⊢
  rw [at_pc] at asked
  rw [at_pc']
  cases stage with
  | waiting => trivial
  | reapBoth => exact ⟨task asked.1, wait asked.2⟩
  | reapTask => exact task asked
  | reapShutdownWait => exact wait asked

/-- Nor does a job task lose its cancellation. -/
theorem Asked.set {i : ℕ} {slot slot' : Slot} {next : Loop} (asked : w.Asked)
    (found : w.slots[i]? = some slot) (at_pc : next.pc = w.pc)
    (slots : next.slots = w.slots.set i slot')
    (reaped : slot.reaped = true → slot'.reaped = true) (same : slot'.asked = slot.asked) :
    next.Asked := by
  have kept (before : ∀ slot ∈ w.slots, slot.reaped = true ∨ slot.asked = true) :
      ∀ slot ∈ next.slots, slot.reaped = true ∨ slot.asked = true := by
    intro other member
    rw [slots] at member
    rcases List.mem_or_eq_of_mem_set member with old | rfl
    · exact before other old
    · rw [same]
      exact (before slot (List.mem_of_getElem? found)).imp_left reaped
  unfold Asked at asked ⊢
  rw [at_pc]
  cases here : w.pc with
  | reap | drain =>
    rw [here] at asked
    exact kept asked
  | race r stage =>
    rw [here] at asked
    cases stage <;> exact asked
  | notStarted | batch | returned | raised => trivial

/-- `except asyncio.CancelledError` leads to the end of the run. -/
theorem doomedStep_reapTasks (eagerGather : Bool) (start : w.started = w'.past.length)
    (spawned : spawnedJobs w'.slots = spawnedJobs w.slots) :
    DoomedStep w (w'.reapTasks eagerGather) ∧ resumesLeft (w'.reapTasks eagerGather).pc ≤ 1 := by
  have same : spawnedJobs (w'.reapTasks eagerGather).slots = spawnedJobs w.slots :=
    (spawnedJobs_cancelTasks w'.slots).trans spawned
  rcases reapTasks_cases eagerGather w' with at_pc | ⟨awaited, at_pc⟩
  all_goals
    refine ⟨⟨?_, asked_reapTasks eagerGather w', same, ?_⟩, ?_⟩
    · simp only [Doomed, at_pc]
    · rw [start, Loop.started, at_pc]
      rfl
    · simp only [at_pc, resumesLeft, Nat.zero_le, le_refl]

/-- A doomed run resumes into its cleanup or ends. -/
theorem doomed_resume {monotonic : ℤ} (doomed : w.Doomed)
    (resumed : Resumes worker eagerGather monotonic w w') :
    DoomedStep w w' ∧ resumesLeft w'.pc < resumesLeft w.pc := by
  have awake (calm : w.mustCancel = false) (flagged : w.mustCancel = true) : False :=
    Bool.false_ne_true (calm.symm.trans flagged)
  cases resumed with
  | starts at_pc calm | drained at_pc _ calm =>
    exact (awake calm (by simpa only [Doomed, at_pc] using doomed)).elim
  | neverStarts at_pc | reaped at_pc | drainRaises at_pc =>
    exact ⟨⟨trivial, trivial, rfl, by simp [started, at_pc]⟩, by simp [at_pc, resumesLeft]⟩
  | @races r stage _ at_pc resumed =>
    have start : w.started = (w.closeRace r).past.length := by simp [started, closeRace, at_pc]
    have left : 2 ≤ resumesLeft w.pc := by
      rw [at_pc]
      cases stage <;> simp [resumesLeft]
    have flagged (calm : w.mustCancel = false) (other : stage ≠ .reapBoth) : False := by
      cases stage <;> simp_all [Doomed]
    cases resumed with
    | cancelled _ =>
      exact ⟨⟨trivial, asked_cancelAt w r .reapBoth false, rfl, by simp [started, at_pc]⟩,
        by simp [at_pc, resumesLeft]⟩
    | shutdownWins calm => exact (flagged calm nofun).elim
    | taskWins calm => exact (flagged calm nofun).elim
    | result calm _ _ here =>
      refine (flagged calm ?_).elim
      rcases here with rfl | rfl <;> exact nofun
    | shutdown calm => exact (flagged calm nofun).elim
    | raises =>
      obtain ⟨step, last⟩ := doomedStep_reapTasks eagerGather start rfl
      exact ⟨step, Nat.lt_of_le_of_lt last left⟩
  | batchRaises at_pc =>
    have start : w.started = w.past.length := by simp [started, at_pc]
    obtain ⟨step, last⟩ := doomedStep_reapTasks eagerGather start rfl
    rw [at_pc]
    exact ⟨step, Nat.lt_of_le_of_lt last (by simp [resumesLeft])⟩
  | batchSpawns at_pc calm =>
    exact (awake calm (by simpa only [Doomed, at_pc] using doomed)).elim

/-- A step that leaves `run()` where it is keeps it doomed. -/
theorem doomed_still (doomed : w.Doomed) (asked : w'.Asked) (here : w'.pc = w.pc)
    (flag : w'.mustCancel = w.mustCancel) (spawned : spawnedJobs w'.slots = spawnedJobs w.slots)
    (past : w'.past = w.past) : DoomedStep w w' ∧ resumesLeft w'.pc ≤ resumesLeft w.pc := by
  refine ⟨⟨?_, asked, spawned, ?_⟩, (congrArg resumesLeft here).le⟩
  · simpa only [Doomed, here, flag] using doomed
  · rw [started, here, past, started]

/-- Wherever `run()` is cancelled before its end, it is doomed from then on. -/
theorem doomed_cancel (going : ¬ w.Over) :
    DoomedStep w w.cancel ∧ resumesLeft w.cancel.pc = resumesLeft w.pc := by
  have asked := asked_cancel w
  cases at_pc : w.pc with
  | notStarted | batch =>
    simp only [cancel, at_pc] at asked ⊢
    exact ⟨⟨by simp only [Doomed], asked, rfl, by simp only [started, at_pc]⟩, trivial⟩
  | race r stage =>
    simp only [cancel, at_pc] at asked ⊢
    refine ⟨⟨?_, asked, rfl, by simp only [started, at_pc]⟩, ?_⟩
    · cases stage <;> simp [Doomed]
    · cases stage <;> rfl
  | reap | drain =>
    simp only [cancel, at_pc] at asked ⊢
    exact ⟨⟨by simp only [Doomed], asked, spawnedJobs_cancelTasks w.slots,
      by simp only [started, at_pc]⟩, trivial⟩
  | returned => exact absurd (.inl at_pc) going
  | raised err => exact absurd (.inr ⟨err, at_pc⟩) going

/-- No step leads a doomed run back into its loop. -/
theorem doomed_step {e : Event} (doomed : w.Doomed) (asked : w.Asked)
    (taken : w.step worker eagerGather e = some w') :
    DoomedStep w w' ∧ resumesLeft w'.pc ≤ resumesLeft w.pc := by
  cases moves_of_step taken with
  | shutdown | register => exact doomed_still doomed asked rfl rfl rfl rfl
  | cancel =>
    by_cases gone : w.Over
    · have same : w.cancel = w := by
        rcases gone with at_pc | ⟨err, at_pc⟩ <;> simp only [cancel, at_pc]
      rw [same]
      exact doomed_still doomed asked rfl rfl rfl rfl
    · exact (doomed_cancel gone).imp_right Eq.le
  | child moved =>
    have moves := moved.raceMoves
    obtain ⟨r, r', stage, at_pc, at_pc', _⟩ := moves.races
    refine ⟨⟨?_, asked.child moves, congrArg spawnedJobs moves.slots, ?_⟩, ?_⟩
    · simp only [Doomed, at_pc] at doomed
      simp only [Doomed, at_pc', moves.mustCancel]
      cases stage <;> exact doomed
    · simp only [started, at_pc, at_pc', moves.past]
    · rw [at_pc, at_pc']
      cases stage <;> rfl
  | resume monotonic resumed => exact (doomed_resume doomed resumed).imp_right Nat.le_of_lt
  | job i e sees found next =>
    exact doomed_still doomed (asked.set found rfl rfl id rfl) rfl rfl
      (spawnedJobs_set found (JobTask.job_step next)) rfl
  | taskDone i found =>
    exact doomed_still doomed (asked.set found rfl rfl (fun _ => rfl) rfl) rfl rfl
      (spawnedJobs_set found rfl) rfl

/-- What `run()` is waiting for has finished. -/
def ChildrenDone (w : Loop) : Prop :=
  match w.pc with
  | .race r .reapBoth => r.Over
  | .race r .reapTask => ∃ result, r.task = .done result
  | .race r .reapShutdownWait => r.shutdownWait = .done
  | .reap awaited | .drain awaited => w.gatheredDone awaited = true
  | _ => True

/-- A doomed run is held up by the children it waits for alone. -/
theorem resumes_of_childrenDone (doomed : w.Doomed) (here : TidyAt w.pc) (going : ¬ w.Over)
    (done : w.ChildrenDone) (monotonic : ℤ) :
    ∃ w', w.resume worker eagerGather monotonic = some w' := by
  cases at_pc : w.pc with
  | notStarted =>
    simp only [resume, at_pc]
    exact ⟨_, rfl⟩
  | race r stage =>
    cases stage with
    | waiting =>
      have flagged : w.mustCancel = true := by simpa only [Doomed, at_pc] using doomed
      simp only [resume, at_pc, resumeRace, if_pos flagged]
      exact ⟨_, rfl⟩
    | reapBoth =>
      obtain ⟨⟨result, ended⟩, signalled⟩ : r.Over := by simpa only [ChildrenDone, at_pc] using done
      simp only [resume, at_pc, resumeRace, ended, signalled]
      exact ⟨_, rfl⟩
    | reapTask =>
      obtain ⟨result, ended⟩ : ∃ result, r.task = .done result := by
        simpa only [ChildrenDone, at_pc] using done
      simp only [resume, at_pc, resumeRace, ended]
      exact ⟨_, rfl⟩
    | reapShutdownWait =>
      rw [at_pc] at here
      obtain ⟨result, ended⟩ := here
      have signalled : r.shutdownWait = .done := by simpa only [ChildrenDone, at_pc] using done
      simp only [resume, at_pc, resumeRace, ended, signalled]
      exact ⟨_, rfl⟩
  | batch rest =>
    rw [at_pc] at here
    have flagged : w.mustCancel = true := by simpa only [Doomed, at_pc] using doomed
    cases rest with
    | nil => exact absurd rfl here
    | cons job rest =>
      simp only [resume, at_pc, resumeBatch, if_pos flagged]
      exact ⟨_, rfl⟩
  | reap | drain =>
    have gathered := done
    simp only [ChildrenDone, at_pc] at gathered
    simp only [resume, at_pc, if_pos gathered]
    exact ⟨_, rfl⟩
  | returned => exact absurd (.inl at_pc) going
  | raised err => exact absurd (.inr ⟨err, at_pc⟩) going

/-! ## Whole runs -/

/-- An event of the task of `run()` itself. -/
def Event.isResume : Event → Bool
  | .resume _ => true
  | _ => false

private theorem resumesLeft_le (pc : Pc) : resumesLeft pc ≤ 3 := by
  unfold resumesLeft
  split <;> decide

/-- Once `run()` is cancelled, wherever it is suspended, it spawns no job and starts no race, it
never returns, and it ends with a `CancelledError`. It resumes at most three times for that, as
soon as what it waits for has finished, and it has asked all of that to stop. When it ends, the two
tasks of every race, every job task and every handler and heartbeat task have finished. -/
theorem cancelled_run_ends (worker : Worker) (eagerGather : Bool) (registry : Registry)
    (initial : ℤ) (es es' : List Event) (w w' : Loop)
    (run : Run (Steps (step worker eagerGather)) (init worker registry initial) es w)
    (going : ¬ w.Over) (run' : Run (Steps (step worker eagerGather)) w.cancel es' w') :
    spawnedJobs w'.slots = spawnedJobs w.slots ∧ w'.started = w.started ∧ w'.pc ≠ .returned ∧
      (∀ err, w'.pc = .raised err → err = .cancelledError ∧
        w'.past.length = w'.started ∧ (∀ r ∈ w'.past, r.Over) ∧
        ∀ slot ∈ w'.slots, slot.task.Ended ∧ slot.task.Settled) ∧
      w'.Asked ∧
      (¬ w'.Over → w'.ChildrenDone → ∀ monotonic,
        ∃ w'', w'.step worker eagerGather (.resume monotonic) = some w'') ∧
      es'.countP Event.isResume ≤ 3 := by
  have whole : Run (Steps (step worker eagerGather)) (init worker registry initial)
      (es ++ .cancel :: es') w' := run.append (.cons rfl run')
  have first := (doomed_cancel going).1
  have last : DoomedStep w w' := run'.invariant (DoomedStep w) (fun before taken =>
    have next := (doomed_step before.doomed before.asked taken).1
    ⟨next.doomed, next.asked, next.spawned.trans before.spawned,
      next.started.trans before.started⟩) first
  have tidy : Tidy w' := .of_run whole
  refine ⟨last.spawned, last.started, fun returned => ?_, fun err ended => ?_, last.asked,
    fun going' done => resumes_of_childrenDone last.doomed tidy.here going' done, ?_⟩
  · have doomed := last.doomed
    simp only [Doomed, returned] at doomed
  · have doomed := last.doomed
    have covers := covers_of_run whole
    rw [ended] at covers
    cases err with
    | cancelledError =>
      refine ⟨rfl, by simp only [started, ended, Nat.add_zero], tidy.past, fun slot member => ?_⟩
      have ended := (covers slot member).1
      exact ⟨ended, (slots_phase whole slot member).settled (.inr ended)⟩
    | _ => simp only [Doomed, ended] at doomed
  · exact (run'.countP_le (fun w => w.Doomed ∧ w.Asked) (fun w => resumesLeft w.pc) Event.isResume
      (fun before taken =>
        have next := (doomed_step before.1 before.2 taken).1
        ⟨next.doomed, next.asked⟩)
      (fun before taken kind => by
        rename_i a e b
        cases e with
        | resume monotonic => exact (doomed_resume before.1 (resumes_of_resume taken)).2
        | _ => cases kind)
      (fun before taken => (doomed_step before.1 before.2 taken).2)
      ⟨first.doomed, first.asked⟩).trans (resumesLeft_le _)

/-- The handler of the only job swallows the cancellation, and `run()` is cancelled once more while
it waits for that job. -/
def swallowed : List Event :=
  [.resume 0, .waitEnds, .shutdownWaitEnds, .resume 0, .cancel, .job 0 (.handlerEnds .returned),
    .job 0 (.callEnds (.ok ())), .taskDone 0, .resume 0]

/-- A run cancelled while it waits for a permit reaps its race and its job before it ends. -/
theorem cancelled_run_ends_swallowed :
    ∃ w w', Run (Steps (step .sole true)) (init .sole JobTask.catchAllOnly 0)
        (reserved [JobTask.emailJob] ++ [.job 0 (.start JobTask.catchAllOnly .awaitable)]) w ∧
      Run (Steps (step .sole true)) w.cancel swallowed w' ∧ w'.pc = .raised .cancelledError ∧
      spawnedJobs w'.slots = [JobTask.emailJob] ∧ w'.past.length = 3 ∧ (∀ r ∈ w'.past, r.Over) ∧
      ∀ slot ∈ w'.slots, slot.task.Ended ∧ slot.task.Settled := by
  obtain ⟨w, found, suspended, jobs, races⟩ : ∃ w, run? (step .sole true)
      (init .sole JobTask.catchAllOnly 0) (reserved [JobTask.emailJob] ++
        [.job 0 (.start JobTask.catchAllOnly .awaitable)]) = some w ∧
      w.pc = startRace .acquire ∧ spawnedJobs w.slots = [JobTask.emailJob] ∧ w.started = 3 :=
    ⟨_, rfl, rfl, rfl, rfl⟩
  obtain ⟨w', found', ended⟩ : ∃ w', (run? (step .sole true) (init .sole JobTask.catchAllOnly 0)
      (reserved [JobTask.emailJob] ++ [.job 0 (.start JobTask.catchAllOnly .awaitable)])).bind
        (fun w => run? (step .sole true) w.cancel swallowed) = some w' ∧
      w'.pc = .raised .cancelledError := ⟨_, rfl, rfl⟩
  rw [found, Option.bind_some] at found'
  have run := (run?_eq_some_iff _ _ _ _).mp found
  have run' := (run?_eq_some_iff _ _ _ _).mp found'
  have going : ¬ w.Over := by simp [Over, suspended, startRace]
  obtain ⟨spawned, started, _, cleanup, _⟩ :=
    cancelled_run_ends .sole true _ _ _ _ w w' run going run'
  obtain ⟨_, closed, races_over, tasks_over⟩ := cleanup _ ended
  exact ⟨w, w', run, run', ended, spawned.trans jobs, closed.trans (started.trans races),
    races_over, tasks_over⟩

end Loop

end SeppPy
