import SeppPy.Worker.Shutdown

/-! # Where the jobs of a worker come from

Whatever happens to a run, the jobs it spawns and those it still holds were in the results of its
reserve calls, in that order. It may drop a job, but it spawns none twice.
-/

namespace SeppPy.Loop

open Machine
open scoped List

variable {worker : Worker} {eagerGather : Bool} {w w' : Loop}

/-- The jobs that `run()` holds without having spawned them. -/
def Pc.handed : Pc → List Job
  | .race r _ =>
    match r.task with
    | .done result => jobsOf r.awaitable result
    | .pending _ => []
  | .batch rest => rest
  | _ => []

/-- All the jobs that the worker has been handed, but for those it has dropped. -/
def known (w : Loop) : List Job := spawnedJobs w.slots ++ w.pc.handed

/-- The jobs that a step brings in. -/
def Event.brings : Event → List Job
  | .reserveEnds (.ok (some jobs)) => jobs
  | _ => []

private theorem handed_afterLoop : (w.afterLoop eagerGather).handed = [] := by
  rcases afterLoop_cases eagerGather w with at_pc | ⟨awaited, at_pc⟩ <;> rw [at_pc] <;> rfl

private theorem handed_loopHead : (w.loopHead eagerGather).handed = [] := by
  unfold loopHead
  split
  · exact handed_afterLoop
  · rfl

private theorem handed_nextJob (rest : List Job) : (w.nextJob eagerGather rest).handed = rest := by
  unfold nextJob
  split
  · exact handed_loopHead
  · rfl

private theorem known_raiseInBody (err : PyError) :
    (w.raiseInBody eagerGather err).known = spawnedJobs w.slots := by
  unfold raiseInBody
  split
  · simp only [known, reapTasks, spawnedJobs_cancelTasks]
    split <;> exact List.append_nil _
  · exact List.append_nil _

private theorem known_spawn (job : Job) (rest : List Job) :
    ({ w.spawn job with pc := (w.spawn job).nextJob eagerGather rest }).known =
      spawnedJobs w.slots ++ job :: rest := by
  simp only [known, handed_nextJob, spawn, spawnedJobs_spawn, List.append_assoc,
    List.singleton_append]

/-- What the loop does with the end of a reserve call, it does with the jobs of that call. -/
theorem known_onReserved (opts : ReserveOptions) (started : ℤ) (elapsed : Timedelta)
    (result : Except PyError (Option (List Job))) :
    (w.onReserved worker eagerGather opts elapsed result).known <+
      spawnedJobs w.slots ++ jobsOf (.reserve opts started) result := by
  unfold onReserved
  split
  · simp only [known, release]
    split
    · exact List.Sublist.refl _
    · rw [handed_loopHead]
      exact List.Sublist.refl _
  · rw [known_raiseInBody]
    exact List.sublist_append_left _ _
  · rw [known_spawn]
    exact List.Sublist.refl _
  · exact List.Sublist.refl _
  · rw [known_raiseInBody]
    exact List.sublist_append_left _ _

private theorem known_onResult (monotonic : ℤ) (awaitable : Awaitable)
    (result : Except PyError (Option (List Job))) :
    (w.onResult worker eagerGather monotonic awaitable result).known <+
      spawnedJobs w.slots ++ jobsOf awaitable result := by
  unfold onResult
  split
  · exact known_onReserved _ _ _ _
  · rw [known_raiseInBody]
    exact List.sublist_append_left _ _
  · split
    · exact List.Sublist.refl _
    · rw [known_raiseInBody]
      exact List.sublist_append_left _ _
  · simp only [known, handed_loopHead, List.append_nil]
    exact List.sublist_append_left _ _

private theorem known_onShutdown (awaitable : Awaitable) :
    (w.onShutdown eagerGather awaitable).known = spawnedJobs w.slots := by
  cases awaitable <;> simp [onShutdown, known, handed_afterLoop, release]

theorem handed_cancelAt (r : Race) (at_stage stage stage' : Stage) :
    (Pc.race (r.cancelAt at_stage) stage).handed = (Pc.race r stage').handed := by
  cases found : r.task with
  | done result =>
    simp only [Pc.handed, Race.task_cancelAt_of_done found, found, Race.awaitable_cancelAt]
  | pending flag =>
    obtain ⟨flag', running, _⟩ := Race.task_cancelAt_of_pending found at_stage
    simp only [Pc.handed, running, found]

private theorem known_resume {monotonic : ℤ} (resumed : Resumes worker eagerGather monotonic w w') :
    w'.known <+ w.known := by
  have spawned_sublist : spawnedJobs w.slots <+ w.known := List.sublist_append_left _ _
  have sublist {v : Loop} (known : v.known = spawnedJobs w.slots) : v.known <+ w.known :=
    known ▸ spawned_sublist
  cases resumed with
  | starts => exact sublist (by simp [known, handed_loopHead])
  | neverStarts | reaped | drained | drainRaises => exact sublist (List.append_nil _)
  | @races r stage v at_pc resumed =>
    cases resumed with
    | cancelled | shutdownWins | taskWins =>
      simp only [known, at_pc, handed_cancelAt r _ _ .waiting]
      exact List.Sublist.refl _
    | @result _ result _ ended =>
      have here : w.known = spawnedJobs w.slots ++ jobsOf r.awaitable result := by
        simp only [known, at_pc, Pc.handed, ended]
      rw [here]
      exact known_onResult (w := w.closeRace r) _ _ _
    | shutdown => exact sublist (known_onShutdown (w := w.closeRace r) _)
    | raises => exact sublist (known_raiseInBody (w := w.closeRace r) _)
  | batchRaises => exact sublist (known_raiseInBody _)
  | @batchSpawns job rest at_pc =>
    rw [known_spawn]
    simp only [known, at_pc, Pc.handed]
    exact List.Sublist.refl _

theorem handed_child {e : Event} (moved : ChildMoves w e w') :
    w'.pc.handed <+ w.pc.handed ++ e.brings := by
  cases moved with
  | acquires at_pc awaitable running => simp [Pc.handed, awaitable, jobsOf]
  | cancelled at_pc other running => simp [Pc.handed, jobsOf]
  | @sleeps r stage at_pc other backoff running =>
    cases found : r.awaitable with
    | reserve opts started => exact absurd found (other opts started)
    | acquire | sleep => simp [Pc.handed, jobsOf]
  | reserves result at_pc awaitable running =>
    refine List.Sublist.trans ?_ (List.sublist_append_right _ _)
    simp only [Pc.handed, awaitable]
    cases result with
    | ok jobs => cases jobs <;> exact List.Sublist.refl _
    | error err => exact List.nil_sublist _
  | signalled at_pc =>
    simp only [at_pc]
    exact List.sublist_append_left _ _

private theorem known_cancel : w.cancel.known = w.known := by
  unfold cancel
  split
  · rfl
  · next r stage at_pc => simp only [known, at_pc, handed_cancelAt r stage stage stage]
  · rfl
  · simp only [known, spawnedJobs_cancelTasks]
  · simp only [known, spawnedJobs_cancelTasks]
  · rfl
  · rfl

/-- A worker gets its jobs from reserve calls, each of them once. -/
theorem known_step {e : Event} (taken : w.step worker eagerGather e = some w') :
    w'.known <+ w.known ++ e.brings := by
  have same (known : w'.known = w.known) : w'.known <+ w.known ++ e.brings :=
    known ▸ List.sublist_append_left _ _
  cases moves_of_step taken with
  | shutdown | register => exact same rfl
  | cancel => exact same known_cancel
  | child moved =>
    rw [known, moved.raceMoves.slots, known, List.append_assoc]
    exact (List.Sublist.refl _).append (handed_child moved)
  | resume monotonic resumed => exact (known_resume resumed).trans (List.sublist_append_left _ _)
  | job i e sees found next =>
    exact same (congrArg (· ++ _) (spawnedJobs_set found (JobTask.job_step next)))
  | taskDone i found => exact same (congrArg (· ++ _) (spawnedJobs_set found rfl))

/-- Cancelled or not, a worker spawns its jobs in the order in which its reserve calls have returned
them, and none twice. Those that it still holds come after those that it has spawned. -/
theorem spawns_as_reserved (worker : Worker) (eagerGather : Bool) (registry : Registry) (initial : ℤ)
    (es : List Event) (w : Loop)
    (run : Run (Steps (step worker eagerGather)) (init worker registry initial) es w) :
    spawnedJobs w.slots ++ w.pc.handed <+ es.flatMap Event.brings := by
  have start : (init worker registry initial).known <+ [].flatMap Event.brings :=
    List.Sublist.refl []
  exact run.history (fun past w => w.known <+ past.flatMap Event.brings)
    (fun {past a e b} before taken => by
      rw [List.flatMap_append, List.flatMap_singleton]
      exact (known_step taken).trans (before.append (List.Sublist.refl _))) start

/-- The second job of a batch is dropped when `run()` is cancelled as it waits for a permit. -/
theorem spawns_as_reserved_cancelled :
    ∃ w, Run (Steps (step .sole true)) (init .sole {} 0)
        (reserved [JobTask.emailJob, JobTask.emailJob] ++ [.cancel, .resume 0]) w ∧
      spawnedJobs w.slots ++ w.pc.handed = [JobTask.emailJob] ∧
      spawnedJobs w.slots ++ w.pc.handed <+ [JobTask.emailJob, JobTask.emailJob] := by
  obtain ⟨w, found, jobs⟩ : ∃ w, run? (step .sole true) (init .sole {} 0)
      (reserved [JobTask.emailJob, JobTask.emailJob] ++ [.cancel, .resume 0]) = some w ∧
      spawnedJobs w.slots ++ w.pc.handed = [JobTask.emailJob] := ⟨_, rfl, rfl⟩
  have run := (run?_eq_some_iff _ _ _ _).mp found
  exact ⟨w, run, jobs, spawns_as_reserved .sole true {} 0 _ w run⟩

end SeppPy.Loop
