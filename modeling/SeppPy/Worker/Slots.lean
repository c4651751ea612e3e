import SeppPy.Worker.Reaping

/-! # The job tasks of a run

A step of the worker moves at most one job task by one step of its own, spawns one, or cancels all
of them. So each job task of a worker's run has a run of its own behind it, and what holds of every
such run holds of it.
-/

namespace SeppPy.Loop

open Machine

variable {worker : Worker} {eagerGather : Bool} {initial : ℤ} {w w' : Loop}

/-- The jobs that have been passed to `_spawn`, in order. -/
def spawnedJobs (slots : List Slot) : List Job := slots.map fun slot => slot.task.job

theorem spawnedJobs_spawn (slots : List Slot) (job : Job) :
    spawnedJobs (slots ++ [⟨.spawned job, false, false⟩]) = spawnedJobs slots ++ [job] := by
  simp [spawnedJobs, JobTask.spawned]

theorem spawnedJobs_set {slots : List Slot} {i : ℕ} {slot slot' : Slot}
    (found : slots[i]? = some slot) (same : slot'.task.job = slot.task.job) :
    spawnedJobs (slots.set i slot') = spawnedJobs slots := by
  obtain ⟨bound, at_i⟩ := List.getElem?_eq_some_iff.mp found
  rw [spawnedJobs, List.map_set, same, ← at_i, ← List.getElem_map (fun slot : Slot => slot.task.job)]
  · exact List.set_getElem_self _
  · simpa using bound

theorem spawnedJobs_cancelTasks (slots : List Slot) :
    spawnedJobs (cancelTasks slots) = spawnedJobs slots := by
  rw [spawnedJobs, cancelTasks, List.map_map]
  refine List.map_congr_left fun slot _ => ?_
  simp only [Function.comp_apply]
  split
  · rfl
  · exact JobTask.job_cancel slot.task

/-- What a step does to the job tasks. They are cancelled together with `run()`, or on its way out. -/
inductive SlotsMove (worker : Worker) (w : Loop) (e : Event) (w' : Loop) : Prop
  | kept (slots : w'.slots = w.slots)
  | spawned (job : Job) (slots : w'.slots = w.slots ++ [⟨.spawned job, false, false⟩])
  | moved (i : ℕ) (e' : JobTask.Event) (slot : Slot) (task : JobTask) (which : e = .job i e')
      (found : w.slots[i]? = some slot) (taken : slot.task.step worker.autoExtend e' = some task)
      (slots : w'.slots = w.slots.set i { slot with task })
  | reaped (i : ℕ) (slot : Slot) (found : w.slots[i]? = some slot)
      (slots : w'.slots = w.slots.set i { slot with reaped := true })
  | cancelled (why : e = .cancel ∨ (∃ awaited, w'.pc = .reap awaited) ∨
      w'.pc = .raised .cancelledError) (slots : w'.slots = cancelTasks w.slots)

private theorem slotsMove_raiseInBody (e : Event) (err : PyError) :
    SlotsMove worker w e (w.raiseInBody eagerGather err) := by
  unfold raiseInBody
  split
  · refine .cancelled (.inr ?_) rfl
    simp only [reapTasks]
    split
    · exact .inr rfl
    · exact .inl ⟨_, rfl⟩
  · exact .kept rfl

private theorem slotsMove_onReserved (e : Event) (opts : ReserveOptions) (elapsed : Timedelta)
    (result : Except PyError (Option (List Job))) :
    SlotsMove worker w e (w.onReserved worker eagerGather opts elapsed result) := by
  unfold onReserved
  split
  · exact .kept rfl
  · exact slotsMove_raiseInBody e _
  · exact .spawned _ rfl
  · exact .kept rfl
  · exact slotsMove_raiseInBody e _

private theorem slotsMove_onResult (e : Event) (monotonic : ℤ) (awaitable : Awaitable)
    (result : Except PyError (Option (List Job))) :
    SlotsMove worker w e (w.onResult worker eagerGather monotonic awaitable result) := by
  unfold onResult
  split
  · exact slotsMove_onReserved e _ _ _
  · exact slotsMove_raiseInBody e _
  · split
    · exact .kept rfl
    · exact slotsMove_raiseInBody e _
  · exact .kept rfl

private theorem slotsMove_onShutdown (e : Event) (awaitable : Awaitable) :
    SlotsMove worker w e (w.onShutdown eagerGather awaitable) := by
  cases awaitable <;> exact .kept rfl

private theorem SlotsMove.of_closeRace {e : Event} {r : Race}
    (move : SlotsMove worker (w.closeRace r) e w') : SlotsMove worker w e w' := by
  cases move with
  | kept slots => exact .kept slots
  | spawned job slots => exact .spawned job slots
  | moved i e' slot task which found taken slots =>
    exact .moved i e' slot task which found taken slots
  | reaped i slot found slots => exact .reaped i slot found slots
  | cancelled why slots => exact .cancelled why slots

theorem slotsMove_resume {monotonic : ℤ} (resumed : Resumes worker eagerGather monotonic w w') :
    SlotsMove worker w (.resume monotonic) w' := by
  cases resumed with
  | starts | neverStarts | reaped | drained | drainRaises => exact .kept rfl
  | races at_pc resumed =>
    cases resumed with
    | cancelled | shutdownWins | taskWins => exact .kept rfl
    | result => exact (slotsMove_onResult _ _ _ _).of_closeRace
    | shutdown => exact (slotsMove_onShutdown _ _).of_closeRace
    | raises => exact (slotsMove_raiseInBody _ _).of_closeRace
  | batchRaises => exact slotsMove_raiseInBody _ _
  | @batchSpawns job => exact .spawned job rfl

theorem slotsMove_of_step {e : Event} (taken : w.step worker eagerGather e = some w') :
    SlotsMove worker w e w' := by
  cases moves_of_step taken with
  | shutdown | register => exact .kept rfl
  | cancel =>
    unfold cancel
    split
    · exact .kept rfl
    · exact .kept rfl
    · exact .kept rfl
    · exact .cancelled (.inl rfl) rfl
    · exact .cancelled (.inl rfl) rfl
    · exact .kept rfl
    · exact .kept rfl
  | child moved => exact .kept moved.raceMoves.slots
  | resume monotonic resumed => exact slotsMove_resume resumed
  | @job i e slot task sees found next => exact .moved i e slot task rfl found next rfl
  | @taskDone i slot found => exact .reaped i slot found rfl

/-- What a job task has from the start, keeps in its own allowed steps and keeps when it is
cancelled along with the others, every job task has after a step of the worker. -/
theorem SlotsMove.all {P : JobTask → Prop} {e : Event} (move : SlotsMove worker w e w')
    (before : ∀ slot ∈ w.slots, P slot.task) (start : ∀ job, P (.spawned job))
    (steps : ∀ t i e' t', e = .job i e' → P t → t.step worker.autoExtend e' = some t' → P t')
    (cancels : ∀ t, (e = .cancel ∨ (∃ awaited, w'.pc = .reap awaited) ∨
      w'.pc = .raised .cancelledError) → P t → P t.cancel) :
    ∀ slot ∈ w'.slots, P slot.task := by
  have set {i : ℕ} {slot : Slot} (here : P slot.task) :
      ∀ other ∈ w.slots.set i slot, P other.task := by
    intro other member
    rcases List.mem_or_eq_of_mem_set member with old | rfl
    · exact before other old
    · exact here
  cases move with
  | kept slots =>
    rw [slots]
    exact before
  | spawned job slots =>
    rw [slots]
    intro slot member
    rcases List.mem_append.mp member with old | new
    · exact before slot old
    · obtain rfl := List.mem_singleton.mp new
      exact start job
  | moved i e' slot task which found taken slots =>
    rw [slots]
    exact set (steps _ i e' _ which (before slot (List.mem_of_getElem? found)) taken)
  | reaped i slot found slots =>
    rw [slots]
    exact set (before slot (List.mem_of_getElem? found))
  | cancelled why slots =>
    rw [slots]
    intro slot member
    obtain ⟨old, present, rfl⟩ := List.mem_map.mp member
    split
    · exact before old present
    · exact cancels _ why (before old present)

/-- A run of its own, of allowed events, has brought the job task here. -/
def Arises (autoExtend : Option AutoExtend) (allow : JobTask.Event → Prop) (t : JobTask) : Prop :=
  ∃ es, (∀ e ∈ es, allow e) ∧ Run (Steps (JobTask.step autoExtend)) (.spawned t.job) es t

theorem arises_spawned (autoExtend : Option AutoExtend) (allow : JobTask.Event → Prop) (job : Job) :
    Arises autoExtend allow (.spawned job) :=
  ⟨[], fun _ member => absurd member List.not_mem_nil, .nil _⟩

theorem Arises.step {autoExtend : Option AutoExtend} {allow : JobTask.Event → Prop} {t t' : JobTask}
    {e : JobTask.Event} (arises : Arises autoExtend allow t) (allowed : allow e)
    (taken : t.step autoExtend e = some t') : Arises autoExtend allow t' := by
  obtain ⟨es, before, run⟩ := arises
  refine ⟨es ++ [e], fun e' member => ?_, JobTask.job_step taken ▸ run.snoc taken⟩
  rcases List.mem_append.mp member with old | new
  · exact before e' old
  · exact List.mem_singleton.mp new ▸ allowed

/-- Every job task of a worker's run has a run of its own behind it. -/
theorem slots_arise {registry : Registry} {es : List Event}
    (run : Run (Steps (step worker eagerGather)) (init worker registry initial) es w) :
    ∀ slot ∈ w.slots, Arises worker.autoExtend (fun _ => True) slot.task := by
  refine run.invariant (fun w => ∀ slot ∈ w.slots, Arises worker.autoExtend (fun _ => True) slot.task)
    ?_ fun _ member => absurd member List.not_mem_nil
  intro a e b before taken
  exact (slotsMove_of_step taken).all before (fun job => arises_spawned _ _ job)
    (fun _ _ _ _ _ arises next => arises.step trivial next)
    fun _ _ arises => arises.step (e := .cancel) trivial rfl

/-- Every job task of a run is in a phase of its life. -/
theorem slots_phase {registry : Registry} {es : List Event}
    (run : Run (Steps (step worker eagerGather)) (init worker registry initial) es w)
    (slot : Slot) (member : slot ∈ w.slots) : slot.task.Phase worker.autoExtend False := by
  obtain ⟨es', _, history⟩ := slots_arise run slot member
  exact (JobTask.reached_of_run False False.elim history).phase

end SeppPy.Loop
