import SeppPy.Worker.Slots

/-! # Graceful shutdown

`delivered` observes the jobs of each reserve call that is complete when `_or_shutdown` resumes.
In a graceful run these are, in order, the jobs spawned so far followed by those that the loop
still holds, so that nothing is left over when `run()` returns. By then every job task has ended
and, once their callbacks have run, all permits are back.
-/

namespace SeppPy.Loop

open Machine

variable {worker : Worker} {eagerGather : Bool} {initial : ℤ} {w w' : Loop}

/-- The jobs a race brings in. -/
def jobsOf : Awaitable → Except PyError (Option (List Job)) → List Job
  | .reserve _ _, .ok (some jobs) => jobs
  | _, _ => []

/-- The jobs of a reserve call that is complete when `_or_shutdown` resumes from its wait. -/
def delivered (w : Loop) : Event → List Job
  | .resume _ =>
    match w.pc with
    | .race r .waiting =>
      match r.task with
      | .done result => jobsOf r.awaitable result
      | .pending _ => []
    | _ => []
  | _ => []

/-- A reserve call ends with `None`, with jobs or with a `SeppError`. -/
def Orderly : Except PyError (Option (List Job)) → Prop
  | .ok none => True
  | .ok (some jobs) => jobs ≠ []
  | .error err => err.isSeppError = true

/-- Nobody cancels `run()`, and a reserve call ends orderly unless the loop has cancelled it. -/
def Graceful (w : Loop) : Event → Prop
  | .cancel => False
  | .reserveEnds result =>
    Orderly result ∨ ∃ r stage, w.pc = .race r stage ∧ r.task = .pending true
  | _ => True

/-- What a race that was not cancelled can end with. -/
def Proper : Awaitable → Except PyError (Option (List Job)) → Prop
  | .reserve _ _, result => Orderly result
  | _, result => result = .ok none

/-- The jobs seen so far are those spawned and those still held by the loop. -/
def Accounts (slots : List Slot) (seen : List Job) : Pc → Prop
  | .notStarted | .drain _ | .returned | .race _ .reapTask => seen = spawnedJobs slots
  | .race r .waiting => seen = spawnedJobs slots ∧
      (r.task = .pending false ∨ ∃ result, r.task = .done result ∧ Proper r.awaitable result)
  | .race r .reapShutdownWait => ∃ result, r.task = .done result ∧ Proper r.awaitable result ∧
      seen = spawnedJobs slots ++ jobsOf r.awaitable result
  | .batch rest => seen = spawnedJobs slots ++ rest
  | .race _ .reapBoth | .reap _ | .raised _ => False

/-- The account of a graceful run. -/
structure Delivery (w : Loop) (seen : List Job) : Prop where
  calm : w.mustCancel = false
  accounts : Accounts w.slots seen w.pc

private theorem accounts_afterLoop {seen : List Job} (all : seen = spawnedJobs w.slots) :
    Accounts w.slots seen (w.afterLoop eagerGather) := by
  rcases afterLoop_cases eagerGather w with at_pc | ⟨awaited, at_pc⟩ <;> rw [at_pc] <;> exact all

private theorem accounts_loopHead {seen : List Job} (all : seen = spawnedJobs w.slots) :
    Accounts w.slots seen (w.loopHead eagerGather) := by
  unfold loopHead
  split
  · exact accounts_afterLoop all
  · exact ⟨all, .inl rfl⟩

private theorem accounts_nextJob {seen rest : List Job} (all : seen = spawnedJobs w.slots ++ rest) :
    Accounts w.slots seen (w.nextJob eagerGather rest) := by
  unfold nextJob
  split
  · exact accounts_loopHead (all.trans (List.append_nil _))
  · exact all

/-- A job leaves the batch as it is spawned. -/
theorem delivery_spawn {job : Job} {rest : List Job} (calm : w.mustCancel = false) :
    Delivery { w.spawn job with pc := (w.spawn job).nextJob eagerGather rest }
      (spawnedJobs w.slots ++ job :: rest) := by
  refine ⟨calm, accounts_nextJob (w := w.spawn job) ?_⟩
  rw [spawn, spawnedJobs_spawn, List.append_assoc, List.singleton_append]

private theorem delivery_onReserved {result : Except PyError (Option (List Job))}
    (calm : w.mustCancel = false) (opts : ReserveOptions) (started : ℤ) (elapsed : Timedelta)
    (orderly : Orderly result) :
    Delivery (w.onReserved worker eagerGather opts elapsed result)
      (spawnedJobs w.slots ++ jobsOf (.reserve opts started) result) := by
  have nothing {pc : Pc} {slots : List Slot} (accounts : Accounts slots (spawnedJobs w.slots) pc) :
      Accounts slots (spawnedJobs w.slots ++ []) pc := by rwa [List.append_nil]
  unfold onReserved
  split
  · refine ⟨calm, nothing ?_⟩
    dsimp only
    split
    · exact ⟨rfl, .inl rfl⟩
    · exact accounts_loopHead (w := w.release) rfl
  · exact absurd rfl orderly
  · exact delivery_spawn calm
  · exact ⟨calm, nothing ⟨rfl, .inl rfl⟩⟩
  · next err other =>
    cases err with
    | sepp err => exact absurd rfl (other err)
    | _ => cases orderly

private theorem delivery_onResult {awaitable : Awaitable}
    {result : Except PyError (Option (List Job))}
    (calm : w.mustCancel = false) (monotonic : ℤ) (proper : Proper awaitable result) :
    Delivery (w.onResult worker eagerGather monotonic awaitable result)
      (spawnedJobs w.slots ++ jobsOf awaitable result) := by
  cases awaitable with
  | reserve opts started => exact delivery_onReserved calm opts started _ proper
  | acquire =>
    obtain rfl : result = .ok none := proper
    obtain ⟨opts, _, built, _⟩ := worker.exists_reserveOptsWithCapacity w.inFlight
    simp only [onResult, built, jobsOf, List.append_nil]
    exact ⟨calm, rfl, .inl rfl⟩
  | sleep =>
    obtain rfl : result = .ok none := proper
    simp only [onResult, jobsOf, List.append_nil]
    exact ⟨calm, accounts_loopHead rfl⟩

private theorem delivery_onShutdown (calm : w.mustCancel = false) (awaitable : Awaitable) :
    Delivery (w.onShutdown eagerGather awaitable) (spawnedJobs w.slots) := by
  cases awaitable with
  | reserve opts started => exact ⟨calm, accounts_afterLoop (w := w.release) rfl⟩
  | acquire | sleep => exact ⟨calm, accounts_afterLoop rfl⟩

/-- Resuming `run()` moves what it brings in from the race to the batch and from there to a job
task. -/
theorem delivery_resume {monotonic : ℤ} {seen : List Job} (delivery : Delivery w seen)
    (resumed : Resumes worker eagerGather monotonic w w') :
    Delivery w' (seen ++ delivered w (.resume monotonic)) := by
  obtain ⟨calm, accounts⟩ := delivery
  have unflagged (flagged : w.mustCancel = true) : False :=
    Bool.false_ne_true (calm.symm.trans flagged)
  cases resumed with
  | starts at_pc =>
    simp only [at_pc, Accounts] at accounts
    simp only [delivered, at_pc, List.append_nil]
    exact ⟨calm, accounts_loopHead accounts⟩
  | neverStarts _ flagged | batchRaises _ flagged | drainRaises _ _ flagged =>
    exact (unflagged flagged).elim
  | @races r stage _ at_pc resumed =>
    rw [at_pc] at accounts
    cases resumed with
    | cancelled flagged => exact (unflagged flagged).elim
    | shutdownWins _ running signalled =>
      obtain ⟨flag, running⟩ := running
      simp only [delivered, at_pc, running, List.append_nil]
      exact ⟨calm, accounts.1⟩
    | taskWins _ ended unsignalled =>
      obtain ⟨result, ended⟩ := ended
      simp only [delivered, at_pc, ended]
      obtain ⟨rfl, running | ⟨result', ended', proper⟩⟩ := accounts
      · rw [ended] at running
        contradiction
      · obtain rfl : result = result' := RaceTask.done.inj (ended.symm.trans ended')
        exact ⟨calm, result, Race.task_cancelAt_of_done ended _, by simpa using proper, by simp⟩
    | @result _ result _ ended signalled here =>
      rcases here with rfl | rfl
      · obtain ⟨rfl, running | ⟨result', ended', proper⟩⟩ := accounts
        · rw [ended] at running
          contradiction
        · obtain rfl : result = result' := RaceTask.done.inj (ended.symm.trans ended')
          simp only [delivered, at_pc, ended]
          exact delivery_onResult (w := w.closeRace r) calm monotonic proper
      · obtain ⟨result', ended', proper, rfl⟩ := accounts
        obtain rfl : result = result' := RaceTask.done.inj (ended.symm.trans ended')
        simp only [delivered, at_pc, List.append_nil]
        exact delivery_onResult (w := w.closeRace r) calm monotonic proper
    | shutdown _ ended =>
      obtain rfl : seen = spawnedJobs w.slots := accounts
      simp only [delivered, at_pc, List.append_nil]
      exact delivery_onShutdown (w := w.closeRace r) calm _
    | raises ended signalled here =>
      rcases here with rfl | ⟨flagged, _⟩
      · exact accounts.elim
      · exact (unflagged flagged).elim
  | @batchSpawns job rest at_pc =>
    rw [at_pc] at accounts
    obtain rfl : seen = spawnedJobs w.slots ++ job :: rest := accounts
    simp only [delivered, at_pc, List.append_nil]
    exact delivery_spawn (w := { w with free := w.free - 1 }) calm
  | reaped at_pc =>
    rw [at_pc] at accounts
    exact accounts.elim
  | drained at_pc =>
    rw [at_pc] at accounts
    simp only [delivered, at_pc, List.append_nil]
    exact ⟨calm, accounts⟩

/-- The raced task ends with a proper result unless it was cancelled. -/
theorem accounts_child {e : Event} {seen : List Job} (accounts : Accounts w.slots seen w.pc)
    (graceful : Graceful w e) (moves : RaceMoves w e w') : Accounts w'.slots seen w'.pc := by
  obtain ⟨r, r', stage, at_pc, at_pc', advances⟩ := moves.races
  rw [at_pc] at accounts
  rw [at_pc', moves.slots]
  cases stage with
  | waiting =>
    obtain ⟨all, state⟩ := accounts
    refine ⟨all, ?_⟩
    rw [advances.awaitable]
    refine advances.task_of_uncancelled state ?_
    intro result running ends
    cases found : r.awaitable with
    | reserve opts started =>
      rw [found] at ends
      obtain rfl : e = .reserveEnds result := ends
      rcases graceful with orderly | ⟨r', stage', at_race, cancelled⟩
      · exact orderly
      · obtain ⟨rfl, rfl⟩ := Pc.race.inj (at_pc.symm.trans at_race)
        rw [running] at cancelled
        contradiction
    | acquire | sleep =>
      rw [found] at ends
      exact ends
  | reapBoth => exact accounts.elim
  | reapTask => exact accounts
  | reapShutdownWait =>
    obtain ⟨result, ended, proper, all⟩ := accounts
    rw [← advances.awaitable] at proper all
    exact ⟨result, advances.task_of_done ended, proper, all⟩

/-- Job tasks keep their jobs, so that steps of theirs do not touch the account. -/
theorem accounts_congr {slots slots' : List Slot} {seen : List Job} {pc : Pc}
    (same : spawnedJobs slots' = spawnedJobs slots) (accounts : Accounts slots seen pc) :
    Accounts slots' seen pc := by
  unfold Accounts at accounts ⊢
  rw [same]
  exact accounts

private theorem delivery_step {e : Event} {seen : List Job} (delivery : Delivery w seen)
    (taken : Guarded (Steps (step worker eagerGather)) Graceful w e w') :
    Delivery w' (seen ++ delivered w e) := by
  obtain ⟨taken, graceful⟩ := taken
  obtain ⟨calm, accounts⟩ := delivery
  have quiet (calm : w'.mustCancel = false) (accounts : Accounts w'.slots seen w'.pc)
      (nothing : delivered w e = []) : Delivery w' (seen ++ delivered w e) := by
    rw [nothing, List.append_nil]
    exact ⟨calm, accounts⟩
  cases moves_of_step taken with
  | shutdown | register => exact quiet calm accounts rfl
  | cancel => exact graceful.elim
  | child moved =>
    have moves := moved.raceMoves
    refine quiet (moves.mustCancel.trans calm) (accounts_child accounts graceful moves) ?_
    cases moved <;> rfl
  | resume monotonic resumed => exact delivery_resume ⟨calm, accounts⟩ resumed
  | job i e sees found next =>
    exact quiet calm (accounts_congr (spawnedJobs_set found (JobTask.job_step next)) accounts) rfl
  | taskDone i found => exact quiet calm (accounts_congr (spawnedJobs_set found rfl) accounts) rfl

/-- In a graceful run the jobs delivered so far are those spawned and those still held. -/
theorem delivery_of_run {registry : Registry} {es : List Event}
    (run : Run (Guarded (Steps (step worker eagerGather)) Graceful)
      (init worker registry initial) es w) :
    Delivery w (collect (step worker eagerGather) delivered (init worker registry initial) es) := by
  have all := run.collect_invariant Delivery (fun delivery taken => delivery_step delivery taken)
    (⟨rfl, rfl⟩ : Delivery (init worker registry initial) [])
  rwa [List.nil_append] at all

/-- What the spawned jobs are of those delivered. -/
theorem spawned_of_accounts {slots : List Slot} {seen : List Job} {pc : Pc}
    (accounts : Accounts slots seen pc) : spawnedJobs slots <+: seen := by
  unfold Accounts at accounts
  split at accounts
  · exact accounts ▸ List.prefix_rfl
  · exact accounts ▸ List.prefix_rfl
  · exact accounts ▸ List.prefix_rfl
  · exact accounts ▸ List.prefix_rfl
  · exact accounts.1 ▸ List.prefix_rfl
  · obtain ⟨result, _, _, rfl⟩ := accounts
    exact List.prefix_append _ _
  · exact accounts ▸ List.prefix_append _ _
  · exact accounts.elim
  · exact accounts.elim
  · exact accounts.elim

/-- A graceful shutdown loses no delivered job: at any moment the jobs spawned are the first of
those delivered, and when `run()` returns they are all of them, every job task has ended, and the
permits and `_in_flight` are back but for the tasks whose `_done` callback is still to run. Where
`gather` waits for all callbacks there are none of these. -/
theorem shutdown_loses_no_job (worker : Worker) (eagerGather : Bool) (registry : Registry)
    (initial : ℤ) (es : List Event) (w : Loop)
    (run : Run (Guarded (Steps (step worker eagerGather)) Graceful)
      (init worker registry initial) es w) :
    let jobs := collect (step worker eagerGather) delivered (init worker registry initial) es
    spawnedJobs w.slots <+: jobs ∧
      (w.pc = .returned →
        spawnedJobs w.slots = jobs ∧ (∀ slot ∈ w.slots, slot.task.Ended) ∧
          w.inFlight = initial + unreaped w.slots ∧
          (w.free : ℤ) + unreaped w.slots = worker.maxInFlight ∧
          (eagerGather = false → unreaped w.slots = 0)) := by
  have delivery := delivery_of_run run
  have permits := Permits.of_run run.unguarded
  have covers := covers_of_run run.unguarded
  refine ⟨spawned_of_accounts delivery.accounts, fun returned => ?_⟩
  have accounts := delivery.accounts
  have holds := permits.holds
  rw [returned] at accounts covers holds
  have free : w.held = false := holds
  have balance := permits.balance
  simp only [free, Bool.false_eq_true, ↓reduceIte, permits.inFlight_eq] at balance
  refine ⟨accounts.symm, fun slot member => (covers slot member).1, permits.inFlight_eq,
    by linarith, fun lazy => ?_⟩
  refine List.countP_eq_zero.mpr fun slot member => ?_
  simp [(covers slot member).2 lazy]

/-- When a graceful run returns, no job task is left in the set, `_in_flight` is what it was at the
start and all permits are free. -/
def ReturnsIdle (worker : Worker) (eagerGather : Bool) (registry : Registry) (initial : ℤ) : Prop :=
  ∀ es w, Run (Guarded (Steps (step worker eagerGather)) Graceful) (init worker registry initial) es w →
    w.pc = .returned → unreaped w.slots = 0 ∧ w.inFlight = initial ∧ (w.free : ℤ) = worker.maxInFlight

/-- The only job ends in the very step in which the loop, reaped of its `acquire`, comes to its
drain. -/
def endsAtDrain : List Event :=
  reserved [JobTask.emailJob] ++
    [.job 0 (.start JobTask.catchAllOnly .awaitable), .job 0 (.handlerEnds .returned), .shutdown,
      .shutdownWaitEnds, .resume 0, .waitEnds, .job 0 (.callEnds (.ok ())), .resume 0]

private theorem graceful_endsAtDrain (w : Loop) (e : Event)
    (member : e ∈ endsAtDrain) : Graceful w e := by
  simp only [endsAtDrain, reserved, List.cons_append, List.nil_append, List.mem_cons,
    List.not_mem_nil, or_false] at member
  rcases member with rfl | rfl | rfl | rfl | rfl | rfl | rfl | rfl | rfl | rfl | rfl | rfl | rfl |
    rfl | rfl | rfl | rfl
  all_goals first | trivial | exact .inl (List.cons_ne_nil _ _)

/-- A `gather` that does not wait for tasks already done lets `run()` return before the `_done`
callback of the job has run. -/
theorem returns_before_callback : ¬ ReturnsIdle .sole true JobTask.catchAllOnly 0 := by
  intro idle
  obtain ⟨w, found, returned, busy⟩ : ∃ w, run? (step .sole true)
      (init .sole JobTask.catchAllOnly 0) endsAtDrain = some w ∧ w.pc = .returned ∧
      w.inFlight = 1 := ⟨_, rfl, rfl, rfl⟩
  have run := ((run?_eq_some_iff _ _ _ _).mp found).guard graceful_endsAtDrain
  have zero := (idle _ w run returned).2.1
  rw [busy] at zero
  contradiction

/-- Another job of the same batch. -/
def secondJob : Job :=
  { JobTask.emailJob with ctx := { JobTask.emailJob.ctx with id := "second" } }

/-- The reserve call answers with two jobs in the very step of the shutdown signal, and the second
job waits in `sem.acquire()` until the first is done. -/
def tiedBatch : List Event :=
  [.resume 0, .waitEnds, .resume 0, .shutdownWaitEnds, .resume 0,
    .reserveEnds (.ok (some [JobTask.emailJob, secondJob])), .shutdown, .shutdownWaitEnds, .resume 0,
    .job 0 (.start JobTask.catchAllOnly .awaitable), .job 0 (.handlerEnds .returned),
    .job 0 (.callEnds (.ok ())), .taskDone 0, .resume 0,
    .job 1 (.start JobTask.catchAllOnly .awaitable), .job 1 (.handlerEnds .returned),
    .job 1 (.callEnds (.ok ())), .taskDone 1, .resume 0]

/-- Both jobs of the batch are spawned and done when `run()` returns, and the permit is back. -/
theorem shutdown_loses_no_job_tied :
    ∃ w, Run (Guarded (Steps (step .sole false)) Graceful) (init .sole JobTask.catchAllOnly 0)
        tiedBatch w ∧
      w.pc = .returned ∧ spawnedJobs w.slots = [JobTask.emailJob, secondJob] ∧ w.inFlight = 0 ∧
      (w.free : ℤ) = 1 := by
  obtain ⟨w, found, returned⟩ : ∃ w, run? (step .sole false) (init .sole JobTask.catchAllOnly 0)
      tiedBatch = some w ∧ w.pc = .returned := ⟨_, rfl, rfl⟩
  have run : Run (Guarded (Steps (step .sole false)) Graceful)
      (init .sole JobTask.catchAllOnly 0) tiedBatch w := by
    refine ((run?_eq_some_iff _ _ _ _).mp found).guard fun w e member => ?_
    cases e with
    | reserveEnds result =>
      obtain rfl : result = .ok (some [JobTask.emailJob, secondJob]) := by
        simpa [tiedBatch] using member
      exact .inl (List.cons_ne_nil _ _)
    | cancel => simp [tiedBatch] at member
    | _ => trivial
  obtain ⟨spawned, _, inFlight, free, none⟩ :=
    (shutdown_loses_no_job .sole false JobTask.catchAllOnly 0 _ w run).2 returned
  rw [none rfl] at inFlight free
  exact ⟨w, run, returned, spawned.trans rfl, inFlight, free⟩

end SeppPy.Loop
