import SeppPy.Worker.Disposal
import SeppPy.Worker.Loop
import Mathlib.Tactic.Linarith

/-! # Permit accounting

The permits of the semaphore are free, held by the loop, or on loan to a job task whose `_done`
callback has not run. `HoldsAt` says at which `await` the loop holds one, and `Permits` is the
invariant that makes up the account.
-/

namespace SeppPy

namespace Loop

open Machine

/-- The job tasks whose `_done` callback has not run: the `tasks` set. -/
def unreaped (slots : List Slot) : ℕ := slots.countP fun slot => !slot.reaped

/-- The job tasks that have not ended. -/
def unfinished (slots : List Slot) : ℕ := slots.countP fun slot => !decide slot.task.Ended

private theorem unreaped_spawn (slots : List Slot) (job : Job) :
    unreaped (slots ++ [⟨.spawned job, false, false⟩]) = unreaped slots + 1 := by
  simp [unreaped]

private theorem unreaped_cancelTasks (slots : List Slot) :
    unreaped (cancelTasks slots) = unreaped slots := by
  rw [unreaped, cancelTasks, List.countP_map]
  refine List.countP_congr fun slot _ => ?_
  simp only [Function.comp_apply]
  split <;> simp

/-- Replacing a slot changes the count by that slot alone. -/
theorem unreaped_set {slots : List Slot} {i : ℕ} {slot : Slot} (found : slots[i]? = some slot)
    (slot' : Slot) :
    unreaped (slots.set i slot') + (if slot.reaped then 0 else 1) =
      unreaped slots + (if slot'.reaped then 0 else 1) := by
  obtain ⟨bound, at_i⟩ := List.getElem?_eq_some_iff.mp found
  have counted : slot.reaped = false → 0 < unreaped slots := fun kept =>
    List.countP_pos_iff.mpr ⟨slot, List.mem_of_getElem? found, by simp [kept]⟩
  rw [unreaped, List.countP_set bound, at_i]
  simp only [unreaped] at *
  cases before : slot.reaped <;> cases slot'.reaped <;> simp_all

/-- Done callbacks run only after their task has ended. -/
def ReapedEnded (slots : List Slot) : Prop := ∀ slot ∈ slots, slot.reaped = true → slot.task.Ended

namespace ReapedEnded

variable {slots : List Slot}

theorem spawn (reaped_ended : ReapedEnded slots) (job : Job) :
    ReapedEnded (slots ++ [⟨.spawned job, false, false⟩]) := by
  intro slot member reaped
  rcases List.mem_append.mp member with old | new
  · exact reaped_ended slot old reaped
  · obtain rfl := List.mem_singleton.mp new
    contradiction

theorem cancelTasks (reaped_ended : ReapedEnded slots) : ReapedEnded (cancelTasks slots) := by
  intro slot member reaped
  obtain ⟨old, present, rfl⟩ := List.mem_map.mp member
  split at reaped
  · next already => simpa only [already, ↓reduceIte] using reaped_ended old present already
  · next kept => exact absurd reaped kept

theorem set (reaped_ended : ReapedEnded slots) (i : ℕ) {slot : Slot}
    (ended : slot.reaped = true → slot.task.Ended) : ReapedEnded (slots.set i slot) := by
  intro other member reaped
  rcases List.mem_or_eq_of_mem_set member with old | rfl
  · exact reaped_ended other old reaped
  · exact ended reaped

end ReapedEnded

/-- Whether the loop holds a permit at an `await`. -/
def HoldsAt (held : Bool) : Pc → Prop
  | .race r stage =>
    match r.awaitable with
    | .acquire => held = true ∧ r.task = .done (.ok none) ∧ stage ≠ .reapTask ∨
        held = false ∧ ((∃ flag, r.task = .pending flag ∧ (stage = .reapTask → flag = true)) ∨
          ∃ err, r.task = .done (.error err))
    | .reserve _ _ => held = true
    | .sleep _ => held = false
  | .notStarted | .batch _ | .drain _ | .returned => held = false
  | .reap _ | .raised _ => True

/-- The account of the permits, for a run that started with `initial` jobs in flight. -/
structure Permits (worker : Worker) (initial : ℤ) (w : Loop) : Prop where
  balance : (w.free : ℤ) + w.inFlight + (if w.held then 1 else 0) = worker.maxInFlight + initial
  inFlight_eq : w.inFlight = initial + unreaped w.slots
  reaped_ended : ReapedEnded w.slots
  holds : HoldsAt w.held w.pc

variable {worker : Worker} {eagerGather : Bool} {initial : ℤ} {w w' : Loop}

/-! ## Where the loop goes next -/

theorem afterLoop_cases (eagerGather : Bool) (w : Loop) :
    w.afterLoop eagerGather = .returned ∨ ∃ awaited, w.afterLoop eagerGather = .drain awaited := by
  unfold afterLoop
  split
  · exact .inl rfl
  · exact .inr ⟨_, rfl⟩

theorem reapTasks_cases (eagerGather : Bool) (w : Loop) :
    (w.reapTasks eagerGather).pc = .raised .cancelledError ∨
      ∃ awaited, (w.reapTasks eagerGather).pc = .reap awaited := by
  simp only [reapTasks]
  split
  · exact .inl rfl
  · exact .inr ⟨_, rfl⟩

private theorem holdsAt_afterLoop : HoldsAt false (w.afterLoop eagerGather) := by
  rcases afterLoop_cases eagerGather w with at_pc | ⟨awaited, at_pc⟩ <;> rw [at_pc] <;> rfl

private theorem holdsAt_loopHead : HoldsAt false (w.loopHead eagerGather) := by
  unfold loopHead
  split
  · exact holdsAt_afterLoop
  · exact .inr ⟨rfl, .inl ⟨false, rfl, nofun⟩⟩

private theorem holdsAt_nextJob (rest : List Job) : HoldsAt false (w.nextJob eagerGather rest) := by
  unfold nextJob
  split
  · exact holdsAt_loopHead
  · rfl

/-- Cancelling the tasks of a race does not move the permit. -/
theorem holdsAt_cancelAt {held : Bool} {r : Race} {stage stage' : Stage}
    (holds : HoldsAt held (.race r stage))
    (running : stage' = .reapTask → stage = .reapTask ∨ ∃ flag, r.task = .pending flag) :
    HoldsAt held (.race (r.cancelAt stage') stage') := by
  simp only [HoldsAt, Race.awaitable_cancelAt] at holds ⊢
  split
  · next found =>
    rw [found] at holds
    rcases holds with ⟨held, ended, there⟩ | ⟨free, ⟨flag, pending, _⟩ | ⟨err, ended⟩⟩
    · refine .inl ⟨held, Race.task_cancelAt_of_done ended stage', fun here => ?_⟩
      rcases running here with same | ⟨flag, pending⟩
      · exact there same
      · rw [ended] at pending
        contradiction
    · exact .inr ⟨free, .inl (Race.task_cancelAt_of_pending pending stage')⟩
    · exact .inr ⟨free, .inr ⟨err, Race.task_cancelAt_of_done ended stage'⟩⟩
  · next found =>
    rw [found] at holds
    exact holds
  · next found =>
    rw [found] at holds
    exact holds

/-! ## One step -/

namespace Permits

theorem goto (permits : Permits worker initial w) {pc : Pc} (flag : Bool) (past : List Race)
    (holds : HoldsAt w.held pc) : Permits worker initial { w with pc, mustCancel := flag, past } :=
  ⟨permits.balance, permits.inFlight_eq, permits.reaped_ended, holds⟩

theorem release (permits : Permits worker initial w) (held : w.held = true) {pc : Pc}
    (holds : HoldsAt false pc) : Permits worker initial { w.release with pc } where
  balance := by
    have balance := permits.balance
    simp only [held, Loop.release, Nat.cast_add, Nat.cast_one, Bool.false_eq_true, ↓reduceIte] at balance ⊢
    linarith
  inFlight_eq := permits.inFlight_eq
  reaped_ended := permits.reaped_ended
  holds := holds

/-- The permit spent on a job comes from the loop's hand. -/
theorem spawn (permits : Permits worker initial w) (held : w.held = true) (job : Job) {pc : Pc}
    (holds : HoldsAt false pc) : Permits worker initial { w.spawn job with pc } where
  balance := by
    have balance := permits.balance
    simp only [held, Loop.spawn, Bool.false_eq_true, ↓reduceIte] at balance ⊢
    linarith
  inFlight_eq := by
    have inFlight_eq := permits.inFlight_eq
    simp only [Loop.spawn, unreaped_spawn, Nat.cast_add, Nat.cast_one]
    linarith
  reaped_ended := permits.reaped_ended.spawn job
  holds := holds

theorem cancelTasks (permits : Permits worker initial w) {pc : Pc} (flag : Bool)
    (holds : HoldsAt w.held pc) :
    Permits worker initial
      { w with slots := Loop.cancelTasks w.slots, pc, mustCancel := flag } where
  balance := permits.balance
  inFlight_eq := by
    rw [unreaped_cancelTasks]
    exact permits.inFlight_eq
  reaped_ended := permits.reaped_ended.cancelTasks
  holds := holds

theorem raiseInBody (permits : Permits worker initial w) (err : PyError) :
    Permits worker initial (w.raiseInBody eagerGather err) := by
  unfold Loop.raiseInBody
  split
  · refine permits.cancelTasks false ?_
    split <;> trivial
  · exact permits.goto w.mustCancel w.past trivial

theorem onReserved (permits : Permits worker initial w) (held : w.held = true)
    (opts : ReserveOptions) (elapsed : Timedelta)
    (result : Except PyError (Option (List Job))) :
    Permits worker initial (w.onReserved worker eagerGather opts elapsed result) := by
  unfold Loop.onReserved
  split
  · refine permits.release held ?_
    split
    · rfl
    · exact holdsAt_loopHead
  · exact permits.raiseInBody _
  · exact permits.spawn held _ (holdsAt_nextJob _)
  · exact permits.release held rfl
  · exact permits.raiseInBody _

theorem closeRace (permits : Permits worker initial w) (r : Race) :
    Permits worker initial (w.closeRace r) := permits.goto w.mustCancel _ permits.holds

theorem onResult {r : Race} {stage : Stage} (permits : Permits worker initial w)
    (at_pc : w.pc = .race r stage) {result : Except PyError (Option (List Job))}
    (done : r.task = .done result) (monotonic : ℤ) :
    Permits worker initial (w.onResult worker eagerGather monotonic r.awaitable result) := by
  have holds := permits.holds
  rw [at_pc] at holds
  simp only [HoldsAt, done] at holds
  unfold Loop.onResult
  split
  · next found =>
    rw [found] at holds
    exact permits.onReserved holds _ _ _
  · exact permits.raiseInBody _
  · next found =>
    have held : w.held = true := by
      simp only [found] at holds
      simp_all
    split
    · exact permits.goto w.mustCancel w.past held
    · exact permits.raiseInBody _
  · next other found _ _ =>
    have free : w.held = false := by
      cases awaitable : r.awaitable <;> simp_all
    exact permits.goto w.mustCancel w.past (free ▸ holdsAt_loopHead)

theorem onShutdown {r : Race} (permits : Permits worker initial w)
    (at_pc : w.pc = .race r .reapTask) :
    Permits worker initial (w.onShutdown eagerGather r.awaitable) := by
  have holds := permits.holds
  rw [at_pc] at holds
  unfold Loop.onShutdown
  cases found : r.awaitable with
  | reserve opts started =>
    simp only [HoldsAt, found] at holds
    exact permits.release holds holdsAt_afterLoop
  | acquire | sleep =>
    have free : w.held = false := by simp_all [HoldsAt]
    exact permits.goto w.mustCancel w.past (free ▸ holdsAt_afterLoop)

theorem resumeRace {r : Race} {stage : Stage} (permits : Permits worker initial w)
    (at_pc : w.pc = .race r stage) {monotonic : ℤ}
    (resumed : RaceResumes worker eagerGather monotonic w r stage w') :
    Permits worker initial w' := by
  have holds := permits.holds
  rw [at_pc] at holds
  have closed := permits.closeRace r
  cases resumed with
  | cancelled flagged => exact permits.goto false w.past (holdsAt_cancelAt holds nofun)
  | shutdownWins calm running signalled =>
    exact permits.goto w.mustCancel w.past (holdsAt_cancelAt holds fun _ => .inr running)
  | taskWins calm ended unsignalled =>
    exact permits.goto w.mustCancel w.past (holdsAt_cancelAt holds nofun)
  | result calm ended signalled here => exact closed.onResult at_pc ended monotonic
  | shutdown calm ended => exact closed.onShutdown at_pc
  | raises ended signalled here => exact closed.raiseInBody _

/-- An `acquire` takes a free permit. -/
theorem acquire (permits : Permits worker initial w) (free : w.held = false)
    (available : w.free ≠ 0) {pc : Pc} (holds : HoldsAt true pc) :
    Permits worker initial { w with pc, free := w.free - 1, held := true } where
  balance := by
    have balance := permits.balance
    have positive : 1 ≤ w.free := Nat.one_le_iff_ne_zero.mpr available
    simp only [free, Bool.false_eq_true, ↓reduceIte] at balance ⊢
    push_cast [positive]
    linarith
  inFlight_eq := permits.inFlight_eq
  reaped_ended := permits.reaped_ended
  holds := holds

theorem resume {monotonic : ℤ} (permits : Permits worker initial w)
    (resumed : Resumes worker eagerGather monotonic w w') : Permits worker initial w' := by
  have holds := permits.holds
  cases resumed with
  | starts at_pc =>
    rw [at_pc] at holds
    exact permits.goto w.mustCancel w.past (holds ▸ holdsAt_loopHead)
  | neverStarts | reaped | drainRaises => exact permits.goto w.mustCancel w.past trivial
  | races at_pc resumed => exact permits.resumeRace at_pc resumed
  | batchRaises => exact permits.raiseInBody _
  | @batchSpawns job rest at_pc calm available =>
    rw [at_pc] at holds
    have taken : Permits worker initial
        { w with pc := .reap [], free := w.free - 1, held := true } :=
      permits.acquire holds available trivial
    exact taken.spawn rfl job (holdsAt_nextJob rest)
  | drained at_pc =>
    rw [at_pc] at holds
    exact permits.goto w.mustCancel w.past holds

theorem cancel (permits : Permits worker initial w) : Permits worker initial w.cancel := by
  have holds := permits.holds
  unfold Loop.cancel
  split
  · next at_pc => exact permits.goto true w.past holds
  · next at_pc =>
    rw [at_pc] at holds
    exact permits.goto true w.past (holdsAt_cancelAt holds .inl)
  · exact permits.goto true w.past holds
  · exact permits.cancelTasks true holds
  · exact permits.cancelTasks true holds
  · exact permits
  · exact permits

/-- Of the children of a race only an `acquire` moves a permit. -/
theorem child {e : Event} (permits : Permits worker initial w) (moved : ChildMoves w e w') :
    Permits worker initial w' := by
  have holds := permits.holds
  cases moved with
  | @acquires r stage at_pc awaitable running available =>
    rw [at_pc] at holds
    obtain ⟨free, early⟩ : w.held = false ∧ stage ≠ .reapTask := by
      simpa [HoldsAt, awaitable, running] using holds
    refine permits.acquire free available ?_
    simp only [HoldsAt, awaitable]
    exact .inl ⟨trivial, trivial, early⟩
  | @cancelled r stage at_pc other running =>
    rw [at_pc] at holds
    refine permits.goto w.mustCancel w.past ?_
    cases found : r.awaitable with
    | reserve opts started => exact absurd found (other opts started)
    | acquire =>
      have free : w.held = false := by
        simp only [HoldsAt, found, running] at holds
        simp_all
      simp only [HoldsAt]
      exact .inr ⟨free, .inr ⟨_, rfl⟩⟩
    | sleep => simpa only [HoldsAt, found] using holds
  | @sleeps r stage at_pc other backoff running =>
    rw [at_pc] at holds
    refine permits.goto w.mustCancel w.past ?_
    cases found : r.awaitable with
    | reserve opts started => exact absurd found (other opts started)
    | acquire => exact absurd found backoff
    | sleep => simpa only [HoldsAt, found] using holds
  | reserves result at_pc awaitable running =>
    rw [at_pc] at holds
    refine permits.goto w.mustCancel w.past ?_
    simp only [HoldsAt, awaitable] at holds ⊢
    exact holds
  | signalled at_pc =>
    rw [at_pc] at holds
    exact permits.goto w.mustCancel w.past holds

/-- Every step keeps the account. -/
theorem step {e : Event} (permits : Permits worker initial w)
    (taken : w.step worker eagerGather e = some w') : Permits worker initial w' := by
  cases moves_of_step taken with
  | shutdown | register =>
    exact ⟨permits.balance, permits.inFlight_eq, permits.reaped_ended, permits.holds⟩
  | cancel => exact permits.cancel
  | child moved => exact permits.child moved
  | resume monotonic resumed => exact permits.resume resumed
  | @job i e slot task sees found next =>
    refine ⟨permits.balance, ?_, permits.reaped_ended.set i fun reaped => ?_, permits.holds⟩
    · have same := unreaped_set found { slot with task }
      rw [permits.inFlight_eq, Nat.add_right_cancel same]
    · exact JobTask.ended_step (permits.reaped_ended slot (List.mem_of_getElem? found) reaped) next
  | @taskDone i slot found ended kept =>
    have count := unreaped_set found { slot with reaped := true }
    simp only [kept, Bool.false_eq_true, ↓reduceIte, Nat.add_zero] at count
    refine ⟨?_, ?_, permits.reaped_ended.set i fun _ => ended, permits.holds⟩
    · have balance := permits.balance
      push_cast
      linarith
    · have inFlight_eq := permits.inFlight_eq
      have count' : (unreaped w.slots : ℤ) =
          unreaped (w.slots.set i { slot with reaped := true }) + 1 := by
        exact_mod_cast count.symm
      linarith

theorem start (worker : Worker) (registry : Registry) (initial : ℤ) :
    Permits worker initial (init worker registry initial) where
  balance := by
    have positive := worker.maxInFlightPositive
    simp only [init, Bool.false_eq_true, ↓reduceIte]
    omega
  inFlight_eq := by simp [init, unreaped]
  reaped_ended _ member := absurd member List.not_mem_nil
  holds := rfl

theorem of_run {registry : Registry} {es : List Event}
    (run : Run (Steps (Loop.step worker eagerGather)) (init worker registry initial) es w) :
    Permits worker initial w :=
  run.invariant (Permits worker initial) (fun permits taken => permits.step taken)
    (start worker registry initial)

end Permits

/-- Unfinished job tasks are in the `tasks` set. -/
theorem unfinished_le_unreaped {slots : List Slot} (reaped_ended : ReapedEnded slots) :
    unfinished slots ≤ unreaped slots := by
  refine List.countP_mono_left fun slot member running => ?_
  cases reaped : slot.reaped with
  | false => rfl
  | true => simp [reaped_ended slot member reaped] at running

/-- From the start of a single run, in every state: the free permits, the jobs in flight and the
permit held by the loop make up `max(1, max_in_flight)`, in flight is every job task whose callback
has not run, and no more job tasks than that are unfinished. -/
theorem permits_balanced (defaultWorkerId : String) (args : WorkerArgs) (worker : Worker)
    (made : Worker.init defaultWorkerId args = .ok worker) (eagerGather : Bool)
    (registry : Registry) (es : List Event) (w : Loop)
    (run : Run (Steps (step worker eagerGather)) (init worker registry 0) es w) :
    (w.free : ℤ) + w.inFlight + (if w.held then 1 else 0) = max 1 args.maxInFlight ∧
      w.inFlight = unreaped w.slots ∧ unfinished w.slots ≤ unreaped w.slots ∧
      (unfinished w.slots : ℤ) ≤ max 1 args.maxInFlight := by
  have permits := Permits.of_run run
  have balance := permits.balance
  rw [Worker.maxInFlight_of_init made, add_zero] at balance
  have inFlight_eq := permits.inFlight_eq
  rw [zero_add] at inFlight_eq
  have fewer := unfinished_le_unreaped permits.reaped_ended
  refine ⟨balance, inFlight_eq, fewer, ?_⟩
  have below : (unfinished w.slots : ℤ) ≤ unreaped w.slots := Int.ofNat_le.mpr fewer
  have nonneg : (0 : ℤ) ≤ if w.held then 1 else 0 := by split <;> decide
  linarith [Int.natCast_nonneg w.free]

/-- The worker starts and a reserve call answers with these jobs. -/
def reserved (jobs : List Job) : List Event :=
  [.resume 0, .waitEnds, .resume 0, .shutdownWaitEnds, .resume 0,
    .reserveEnds (.ok (some jobs)), .resume 0, .shutdownWaitEnds, .resume 0]

/-- Of two jobs the first has taken the only permit, and the second waits for it. -/
theorem permits_balanced_pair :
    ∃ w, Run (Steps (step .sole true)) (init .sole {} 0)
        (reserved [JobTask.emailJob, JobTask.emailJob]) w ∧
      w.pc = .batch [JobTask.emailJob] ∧
      (w.free : ℤ) + w.inFlight + (if w.held then 1 else 0) = max 1 Worker.soleArgs.maxInFlight ∧
      w.inFlight = unreaped w.slots ∧ unfinished w.slots ≤ unreaped w.slots ∧
      (unfinished w.slots : ℤ) ≤ max 1 Worker.soleArgs.maxInFlight := by
  obtain ⟨w, found, at_pc⟩ : ∃ w, run? (step .sole true) (init .sole {} 0)
      (reserved [JobTask.emailJob, JobTask.emailJob]) = some w ∧
      w.pc = .batch [JobTask.emailJob] := ⟨_, rfl, rfl⟩
  have run := (run?_eq_some_iff _ _ _ _).mp found
  exact ⟨w, run, at_pc, permits_balanced "worker" Worker.soleArgs .sole rfl true {} _ w run⟩

end Loop

end SeppPy
