import SeppPy.Worker.Cancellation

/-! # One race after another

`run()` is a chain of races: for a permit, for the answer of a reserve call, and for the end of a
backoff, each against the shutdown signal. Whenever `run()` resumes it stays in its race, starts the
next one, goes on with a batch, or leaves the loop. `Turns` says which, and what it takes for a
reserve call to be started or a batch to be taken up.
-/

namespace SeppPy

/-- Cancelling a race ends neither of its tasks. -/
theorem Race.task_of_cancelAt {r : Race} {stage : Stage}
    {result : Except PyError (Option (List Job))} (ended : (r.cancelAt stage).task = .done result) :
    r.task = .done result := by
  cases running : r.task with
  | done result' => rwa [task_cancelAt_of_done running] at ended
  | pending flag =>
    obtain ⟨flag', pending, _⟩ := task_cancelAt_of_pending running stage
    rw [ended] at pending
    contradiction

namespace Loop

open Machine

variable {worker : Worker} {eagerGather : Bool} {initial : ℤ} {monotonic : ℤ} {w w' : Loop}

/-- The race that is being run. -/
def current (w : Loop) : List Race :=
  match w.pc with
  | .race r _ => [r]
  | _ => []

/-- All the races so far, in order. -/
def races (w : Loop) : List Race := w.past ++ w.current

/-- The races after a step that ends the race being run. -/
def Closed (w w' : Loop) : Prop := w'.past = w.races

/-- `_or_shutdown(sem.acquire())` returns the permit. -/
def AcquireWins (w : Loop) : Prop :=
  w.mustCancel = false ∧ ∃ r stage value, w.pc = .race r stage ∧ r.awaitable = .acquire ∧
    r.task = .done (.ok value) ∧ r.shutdownWait = .done ∧
    (stage = .waiting ∨ stage = .reapShutdownWait)

/-- The raced task has ended with a batch of jobs. -/
def Brings (w : Loop) (jobs : List Job) : Prop :=
  ∃ r stage opts started, w.pc = .race r stage ∧ r.awaitable = .reserve opts started ∧
    r.task = .done (.ok (some jobs))

/-- What it takes to start a race. -/
def Opens (worker : Worker) (monotonic : ℤ) (w : Loop) : Awaitable → Prop
  | .acquire => w.shutdown = false
  | .reserve opts started => w.AcquireWins ∧ started = monotonic ∧
      worker.reserveOptsWithCapacity w.inFlight = .ok opts
  | .sleep _ => True

/-- Where `run()` is after it has resumed. -/
inductive Turns (worker : Worker) (monotonic : ℤ) (w w' : Loop) : Prop
  | stays {r : Race} {stage stage' : Stage} (at_pc : w.pc = .race r stage)
      (at_pc' : w'.pc = .race (r.cancelAt stage') stage') (past : w'.past = w.past)
      (free : w'.free = w.free)
  | opens {awaitable : Awaitable} (at_pc' : w'.pc = startRace awaitable) (closed : Closed w w')
      (why : Opens worker monotonic w awaitable)
      (free : ∀ opts started, awaitable = .reserve opts started → w'.free = w.free)
  | batches {rest : List Job} (at_pc' : w'.pc = .batch rest) (closed : Closed w w')
      (calm : w'.mustCancel = false)
      (why : (∃ job, w.Brings (job :: rest) ∧ w'.free = w.free) ∨
        ∃ job, w.pc = .batch (job :: rest) ∧ w.free = w'.free + 1)
  | leaves (out : w'.current = []) (off : ∀ rest, w'.pc ≠ .batch rest) (closed : Closed w w')

namespace Turns

private theorem of_afterLoop (closed : Closed w w') {v : Loop}
    (at_pc' : w'.pc = v.afterLoop eagerGather) : Turns worker monotonic w w' := by
  rcases afterLoop_cases eagerGather v with found | ⟨awaited, found⟩
  all_goals
    rw [found] at at_pc'
    exact .leaves (by simp only [current, at_pc']) (by simp [at_pc']) closed

/-- The head of the loop starts an `acquire` unless shutdown was signalled. -/
theorem of_loopHead (closed : Closed w w') {v : Loop} (same : v.shutdown = w.shutdown)
    (at_pc' : w'.pc = v.loopHead eagerGather) : Turns worker monotonic w w' := by
  unfold loopHead at at_pc'
  split at at_pc'
  · exact of_afterLoop closed at_pc'
  · next unsignalled =>
    exact .opens at_pc' closed (same.symm.trans (Bool.eq_false_iff.mpr unsignalled)) nofun

private theorem of_nextJob (closed : Closed w w') (calm : w'.mustCancel = false) {v : Loop}
    {rest : List Job} (same : v.shutdown = w.shutdown) (at_pc' : w'.pc = v.nextJob eagerGather rest)
    (why : (∃ job, w.Brings (job :: rest) ∧ w'.free = w.free) ∨
      ∃ job, w.pc = .batch (job :: rest) ∧ w.free = w'.free + 1) : Turns worker monotonic w w' := by
  unfold nextJob at at_pc'
  split at at_pc'
  · exact of_loopHead closed same at_pc'
  · exact .batches at_pc' closed calm why

private theorem of_raiseInBody {v : Loop} (past : v.past = w.races) (err : PyError) :
    Turns worker monotonic w (v.raiseInBody eagerGather err) := by
  unfold raiseInBody
  split
  · rcases reapTasks_cases eagerGather v with found | ⟨awaited, found⟩
    all_goals exact .leaves (by simp only [current, found]) (by simp [found]) past
  · exact .leaves rfl nofun past

/-- A backoff may follow anything. -/
theorem of_sleep (closed : Closed w w') {delay : Timedelta}
    (at_pc' : w'.pc = startRace (.sleep delay)) : Turns worker monotonic w w' := by
  apply Turns.opens at_pc' closed trivial
  intro opts started reserve
  contradiction

variable {r : Race} {stage : Stage}

private theorem of_onReserved (at_pc : w.pc = .race r stage) (calm : w.mustCancel = false)
    {opts : ReserveOptions} {started : ℤ} (awaitable : r.awaitable = .reserve opts started)
    {result : Except PyError (Option (List Job))} (ended : r.task = .done result)
    (elapsed : Timedelta) :
    Turns worker monotonic w ((w.closeRace r).onReserved worker eagerGather opts elapsed result) := by
  have closed : (w.closeRace r).past = w.races := by simp only [closeRace, races, current, at_pc]
  unfold onReserved
  split
  · dsimp only
    split
    · exact of_sleep closed rfl
    · exact of_loopHead (v := (w.closeRace r).release) closed rfl rfl
  · exact of_raiseInBody closed _
  · next job rest =>
    exact of_nextJob (v := (w.closeRace r).spawn job) closed calm rfl rfl
      (.inl ⟨job, ⟨r, stage, opts, started, at_pc, awaitable, ended⟩, rfl⟩)
  · exact of_sleep closed rfl
  · exact of_raiseInBody closed _

private theorem of_onResult (at_pc : w.pc = .race r stage)
    {result : Except PyError (Option (List Job))} (ended : r.task = .done result)
    (calm : w.mustCancel = false) (signalled : r.shutdownWait = .done)
    (here : stage = .waiting ∨ stage = .reapShutdownWait) :
    Turns worker monotonic w
      ((w.closeRace r).onResult worker eagerGather monotonic r.awaitable result) := by
  have closed : (w.closeRace r).past = w.races := by simp only [closeRace, races, current, at_pc]
  unfold onResult
  split
  · next found => exact of_onReserved at_pc calm found ended _
  · exact of_raiseInBody closed _
  · next value found =>
    split
    · next built =>
      exact .opens rfl closed
        ⟨⟨calm, r, stage, value, at_pc, found, ended, signalled, here⟩, rfl, built⟩ fun _ _ _ => rfl
    · exact of_raiseInBody closed _
  · exact of_loopHead (v := w.closeRace r) closed rfl rfl

private theorem of_onShutdown (at_pc : w.pc = .race r stage) (awaitable : Awaitable) :
    Turns worker monotonic w ((w.closeRace r).onShutdown eagerGather awaitable) := by
  have closed : (w.closeRace r).past = w.races := by simp only [closeRace, races, current, at_pc]
  cases awaitable with
  | reserve opts started => exact of_afterLoop (v := (w.closeRace r).release) closed rfl
  | acquire | sleep => exact of_afterLoop (v := w.closeRace r) closed rfl

end Turns

theorem turns_of_resumes (resumed : Resumes worker eagerGather monotonic w w') :
    Turns worker monotonic w w' := by
  have idle (off : ∀ r stage, w.pc ≠ .race r stage) : w.past = w.races := by
    unfold races current
    split
    · next at_pc => exact absurd at_pc (off _ _)
    · exact (List.append_nil _).symm
  cases resumed with
  | starts at_pc => exact .of_loopHead (v := w) (idle (by simp [at_pc])) rfl rfl
  | neverStarts at_pc | reaped at_pc | drained at_pc | drainRaises at_pc =>
    exact .leaves rfl nofun (idle (by simp [at_pc]))
  | @races r stage _ at_pc resumed =>
    have closed : (w.closeRace r).past = w.races := by simp only [closeRace, Loop.races, current, at_pc]
    cases resumed with
    | cancelled | shutdownWins | taskWins => exact .stays at_pc rfl rfl rfl
    | result calm ended signalled here => exact .of_onResult at_pc ended calm signalled here
    | shutdown => exact .of_onShutdown at_pc _
    | raises => exact .of_raiseInBody closed _
  | batchRaises at_pc => exact .of_raiseInBody (idle (by simp [at_pc])) _
  | @batchSpawns job rest at_pc calm available =>
    exact .of_nextJob (v := { w with free := w.free - 1 }.spawn job) (idle (by simp [at_pc])) calm rfl
      rfl (.inr ⟨job, at_pc, (Nat.succ_pred_eq_of_ne_zero available).symm⟩)

end Loop

end SeppPy
