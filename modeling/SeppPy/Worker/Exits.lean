import SeppPy.Worker.Races

/-! # How a run ends

A run that returns, or ends with a `CancelledError`, has waited for every job task it spawned. The
loop names no other exception: one that is neither a `SeppError` nor a `CancelledError` leaves
`run()` at once, with the job tasks as they are.
-/

namespace SeppPy

theorem JobTask.pc_cancel (t : JobTask) : t.cancel.pc = t.pc := by
  unfold cancel
  split <;> rfl

namespace Loop

open Machine

variable {worker : Worker} {eagerGather : Bool} {initial : ℤ} {monotonic : ℤ} {w w' : Loop}

/-- The loop has no clause for this end of a reserve call: an exception that is neither a `SeppError`
nor a `CancelledError`, or an empty list, of which it takes the first job. -/
def Unforeseen : Except PyError (Option (List Job)) → Prop
  | .ok (some []) => True
  | .ok _ => False
  | .error err => err.isSeppError = false ∧ err ≠ .cancelledError

/-- A reserve call has ended in a way that the loop has no clause for. -/
def ReserveFails (w : Loop) : Prop :=
  ∃ r stage opts started result, w.pc = .race r stage ∧ r.awaitable = .reserve opts started ∧
    r.task = .done result ∧ Unforeseen result

/-- The reserve call fails while a job task is running. -/
def Deserts (w : Loop) : Prop := w.ReserveFails ∧ ∃ slot ∈ w.slots, ¬ slot.task.Ended

/-- Of the races only that of a reserve call can end with an exception other than the
cancellation. -/
def PlainAt : Pc → Prop
  | .race r _ => (∃ opts started, r.awaitable = .reserve opts started) ∨
      ∀ err, r.task = .done (.error err) → err = .cancelledError
  | _ => True

private theorem plainAt_step {e : Event} (plain : PlainAt w.pc)
    (taken : w.step worker eagerGather e = some w') : PlainAt w'.pc := by
  cases moves_of_step taken with
  | shutdown | register | job | taskDone => exact plain
  | cancel =>
    cases at_pc : w.pc with
    | race r stage =>
      rw [at_pc] at plain
      simp only [cancel, at_pc, PlainAt, Race.awaitable_cancelAt]
      exact plain.imp_right fun plain err ended => plain err (Race.task_of_cancelAt ended)
    | _ => simp only [cancel, at_pc, PlainAt]
  | child moved =>
    cases moved with
    | acquires =>
      refine .inr fun err ended => ?_
      cases ended
    | cancelled =>
      refine .inr fun err ended => ?_
      cases ended
      rfl
    | sleeps =>
      refine .inr fun err ended => ?_
      cases ended
    | reserves _ _ awaitable => exact .inl ⟨_, _, awaitable⟩
    | signalled at_pc =>
      rw [at_pc] at plain
      exact plain
  | resume monotonic resumed =>
    cases turns_of_resumes resumed with
    | stays at_pc at_pc' =>
      rw [at_pc] at plain
      rw [at_pc']
      simp only [PlainAt, Race.awaitable_cancelAt]
      exact plain.imp_right fun plain err ended => plain err (Race.task_of_cancelAt ended)
    | opens at_pc' =>
      rw [at_pc']
      refine .inr fun err ended => ?_
      contradiction
    | batches at_pc' =>
      rw [at_pc']
      trivial
    | leaves out =>
      cases at_pc' : w'.pc with
      | race => simp [current, at_pc'] at out
      | _ => trivial

private theorem afterLoop_ne_raised (err : PyError) : w.afterLoop eagerGather ≠ .raised err := by
  rcases afterLoop_cases eagerGather w with found | ⟨awaited, found⟩ <;> rw [found] <;> nofun

private theorem loopHead_ne_raised (err : PyError) : w.loopHead eagerGather ≠ .raised err := by
  unfold loopHead
  split
  · exact afterLoop_ne_raised err
  · nofun

private theorem nextJob_ne_raised (rest : List Job) (err : PyError) :
    w.nextJob eagerGather rest ≠ .raised err := by
  unfold nextJob
  split
  · exact loopHead_ne_raised err
  · nofun

/-- What `except asyncio.CancelledError` does not catch leaves at once. -/
theorem raised_of_raiseInBody {err err' : PyError}
    (raised : (w.raiseInBody eagerGather err).pc = .raised err') (other : err' ≠ .cancelledError) :
    err ≠ .cancelledError ∧ (w.raiseInBody eagerGather err).slots = w.slots := by
  unfold raiseInBody at raised ⊢
  split at raised
  · rcases reapTasks_cases eagerGather w with found | ⟨awaited, found⟩
    · exact absurd (Pc.raised.inj (found.symm.trans raised)).symm other
    · rw [found] at raised
      contradiction
  · next uncaught => exact ⟨uncaught, rfl⟩

section Fails

variable {r : Race} {stage : Stage} {result : Except PyError (Option (List Job))} {err : PyError}

/-- The exception that a reserve call leaves the loop with is one that it has no clause for. -/
theorem unforeseen_of_raised {opts : ReserveOptions} {elapsed : Timedelta}
    (raised : (w.onReserved worker eagerGather opts elapsed result).pc = .raised err)
    (other : err ≠ .cancelledError) :
    Unforeseen result ∧ (w.onReserved worker eagerGather opts elapsed result).slots = w.slots := by
  unfold onReserved at raised ⊢
  split at raised
  · dsimp only at raised
    split at raised
    · contradiction
    · exact absurd raised (loopHead_ne_raised err)
  · exact ⟨trivial, (raised_of_raiseInBody raised other).2⟩
  · exact absurd raised (nextJob_ne_raised _ err)
  · contradiction
  · next err' unnamed =>
    obtain ⟨uncaught, slots⟩ := raised_of_raiseInBody raised other
    refine ⟨⟨?_, uncaught⟩, slots⟩
    cases err' with
    | sepp err => exact absurd rfl (unnamed err)
    | _ => rfl

private theorem reserveFails_of_onResult (plain : PlainAt w.pc) (at_pc : w.pc = .race r stage)
    (ended : r.task = .done result)
    (raised : ((w.closeRace r).onResult worker eagerGather monotonic r.awaitable result).pc =
      .raised err) (other : err ≠ .cancelledError) :
    w.ReserveFails ∧
      ((w.closeRace r).onResult worker eagerGather monotonic r.awaitable result).slots = w.slots := by
  rw [at_pc] at plain
  unfold onResult at raised ⊢
  split at raised
  · next found =>
    obtain ⟨unforeseen, slots⟩ := unforeseen_of_raised raised other
    exact ⟨⟨r, stage, _, _, _, at_pc, found, ended, unforeseen⟩, slots⟩
  · next no_reserve =>
    have uncaught := (raised_of_raiseInBody raised other).1
    rcases plain with ⟨opts, started, reserves⟩ | plain
    · exact absurd reserves (no_reserve opts started)
    · exact absurd (plain _ ended) uncaught
  · split at raised
    · contradiction
    · next failed =>
      obtain ⟨_, _, built, _⟩ := worker.exists_reserveOptsWithCapacity (w.closeRace r).inFlight
      rw [built] at failed
      contradiction
  · exact absurd raised (loopHead_ne_raised err)

/-- An exception that is not a `CancelledError` comes out of the loop only if the reserve call fails,
and it leaves the job tasks as they are. -/
theorem reserveFails_of_raised (plain : PlainAt w.pc)
    (resumed : Resumes worker eagerGather monotonic w w') (raised : w'.pc = .raised err)
    (other : err ≠ .cancelledError) : w.ReserveFails ∧ w'.slots = w.slots := by
  cases resumed with
  | starts => exact absurd raised (loopHead_ne_raised err)
  | neverStarts | reaped | drainRaises => exact absurd (Pc.raised.inj raised).symm other
  | @races r _ _ at_pc resumed =>
    cases resumed with
    | cancelled | shutdownWins | taskWins => cases raised
    | result _ ended => exact reserveFails_of_onResult plain at_pc ended raised other
    | shutdown =>
      refine absurd raised ?_
      cases r.awaitable <;> exact afterLoop_ne_raised err
    | raises => exact absurd rfl (raised_of_raiseInBody raised other).1
  | batchRaises => exact absurd rfl (raised_of_raiseInBody raised other).1
  | batchSpawns => exact absurd raised (nextJob_ne_raised _ err)
  | drained => cases raised

end Fails

/-- Resuming `run()` ends no job task. -/
theorem ended_of_resume (resumed : Resumes worker eagerGather monotonic w w')
    (ended : ∀ slot ∈ w'.slots, slot.task.Ended) : ∀ slot ∈ w.slots, slot.task.Ended := by
  intro slot member
  cases slotsMove_resume resumed with
  | kept slots => exact ended slot (slots ▸ member)
  | spawned job slots => exact ended slot (slots ▸ List.mem_append_left _ member)
  | moved _ _ _ _ which => cases which
  | reaped i other found slots =>
    obtain ⟨k, here⟩ := List.getElem?_of_mem member
    by_cases at_i : i = k
    · subst at_i
      obtain rfl := Option.some.inj (found.symm.trans here)
      have bound := (List.getElem?_eq_some_iff.mp here).1
      exact ended { other with reaped := true } (slots ▸ List.mem_of_getElem? (List.getElem?_set_self bound))
    · exact ended slot (slots ▸ List.mem_of_getElem? ((List.getElem?_set_ne at_i).trans here))
  | cancelled why slots =>
    have moved : ∃ slot' ∈ w'.slots, slot'.task.pc = slot.task.pc := by
      rw [slots]
      refine ⟨_, List.mem_map_of_mem member, ?_⟩
      split
      · rfl
      · exact JobTask.pc_cancel _
    obtain ⟨slot', member', same⟩ := moved
    obtain ⟨how, at_pc⟩ := ended slot' member'
    exact ⟨how, same.symm.trans at_pc⟩

/-- Only `run()` itself comes to its end. -/
theorem resumes_of_ends {e : Event} (taken : w.step worker eagerGather e = some w')
    (going : ¬ w.Over) (ended : w'.Over) :
    ∃ monotonic, Resumes worker eagerGather monotonic w w' := by
  cases moves_of_step taken with
  | shutdown | register | job | taskDone => exact absurd ended going
  | cancel =>
    cases at_pc : w.pc with
    | returned => exact absurd (.inl at_pc) going
    | raised err => exact absurd (.inr ⟨err, at_pc⟩) going
    | _ => simp [Over, cancel, at_pc] at ended
  | child moved => cases moved <;> simp [Over] at ended
  | resume monotonic resumed => exact ⟨monotonic, resumed⟩

/-- At the step with which a run ends, every job task it spawned has ended, exactly unless the run
is left by a reserve call that fails while a job task is running. -/
theorem exits_settled_iff (worker : Worker) (eagerGather : Bool) (registry : Registry)
    (initial : ℤ) (es : List Event) (w : Loop)
    (run : Run (Steps (step worker eagerGather)) (init worker registry initial) es w) (e : Event)
    (w' : Loop) (taken : w.step worker eagerGather e = some w') (going : ¬ w.Over)
    (ended : w'.Over) : (∀ slot ∈ w'.slots, slot.task.Ended) ↔ ¬ w.Deserts := by
  obtain ⟨monotonic, resumed⟩ := resumes_of_ends taken going ended
  have covers := covers_of_run (run.snoc taken)
  have plain : PlainAt w.pc :=
    run.invariant (fun v : Loop => PlainAt v.pc) (fun plain taken => plainAt_step plain taken) trivial
  have reaped (settled : ∀ slot ∈ w'.slots, slot.Settled eagerGather) :
      (∀ slot ∈ w'.slots, slot.task.Ended) ↔ ¬ w.Deserts := by
    have all (slot : Slot) (member : slot ∈ w'.slots) := (settled slot member).1
    refine iff_of_true all ?_
    rintro ⟨_, slot, member, running⟩
    exact running (ended_of_resume resumed all slot member)
  rcases ended with returned | ⟨err, raised⟩
  · rw [returned] at covers
    exact reaped covers
  · by_cases cancelled : err = .cancelledError
    · rw [raised, cancelled] at covers
      exact reaped covers
    · obtain ⟨fails, slots⟩ := reserveFails_of_raised plain resumed raised cancelled
      rw [slots]
      constructor
      · rintro all ⟨_, slot, member, running⟩
        exact running (all slot member)
      · intro safe slot member
        by_contra running
        exact safe ⟨fails, slot, member, running⟩

/-- When `run()` returns or raises without having been cancelled, every job task it spawned has
ended. -/
def EndsSettled (worker : Worker) (eagerGather : Bool) (registry : Registry) (initial : ℤ) : Prop :=
  ∀ es w e w', Run (Steps (step worker eagerGather)) (init worker registry initial) es w →
    Event.cancel ∉ es → w.step worker eagerGather e = some w' → ¬ w.Over → w'.Over →
    ∀ slot ∈ w'.slots, slot.task.Ended

/-- A job is reserved, and the next reserve call raises a `ValueError`; in between the job's task
takes these steps. -/
def reserveFailsAfter (steps : List JobTask.Event) : List Event :=
  reserved [JobTask.emailJob] ++ steps.map (.job 0) ++
    [.waitEnds, .resume 0, .shutdownWaitEnds, .resume 0,
      .reserveEnds (.error (.valueError "Timestamp is not valid")), .resume 0, .shutdownWaitEnds]

/-- The `ValueError` leaves `run()`, and the task of the job, which has just been created, goes on
without it. -/
theorem leaves_job_running : ¬ EndsSettled .pair true JobTask.catchAllOnly 0 := by
  intro settled
  obtain ⟨w, found, going⟩ : ∃ w, run? (step .pair true) (init .pair JobTask.catchAllOnly 0)
      (reserveFailsAfter []) = some w ∧ ¬ w.Over := ⟨_, rfl, by rintro (⟨⟨⟩⟩ | ⟨_, ⟨⟩⟩)⟩
  obtain ⟨w', taken, ended, running⟩ : ∃ w', (run? (step .pair true)
      (init .pair JobTask.catchAllOnly 0) (reserveFailsAfter [])).bind
        (fun w => w.step .pair true (.resume 0)) = some w' ∧
      w'.pc = .raised (.valueError "Timestamp is not valid") ∧
      w'.slots = [⟨.spawned JobTask.emailJob, false, false⟩] := ⟨_, rfl, rfl, rfl⟩
  rw [found, Option.bind_some] at taken
  have all := settled _ w _ w' ((run?_eq_some_iff _ _ _ _).mp found)
    (by simp [reserveFailsAfter, reserved]) taken going (.inr ⟨_, ended⟩)
  rw [running] at all
  obtain ⟨how, created⟩ := all _ List.mem_cons_self
  contradiction

/-- The handler returns and its job is acked. -/
def finishes : List JobTask.Event :=
  [.start JobTask.catchAllOnly .awaitable, .handlerEnds .returned, .callEnds (.ok ())]

/-- Where the job is done before the reserve call fails, nothing is left running. -/
theorem exits_settled_iff_finished :
    ∃ w w', Run (Steps (step .pair true)) (init .pair JobTask.catchAllOnly 0)
        (reserveFailsAfter finishes) w ∧ w.step .pair true (.resume 0) = some w' ∧
      w'.pc = .raised (.valueError "Timestamp is not valid") ∧ ∀ slot ∈ w'.slots, slot.task.Ended := by
  obtain ⟨w, found, going, done⟩ : ∃ w, run? (step .pair true) (init .pair JobTask.catchAllOnly 0)
      (reserveFailsAfter finishes) = some w ∧ ¬ w.Over ∧ ∀ slot ∈ w.slots, slot.task.Ended := by
    refine ⟨_, rfl, by rintro (⟨⟨⟩⟩ | ⟨_, ⟨⟩⟩), ?_⟩
    exact List.forall_mem_singleton.mpr ⟨.returned, rfl⟩
  obtain ⟨w', taken, ended⟩ : ∃ w', (run? (step .pair true) (init .pair JobTask.catchAllOnly 0)
      (reserveFailsAfter finishes)).bind (fun w => w.step .pair true (.resume 0)) = some w' ∧
      w'.pc = .raised (.valueError "Timestamp is not valid") := ⟨_, rfl, rfl⟩
  rw [found, Option.bind_some] at taken
  have run := (run?_eq_some_iff _ _ _ _).mp found
  refine ⟨w, w', run, taken, ended, (exits_settled_iff .pair true JobTask.catchAllOnly 0 _ w run _ w'
    taken going (.inr ⟨_, ended⟩)).mpr ?_⟩
  rintro ⟨_, slot, member, running⟩
  exact running (done slot member)

end Loop

end SeppPy
