import SeppPy.Worker.Permits

/-! # Reaping the job tasks

The `gather` of a drain or of a cleanup waits for every job task that has not ended. So a run that
returns, or ends with a `CancelledError`, leaves no job task running; where `gather` waits for all
callbacks, it leaves no task in the set either.
-/

namespace SeppPy

private theorem JobTask.cancel_of_ended {t : JobTask} (ended : t.Ended) : t.cancel = t := by
  obtain ⟨how, at_pc⟩ := ended
  simp only [cancel, at_pc]

/-- The task has ended, and its callback has run unless `gather` does not wait for it. -/
def Slot.Settled (eagerGather : Bool) (slot : Slot) : Prop :=
  slot.task.Ended ∧ (eagerGather = false → slot.reaped = true)

namespace Loop

open Machine

variable {worker : Worker} {eagerGather : Bool} {initial : ℤ} {w w' : Loop}

/-- What the run is waiting for, and what it has waited for when it ends. -/
def Covers (eagerGather : Bool) (slots : List Slot) : Pc → Prop
  | .notStarted => slots = []
  | .drain awaited | .reap awaited =>
    ∀ i slot, slots[i]? = some slot → i ∈ awaited ∨ slot.Settled eagerGather
  | .returned | .raised .cancelledError => ∀ slot ∈ slots, slot.Settled eagerGather
  | _ => True

private theorem gathered_covers (eagerGather : Bool) (reaped_ended : ReapedEnded w.slots) (i : ℕ)
    (slot : Slot) (found : w.slots[i]? = some slot) :
    i ∈ w.gathered eagerGather ∨ slot.Settled eagerGather := by
  obtain ⟨bound, _⟩ := List.getElem?_eq_some_iff.mp found
  cases reaped : slot.reaped with
  | true => exact .inr ⟨reaped_ended slot (List.mem_of_getElem? found) reaped, fun _ => reaped⟩
  | false =>
    by_cases gone : eagerGather = true ∧ slot.task.Ended
    · exact .inr ⟨gone.2, fun lazy => absurd (lazy.symm.trans gone.1) Bool.false_ne_true⟩
    · refine .inl (List.mem_filter.mpr ⟨List.mem_range.mpr bound, ?_⟩)
      rw [not_and_or, Bool.not_eq_true] at gone
      simpa [found, reaped] using gone

/-- Without a task to wait for, all are settled. -/
theorem settled_of_gathered_nil (reaped_ended : ReapedEnded w.slots)
    (none : w.gathered eagerGather = []) (slot : Slot) (member : slot ∈ w.slots) :
    slot.Settled eagerGather := by
  obtain ⟨i, found⟩ := List.getElem?_of_mem member
  rcases gathered_covers eagerGather reaped_ended i slot found with awaited | settled
  · rw [none] at awaited
    contradiction
  · exact settled

/-- A completed `gather` leaves all tasks settled. -/
theorem settled_of_gatheredDone (reaped_ended : ReapedEnded w.slots) {awaited : List ℕ}
    (covers : ∀ i slot, w.slots[i]? = some slot → i ∈ awaited ∨ slot.Settled eagerGather)
    (done : w.gatheredDone awaited = true) (slot : Slot) (member : slot ∈ w.slots) :
    slot.Settled eagerGather := by
  obtain ⟨i, found⟩ := List.getElem?_of_mem member
  rcases covers i slot found with awaiting | settled
  · have reaped := List.all_eq_true.mp done i awaiting
    simp only [found, Option.all_some] at reaped
    exact ⟨reaped_ended slot member reaped, fun _ => reaped⟩
  · exact settled

private theorem covers_afterLoop (reaped_ended : ReapedEnded w.slots) :
    Covers eagerGather w.slots (w.afterLoop eagerGather) := by
  unfold afterLoop
  split
  · next none => exact settled_of_gathered_nil reaped_ended none
  · exact gathered_covers eagerGather reaped_ended

private theorem covers_loopHead (reaped_ended : ReapedEnded w.slots) :
    Covers eagerGather w.slots (w.loopHead eagerGather) := by
  unfold loopHead
  split
  · exact covers_afterLoop reaped_ended
  · trivial

private theorem covers_nextJob (reaped_ended : ReapedEnded w.slots) (rest : List Job) :
    Covers eagerGather w.slots (w.nextJob eagerGather rest) := by
  unfold nextJob
  split
  · exact covers_loopHead reaped_ended
  · trivial

/-- The job tasks may move on as long as settled ones stay settled. -/
def Advances (eagerGather : Bool) (slots slots' : List Slot) : Prop :=
  ∀ (i : ℕ) (slot' : Slot), slots'[i]? = some slot' →
    ∃ slot : Slot, slots[i]? = some slot ∧ (slot.Settled eagerGather → slot'.Settled eagerGather)

private theorem Covers.advance {slots slots' : List Slot} {pc : Pc}
    (covers : Covers eagerGather slots pc) (advances : Advances eagerGather slots slots') :
    Covers eagerGather slots' pc := by
  have all (settled : ∀ slot ∈ slots, slot.Settled eagerGather) :
      ∀ slot' ∈ slots', slot'.Settled eagerGather := by
    intro slot' member
    obtain ⟨i, found'⟩ := List.getElem?_of_mem member
    obtain ⟨slot, found, keeps⟩ := advances i slot' found'
    exact keeps (settled slot (List.mem_of_getElem? found))
  have each {awaited : List ℕ}
      (waits : ∀ i slot, slots[i]? = some slot → i ∈ awaited ∨ slot.Settled eagerGather) :
      ∀ i slot', slots'[i]? = some slot' → i ∈ awaited ∨ slot'.Settled eagerGather := by
    intro i slot' found'
    obtain ⟨slot, found, keeps⟩ := advances i slot' found'
    exact (waits i slot found).imp_right keeps
  cases pc with
  | notStarted =>
    obtain rfl : slots = [] := covers
    refine List.eq_nil_iff_forall_not_mem.mpr fun slot' member => ?_
    obtain ⟨i, found'⟩ := List.getElem?_of_mem member
    obtain ⟨slot, found, _⟩ := advances i slot' found'
    simp at found
  | race | batch => trivial
  | reap awaited | drain awaited => exact each covers
  | returned => exact all covers
  | raised err =>
    cases err with
    | cancelledError => exact all covers
    | _ => trivial

private theorem advances_cancelTasks (eagerGather : Bool) (slots : List Slot) :
    Advances eagerGather slots (cancelTasks slots) := by
  intro i slot' found
  simp only [cancelTasks, List.getElem?_map, Option.map_eq_some_iff] at found
  obtain ⟨slot, found, rfl⟩ := found
  refine ⟨slot, found, fun settled => ?_⟩
  split
  · exact settled
  · refine ⟨?_, settled.2⟩
    rw [JobTask.cancel_of_ended settled.1]
    exact settled.1

private theorem advances_set {slots : List Slot} {i : ℕ} {slot slot' : Slot}
    (found : slots[i]? = some slot) (keeps : slot.Settled eagerGather → slot'.Settled eagerGather) :
    Advances eagerGather slots (slots.set i slot') := by
  intro j other at_j
  rw [List.getElem?_set] at at_j
  split at at_j
  · next same =>
    subst same
    split at at_j
    · cases at_j
      exact ⟨slot, found, keeps⟩
    · contradiction
  · exact ⟨other, at_j, id⟩

private theorem covers_raiseInBody (reaped_ended : ReapedEnded w.slots) (err : PyError) :
    Covers eagerGather (w.raiseInBody eagerGather err).slots (w.raiseInBody eagerGather err).pc := by
  unfold raiseInBody
  split
  · have before : Covers eagerGather w.slots (w.reapTasks eagerGather).pc := by
      simp only [reapTasks]
      split
      · next none => exact settled_of_gathered_nil reaped_ended none
      · exact gathered_covers eagerGather reaped_ended
    exact before.advance (advances_cancelTasks eagerGather w.slots)
  · next other =>
    cases err with
    | cancelledError => exact absurd rfl other
    | _ => trivial

private theorem covers_onReserved (reaped_ended : ReapedEnded w.slots) (opts : ReserveOptions)
    (elapsed : Timedelta) (result : Except PyError (Option (List Job))) :
    let next := w.onReserved worker eagerGather opts elapsed result
    Covers eagerGather next.slots next.pc := by
  unfold onReserved
  split
  · dsimp only
    split
    · trivial
    · exact covers_loopHead (w := w.release) reaped_ended
  · exact covers_raiseInBody reaped_ended _
  · exact covers_nextJob (w := w.spawn _) (reaped_ended.spawn _) _
  · trivial
  · exact covers_raiseInBody reaped_ended _

private theorem covers_onResult (reaped_ended : ReapedEnded w.slots) (monotonic : ℤ)
    (awaitable : Awaitable) (result : Except PyError (Option (List Job))) :
    let next := w.onResult worker eagerGather monotonic awaitable result
    Covers eagerGather next.slots next.pc := by
  unfold onResult
  split
  · exact covers_onReserved reaped_ended _ _ _
  · exact covers_raiseInBody reaped_ended _
  · split
    · trivial
    · exact covers_raiseInBody reaped_ended _
  · exact covers_loopHead reaped_ended

private theorem covers_onShutdown (reaped_ended : ReapedEnded w.slots) (awaitable : Awaitable) :
    let next := w.onShutdown eagerGather awaitable
    Covers eagerGather next.slots next.pc := by
  unfold onShutdown
  cases awaitable with
  | reserve opts started => exact covers_afterLoop (w := w.release) reaped_ended
  | acquire | sleep => exact covers_afterLoop reaped_ended

private theorem covers_resume {monotonic : ℤ} (reaped_ended : ReapedEnded w.slots)
    (covers : Covers eagerGather w.slots w.pc)
    (resumed : Resumes worker eagerGather monotonic w w') :
    Covers eagerGather w'.slots w'.pc := by
  cases resumed with
  | starts => exact covers_loopHead reaped_ended
  | neverStarts at_pc =>
    rw [at_pc] at covers
    exact fun slot member => absurd (covers ▸ member) List.not_mem_nil
  | @races r _ _ _ resumed =>
    have closed : ReapedEnded (w.closeRace r).slots := reaped_ended
    cases resumed with
    | cancelled | shutdownWins | taskWins => trivial
    | result => exact covers_onResult closed _ _ _
    | shutdown => exact covers_onShutdown closed _
    | raises => exact covers_raiseInBody closed _
  | batchRaises => exact covers_raiseInBody reaped_ended _
  | @batchSpawns job rest =>
    exact covers_nextJob (w := { w with free := w.free - 1 }.spawn job) (reaped_ended.spawn job) rest
  | reaped at_pc done | drained at_pc done | drainRaises at_pc done =>
    rw [at_pc] at covers
    exact settled_of_gatheredDone reaped_ended covers done

private theorem covers_cancel (covers : Covers eagerGather w.slots w.pc) :
    Covers eagerGather w.cancel.slots w.cancel.pc := by
  unfold cancel
  split
  · exact covers
  · trivial
  · exact covers
  · exact covers.advance (advances_cancelTasks eagerGather w.slots)
  · exact covers.advance (advances_cancelTasks eagerGather w.slots)
  · exact covers
  · exact covers

/-- Every step keeps what the run waits for. -/
theorem covers_step {e : Event} (reaped_ended : ReapedEnded w.slots)
    (covers : Covers eagerGather w.slots w.pc)
    (taken : w.step worker eagerGather e = some w') : Covers eagerGather w'.slots w'.pc := by
  cases moves_of_step taken with
  | shutdown | register => exact covers
  | cancel => exact covers_cancel covers
  | child moved =>
    obtain ⟨_, _, _, _, at_pc, _⟩ := moved.raceMoves.races
    rw [at_pc]
    trivial
  | resume monotonic resumed => exact covers_resume reaped_ended covers resumed
  | job i e sees found next =>
    exact covers.advance (advances_set found fun settled =>
      ⟨JobTask.ended_step settled.1 next, settled.2⟩)
  | taskDone i found =>
    exact covers.advance (advances_set found fun settled => ⟨settled.1, fun _ => rfl⟩)

theorem covers_of_run {registry : Registry} {es : List Event}
    (run : Run (Steps (step worker eagerGather)) (init worker registry initial) es w) :
    Covers eagerGather w.slots w.pc := by
  have both := run.invariant (fun w => Permits worker initial w ∧ Covers eagerGather w.slots w.pc)
    (fun both taken => ⟨both.1.step taken, covers_step both.1.reaped_ended both.2 taken⟩)
    ⟨.start worker registry initial, rfl⟩
  exact both.2

end Loop

end SeppPy
