import SeppPy.Worker.Answers

/-! # What a worker counts

`_dispose` counts its job as processed or nacked when its call has returned. The nack of a job without
a handler is not counted. So the counters show what the server has answered, and no more: a delivery
whose ack was applied and whose response got lost is not among them.
-/

namespace SeppPy

open Machine

/-- What `_dispose` records for a call that has returned. -/
def Reply.measurement : Reply → Measurement
  | .acked => WorkerMetrics.recordProcessed
  | .nacked deadLettered => WorkerMetrics.recordNacked deadLettered

namespace Loop

/-- The outcome of the handler has been passed to `_dispose`. -/
def DisposedAt (w : Loop) (i : ℕ) : Prop := ∃ t, w.taskAt i = some t ∧ t.disposed ≠ none

end Loop

namespace Calling

variable {F : Type} [PyFloat F] {pb : Protobuf} {policy : RetryPolicy F} {worker : Worker}
  {eagerGather : Bool} {registry : Registry} {inFlight : ℤ} {es : List (Event F)} {s s' : Calling F}
  {i j : ℕ} {reply : Reply}

variable (pb policy worker eagerGather) in
/-- What a call of `_dispose` returns in a step, if one does. -/
def returned (s : Calling F) (e : Event F) : Option (ℕ × Reply) :=
  (s.turn pb policy worker eagerGather e).bind fun turn =>
    match s.loop.taskAt turn.1, turn.2.result? with
    | some t, some (.ok reply) =>
      match t.pc with
      | .disposing => some (turn.1, reply)
      | _ => none
    | _, _ => none

variable (pb policy worker eagerGather) in
/-- What `_dispose` records in a step, and for which job task. -/
def measure (s : Calling F) (e : Event F) : List (ℕ × Measurement) :=
  ((s.returned pb policy worker eagerGather e).map fun p => (p.1, p.2.measurement)).toList

/-- The call that `_dispose` has made for a task has returned. -/
def Returned (s : Calling F) (i : ℕ) (reply : Reply) : Prop :=
  s.loop.DisposedAt i ∧ ∃ c, s.calls i = some c ∧ c.result? = some (.ok reply)

private theorem returned_eq_some_iff {e : Event F} :
    s.returned pb policy worker eagerGather e = some (i, reply) ↔
      ∃ c t, s.turn pb policy worker eagerGather e = some (i, c) ∧ s.loop.taskAt i = some t ∧
        t.pc = .disposing ∧ c.result? = some (.ok reply) := by
  constructor
  · intro returns
    obtain ⟨⟨k, c⟩, turned, rest⟩ := Option.bind_eq_some_iff.mp returns
    split at rest
    · next t _ found ended =>
      split at rest
      · next at_pc =>
        cases rest
        exact ⟨c, t, turned, found, at_pc, ended⟩
      · contradiction
    · contradiction
  · rintro ⟨c, t, turned, found, at_pc, ended⟩
    simp only [returned, turned, Option.bind_some, found, ended, at_pc]

/-! ## One step -/

omit [PyFloat F] in
/-- The end of a call passes nothing to `_dispose`. -/
private theorem disposedAt_of_settles {c : Underway F}
    (settles : Settles worker eagerGather s i c s') :
    s'.loop.DisposedAt j ↔ s.loop.DisposedAt j := by
  cases settles with
  | waits => exact Iff.rfl
  | ends result loop _ goesOn =>
    obtain ⟨t, t', found, stepped, tasks⟩ := Loop.jobStep_eq goesOn
    have same : t'.disposed = t.disposed := by
      cases JobTask.moves_of_step stepped with
      | beats _ _ beat => exact beat.elim
      | callEnds => rfl
    simp only [Loop.DisposedAt, tasks]
    by_cases here : j = i
    · simp [here, found, same]
    · simp [here]

/-- Nor does a step of a task that has made its call. -/
private theorem disposedAt_of_moves {e : Loop.Event} {c : Underway F} {w w' : Loop}
    (agrees : AgreesAt pb policy (w.taskAt j) (some c))
    (moves : Loop.TaskMoves e j (w.taskAt j) (w'.taskAt j)) :
    w'.DisposedAt j ↔ w.DisposedAt j := by
  unfold Loop.DisposedAt
  generalize w.taskAt j = task, w'.taskAt j = task' at agrees moves ⊢
  cases moves with
  | absent => exact Iff.rfl
  | spawned => contradiction
  | @steps t t' calls =>
    have made : t.calls = [c.op] := Agrees.made agrees
    rcases calls with ⟨_, still, _⟩ | ⟨silent, _⟩
    · simp [(still (made ▸ List.cons_ne_nil _ _)).2]
    · rw [made] at silent
      contradiction

/-- A task that waits has passed its outcome to `_dispose` unless it has no handler. -/
private theorem disposing_iff {t : JobTask} {autoExtend : Option AutoExtend} {quiet : Prop}
    (phase : t.Phase autoExtend quiet) (waiting : t.Waiting) :
    t.pc = .disposing ↔ t.disposed ≠ none := by
  rcases waiting with at_pc | at_pc
  · simp only [JobTask.Phase, at_pc] at phase
    simp [at_pc, phase.disposed]
  · simp only [JobTask.Phase, at_pc] at phase
    obtain ⟨error, disposed⟩ := phase
    simp [at_pc, disposed.disposed]

omit [PyFloat F] in
/-- A call that does not move has returned before. -/
private theorem returned_of_stays (calls : s'.calls i = s.calls i)
    (stays : ∀ c, s.calls i = some c → (s'.loop.DisposedAt i ↔ s.loop.DisposedAt i)) :
    s'.Returned i reply ↔ s.Returned i reply := by
  unfold Returned
  rw [calls]
  constructor
  · rintro ⟨disposed, c, found, ended⟩
    exact ⟨(stays c found).mp disposed, c, found, ended⟩
  · rintro ⟨disposed, c, found, ended⟩
    exact ⟨(stays c found).mpr disposed, c, found, ended⟩

/-- A call under way has returned just if it returns now. -/
private theorem returned_of_advances {e : RetryCall.Event F LeaseResponse} {c c' : Underway F}
    (coupled : Coupled pb policy s)
    (phases : ∀ slot ∈ s.loop.slots, slot.task.Phase worker.autoExtend False)
    (found : s.calls i = some c) (stepped : c.step policy e = some c')
    (turned : s.turn pb policy worker eagerGather (.call i e) = some (i, c'))
    (settles : Settles worker eagerGather s i c' s') :
    s'.Returned i reply ↔ s.returned pb policy worker eagerGather (.call i e) = some (i, reply) := by
  obtain ⟨t, at_i, agrees, _⟩ := coupled.task_of_call found
  obtain ⟨slot, there, rfl⟩ := Option.map_eq_some_iff.mp at_i
  have waiting := agrees.waits.mpr ⟨c, rfl, Underway.result?_of_step stepped⟩
  have disposing := disposing_iff (phases slot (List.mem_of_getElem? there)) waiting
  have after : s'.Returned i reply ↔ slot.task.disposed ≠ none ∧
      c'.result? = some (.ok reply) := by
    unfold Returned
    rw [disposedAt_of_settles settles, settles.calls, Function.update_self]
    simp [Loop.DisposedAt, at_i]
  rw [after, ← disposing, returned_eq_some_iff]
  constructor
  · rintro ⟨at_pc, ended⟩
    exact ⟨c', slot.task, turned, at_i, at_pc, ended⟩
  · rintro ⟨c₀, t₀, turned₀, at_i₀, at_pc, ended⟩
    cases turned.symm.trans turned₀
    cases at_i.symm.trans at_i₀
    exact ⟨at_pc, ended⟩

omit [PyFloat F] in
/-- A call that has not ended has not returned. -/
private theorem not_returned {c : Underway F} (found : s.calls i = some c)
    (underWay : c.result? = none) : ¬ s.Returned i reply := by
  rintro ⟨_, c₀, found₀, ended⟩
  cases found.symm.trans found₀
  rw [underWay] at ended
  contradiction

/-- What has returned before a step and in it, has returned after it. -/
theorem returned_step {e : Event F} (coupled : Coupled pb policy s)
    (phases : ∀ slot ∈ s.loop.slots, slot.task.Phase worker.autoExtend False)
    (taken : s.step pb policy worker eagerGather e = some s') :
    s'.Returned i reply ↔
      s.Returned i reply ∨ s.returned pb policy worker eagerGather e = some (i, reply) := by
  have kept {e : Loop.Event} {loop : Loop} (own : ∀ i result, e ≠ .job i (.callEnds result))
      (stepped : s.loop.step worker eagerGather e = some loop) (c : Underway F)
      (found : s.calls i = some c) : loop.DisposedAt i ↔ s.loop.DisposedAt i :=
    disposedAt_of_moves (found ▸ coupled i) (Loop.taskMoves phases own stepped i)
  cases moves_of_step taken with
  | works e loop own stepped turned =>
    have silent : s.returned pb policy worker eagerGather (.worker e) ≠ some (i, reply) := by
      rw [Ne, returned_eq_some_iff, turned]
      rintro ⟨_, _, turned, _⟩
      contradiction
    rw [or_iff_left silent]
    exact returned_of_stays rfl (kept own stepped)
  | begins k e loop op own stepped idle made turned settles =>
    have fresh : ∀ reply, (Underway.start pb policy op).result? ≠ some (.ok reply) :=
      Underway.result?_start op
    have silent : s.returned pb policy worker eagerGather (.worker (.job k e)) ≠
        some (i, reply) := by
      rw [Ne, returned_eq_some_iff, turned]
      rintro ⟨c, _, same, _, _, ended⟩
      cases same
      exact fresh reply ended
    rw [or_iff_left silent]
    by_cases here : i = k
    · subst here
      refine iff_of_false ?_ ?_
      · rintro ⟨_, c, found, ended⟩
        rw [settles.calls, Function.update_self] at found
        cases found
        exact fresh reply ended
      · rintro ⟨_, c, found, _⟩
        rw [idle] at found
        contradiction
    · refine returned_of_stays ?_ fun c found =>
        (disposedAt_of_settles settles).trans (kept own stepped c found)
      rw [settles.calls]
      exact Function.update_of_ne here _ _
  | advances k e c c' found stepped turned settles =>
    by_cases here : i = k
    · subst here
      rw [or_iff_right (not_returned found (Underway.result?_of_step stepped))]
      exact returned_of_advances coupled phases found stepped turned settles
    · have silent : s.returned pb policy worker eagerGather (.call k e) ≠ some (i, reply) := by
        rw [Ne, returned_eq_some_iff, turned]
        rintro ⟨_, _, same, _⟩
        cases same
        exact here rfl
      rw [or_iff_left silent]
      refine returned_of_stays ?_ fun _ _ => disposedAt_of_settles settles
      rw [settles.calls]
      exact Function.update_of_ne here _ _

/-- A call that returns in a step has not returned before. -/
private theorem not_returned_of_returns {e : Event F} {reply' : Reply}
    (returns : s.returned pb policy worker eagerGather e = some (i, reply)) :
    ¬ s.Returned i reply' := by
  obtain ⟨c, _, turned, _⟩ := returned_eq_some_iff.mp returns
  rcases turn_cases turned with ⟨idle, _⟩ | ⟨before, e', found, stepped⟩
  · rintro ⟨_, c₀, found, _⟩
    rw [idle] at found
    contradiction
  · exact not_returned found (Underway.result?_of_step stepped)

/-! ## Whole runs -/

/-- What has been counted, against the calls. -/
structure Counted (s : Calling F) (counted : List (ℕ × Measurement)) : Prop where
  once : (counted.map Prod.fst).Nodup
  returned : ∀ i m, (i, m) ∈ counted ↔ ∃ reply, s.Returned i reply ∧ m = reply.measurement

theorem Counted.step {counted : List (ℕ × Measurement)} {e : Event F} (before : Counted s counted)
    (coupled : Coupled pb policy s)
    (phases : ∀ slot ∈ s.loop.slots, slot.task.Phase worker.autoExtend False)
    (taken : s.step pb policy worker eagerGather e = some s') :
    Counted s' (counted ++ s.measure pb policy worker eagerGather e) := by
  have next (i : ℕ) (reply : Reply) : s'.Returned i reply ↔
      s.Returned i reply ∨ s.returned pb policy worker eagerGather e = some (i, reply) :=
    returned_step coupled phases taken
  cases here : s.returned pb policy worker eagerGather e with
  | none =>
    simp only [here, reduceCtorEq, or_false] at next
    simp only [measure, here, Option.map_none, Option.toList_none, List.append_nil]
    exact ⟨before.once, by simpa only [next] using before.returned⟩
  | some turn =>
    obtain ⟨j, reply⟩ := turn
    simp only [here, Option.some.injEq, Prod.mk.injEq] at next
    simp only [measure, here, Option.map_some, Option.toList_some]
    refine ⟨?_, fun i m => ?_⟩
    · rw [List.map_append]
      refine before.once.append (List.nodup_singleton _) ?_
      rintro i old new
      obtain ⟨⟨_, m⟩, member, rfl⟩ := List.mem_map.mp old
      obtain rfl := List.mem_singleton.mp new
      obtain ⟨reply', unreturned, _⟩ := (before.returned _ m).mp member
      exact not_returned_of_returns here unreturned
    · rw [List.mem_append, List.mem_singleton, before.returned]
      constructor
      · rintro (⟨reply', old, rfl⟩ | same)
        · exact ⟨reply', (next i _).mpr (.inl old), rfl⟩
        · cases same
          exact ⟨reply, (next _ _).mpr (.inr ⟨rfl, rfl⟩), rfl⟩
      · rintro ⟨reply', after, rfl⟩
        rcases (next i reply').mp after with old | ⟨rfl, rfl⟩
        · exact .inl ⟨reply', old, rfl⟩
        · exact .inr rfl

/-- However the calls of a worker are retried, each job task is counted at most once, and exactly if
the call of `_dispose` has been answered with a response, as what that response says: an ack's as
processed, a nack's as nacked. -/
theorem counted_as_answered
    (run : Run (Steps (step pb policy worker eagerGather)) (init worker registry inFlight) es s) :
    let counted := collect (step pb policy worker eagerGather) (measure pb policy worker eagerGather)
      (init worker registry inFlight) es
    (counted.map Prod.fst).Nodup ∧
      ∀ i m, (i, m) ∈ counted ↔ ∃ t c resp, s.loop.taskAt i = some t ∧ t.disposed ≠ none ∧
        s.calls i = some c ∧ c.Answered resp ∧ c.op.Fits (.ok resp) ∧
        m = resp.reply.measurement := by
  intro counted
  have coupled := coupled_of_run run
  have record : Counted s counted := observed_of_run run Counted
    (fun coupled phases before taken => before.step coupled phases taken)
    ⟨List.nodup_nil, fun i m => iff_of_false List.not_mem_nil (by
      rintro ⟨reply, ⟨⟨t, found, _⟩, _⟩, _⟩
      cases found)⟩
  refine ⟨record.once, fun i m => (record.returned i m).trans ?_⟩
  constructor
  · rintro ⟨reply, ⟨⟨t, here, disposed⟩, c, found, ended⟩, rfl⟩
    obtain ⟨_, _, agrees, _⟩ := coupled.task_of_call found
    obtain ⟨resp, answered, rfl⟩ := (agrees.reached c rfl).result?_eq_ok_iff.mp ended
    have fits := (agrees.reached c rfl).fits_of_answered answered
    exact ⟨t, c, resp, here, disposed, found, answered, fits, rfl⟩
  · rintro ⟨t, c, resp, here, disposed, found, answered, _, rfl⟩
    obtain ⟨_, _, agrees, _⟩ := coupled.task_of_call found
    have ended := (agrees.reached c rfl).result?_eq_ok_iff.mpr ⟨resp, answered, rfl⟩
    exact ⟨resp.reply, ⟨⟨t, here, disposed⟩, c, found, ended⟩, rfl⟩

theorem counted_as_answered_flaky :
    let counted := collect (step .checked (.init 3) .sole true) (measure .checked (.init 3) .sole true)
      (init .sole JobTask.catchAllOnly 0) servesOne
    counted = [(0, .processed)] ∧ (counted.map Prod.fst).Nodup ∧
      ∃ t c resp, served.loop.taskAt 0 = some t ∧ t.disposed ≠ none ∧ served.calls 0 = some c ∧
        c.Answered resp ∧ c.op.Fits (.ok resp) ∧
        Measurement.processed = resp.reply.measurement := by
  have counted : collect (step .checked (.init 3 : RetryPolicy Binary64) .sole true)
      (measure .checked (.init 3) .sole true) (init .sole JobTask.catchAllOnly 0) servesOne =
        [(0, .processed)] := by decide +kernel
  obtain ⟨once, answered⟩ := counted_as_answered run_servesOne
  exact ⟨counted, once, (answered 0 .processed).mp (counted ▸ List.mem_singleton_self _)⟩

end Calling

end SeppPy
