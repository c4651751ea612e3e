import SeppPy.Worker.Answers

/-! # What becomes of the deliveries

A worker that nobody disturbs has an account of every delivery when its `run()` returns: the server
has been told how the handler ended and has answered, or it is known why not.
-/

namespace SeppPy.Calling

open Machine

variable {F : Type} [PyFloat F] {pb : Protobuf} {policy : RetryPolicy F} {worker : Worker}
  {eagerGather : Bool} {registry : Registry} {inFlight : ℤ} {es : List (Event F)} {s : Calling F}
  {i : ℕ} {t : JobTask} {call : Option (Underway F)}

/-- What has become of the delivery of a job task that has ended. -/
inductive Accounted (pb : Protobuf) (autoExtend : Option AutoExtend) (t : JobTask) :
    Option (Underway F) → Prop
  /-- The lease was taken for lost, so nothing has been sent. -/
  | left (lost : t.leaseLost = true) : Accounted pb autoExtend t none
  /-- The handler has come to no end that can be reported. -/
  | unreported (kept : t.leaseLost = false)
      (why : (∃ how, t.handlerEnd = some how ∧ ¬ how.Reportable) ∨ t.RaisedEarly autoExtend) :
    Accounted pb autoExtend t none
  /-- The server has answered the request that says how the handler has ended. -/
  | answered {c : Underway F} {req : LeaseRequest} {resp : LeaseResponse}
      (kept : t.leaseLost = false) (built : c.op.request pb = .ok req) (asked : t.Asks pb req)
      (answered : c.Answered resp) : Accounted pb autoExtend t (some c)
  /-- The disposal call has raised an error, without an answer. -/
  | failed {c : Underway F} {err : PyError} (kept : t.leaseLost = false)
      (asked : ∀ req, c.op.request pb = .ok req → t.Asks pb req)
      (raised : c.result? = some (.error err)) (unanswered : ∀ resp, ¬ c.Answered resp) :
    Accounted pb autoExtend t (some c)

/-- A job task that nobody has cancelled and that has made no call has had nothing to say. -/
private theorem accounted_of_silent {autoExtend : Option AutoExtend}
    (phase : t.Phase autoExtend True) (ended : t.Ended) (kept : t.leaseLost = false)
    (silent : t.calls = []) :
    (∃ how, t.handlerEnd = some how ∧ ¬ how.Reportable) ∨ t.RaisedEarly autoExtend := by
  rcases phase.disposed_of_quiet trivial ended kept with
    unhandled | ⟨error, disposed⟩ | ⟨_, ⟨how, handlerEnd, unsaid⟩ | early⟩
  · have made := unhandled.calls
    rw [silent] at made
    contradiction
  · obtain ⟨how, handlerEnd, verdict⟩ := disposed.handlerEnd
    refine .inl ⟨how, handlerEnd, fun reportable => ?_⟩
    obtain ⟨error', made, verdict', disposal⟩ := (how.reportable_iff t.job.ctx).mp reportable
    obtain rfl : error = error' := Option.some.inj (verdict.symm.trans verdict')
    have member : made ∈ t.calls := disposed.calls ▸ JobTask.mem_disposalCalls.mpr disposal
    rw [silent] at member
    contradiction
  · refine .inl ⟨how, handlerEnd, fun reportable => ?_⟩
    obtain ⟨error, made, verdict, _⟩ := (how.reportable_iff t.job.ctx).mp reportable
    rw [unsaid] at verdict
    contradiction
  · exact .inr early

/-- Once a job task that nobody has cancelled has ended, its delivery is accounted for. -/
theorem Agrees.accounted {autoExtend : Option AutoExtend} (agrees : Agrees pb policy t call)
    (phase : t.Phase autoExtend True) (ended : t.Ended) : Accounted pb autoExtend t call := by
  have made := agrees.made
  cases call with
  | none =>
    cases lost : t.leaseLost with
    | true => exact .left lost
    | false => exact .unreported lost (accounted_of_silent phase ended lost made)
  | some c =>
    have kept : t.leaseLost = false := by
      refine Bool.eq_false_iff.mpr fun lost => ?_
      rw [phase.calls_of_lost lost] at made
      contradiction
    have asked (req : LeaseRequest) (built : c.op.request pb = .ok req) : t.Asks pb req :=
      (JobTask.asks_of_calls phase made built).2
    have reached := agrees.reached c rfl
    cases final : c.result? with
    | none =>
      obtain ⟨how, at_pc⟩ := ended
      have waiting := agrees.waits.mpr ⟨c, rfl, final⟩
      simp [JobTask.Waiting, at_pc] at waiting
    | some result =>
      cases result with
      | ok reply =>
        obtain ⟨resp, answered, _⟩ := reached.result?_eq_ok_iff.mp final
        obtain ⟨req, built⟩ := reached.request_of_answered answered
        exact .answered kept built (asked req built) answered
      | error err =>
        refine .failed kept asked final fun resp answered => ?_
        have returned := reached.result?_eq_ok_iff.mpr ⟨resp, answered, rfl⟩
        rw [final] at returned
        cases returned

/-- A worker that nobody disturbs has an account of every delivery whose job task has ended, and when
its `run()` has returned that is every delivery it has spawned a task for. -/
theorem accounted_when_returned
    (run : Run (Guarded (Steps (step pb policy worker eagerGather)) (Sparing Loop.Undisturbed))
      (init worker registry inFlight) es s) (i : ℕ) (t : JobTask)
    (found : s.loop.taskAt i = some t) :
    (t.Ended → Accounted pb worker.autoExtend t (s.calls i)) ∧
      (s.loop.pc = .returned → t.Ended) := by
  have agrees := coupled_of_run run.unguarded i
  rw [found] at agrees
  obtain ⟨slot, here, rfl⟩ := Option.map_eq_some_iff.mp found
  have member : slot ∈ s.loop.slots := List.mem_of_getElem? here
  obtain ⟨es', own⟩ := run_of_loop (fun w i result => ⟨trivial, nofun⟩) run
  obtain ⟨es'', quiet, history⟩ := Loop.slots_undisturbed own slot member
  have phase := (JobTask.reached_of_run True (fun _ => quiet) history).phase
  refine ⟨Agrees.accounted agrees phase, fun returned => ?_⟩
  have covers := Loop.covers_of_run own.unguarded
  rw [returned] at covers
  exact (covers slot member).1

theorem accounted_when_returned_acked :
    ∃ t, served.loop.taskAt 0 = some t ∧ t.Ended ∧ Accounted .checked none t (served.calls 0) := by
  have run : Run (Guarded (Steps (step .checked (.init 3) .sole true)) (Sparing Loop.Undisturbed))
      (init .sole JobTask.catchAllOnly 0) servesOne served := by
    refine run_servesOne.guard fun s e member => ?_
    simp only [servesOne, Loop.reserved, List.map_cons, List.map_nil, List.cons_append,
      List.nil_append, List.mem_cons, List.not_mem_nil, or_false] at member
    rcases member with rfl | rfl | rfl | rfl | rfl | rfl | rfl | rfl | rfl | rfl | rfl | rfl | rfl |
      rfl | rfl | rfl | rfl | rfl | rfl
    all_goals first
      | trivial
      | refine ⟨trivial, ?_⟩
        rintro _ ⟨⟩
    exact .inl fun same => by cases same
  obtain ⟨t, found⟩ := Option.isSome_iff_exists.mp
    (show (served.loop.taskAt 0).isSome = true by decide +kernel)
  have returned : served.loop.pc = .returned := by decide +kernel
  obtain ⟨accounted, ends⟩ := accounted_when_returned run 0 t found
  exact ⟨t, found, ends returned, accounted (ends returned)⟩

end SeppPy.Calling
