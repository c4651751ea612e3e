import SeppPy.Client.Underway
import SeppPy.Worker.Exits
import SeppPy.Worker.Verdicts

/-! # A worker and its disposal calls

`Loop` takes the end of an ack or a nack for an event. Here that call is a coroutine of the client:
the job task that makes it waits while its attempts are on their way and while it sleeps between
them, and goes on in the step in which it ends. Nothing is assumed of the server: an attempt ends in
any response of its kind or in any error, and as late as it likes.
-/

namespace SeppPy

open Machine

namespace JobTask

variable {autoExtend : Option AutoExtend} {quiet : Prop} {t t' : JobTask}

/-- The task waits for its disposal call. -/
def Waiting (t : JobTask) : Prop := t.pc = .noHandler ∨ t.pc = .disposing

/-- The task has made no call in the step, or the one that it waits for from then on. -/
def Calls (t t' : JobTask) : Prop :=
  (t'.calls = t.calls ∧ (t.calls ≠ [] → t'.pc = t.pc ∧ t'.disposed = t.disposed) ∧
    (t'.Waiting → t.Waiting)) ∨
  t.calls = [] ∧ t'.Waiting ∧ ∃ op, t'.calls = [op]

/-- The call of a task that has made none. -/
private theorem calls_dispose (error : Option HandlerException) (silent : t.calls = []) :
    (t.dispose error).calls = [] ∧ ¬ (t.dispose error).Waiting ∨
      (t.dispose error).Waiting ∧ ∃ op, (t.dispose error).calls = [op] := by
  unfold dispose
  split
  · exact .inr ⟨.inr rfl, _, congrArg (· ++ _) silent⟩
  · exact .inl ⟨silent, by simp [Waiting]⟩

private theorem calls_conclude (outcome : Outcome) (silent : t.calls = []) :
    (t.conclude outcome).calls = [] ∧ ¬ (t.conclude outcome).Waiting ∨
      (t.conclude outcome).Waiting ∧ ∃ op, (t.conclude outcome).calls = [op] := by
  cases outcome with
  | completed => exact calls_dispose none silent
  | failed err => exact calls_dispose (some err) silent
  | leaseLost => exact .inl ⟨silent, by simp [conclude, Waiting]⟩

private theorem calls_endPlain (how : HandlerEnd) (silent : t.calls = []) :
    (t.endPlain how).calls = [] ∧ ¬ (t.endPlain how).Waiting ∨
      (t.endPlain how).Waiting ∧ ∃ op, (t.endPlain how).calls = [op] := by
  unfold endPlain
  split
  · exact calls_conclude _ silent
  · exact calls_conclude _ silent
  · exact .inl ⟨silent, by simp [Waiting]⟩

private theorem calls_resumeReap (pending : Pending) (silent : t.calls = []) :
    (t.resumeReap pending).calls = [] ∧ ¬ (t.resumeReap pending).Waiting ∨
      (t.resumeReap pending).Waiting ∧ ∃ op, (t.resumeReap pending).calls = [op] := by
  unfold resumeReap
  split
  · exact .inl ⟨silent, by simp [Waiting]⟩
  · split
    · exact .inl ⟨silent, by simp [Waiting]⟩
    · exact calls_conclude _ silent

private theorem Calls.of_silent (silent : t.calls = [])
    (made : t'.calls = [] ∧ ¬ t'.Waiting ∨ t'.Waiting ∧ ∃ op, t'.calls = [op]) : t.Calls t' := by
  rcases made with ⟨none, idle⟩ | made
  · exact .inl ⟨none.trans silent.symm, fun some => absurd silent some, fun here => absurd here idle⟩
  · exact .inr ⟨silent, made⟩

private theorem waiting_congr (pc : t'.pc = t.pc) : t'.Waiting ↔ t.Waiting := by
  rw [Waiting, Waiting, pc]

private theorem Calls.of_kept (calls : t'.calls = t.calls) (pc : t'.pc = t.pc)
    (disposed : t'.disposed = t.disposed) : t.Calls t' :=
  .inl ⟨calls, fun _ => ⟨pc, disposed⟩, (waiting_congr pc).mp⟩

private theorem calls_of_cancel (t : JobTask) : t.Calls t.cancel := by
  refine .of_kept (calls_cancel t) t.pc_cancel ?_
  unfold cancel
  split <;> rfl

/-- The end of its call apart, a task's step makes its call or leaves the wait for it alone. -/
theorem calls_of_step {e : Event} (phase : t.Phase autoExtend quiet)
    (own : ∀ result, e ≠ .callEnds result) (taken : t.step autoExtend e = some t') :
    t.Calls t' := by
  have fresh (created : t.pc = .created) : t.calls = [] := by
    simp only [Phase, created] at phase
    exact phase.calls
  -- a task that has made no call is elsewhere than at one
  have moves {pc : Pc} (silent : t.calls = []) (calls : t'.calls = t.calls) (here : t'.pc = pc)
      (other : pc ≠ .noHandler ∧ pc ≠ .disposing) : t.Calls t' :=
    .of_silent silent (.inl ⟨calls.trans silent, by simp [Waiting, here, other]⟩)
  cases moves_of_step taken with
  | cancelledEarly _ _ created | raisesInExtended _ _ _ created | callsPlain _ _ created
  | callsExtended _ _ created => exact moves (fresh created) rfl rfl (by simp)
  | unhandled registry call created => exact .inr ⟨fresh created, .inl rfl, _, rfl⟩
  | raisesInPlain _ what _ created =>
    have silent := fresh created
    exact .of_silent silent (calls_endPlain _ silent)
  | endsPlain how at_pc =>
    simp only [Phase, at_pc] at phase
    have silent := phase.undisposed.calls
    exact .of_silent silent (calls_endPlain how silent)
  | resumesHandler how at_pc =>
    simp only [Phase, at_pc] at phase
    have reaps : (t.resumeHandler how).pc = .reap _ := rfl
    exact moves phase.undisposed.calls rfl reaps (by simp)
  | resumesReap pending at_pc =>
    simp only [Phase, at_pc] at phase
    have silent := phase.undisposed.calls
    exact .of_silent silent (calls_resumeReap pending silent)
  | endsTask | beats | givesUp | ctxExtends => exact .of_kept rfl rfl rfl
  | callEnds result => exact absurd rfl (own result)
  | cancel => exact calls_of_cancel t

end JobTask

namespace Loop

variable {worker : Worker} {eagerGather : Bool} {w w' : Loop} {i : ℕ}

/-- The job task with this number. -/
def taskAt (w : Loop) (i : ℕ) : Option JobTask := (w.slots[i]?).map Slot.task

/-- The disposal call that it has made. -/
def callOf (w : Loop) (i : ℕ) : Option Call := (w.taskAt i).bind fun t => t.calls.head?

private theorem taskAt_set {slot : Slot} (slot' : Slot) (found : w.slots[i]? = some slot)
    (slots : w'.slots = w.slots.set i slot') (j : ℕ) :
    w'.taskAt j = if j = i then some slot'.task else w.taskAt j := by
  have bound := (List.getElem?_eq_some_iff.mp found).1
  split
  · next here => rw [taskAt, slots, here, List.getElem?_set_self bound, Option.map_some]
  · next other => rw [taskAt, slots, List.getElem?_set_ne (Ne.symm other), taskAt]

/-- A step of a job task. -/
theorem jobStep_eq {e : JobTask.Event} (taken : w.step worker eagerGather (.job i e) = some w') :
    ∃ t t', w.taskAt i = some t ∧ t.step worker.autoExtend e = some t' ∧
      ∀ j, w'.taskAt j = if j = i then some t' else w.taskAt j := by
  cases moves_of_step taken with
  | child moved => cases moved
  | @job _ _ slot task _ found stepped =>
    refine ⟨slot.task, task, congrArg (Option.map Slot.task) found, stepped, fun j => ?_⟩
    exact taskAt_set { slot with task } found rfl j

theorem exists_jobStep {t t' : JobTask} {e : JobTask.Event} (found : w.taskAt i = some t)
    (seen : sees w.registry e = true) (taken : t.step worker.autoExtend e = some t') :
    ∃ w', w.step worker eagerGather (.job i e) = some w' := by
  obtain ⟨slot, here, rfl⟩ := Option.map_eq_some_iff.mp found
  refine ⟨{ w with slots := w.slots.set i { slot with task := t' } }, ?_⟩
  simp only [step, jobStep, seen, ↓reduceIte, here, Option.bind_some, taken, Option.map_some]

/-- The task of a call goes on when the call ends, whatever the result. -/
theorem exists_callEnds (worker : Worker) (eagerGather : Bool) {t : JobTask}
    (found : w.taskAt i = some t) (waiting : t.Waiting) (result : Except PyError Unit) :
    ∃ w', w.step worker eagerGather (.job i (.callEnds result)) = some w' := by
  have goesOn : t.step worker.autoExtend (.callEnds result) =
      some { t with pc := .ended (disposalEnd result) } := by
    rcases waiting with at_pc | at_pc <;> simp only [JobTask.step, JobTask.callEnds, at_pc]
  exact exists_jobStep found rfl goesOn

/-- What has become of the job task with this number, its disposal call apart. -/
inductive TaskMoves (e : Event) (i : ℕ) : Option JobTask → Option JobTask → Prop
  | absent : TaskMoves e i none none
  | spawned (job : Job) : TaskMoves e i none (some (.spawned job))
  | steps {t t' : JobTask} (calls : t.Calls t')
      (silent : (∀ e', e ≠ .job i e') → t'.calls = t.calls) : TaskMoves e i (some t) (some t')

private theorem TaskMoves.stays {e : Event} {task : Option JobTask} : TaskMoves e i task task := by
  cases task with
  | none => exact .absent
  | some t => exact .steps (.inl ⟨rfl, fun _ => ⟨rfl, rfl⟩, id⟩) fun _ => rfl

/-- A step of the worker other than the end of a disposal call. -/
theorem taskMoves {e : Event} (phases : ∀ slot ∈ w.slots, slot.task.Phase worker.autoExtend False)
    (own : ∀ i result, e ≠ .job i (.callEnds result))
    (taken : w.step worker eagerGather e = some w') (i : ℕ) :
    TaskMoves e i (w.taskAt i) (w'.taskAt i) := by
  cases slotsMove_of_step taken with
  | kept slots =>
    rw [taskAt, taskAt, slots]
    exact .stays
  | spawned job slots =>
    by_cases bound : i < w.slots.length
    · rw [taskAt, taskAt, slots, List.getElem?_append_left bound]
      exact .stays
    · have outside := Nat.le_of_not_lt bound
      rw [taskAt, taskAt, slots, List.getElem?_append_right outside, List.getElem?_eq_none outside,
        Option.map_none]
      cases found : [Slot.mk (.spawned job) false false][i - w.slots.length]? with
      | none => exact .absent
      | some slot =>
        obtain rfl := List.mem_singleton.mp (List.mem_of_getElem? found)
        exact .spawned job
  | moved j e' slot task which found stepped slots =>
    rw [taskAt_set _ found slots]
    split
    · next here =>
      subst here
      have task_eq : w.taskAt i = some slot.task := congrArg (Option.map Slot.task) found
      rw [task_eq]
      refine .steps (JobTask.calls_of_step (phases slot (List.mem_of_getElem? found)) ?_ stepped) ?_
      · intro result same
        exact own i result (which.trans (congrArg _ same))
      · intro other
        exact absurd which (other e')
    · exact .stays
  | reaped j slot found slots =>
    rw [taskAt_set _ found slots]
    split
    · next here =>
      subst here
      have task_eq : w.taskAt i = some slot.task := congrArg (Option.map Slot.task) found
      rw [task_eq]
      exact .stays
    · exact .stays
  | cancelled why slots =>
    rw [taskAt, taskAt, slots, cancelTasks, List.getElem?_map]
    cases w.slots[i]? with
    | none => exact .absent
    | some slot =>
      rw [Option.map_some, Option.map_some, Option.map_some]
      split
      · exact .stays
      · exact .steps (JobTask.calls_of_cancel _) fun _ => JobTask.calls_cancel _

end Loop

/-- A worker's run, and the disposal calls of its job tasks by the number of the task. -/
structure Calling (F : Type) where
  loop : Loop
  calls : ℕ → Option (Underway F)

namespace Calling

variable {F : Type}

def init (worker : Worker) (registry : Registry) (inFlight : ℤ) : Calling F :=
  ⟨.init worker registry inFlight, fun _ => none⟩

inductive Event (F : Type)
  /-- A step of the worker that is not the end of a disposal call. -/
  | worker (e : Loop.Event)
  /-- What a disposal call awaits ends. -/
  | call (i : ℕ) (e : RetryCall.Event F LeaseResponse)

variable [PyFloat F] (pb : Protobuf) (policy : RetryPolicy F) (worker : Worker) (eagerGather : Bool)

/-- The disposal call that gets on in a step, up to its next `await` or to its end. -/
def turn (s : Calling F) : Event F → Option (ℕ × Underway F)
  | .worker (.job i e) =>
    match s.calls i with
    | none => (s.loop.step worker eagerGather (.job i e)).bind fun loop =>
      (loop.callOf i).map fun op => (i, .start pb policy op)
    | some _ => none
  | .worker _ => none
  | .call i e => (s.calls i).bind fun c => (c.step policy e).map fun c => (i, c)

/-- The call has got there; where that is its end, the job task goes on with it. -/
def settle (s : Calling F) (i : ℕ) (c : Underway F) : Option (Calling F) :=
  let s := { s with calls := Function.update s.calls i (some c) }
  match c.result? with
  | none => some s
  | some result =>
    (s.loop.step worker eagerGather (.job i (.callEnds (result.map fun _ => ())))).map fun loop =>
      { s with loop }

def step (s : Calling F) : Event F → Option (Calling F)
  | .worker (.job _ (.callEnds _)) => none
  | .worker e =>
    (s.loop.step worker eagerGather e).bind fun loop =>
      match s.turn pb policy worker eagerGather (.worker e) with
      | none => some { s with loop }
      | some (i, c) => settle worker eagerGather { s with loop } i c
  | .call i e =>
    (s.turn pb policy worker eagerGather (.call i e)).bind fun turn =>
      s.settle worker eagerGather turn.1 turn.2

/-! ## What a step can do -/

variable {pb policy worker eagerGather} {s s' : Calling F} {i : ℕ}

/-- What a call that has got to `c` does to the worker. -/
inductive Settles (worker : Worker) (eagerGather : Bool) (s : Calling F) (i : ℕ) (c : Underway F) :
    Calling F → Prop
  | waits (underWay : c.result? = none) :
    Settles worker eagerGather s i c { s with calls := Function.update s.calls i (some c) }
  | ends (result : Except PyError Reply) (loop : Loop) (ended : c.result? = some result)
      (goesOn : s.loop.step worker eagerGather (.job i (.callEnds (result.map fun _ => ()))) =
        some loop) :
    Settles worker eagerGather s i c ⟨loop, Function.update s.calls i (some c)⟩

omit [PyFloat F] in
private theorem settles_of_settle {c : Underway F}
    (settled : s.settle worker eagerGather i c = some s') :
    Settles worker eagerGather s i c s' := by
  unfold settle at settled
  split at settled
  · next underWay =>
    cases settled
    exact .waits underWay
  · next result ended =>
    obtain ⟨loop, goesOn, rfl⟩ := Option.map_eq_some_iff.mp settled
    exact .ends result loop ended goesOn

variable (pb policy worker eagerGather s) in
/-- What a step can do, with the conditions under which it does. -/
inductive Moves : Event F → Calling F → Prop
  | works (e : Loop.Event) (loop : Loop) (own : ∀ i result, e ≠ .job i (.callEnds result))
      (taken : s.loop.step worker eagerGather e = some loop)
      (turned : s.turn pb policy worker eagerGather (.worker e) = none) :
    Moves (.worker e) { s with loop }
  | begins (i : ℕ) (e : JobTask.Event) (loop : Loop) (op : Call) {s' : Calling F}
      (own : ∀ i' result, Loop.Event.job i e ≠ .job i' (.callEnds result))
      (taken : s.loop.step worker eagerGather (.job i e) = some loop) (idle : s.calls i = none)
      (made : loop.callOf i = some op)
      (turned : s.turn pb policy worker eagerGather (.worker (.job i e)) =
        some (i, .start pb policy op))
      (settles : Settles worker eagerGather { s with loop } i (.start pb policy op) s') :
    Moves (.worker (.job i e)) s'
  | advances (i : ℕ) (e : RetryCall.Event F LeaseResponse) (c c' : Underway F) {s' : Calling F}
      (found : s.calls i = some c) (taken : c.step policy e = some c')
      (turned : s.turn pb policy worker eagerGather (.call i e) = some (i, c'))
      (settles : Settles worker eagerGather s i c' s') :
    Moves (.call i e) s'

/-- Where no call begins, no task that has none has made one. -/
theorem silent_of_turn {loop : Loop} {e : JobTask.Event} (idle : s.calls i = none)
    (taken : s.loop.step worker eagerGather (.job i e) = some loop)
    (turned : s.turn pb policy worker eagerGather (.worker (.job i e)) = none) :
    loop.callOf i = none := by
  simpa only [turn, idle, taken, Option.bind_some, Option.map_eq_none_iff] using turned

/-- A call begins when its job task makes it. -/
theorem begins_of_turn {e : Loop.Event} {c : Underway F}
    (turned : s.turn pb policy worker eagerGather (.worker e) = some (i, c)) :
    ∃ e' loop op, e = .job i e' ∧ s.calls i = none ∧
      s.loop.step worker eagerGather (.job i e') = some loop ∧ loop.callOf i = some op ∧
      c = .start pb policy op := by
  unfold turn at turned
  split at turned
  · next same =>
    cases same
    split at turned
    · next idle =>
      obtain ⟨loop, stepped, rest⟩ := Option.bind_eq_some_iff.mp turned
      obtain ⟨op, made, same⟩ := Option.map_eq_some_iff.mp rest
      cases same
      exact ⟨_, loop, op, rfl, idle, stepped, made, rfl⟩
    · contradiction
  · contradiction
  · contradiction

/-- A step of the worker, and the call that it makes. -/
theorem step_worker {e : Loop.Event} (own : ∀ i result, e ≠ .job i (.callEnds result)) :
    s.step pb policy worker eagerGather (.worker e) =
      (s.loop.step worker eagerGather e).bind fun loop =>
        match s.turn pb policy worker eagerGather (.worker e) with
        | none => some { s with loop }
        | some (i, c) => settle worker eagerGather { s with loop } i c := by
  unfold step
  split
  · next same =>
    cases same
    exact absurd rfl (own _ _)
  · next same =>
    cases same
    rfl
  · next same => cases same

theorem moves_of_step {e : Event F} (taken : s.step pb policy worker eagerGather e = some s') :
    Moves pb policy worker eagerGather s e s' := by
  cases e with
  | worker e =>
    have own : ∀ i result, e ≠ .job i (.callEnds result) := by
      rintro i result rfl
      contradiction
    rw [step_worker own] at taken
    obtain ⟨loop, stepped, rest⟩ := Option.bind_eq_some_iff.mp taken
    split at rest
    · next turned =>
      cases rest
      exact .works e loop own stepped turned
    · next i c turned =>
      obtain ⟨e', loop', op, rfl, idle, stepped', made, rfl⟩ := begins_of_turn turned
      obtain rfl := Option.some.inj (stepped.symm.trans stepped')
      exact .begins i e' loop op own stepped idle made turned (settles_of_settle rest)
  | call i e =>
    obtain ⟨⟨i', c'⟩, turned, settled⟩ := Option.bind_eq_some_iff.mp taken
    obtain ⟨c, found, moved⟩ := Option.bind_eq_some_iff.mp turned
    obtain ⟨c'', stepped, same⟩ := Option.map_eq_some_iff.mp moved
    cases same
    exact .advances i e c c' found stepped turned (settles_of_settle settled)

omit [PyFloat F] in
theorem Settles.calls {c : Underway F} (settles : Settles worker eagerGather s i c s') :
    s'.calls = Function.update s.calls i (some c) := by
  cases settles <;> rfl

/-- A step moves one call at most. -/
theorem calls_of_step {e : Event F} (taken : s.step pb policy worker eagerGather e = some s') :
    s'.calls = (s.turn pb policy worker eagerGather e).elim s.calls fun turn =>
      Function.update s.calls turn.1 (some turn.2) := by
  cases moves_of_step taken with
  | works e loop own stepped turned => rw [turned, Option.elim_none]
  | begins i e loop op own stepped idle made turned settles =>
    rw [turned, Option.elim_some, settles.calls]
  | advances i e c c' found stepped turned settles =>
    rw [turned, Option.elim_some, settles.calls]

/-- A call that moves has just begun or has been under way. -/
theorem turn_cases {e : Event F} {c : Underway F}
    (turned : s.turn pb policy worker eagerGather e = some (i, c)) :
    (s.calls i = none ∧ ∃ op, c = .start pb policy op) ∨
      ∃ before e', s.calls i = some before ∧ before.step policy e' = some c := by
  cases e with
  | worker e =>
    obtain ⟨_, _, op, _, idle, _, _, same⟩ := begins_of_turn turned
    exact .inl ⟨idle, op, same⟩
  | call j e =>
    obtain ⟨before, found, rest⟩ := Option.bind_eq_some_iff.mp turned
    obtain ⟨c', stepped, same⟩ := Option.map_eq_some_iff.mp rest
    cases same
    exact .inr ⟨before, e, found, stepped⟩

/-! ## The worker's own run -/

/-- The worker's steps are allowed; those of the calls are free. -/
def Sparing (allow : Loop → Loop.Event → Prop) (s : Calling F) : Event F → Prop
  | .worker e => allow s.loop e
  | .call _ _ => True

omit [PyFloat F] in
private theorem loop_of_settles {c : Underway F} {allow : Loop → Loop.Event → Prop}
    (ends : ∀ w i result, allow w (.job i (.callEnds result)))
    (settles : Settles worker eagerGather s i c s') :
    ∃ es, Run (Guarded (Steps (Loop.step worker eagerGather)) allow) s.loop es s'.loop := by
  cases settles with
  | waits => exact ⟨[], .nil _⟩
  | ends result loop _ goesOn => exact ⟨_, .single ⟨goesOn, ends _ _ _⟩⟩

private theorem loop_of_step {allow : Loop → Loop.Event → Prop} {e : Event F}
    (ends : ∀ w i result, allow w (.job i (.callEnds result))) (spared : Sparing allow s e)
    (taken : s.step pb policy worker eagerGather e = some s') :
    ∃ es, Run (Guarded (Steps (Loop.step worker eagerGather)) allow) s.loop es s'.loop := by
  cases moves_of_step taken with
  | works e loop _ stepped => exact ⟨_, .single ⟨stepped, spared⟩⟩
  | begins i e loop op _ stepped _ _ _ settles =>
    obtain ⟨es, rest⟩ := loop_of_settles ends settles
    exact ⟨_, .cons ⟨stepped, spared⟩ rest⟩
  | advances i e c c' _ _ _ settles => exact loop_of_settles ends settles

/-- With its calls under way a worker runs as it does when their ends are given. -/
theorem run_of_loop {allow : Loop → Loop.Event → Prop} {registry : Registry} {inFlight : ℤ}
    {es : List (Event F)} (ends : ∀ w i result, allow w (.job i (.callEnds result)))
    (run : Run (Guarded (Steps (step pb policy worker eagerGather)) (Sparing allow))
      (init worker registry inFlight) es s) :
    ∃ es', Run (Guarded (Steps (Loop.step worker eagerGather)) allow)
      (.init worker registry inFlight) es' s.loop :=
  run.simulate (fun _ => True) Calling.loop (fun _ _ => trivial)
    (fun _ taken => loop_of_step ends taken.2 taken.1) trivial

theorem exists_loop_run {registry : Registry} {inFlight : ℤ} {es : List (Event F)}
    (run : Run (Steps (step pb policy worker eagerGather)) (init worker registry inFlight) es s) :
    ∃ es', Run (Steps (Loop.step worker eagerGather)) (.init worker registry inFlight) es'
      s.loop := by
  have spared : Run (Guarded (Steps (step pb policy worker eagerGather))
      (Sparing fun _ _ => True)) (init worker registry inFlight) es s :=
    run.guard fun _ e _ => by cases e <;> trivial
  obtain ⟨es', own⟩ := run_of_loop (fun _ _ _ => trivial) spared
  exact ⟨es', own.unguarded⟩

/-! ## What a task and its call agree on -/

/-- The task has made its call and no other, waits as long as that is under way, and ends with it. -/
structure Agrees (pb : Protobuf) (policy : RetryPolicy F) (t : JobTask)
    (call : Option (Underway F)) : Prop where
  made : t.calls = (call.map Underway.op).toList
  reached : ∀ c, call = some c → c.Reached pb policy
  waits : t.Waiting ↔ ∃ c, call = some c ∧ c.result? = none
  ended : ∀ c result, call = some c → c.result? = some result →
    t.pc = .ended (disposalEnd (result.map fun _ => ()))

variable (pb policy) in
/-- The job task with this number agrees with its call; without a task there is no call. -/
def AgreesAt (task : Option JobTask) (call : Option (Underway F)) : Prop :=
  match task with
  | some t => Agrees pb policy t call
  | none => call = none

variable (pb policy) in
/-- Every job task agrees with its call, and there are no other calls. -/
def Coupled (s : Calling F) : Prop := ∀ i, AgreesAt pb policy (s.loop.taskAt i) (s.calls i)

variable {t t' : JobTask} {call : Option (Underway F)} {op : Call}

private theorem agrees_spawned (job : Job) : Agrees pb policy (.spawned job) none where
  made := rfl
  reached _ some := by cases some
  waits := iff_of_false (by simp [JobTask.Waiting, JobTask.spawned]) (by simp)
  ended _ _ some := by cases some

private theorem Agrees.call_of_calls (agrees : Agrees pb policy t call) (silent : t.calls = []) :
    call = none := by
  have made := agrees.made
  rw [silent] at made
  cases call with
  | none => rfl
  | some c => cases made

/-- A step that makes no call. -/
private theorem Agrees.keep (agrees : Agrees pb policy t call) (calls : t.Calls t')
    (silent : call = none → t'.calls = []) : Agrees pb policy t' call := by
  rcases calls with ⟨same, still, idle⟩ | ⟨before, _, op, made⟩
  · have here {c : Underway F} (found : call = some c) : t'.pc = t.pc := by
      refine (still fun none => ?_).1
      rw [agrees.call_of_calls none] at found
      contradiction
    refine ⟨same.trans agrees.made, agrees.reached,
      ⟨fun waiting => agrees.waits.mp (idle waiting), ?_⟩,
      fun c result found ended => (here found).trans (agrees.ended c result found ended)⟩
    rintro ⟨c, found, underWay⟩
    exact (JobTask.waiting_congr (here found)).mpr (agrees.waits.mpr ⟨c, found, underWay⟩)
  · have after := silent (agrees.call_of_calls before)
    rw [made] at after
    contradiction

/-- A step that makes the call. -/
private theorem Agrees.make (agrees : Agrees pb policy t none) (calls : t.Calls t')
    (made : t'.calls.head? = some op) : t'.calls = [op] ∧ t'.Waiting := by
  rcases calls with ⟨same, _⟩ | ⟨_, waiting, op', only⟩
  · rw [same, agrees.made] at made
    contradiction
  · rw [only] at made
    cases made
    exact ⟨only, waiting⟩

/-- The task of a call that is over has gone on with it. -/
private theorem agrees_over {c : Underway F} {result : Except PyError Reply}
    {autoExtend : Option AutoExtend} (made : t.calls = [c.op]) (reached : c.Reached pb policy)
    (ended : c.result? = some result)
    (goesOn : t.step autoExtend (.callEnds (result.map fun _ => ())) = some t') :
    Agrees pb policy t' (some c) := by
  cases JobTask.moves_of_step goesOn with
  | beats _ _ beat => exact beat.elim
  | callEnds =>
    refine ⟨made, fun c' same => Option.some.inj same ▸ reached, iff_of_false ?_ ?_, ?_⟩
    · simp [JobTask.Waiting]
    · rintro ⟨c', same, underWay⟩
      cases same
      rw [ended] at underWay
      contradiction
    · rintro c' result' same ended'
      cases same
      rw [ended] at ended'
      cases ended'
      rfl

/-- The task of a call that is not over waits for it. -/
private theorem agrees_underWay {c : Underway F} (made : t.calls = [c.op])
    (reached : c.Reached pb policy) (underWay : c.result? = none) (waiting : t.Waiting) :
    Agrees pb policy t (some c) := by
  refine ⟨made, fun c' same => Option.some.inj same ▸ reached,
    iff_of_true waiting ⟨c, rfl, underWay⟩, ?_⟩
  rintro c' result same ended
  cases same
  rw [underWay] at ended
  contradiction

/-- A call has got to where it is, and its task with it; to the others that is nothing. -/
private theorem agreesAt_of_settles {c : Underway F} (settles : Settles worker eagerGather s i c s')
    (found : s.loop.taskAt i = some t) (made : t.calls = [c.op]) (reached : c.Reached pb policy)
    (waiting : t.Waiting) (others : ∀ j, j ≠ i → AgreesAt pb policy (s.loop.taskAt j) (s.calls j)) :
    Coupled pb policy s' := by
  intro j
  cases settles with
  | waits underWay =>
    show AgreesAt pb policy (s.loop.taskAt j) (Function.update s.calls i (some c) j)
    by_cases here : j = i
    · rw [here, Function.update_self, found]
      exact agrees_underWay made reached underWay waiting
    · rw [Function.update_of_ne here]
      exact others j here
  | ends result loop ended goesOn =>
    obtain ⟨t₁, t', found', stepped, tasks⟩ := Loop.jobStep_eq goesOn
    obtain rfl := Option.some.inj (found.symm.trans found')
    show AgreesAt pb policy (loop.taskAt j) (Function.update s.calls i (some c) j)
    rw [tasks]
    by_cases here : j = i
    · rw [if_pos here, here, Function.update_self]
      exact agrees_over made reached ended stepped
    · rw [if_neg here, Function.update_of_ne here]
      exact others j here

/-- A step of the worker that makes no call at this number. -/
private theorem AgreesAt.keep {e : Loop.Event} {task task' : Option JobTask}
    (agrees : AgreesAt pb policy task call) (moves : Loop.TaskMoves e i task task')
    (silent : ∀ e', e = .job i e' → call = none → task'.bind (fun t => t.calls.head?) = none) :
    AgreesAt pb policy task' call := by
  cases moves with
  | absent => exact agrees
  | spawned job =>
    obtain rfl : call = none := agrees
    exact agrees_spawned job
  | @steps t t' calls kept =>
    have agrees : Agrees pb policy t call := agrees
    refine agrees.keep calls fun idle => ?_
    by_cases job : ∃ e', e = .job i e'
    · obtain ⟨e', same⟩ := job
      exact List.head?_eq_none_iff.mp (silent e' same idle)
    · rw [kept fun e' same => job ⟨e', same⟩, agrees.made, idle]
      rfl

/-- A task that has just made its call waits for it. -/
theorem Coupled.waiting_of_callOf {e : Loop.Event} {loop : Loop} (coupled : Coupled pb policy s)
    (phases : ∀ slot ∈ s.loop.slots, slot.task.Phase worker.autoExtend False)
    (own : ∀ i result, e ≠ .job i (.callEnds result))
    (taken : s.loop.step worker eagerGather e = some loop) (idle : s.calls i = none)
    (made : loop.callOf i = some op) :
    ∃ t, loop.taskAt i = some t ∧ t.calls = [op] ∧ t.Waiting := by
  have before := coupled i
  have moved := Loop.taskMoves phases own taken i
  rw [idle] at before
  cases here : loop.taskAt i with
  | none => simp [Loop.callOf, here] at made
  | some t' =>
    rw [Loop.callOf, here, Option.bind_some] at made
    rw [here] at moved
    cases found : s.loop.taskAt i with
    | none =>
      rw [found] at moved
      cases moved
      contradiction
    | some t =>
      rw [found] at moved before
      cases moved with
      | steps calls => exact ⟨t', rfl, Agrees.make before calls made⟩

theorem Coupled.step {e : Event F} (coupled : Coupled pb policy s)
    (phases : ∀ slot ∈ s.loop.slots, slot.task.Phase worker.autoExtend False)
    (taken : s.step pb policy worker eagerGather e = some s') : Coupled pb policy s' := by
  cases moves_of_step taken with
  | works e loop own stepped turned =>
    intro i
    refine (coupled i).keep (Loop.taskMoves phases own stepped i) ?_
    rintro e' rfl idle
    exact silent_of_turn idle stepped turned
  | begins i e loop op own stepped idle made turned settles =>
    obtain ⟨t', here, only, waiting⟩ := coupled.waiting_of_callOf phases own stepped idle made
    refine agreesAt_of_settles settles here (only.trans (by rw [Underway.op_start]))
      (Underway.reached_start op) waiting fun j other => ?_
    refine (coupled j).keep (Loop.taskMoves phases own stepped j) ?_
    rintro e' same
    cases same
    exact absurd rfl other
  | advances i e c c' found stepped turned settles =>
    have before := coupled i
    cases here : s.loop.taskAt i with
    | none =>
      rw [here, found] at before
      contradiction
    | some t =>
      rw [here] at before
      have waiting := before.waits.mpr ⟨c, found, Underway.result?_of_step stepped⟩
      have made := before.made
      rw [found] at made
      exact agreesAt_of_settles settles here (made.trans (by rw [Underway.op_step stepped]; rfl))
        ((before.reached c found).step stepped) waiting fun j _ => coupled j

theorem coupled_of_run {registry : Registry} {inFlight : ℤ} {es : List (Event F)}
    (run : Run (Steps (Calling.step pb policy worker eagerGather)) (init worker registry inFlight)
      es s) : Coupled pb policy s := by
  have both := run.invariant
    (fun s => (∃ es, Run (Steps (Calling.step pb policy worker eagerGather))
      (init worker registry inFlight) es s) ∧ Coupled pb policy s)
    (fun {a e b} before taken => by
      obtain ⟨⟨es, run⟩, coupled⟩ := before
      obtain ⟨_, own⟩ := exists_loop_run run
      exact ⟨⟨_, run.snoc taken⟩, coupled.step (Loop.slots_phase own) taken⟩)
    ⟨⟨[], .nil _⟩, fun _ => rfl⟩
  exact both.2

/-- One job, whose ack is answered at its second attempt, and the shutdown of the worker. -/
def servesOne : List (Event Binary64) :=
  (Loop.reserved [JobTask.emailJob]).map .worker ++
    [.worker (.job 0 (.start JobTask.catchAllOnly .awaitable)),
      .worker (.job 0 (.handlerEnds .returned)),
      .call 0 (.callEnds (.error (.rpc ⟨.unavailable, none⟩)) (.finite 0)),
      .worker .shutdown, .worker .shutdownWaitEnds, .worker (.resume 0), .call 0 .wakes,
      .worker .waitEnds, .call 0 (.callEnds (.ok (.ack ⟨"job"⟩)) (.finite 0)), .worker (.resume 0)]

def served : Calling Binary64 :=
  (run? (step .checked (.init 3) .sole true) (init .sole JobTask.catchAllOnly 0) servesOne).getD
    (init .sole JobTask.catchAllOnly 0)

theorem run_servesOne :
    Run (Steps (step .checked (.init 3) .sole true)) (init .sole JobTask.catchAllOnly 0) servesOne
      served := by
  refine (run?_eq_some_iff _ _ _ _).mp ?_
  have runs : (run? (step .checked (.init 3) .sole true) (init .sole JobTask.catchAllOnly 0)
      servesOne).isSome = true := by decide +kernel
  exact (Option.getD_of_ne_none (Option.isSome_iff_ne_none.mp runs) _).symm

end Calling

end SeppPy
