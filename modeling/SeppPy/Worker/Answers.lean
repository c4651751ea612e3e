import SeppPy.Worker.Calling
import SeppPy.Worker.Metrics

/-! # What a worker asks and what it is answered

Every request of a disposal call says how the handler of its job task has ended. What the call makes
of the answers is what the function of the client makes of them, and what it returns is what the
worker counts.
-/

namespace SeppPy

open Machine

namespace JobTask

variable {autoExtend : Option AutoExtend} {quiet : Prop} {pb : Protobuf} {t : JobTask} {op : Call}

/-- Why a delivery is nacked, and how. -/
inductive Nacks (t : JobTask) : RetryDirective → String → Prop
  | unhandled (unhandled : t.Unhandled) : Nacks t .DEFAULT "no handler registered for job_type"
  | asked (err : HandlerError)
      (ended : t.handlerEnd = some (.raised (.exception (.handlerError err)))) :
    Nacks t err.directive err.reason
  | raised (text : String)
      (ended : t.handlerEnd = some (.raised (.exception (.other (.ok text))))) :
    Nacks t .DEFAULT ("handler raised: " ++ text)

/-- The message is about the delivery of the task and says how its handler has ended. -/
inductive Asks (pb : Protobuf) (t : JobTask) : LeaseRequest → Prop
  | acks (returned : t.handlerEnd = some .returned) :
    Asks pb t (.ack {
      jobId := t.job.ctx.id
      attempt := t.job.ctx.attempt
      workerId := t.job.ctx.lease.workerId })
  | nacks (directive : RetryDirective) (reason : String) (retry : Pb.NackRetry)
      (why : t.Nacks directive reason) (built : nackRetry pb directive = .ok retry) :
    Asks pb t (.nack {
      jobId := t.job.ctx.id
      attempt := t.job.ctx.attempt
      reason := if reason = "" then none else some reason
      retry := some retry
      workerId := t.job.ctx.lease.workerId })

private theorem raised_of_verdict {how : HandlerEnd} {raised : HandlerException}
    (verdict : how.verdict = some (some raised)) : how = .raised (.exception raised) := by
  revert verdict
  fun_cases HandlerEnd.verdict how with
  | case2 err =>
    rintro ⟨⟩
    rfl
  | case1 | case3 => rintro ⟨⟩

private theorem asks_of_nack {directive : RetryDirective} {reason : String} {req : LeaseRequest}
    (why : t.Nacks directive reason)
    (built : (Call.nack t.job.ctx directive reason).request pb = .ok req) : t.Asks pb req := by
  cases made : nackRequest pb t.job.ctx directive reason with
  | error err => simp [Call.request, made, Except.map] at built
  | ok nack =>
    simp only [Call.request, made, Except.map, Except.ok.injEq] at built
    obtain ⟨retry, sent, rfl⟩ := nackRequest_ok_iff.mp made
    exact built ▸ .nacks directive reason retry why sent

/-- A task that has made a call has not taken its lease for lost, and asks for what its handler has
come to. -/
theorem asks_of_calls {req : LeaseRequest} (phase : t.Phase autoExtend quiet)
    (made : t.calls = [op]) (built : op.request pb = .ok req) :
    t.leaseLost = false ∧ t.Asks pb req := by
  rcases phase.calls_cases with silent | unhandled | ⟨error, disposed⟩
  · rw [made] at silent
    contradiction
  · have calls := unhandled.calls
    rw [made] at calls
    cases calls
    exact ⟨unhandled.leaseLost, asks_of_nack (.unhandled unhandled) built⟩
  · refine ⟨disposed.leaseLost, ?_⟩
    have call : disposal t.job.ctx error = .ok op := by
      apply mem_disposalCalls.mp
      rw [← disposed.calls, made]
      exact List.mem_singleton_self op
    obtain ⟨how, ended, verdict⟩ := disposed.handlerEnd
    cases error with
    | none =>
      cases call
      cases built
      exact .acks (ended.trans (congrArg some (verdict_eq_none verdict)))
    | some raised =>
      obtain rfl := raised_of_verdict verdict
      cases raised with
      | handlerError err =>
        cases call
        exact asks_of_nack (.asked err ended) built
      | other text =>
        cases text with
        | ok text =>
          cases call
          exact asks_of_nack (.raised text ended) built
        | error err => contradiction

end JobTask

namespace Calling

variable {F : Type} [PyFloat F] {pb : Protobuf} {policy : RetryPolicy F} {worker : Worker}
  {eagerGather : Bool} {registry : Registry} {inFlight : ℤ} {es : List (Event F)} {s s' : Calling F}
  {i : ℕ}

/-- A call belongs to a job task, which has made it. -/
theorem Coupled.task_of_call {c : Underway F} (coupled : Coupled pb policy s)
    (found : s.calls i = some c) :
    ∃ t, s.loop.taskAt i = some t ∧ Agrees pb policy t (some c) ∧ t.calls = [c.op] := by
  have agrees := coupled i
  rw [found] at agrees
  cases here : s.loop.taskAt i with
  | none =>
    rw [here] at agrees
    contradiction
  | some t =>
    rw [here] at agrees
    exact ⟨t, rfl, agrees, agrees.made⟩

/-- What a relation between the state and what has been observed keeps in every step, it keeps along a
run. -/
theorem observed_of_run {α : Type} {observe : Calling F → Event F → List α}
    (run : Run (Steps (step pb policy worker eagerGather)) (init worker registry inFlight) es s)
    (inv : Calling F → List α → Prop)
    (keeps : ∀ {a e b seen}, Coupled pb policy a →
      (∀ slot ∈ a.loop.slots, slot.task.Phase worker.autoExtend False) → inv a seen →
      a.step pb policy worker eagerGather e = some b → inv b (seen ++ observe a e))
    (start : inv (init worker registry inFlight) []) :
    inv s (collect (step pb policy worker eagerGather) observe (init worker registry inFlight)
      es) := by
  have guarded : Run (Guarded (Steps (step pb policy worker eagerGather)) fun _ _ => True)
      (init worker registry inFlight) es s := run.guard fun _ _ _ => trivial
  have both := guarded.collect_invariant
    (fun s seen => (∃ es, Run (Steps (step pb policy worker eagerGather))
      (init worker registry inFlight) es s) ∧ inv s seen)
    (fun {a e b seen} before taken => by
      obtain ⟨⟨past, run⟩, here⟩ := before
      obtain ⟨_, own⟩ := exists_loop_run run
      exact ⟨⟨_, run.snoc taken.1⟩, keeps (coupled_of_run run) (Loop.slots_phase own) here taken.1⟩)
    ⟨⟨[], .nil _⟩, start⟩
  exact both.2

/-- Whatever its attempts end in, a disposal call that nothing interrupts ends as `ack` or `nack` does
on stubs that answer so, and the job task ends with it. -/
theorem ends_as_client
    (run : Run (Steps (step pb policy worker eagerGather)) (init worker registry inFlight) es s)
    (c : Underway F) (found : s.calls i = some c) (result : Except PyError Reply)
    (ended : c.result? = some result) (undisturbed : ¬ RetryCall.Interrupted c.past) :
    (∃ t, s.loop.taskAt i = some t ∧ t.calls = [c.op] ∧
      t.pc = .ended (disposalEnd (result.map fun _ => ()))) ∧
    c.Hears pb c.echo ∧ ∀ rpcs, c.Hears pb rpcs → result = c.op.run pb policy rpcs := by
  obtain ⟨t, here, agrees, made⟩ := (coupled_of_run run).task_of_call found
  have reached := agrees.reached c rfl
  exact ⟨⟨t, here, made, agrees.ended c result rfl ended⟩, reached.hears_echo,
    fun rpcs hears => reached.result_eq undisturbed ended hears⟩

/-- The server refuses one attempt and answers all others. -/
def flaky : LeaseRpcs Binary64 where
  ack := {
    stub := fun _ n => if n = 1 then .error (.rpc ⟨.unavailable, none⟩) else .ok ⟨"job"⟩
    random := fun _ => .finite 0 }
  nack := {
    stub := fun _ n => if n = 1 then .error (.rpc ⟨.unavailable, none⟩) else .ok ⟨"job", false⟩
    random := fun _ => .finite 0 }

/-- What has become of the only job's ack. -/
def acked : Underway Binary64 where
  op := .ack JobTask.emailJob.ctx
  state := .ended (.ok (.ack ⟨"job"⟩))
  past := [.callEnds (.error (.rpc ⟨.unavailable, none⟩)) (.finite 0), .wakes,
    .callEnds (.ok (.ack ⟨"job"⟩)) (.finite 0)]

private theorem served_acked : served.calls 0 = some acked := by decide +kernel

private theorem hears_flaky : acked.Hears .checked flaky := by
  intro n outcome r here
  match n with
  | 0 | 1 =>
    cases here
    exact ⟨rfl, rfl⟩
  | n + 2 => cases here

theorem ends_as_client_flaky :
    (∃ t, served.loop.taskAt 0 = some t ∧ t.pc = .ended .returned) ∧
      (.ok .acked : Except PyError Reply) =
        (Call.ack JobTask.emailJob.ctx).run .checked (.init 3) flaky := by
  have undisturbed : ¬ RetryCall.Interrupted acked.past := by
    rintro ⟨err, member⟩
    simp [acked] at member
  obtain ⟨⟨t, here, _, at_pc⟩, _, same⟩ :=
    ends_as_client run_servesOne acked served_acked (.ok .acked) rfl undisturbed
  exact ⟨⟨t, here, at_pc⟩, same flaky hears_flaky⟩

/-! ## What is asked -/

variable (pb policy worker eagerGather) in
/-- The request that is sent in a step, with the number of the job task that it is sent for. -/
def requests (s : Calling F) (e : Event F) : List (ℕ × LeaseRequest) :=
  (s.turn pb policy worker eagerGather e).elim [] fun turn =>
    (turn.2.sent pb).map fun req => (turn.1, req)

/-- The requests that have been sent for the job task with this number. -/
def sentFor (i : ℕ) (sent : List (ℕ × LeaseRequest)) : ℕ := sent.countP fun p => decide (p.1 = i)

variable (pb) in
/-- What has been sent, against the calls. -/
structure Sent (s : Calling F) (sent : List (ℕ × LeaseRequest)) : Prop where
  request : ∀ i req, (i, req) ∈ sent → ∃ c, s.calls i = some c ∧ c.op.request pb = .ok req
  count : ∀ i, sentFor i sent =
    (s.calls i).elim 0 fun c => (RetryCall.heard c.past).length + (c.sent pb).length

@[simp]
theorem sentFor_append (i : ℕ) (first second : List (ℕ × LeaseRequest)) :
    sentFor i (first ++ second) = sentFor i first + sentFor i second := List.countP_append

private theorem sentFor_requests {turn : ℕ × Underway F} {e : Event F}
    (turned : s.turn pb policy worker eagerGather e = some turn) (i : ℕ) :
    sentFor i (s.requests pb policy worker eagerGather e) =
      if i = turn.1 then (turn.2.sent pb).length else 0 := by
  rw [requests, turned, Option.elim_some, sentFor, List.countP_map]
  split
  · next here =>
    rw [List.countP_eq_length]
    intro req _
    simp [here]
  · next other =>
    rw [List.countP_eq_zero]
    intro req _
    simpa using Ne.symm other

theorem Sent.step {sent : List (ℕ × LeaseRequest)} {e : Event F} (before : Sent pb s sent)
    (coupled : Coupled pb policy s)
    (taken : s.step pb policy worker eagerGather e = some s') :
    Sent pb s' (sent ++ s.requests pb policy worker eagerGather e) := by
  have calls := calls_of_step taken
  cases turned : s.turn pb policy worker eagerGather e with
  | none =>
    rw [turned, Option.elim_none] at calls
    simpa only [requests, turned, Option.elim_none, List.append_nil, calls] using
      (⟨calls ▸ before.request, calls ▸ before.count⟩ : Sent pb s' sent)
  | some turn =>
    obtain ⟨j, c⟩ := turn
    rw [turned, Option.elim_some] at calls
    have here : s'.calls j = some c := calls ▸ Function.update_self ..
    have there {i : ℕ} (other : i ≠ j) : s'.calls i = s.calls i :=
      calls ▸ Function.update_of_ne other _ _
    refine ⟨fun i req member => ?_, fun i => ?_⟩
    · rcases List.mem_append.mp member with old | new
      · obtain ⟨c₀, found, built⟩ := before.request i req old
        by_cases same : i = j
        · subst same
          rcases turn_cases turned with ⟨idle, _⟩ | ⟨c₁, e', found', stepped⟩
          · rw [idle] at found
            contradiction
          · obtain rfl := Option.some.inj (found.symm.trans found')
            exact ⟨c, here, Underway.op_step stepped ▸ built⟩
        · exact ⟨c₀, (there same).trans found, built⟩
      · rw [requests, turned, Option.elim_some] at new
        obtain ⟨req', sent, same⟩ := List.mem_map.mp new
        cases same
        exact ⟨c, here, Underway.request_of_sent sent⟩
    · rw [sentFor_append, before.count i, sentFor_requests turned]
      by_cases same : i = j
      · subst same
        rw [if_pos rfl, here, Option.elim_some]
        rcases turn_cases turned with ⟨idle, op, rfl⟩ | ⟨c₁, e', found, stepped⟩
        · rw [idle, Option.elim_none, Underway.past_start]
          rfl
        · have agrees := (coupled.task_of_call found).choose_spec.2.1
          rw [found, Option.elim_some, (agrees.reached c₁ rfl).length_heard_step stepped]
      · rw [if_neg same, there same, Nat.add_zero]

/-- Every request that is sent for a job task, with whichever attempt of its disposal call, is about
the delivery that the task was spawned for and says how its handler has ended. The attempts of one
call send the same request, and at most as often as the policy allows. -/
theorem asks_as_handled
    (run : Run (Steps (Calling.step pb policy worker eagerGather)) (init worker registry inFlight)
      es s) :
    let sent := collect (Calling.step pb policy worker eagerGather)
      (requests pb policy worker eagerGather) (init worker registry inFlight) es
    (∀ i req, (i, req) ∈ sent → (∃ t, s.loop.taskAt i = some t ∧ t.leaseLost = false ∧ t.Asks pb req) ∧
      ∀ req', (i, req') ∈ sent → req' = req) ∧
    ∀ i, sentFor i sent ≤ policy.maxAttempts := by
  intro sent
  have coupled := coupled_of_run run
  have record : Sent pb s sent := observed_of_run run (Sent pb)
    (fun coupled _ before taken => before.step coupled taken)
    ⟨fun _ _ member => absurd member List.not_mem_nil, fun _ => rfl⟩
  refine ⟨fun i req member => ?_, fun i => ?_⟩
  · obtain ⟨c, found, built⟩ := record.request i req member
    obtain ⟨t, here, _, made⟩ := coupled.task_of_call found
    obtain ⟨slot, there, rfl⟩ := Option.map_eq_some_iff.mp here
    obtain ⟨_, own⟩ := exists_loop_run run
    have phase := Loop.slots_phase own slot (List.mem_of_getElem? there)
    refine ⟨⟨slot.task, here, JobTask.asks_of_calls phase made built⟩, fun req' member' => ?_⟩
    obtain ⟨c', found', built'⟩ := record.request i req' member'
    obtain rfl := Option.some.inj (found.symm.trans found')
    exact Except.ok.inj (built'.symm.trans built)
  · rw [record.count i]
    cases found : s.calls i with
    | none => exact Nat.zero_le _
    | some c =>
      obtain ⟨t, _, agrees, _⟩ := coupled.task_of_call found
      exact (agrees.reached c rfl).attempts_le

/-- The handler asks for its job to be retried in a second and a half, and the nack is sent twice. -/
def servesBusy : List (Event Binary64) :=
  (Loop.reserved [JobTask.emailJob]).map .worker ++
    [.worker (.job 0 (.start JobTask.catchAllOnly .awaitable)),
      .worker (.job 0 (.handlerEnds (.raised (.exception (.handlerError
        (.retryAfter "busy" 1500000)))))),
      .call 0 (.callEnds (.error (.rpc ⟨.aborted, none⟩)) (.finite 0)), .call 0 .wakes]

/-- The message of that nack. -/
def busyRequest : Pb.NackRequest where
  jobId := "job"
  attempt := 1
  reason := some "busy"
  retry := some ⟨some (.delay ⟨1, 500000000⟩)⟩

theorem asks_as_handled_busy :
    ∃ s, Run (Steps (step .checked (.init 3 : RetryPolicy Binary64) .sole true))
        (init .sole JobTask.catchAllOnly 0) servesBusy s ∧
      let sent := collect (step .checked (.init 3) .sole true) (requests .checked (.init 3) .sole true)
        (init .sole JobTask.catchAllOnly 0) servesBusy
      sent = [(0, .nack busyRequest), (0, .nack busyRequest)] ∧
        (∃ t, s.loop.taskAt 0 = some t ∧ t.leaseLost = false ∧ t.Asks .checked (.nack busyRequest)) ∧
        sentFor 0 sent ≤ 3 := by
  have runs : (run? (step .checked (.init 3 : RetryPolicy Binary64) .sole true)
      (init .sole JobTask.catchAllOnly 0) servesBusy).isSome = true := by decide +kernel
  obtain ⟨s, found⟩ := Option.isSome_iff_exists.mp runs
  have run := (run?_eq_some_iff _ _ _ _).mp found
  have sent : collect (step .checked (.init 3 : RetryPolicy Binary64) .sole true)
      (requests .checked (.init 3) .sole true) (init .sole JobTask.catchAllOnly 0) servesBusy =
        [(0, .nack busyRequest), (0, .nack busyRequest)] := by decide +kernel
  obtain ⟨asks, bound⟩ := asks_as_handled run
  exact ⟨s, run, sent, (asks 0 _ (sent ▸ List.mem_cons_self)).1, bound 0⟩

end Calling

end SeppPy
