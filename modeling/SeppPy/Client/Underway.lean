import SeppPy.Client.Dispositions
import SeppPy.Client.RetrySteps

/-! # Acks and nacks under way

A call of `ack` or `nack` is suspended where its retry loop is: an attempt is on its way, or the loop
sleeps before the next one. How an attempt ends is up to the server and the network, and part of the
event. A nack whose directive cannot be put into a request ends before its first attempt.

Whatever the attempts end in, a call that nothing interrupts ends as the function does on a stub that
answers so.
-/

namespace SeppPy

open Machine

/-- The request of an ack or a nack. -/
inductive LeaseRequest
  | ack (req : Pb.AckRequest)
  | nack (req : Pb.NackRequest)
deriving DecidableEq, Repr

/-- The response to an ack or a nack. -/
inductive LeaseResponse
  | ack (resp : Pb.AckResponse)
  | nack (resp : Pb.NackResponse)
deriving DecidableEq, Repr

/-- What `ack` and `nack` return. -/
inductive Reply
  | acked
  | nacked (deadLettered : Bool)
deriving DecidableEq, Repr

def LeaseResponse.reply : LeaseResponse → Reply
  | .ack _ => .acked
  | .nack resp => .nacked resp.deadLettered

/-- The stubs of the two RPCs during one call. -/
structure LeaseRpcs (F : Type) where
  ack : UnaryRpc F Pb.AckRequest Pb.AckResponse
  nack : UnaryRpc F Pb.NackRequest Pb.NackResponse

namespace Call

/-- The request that the call sends with each of its attempts. -/
def request (pb : Protobuf) : Call → Except PyError LeaseRequest
  | .ack ctx => .ok (.ack (ackRequest ctx))
  | .nack ctx retry reason => (nackRequest pb ctx retry reason).map .nack

/-- A response is of the kind that the call has asked for. -/
def Fits : Call → Except PyError LeaseResponse → Prop
  | .ack _, .ok (.nack _) => False
  | .nack _ _ _, .ok (.ack _) => False
  | _, _ => True

instance : DecidableRel Fits
  | .ack _, .ok (.ack _) => .isTrue trivial
  | .ack _, .ok (.nack _) => .isFalse id
  | .nack _ _ _, .ok (.ack _) => .isFalse id
  | .nack _ _ _, .ok (.nack _) => .isTrue trivial
  | .ack _, .error _ => .isTrue trivial
  | .nack _ _ _, .error _ => .isTrue trivial

variable {F : Type} [PyFloat F] (pb : Protobuf) (policy : RetryPolicy F) (rpcs : LeaseRpcs F)

/-- What `SeppClient.ack` or `SeppClient.nack` returns or raises. -/
def run : Call → Except PyError Reply
  | .ack ctx => (SeppClient.ack policy rpcs.ack ctx).result.map fun _ => .acked
  | .nack ctx retry reason =>
    (SeppClient.nack pb policy rpcs.nack ctx retry reason).result.map .nacked

/-- How the attempts of the call end. -/
def outcomes : Call → ℕ → Except PyError LeaseResponse
  | .ack ctx, n => (rpcs.ack.stub (ackRequest ctx) n).map .ack
  | .nack ctx retry reason, n =>
    nackRequest pb ctx retry reason >>= fun req => (rpcs.nack.stub req n).map .nack

/-- The random numbers of the call. -/
def random : Call → ℕ → F
  | .ack _ => rpcs.ack.random
  | .nack _ _ _ => rpcs.nack.random

variable {pb policy rpcs} {op : Call}

/-- A call whose request can be built is a call of the retry loop. -/
theorem run_eq {req : LeaseRequest} (built : op.request pb = .ok req) :
    op.run pb policy rpcs =
      (leaseCall policy (op.outcomes pb rpcs) (op.random rpcs)).result.map LeaseResponse.reply := by
  cases op with
  | ack ctx =>
    have answered := leaseCall_map policy (rpcs.ack.stub (ackRequest ctx)) rpcs.ack.random
      LeaseResponse.ack
    have outcomes : (Call.ack ctx).outcomes pb rpcs =
        fun n => (rpcs.ack.stub (ackRequest ctx) n).map .ack := rfl
    simp only [outcomes, random, answered, run, SeppClient.ack, Except.map_map]
    rfl
  | nack ctx retry reason =>
    cases made : nackRequest pb ctx retry reason with
    | error err => simp [request, made, Except.map] at built
    | ok sent =>
      have answered := leaseCall_map policy (rpcs.nack.stub sent) rpcs.nack.random
        LeaseResponse.nack
      have outcomes : (Call.nack ctx retry reason).outcomes pb rpcs =
          fun n => (rpcs.nack.stub sent n).map .nack := by
        funext n
        rw [Call.outcomes, made]
        rfl
      simp only [outcomes, random, answered, run, SeppClient.nack, made, Except.map_map]
      rfl

/-- The request of an ack can always be built. -/
private theorem nack_of_unbuilt {err : PyError} (unbuilt : op.request pb = .error err) :
    ∃ ctx retry reason, op = .nack ctx retry reason ∧
      nackRequest pb ctx retry reason = .error err := by
  cases op with
  | ack ctx => contradiction
  | nack ctx retry reason =>
    refine ⟨ctx, retry, reason, rfl, ?_⟩
    cases made : nackRequest pb ctx retry reason with
    | ok req => simp [request, made, Except.map] at unbuilt
    | error err' => simpa [request, made, Except.map] using unbuilt

/-- Only a directive without its delay cannot be sent. -/
theorem raised_of_unbuilt {err : PyError} (unbuilt : op.request pb = .error err) :
    err = .exception "AssertionError" := by
  obtain ⟨ctx, retry, reason, rfl, raised⟩ := nack_of_unbuilt unbuilt
  exact (nackRequest_error_iff.mp raised).2

/-- Otherwise it raises at once. -/
theorem run_of_unbuilt {err : PyError} (unbuilt : op.request pb = .error err) :
    op.run pb policy rpcs = .error err := by
  obtain ⟨ctx, retry, reason, rfl, raised⟩ := nack_of_unbuilt unbuilt
  simp only [run, SeppClient.nack, raised]
  rfl

end Call

/-- A call of `ack` or `nack` that has begun; `past` records how its `await`s have ended. -/
structure Underway (F : Type) where
  op : Call
  state : RetryCall F LeaseResponse
  past : List (RetryCall.Event F LeaseResponse)
deriving DecidableEq

namespace Underway

variable {F : Type} [PyFloat F] (pb : Protobuf) (policy : RetryPolicy F)

/-- The call, up to its first attempt. -/
def start (op : Call) : Underway F :=
  match op.request pb with
  | .ok _ => ⟨op, .start policy, []⟩
  | .error err => ⟨op, .ended (.error err), []⟩

/-- What the call has returned or raised. -/
def result? (c : Underway F) : Option (Except PyError Reply) :=
  match c.state with
  | .ended result => some ((mapLeaseError result).map LeaseResponse.reply)
  | _ => none

/-- The request that is on its way. -/
def sent (c : Underway F) : List LeaseRequest :=
  match c.state, c.op.request pb with
  | .calling _ _, .ok req => [req]
  | _, _ => []

/-- What the call awaits may end so. -/
def Fitting (op : Call) : RetryCall.Event F LeaseResponse → Prop
  | .callEnds outcome _ => op.Fits outcome
  | _ => True

instance (op : Call) : DecidablePred (Fitting (F := F) op)
  | .callEnds outcome _ => inferInstanceAs (Decidable (op.Fits outcome))
  | .wakes => .isTrue trivial
  | .interrupted _ => .isTrue trivial

/-- What the call awaits ends, and it goes on to its next `await`. -/
def step (e : RetryCall.Event F LeaseResponse) (c : Underway F) : Option (Underway F) :=
  if Fitting c.op e then
    (c.state.step policy RETRYABLE_CODES e).map fun state =>
      { c with state, past := c.past ++ [e] }
  else none

/-- The stubs answer as the call has been answered so far. -/
def Hears (rpcs : LeaseRpcs F) (c : Underway F) : Prop :=
  ∀ n outcome r, (RetryCall.heard c.past)[n]? = some (outcome, r) →
    c.op.outcomes pb rpcs (n + 1) = outcome ∧ c.op.random rpcs (n + 1) = r

/-- Stubs that answer so, and with an error afterwards. -/
def echo (c : Underway F) : LeaseRpcs F :=
  let answer (n : ℕ) := (RetryCall.heard c.past)[n - 1]?
  let random (n : ℕ) := (answer n).elim (PyFloat.ofRat 0) Prod.snd
  { ack := {
      stub := fun _ n =>
        match answer n with
        | some (.ok (.ack resp), _) => .ok resp
        | some (.error err, _) => .error err
        | _ => .error .cancelledError
      random }
    nack := {
      stub := fun _ n =>
        match answer n with
        | some (.ok (.nack resp), _) => .ok resp
        | some (.error err, _) => .error err
        | _ => .error .cancelledError
      random } }

/-- How a call has got to where it is. -/
inductive Reached : Underway F → Prop
  | runs {op : Call} {req : LeaseRequest} {state : RetryCall F LeaseResponse}
      {past : List (RetryCall.Event F LeaseResponse)} (built : op.request pb = .ok req)
      (run : Run (Steps (RetryCall.step policy RETRYABLE_CODES)) (.start policy) past state)
      (fits : ∀ e ∈ past, Fitting op e) : Reached ⟨op, state, past⟩
  | unbuilt {op : Call} {err : PyError} (unbuilt : op.request pb = .error err) :
    Reached ⟨op, .ended (.error err), []⟩

variable {pb policy} {c c' : Underway F} {e : RetryCall.Event F LeaseResponse}

@[simp]
theorem op_start (op : Call) : (start pb policy op).op = op := by
  unfold start
  split <;> rfl

@[simp]
theorem past_start (op : Call) : (start pb policy op).past = [] := by
  unfold start
  split <;> rfl

theorem reached_start (op : Call) : Reached pb policy (start pb policy op) := by
  unfold start
  split
  · next built => exact .runs built (.nil _) nofun
  · next unbuilt => exact .unbuilt unbuilt

private theorem step_eq (taken : c.step policy e = some c') :
    Fitting c.op e ∧ ∃ state, c.state.step policy RETRYABLE_CODES e = some state ∧
      c' = { c with state, past := c.past ++ [e] } := by
  unfold step at taken
  split at taken
  · next fits =>
    obtain ⟨state, stepped, rfl⟩ := Option.map_eq_some_iff.mp taken
    exact ⟨fits, state, stepped, rfl⟩
  · contradiction

theorem op_step (taken : c.step policy e = some c') : c'.op = c.op := by
  obtain ⟨_, state, _, rfl⟩ := step_eq taken
  rfl

theorem Reached.step (reached : Reached pb policy c) (taken : c.step policy e = some c') :
    Reached pb policy c' := by
  obtain ⟨fits, state, stepped, rfl⟩ := step_eq taken
  cases reached with
  | runs built run before =>
    refine .runs built (run.snoc stepped) fun e' member => ?_
    rcases List.mem_append.mp member with old | new
    · exact before e' old
    · exact List.mem_singleton.mp new ▸ fits
  | unbuilt => cases RetryCall.moves_of_step stepped

/-- A call that has ended takes no step. -/
theorem result?_of_step (taken : c.step policy e = some c') : c.result? = none := by
  obtain ⟨_, state, stepped, _⟩ := step_eq taken
  unfold result?
  split
  · next ended =>
    rw [ended] at stepped
    cases RetryCall.moves_of_step stepped
  · rfl

/-- A call that has not ended can take a step, however its attempt ends if one is on its way. -/
theorem exists_step (policy : RetryPolicy F) (underWay : c.result? = none) :
    (∃ attempt backoff, c.state = .calling attempt backoff ∧
      ∀ outcome random, c.op.Fits outcome →
        ∃ c', c.step policy (.callEnds outcome random) = some c') ∨
    ∃ c', c.step policy .wakes = some c' := by
  cases state : c.state with
  | calling attempt backoff =>
    refine .inl ⟨attempt, backoff, rfl, fun outcome random fits => ?_⟩
    have fitting : Fitting c.op (.callEnds outcome random) := fits
    exact ⟨_, by rw [step, if_pos fitting, state, RetryCall.step, Option.map_some]⟩
  | sleeping attempt backoff delay =>
    have fitting : Fitting c.op (.wakes : RetryCall.Event F LeaseResponse) := trivial
    exact .inr ⟨_, by rw [step, if_pos fitting, state, RetryCall.step, Option.map_some]⟩
  | ended result => simp [result?, state] at underWay

/-- There are stubs that answer so. -/
theorem Reached.hears_echo (reached : Reached pb policy c) : c.Hears pb c.echo := by
  cases reached with
  | unbuilt =>
    intro n outcome r here
    cases here
  | @runs op req state past built run fits =>
    intro n outcome r here
    have fit : op.Fits outcome := by
      obtain ⟨e, member, heard⟩ := List.mem_filterMap.mp (List.mem_of_getElem? here)
      cases e with
      | callEnds =>
        cases heard
        exact fits _ member
      | wakes | interrupted => cases heard
    cases op with
    | ack ctx =>
      simp only [Call.outcomes, Call.random, echo, Nat.add_sub_cancel, here, Option.elim_some,
        and_true]
      cases outcome with
      | error err => rfl
      | ok resp =>
        cases resp with
        | ack resp => rfl
        | nack resp => exact fit.elim
    | nack ctx retry reason =>
      have made : ∃ sent, nackRequest pb ctx retry reason = .ok sent := by
        cases made : nackRequest pb ctx retry reason with
        | ok sent => exact ⟨sent, rfl⟩
        | error err => simp [Call.request, made, Except.map] at built
      obtain ⟨sent, made⟩ := made
      simp only [Call.outcomes, Call.random, echo, Nat.add_sub_cancel, here, Option.elim_some,
        and_true, made]
      cases outcome with
      | error err => rfl
      | ok resp =>
        cases resp with
        | ack resp => exact fit.elim
        | nack resp => rfl

/-- A call that nothing has interrupted ends as its function does on stubs that answer so. -/
theorem Reached.result_eq {result : Except PyError Reply} {rpcs : LeaseRpcs F}
    (reached : Reached pb policy c) (undisturbed : ¬ RetryCall.Interrupted c.past)
    (ended : c.result? = some result) (hears : c.Hears pb rpcs) :
    result = c.op.run pb policy rpcs := by
  cases reached with
  | @runs op req state past built run fits =>
    cases state with
    | calling | sleeping => contradiction
    | ended final =>
      have follows := RetryCall.follows_of_heard run undisturbed (op.outcomes pb rpcs)
        (op.random rpcs) fun n outcome r here => by
          have number : RetryCall.ahead (.start policy : RetryCall F LeaseResponse) + n = n + 1 :=
            Nat.add_comm 1 n
          rw [number]
          exact hears n outcome r here
      have loop := (RetryCall.withRetry_of_run _ _ follows).1
      rw [Call.run_eq built]
      cases ended
      rw [loop]
      rfl
  | @unbuilt op err unbuilt =>
    have raised : err = .exception "AssertionError" := Call.raised_of_unbuilt unbuilt
    subst raised
    cases ended
    exact (Call.run_of_unbuilt unbuilt).symm

/-- The last attempt has been answered with this response. -/
def Answered (c : Underway F) (resp : LeaseResponse) : Prop :=
  ∃ before random, c.past = before ++ [.callEnds (.ok resp) random]

/-- A call returns just if its last attempt is answered, and what the response says. -/
theorem Reached.result?_eq_ok_iff {reply : Reply} (reached : Reached pb policy c) :
    c.result? = some (.ok reply) ↔ ∃ resp, c.Answered resp ∧ reply = resp.reply := by
  cases reached with
  | @runs op req state past built run fits =>
    constructor
    · intro returned
      cases state with
      | calling | sleeping => contradiction
      | ended final =>
        cases final with
        | error err => cases err <;> cases returned
        | ok resp =>
          cases returned
          exact ⟨resp, (RetryCall.returned_iff run).mp rfl, rfl⟩
    · rintro ⟨resp, answered, rfl⟩
      obtain rfl := (RetryCall.returned_iff run).mpr answered
      rfl
  | @unbuilt op err =>
    refine iff_of_false (by cases err <;> simp [result?, mapLeaseError, Except.map]) ?_
    rintro ⟨resp, ⟨before, random, same⟩, _⟩
    simp at same

/-- A call that has just begun has not returned. -/
theorem result?_start (op : Call) (reply : Reply) :
    (start pb policy op).result? ≠ some (.ok reply) := by
  intro returned
  obtain ⟨resp, ⟨before, random, same⟩, _⟩ := (reached_start op).result?_eq_ok_iff.mp returned
  simp at same

/-- It is answered with a response of its own kind. -/
theorem Reached.fits_of_answered {resp : LeaseResponse} (reached : Reached pb policy c)
    (answered : c.Answered resp) : c.op.Fits (.ok resp) := by
  obtain ⟨before, random, same⟩ := answered
  have last : .callEnds (.ok resp) random ∈ c.past :=
    same ▸ List.mem_append_right _ List.mem_cons_self
  cases reached with
  | runs built run fits => exact fits _ last
  | unbuilt => contradiction

/-- It has been asked for. -/
theorem Reached.request_of_answered {resp : LeaseResponse} (reached : Reached pb policy c)
    (answered : c.Answered resp) : ∃ req, c.op.request pb = .ok req := by
  obtain ⟨before, random, same⟩ := answered
  cases reached with
  | runs built => exact ⟨_, built⟩
  | unbuilt => simp at same

/-- A call sends no more than its policy allows. -/
theorem Reached.attempts_le (reached : Reached pb policy c) :
    (RetryCall.heard c.past).length + (c.sent pb).length ≤ policy.maxAttempts := by
  cases reached with
  | @runs op req state past built run fits =>
    have sent : (sent pb ⟨op, state, past⟩).length = state.underWay := by
      cases state <;> simp [Underway.sent, built, RetryCall.underWay]
    rw [sent]
    exact RetryCall.attempts_le run
  | unbuilt => exact Nat.zero_le _

omit [PyFloat F] in
/-- What a call sends is its request. -/
theorem request_of_sent {req : LeaseRequest} (sent : req ∈ c.sent pb) :
    c.op.request pb = .ok req := by
  unfold Underway.sent at sent
  split at sent
  · next built => exact List.mem_singleton.mp sent ▸ built
  · contradiction

/-- Each request that has been sent is answered when its attempt ends. -/
theorem Reached.length_heard_step (reached : Reached pb policy c)
    (taken : c.step policy e = some c') :
    (RetryCall.heard c'.past).length = (RetryCall.heard c.past).length + (c.sent pb).length := by
  obtain ⟨_, state, stepped, rfl⟩ := step_eq taken
  rw [RetryCall.heard_append, List.length_append, Nat.add_left_cancel_iff]
  cases reached with
  | @runs op req before past built =>
    cases RetryCall.moves_of_step stepped <;>
      simp [Underway.sent, built, RetryCall.heard, RetryCall.Event.heard?]
  | unbuilt => cases RetryCall.moves_of_step stepped

end Underway

end SeppPy
