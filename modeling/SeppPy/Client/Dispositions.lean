import SeppPy.Client.Extend
import SeppPy.Worker.Handlers

/-! # Acks and nacks

`ack`, `nack` and `extend` send their request through the retry loop and map the error that comes
out of it alike. The attempt in the request is the one the context was reserved under. What a nack
asks for is a `oneof`, which a directive fills in completely, and its reason is absent from the
message when the text is empty.
-/

namespace SeppPy

/-- A unary RPC during one call of the client: how the `n`-th attempt with a request ends, and what
`random.random()` returns before the sleep that follows it. -/
structure UnaryRpc (F Req Resp : Type) where
  stub : Req → ℕ → Except PyError Resp
  random : ℕ → F

/-- The request of `SeppClient.ack`. -/
def ackRequest (ctx : JobCtx) : Pb.AckRequest :=
  { jobId := ctx.id, attempt := ctx.attempt, workerId := ctx.lease.workerId }

variable (pb : Protobuf)

/-- The `NackRetry` of a directive. -/
def nackRetry (retry : RetryDirective) : Except PyError Pb.NackRetry :=
  if retry.kind = "after" then
    match retry.delay with
    | some delay => .ok ⟨some (.delay (pb.fromTimedelta delay))⟩
    | none => .error (.exception "AssertionError")
  else if retry.kind = "dead_letter" then .ok ⟨some .deadLetter⟩
  else .ok ⟨some .default⟩

/-- The request of `SeppClient.nack`; an unspecified reason stays absent. -/
def nackRequest (ctx : JobCtx) (retry : RetryDirective) (reason : String) :
    Except PyError Pb.NackRequest := do
  let nackRetry ← nackRetry pb retry
  return {
    jobId := ctx.id
    attempt := ctx.attempt
    reason := if reason = "" then none else some reason
    retry := some nackRetry
    workerId := ctx.lease.workerId }

variable {F : Type} [PyFloat F] (policy : RetryPolicy F)

/-- The `try` around the retry loop in `ack`, `nack` and `_extend_inner`. -/
def leaseCall {α : Type} (outcomes : ℕ → Except PyError α) (random : ℕ → F) : Retried F α :=
  let run := withRetry policy RETRYABLE_CODES outcomes random
  ⟨mapLeaseError run.result, run.calls, run.sleeps⟩

/-- `SeppClient.ack`. -/
def SeppClient.ack (rpc : UnaryRpc F Pb.AckRequest Pb.AckResponse) (ctx : JobCtx) :
    Retried F Unit :=
  let run := leaseCall policy (rpc.stub (ackRequest ctx)) rpc.random
  ⟨run.result.map fun _ => (), run.calls, run.sleeps⟩

/-- `SeppClient.nack`. -/
def SeppClient.nack (rpc : UnaryRpc F Pb.NackRequest Pb.NackResponse) (ctx : JobCtx)
    (retry : RetryDirective) (reason : String) : Retried F Bool :=
  match nackRequest pb ctx retry reason with
  | .error err => ⟨.error err, 0, []⟩
  | .ok req =>
    let run := leaseCall policy (rpc.stub req) rpc.random
    ⟨run.result.map Pb.NackResponse.deadLettered, run.calls, run.sleeps⟩

/-! ## The requests -/

variable {pb}

/-- Only a directive that asks for a delay without giving one cannot be sent. -/
theorem nackRetry_error_iff {retry : RetryDirective} {err : PyError} :
    nackRetry pb retry = .error err ↔
      retry = ⟨"after", none⟩ ∧ err = .exception "AssertionError" := by
  obtain ⟨kind, delay⟩ := retry
  unfold nackRetry
  dsimp only
  split_ifs with after deadLetter
  · subst after
    cases delay with
    | none => simp [eq_comm]
    | some delay => simp
  · simp [after]
  · simp [after]

theorem nackRequest_ok_iff {ctx : JobCtx} {retry : RetryDirective} {reason : String}
    {req : Pb.NackRequest} :
    nackRequest pb ctx retry reason = .ok req ↔ ∃ sent, nackRetry pb retry = .ok sent ∧
      req = ⟨ctx.id, ctx.attempt, if reason = "" then none else some reason, some sent,
        ctx.lease.workerId⟩ := by
  unfold nackRequest
  rw [Except.bind_eq_ok_iff]
  constructor
  · rintro ⟨sent, built, same⟩
    exact ⟨sent, built, (Except.ok.inj same).symm⟩
  · rintro ⟨sent, built, rfl⟩
    exact ⟨sent, built, rfl⟩

theorem nackRequest_error_iff {ctx : JobCtx} {retry : RetryDirective} {reason : String}
    {err : PyError} :
    nackRequest pb ctx retry reason = .error err ↔
      retry = ⟨"after", none⟩ ∧ err = .exception "AssertionError" := by
  unfold nackRequest
  rw [Except.bind_eq_error_iff, nackRetry_error_iff]
  constructor
  · rintro (failed | ⟨_, _, built⟩)
    · exact failed
    · contradiction
  · exact .inl

/-! ## The answers -/

section Answers

variable {α : Type}

private theorem mapLeaseError_map {β : Type} (f : α → β) (outcome : Except PyError α) :
    mapLeaseError (outcome.map f) = (mapLeaseError outcome).map f := by
  cases outcome with
  | ok value => rfl
  | error err => cases err <;> rfl

theorem leaseCall_map {β : Type} (policy : RetryPolicy F) (outcomes : ℕ → Except PyError α)
    (random : ℕ → F) (f : α → β) :
    (leaseCall policy (fun n => (outcomes n).map f) random).result =
      (leaseCall policy outcomes random).result.map f := by
  simp only [leaseCall, withRetry_map, mapLeaseError_map]

end Answers

end SeppPy
