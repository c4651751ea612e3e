import SeppPy.Client.Deliveries
import SeppPy.Client.Retry
import SeppPy.Machine.Run

/-! # Extending a lease

A handler extends its lease through its context, the heartbeat through the lease itself and anyone
with a context through the client. All three send the same request through the retry loop. The
first two go through `Lease.extend`, which stores the expiry it was granted; `SeppClient.extend`
calls the RPC directly and leaves the lease as it is.
-/

namespace SeppPy

open Machine

/-- The `Extend` RPC during one call: how the `n`-th attempt with a request ends, and what
`random.random()` returns before the sleep that follows it. -/
structure ExtendRpc (F : Type) where
  stub : Pb.ExtendRequest → ℕ → Except PyError Pb.ExtendResponse
  random : ℕ → F

/-- `raise errors.lease_error_from_rpc(err) from err` around the retry loop. -/
def mapLeaseError {α : Type} : Except PyError α → Except PyError α
  | .error (.rpc err) => .error (.sepp (leaseErrorFromRpc err))
  | outcome => outcome

variable (pb : Protobuf) {F : Type} [PyFloat F] (policy : RetryPolicy F)

/-- The end of `_extend_inner`, once the RPC has succeeded. -/
def decodeExtend (resp : Pb.ExtendResponse) : Except PyError Datetime :=
  match timestampToDatetime pb (resp.leaseExpiresAt.getD {}) with
  | some expiry => .ok expiry
  | none => .error (.sepp (.malformedResponseError "extend returned an invalid lease_expires_at"))

/-- `SeppClient._extend_inner`. -/
def extendInner (rpc : ExtendRpc F) (jobId : String) (attempt : ℕ) (extension : Timedelta)
    (workerId : Option String) : Retried F Datetime :=
  let req : Pb.ExtendRequest :=
    { jobId, attempt, leaseDuration := pb.fromTimedelta extension, workerId }
  let run := withRetry policy RETRYABLE_CODES (rpc.stub req) rpc.random
  ⟨mapLeaseError run.result >>= decodeExtend pb, run.calls, run.sleeps⟩

/-- The lease once a call of `Lease.extend` has ended: only a success is stored. -/
def Lease.extended (lease : Lease) : Except PyError Datetime → Lease
  | .ok newExpiry => { lease with knownExpiryMs := datetimeToMillis newExpiry }
  | .error _ => lease

/-- `Lease.extend`: what it returns or raises, and the lease afterwards. -/
def Lease.extend (rpc : ExtendRpc F) (lease : Lease) (extension : Timedelta) :
    Except PyError Datetime × Lease :=
  let result := (extendInner pb policy rpc lease.jobId lease.attempt extension lease.workerId).result
  (result, lease.extended result)

/-- `JobCtx.extend`. -/
def JobCtx.extend (rpc : ExtendRpc F) (ctx : JobCtx) (extension : Timedelta) :
    Except PyError Datetime × JobCtx :=
  let (result, lease) := ctx.lease.extend pb policy rpc extension
  (result, { ctx with lease })

/-- `SeppClient.extend`. -/
def SeppClient.extend (rpc : ExtendRpc F) (ctx : JobCtx) (extension : Timedelta) :
    Except PyError Datetime :=
  (extendInner pb policy rpc ctx.id ctx.attempt extension ctx.lease.workerId).result

/-! ## What a call is granted -/

theorem decodeExtend_ok_iff {resp : Pb.ExtendResponse} {expiry : Datetime} :
    decodeExtend pb resp = .ok expiry ↔
      (resp.leaseExpiresAt.getD {}).Representable ∧ expiry = (resp.leaseExpiresAt.getD {}).toUtc := by
  simp only [decodeExtend, timestampToDatetime_eq]
  by_cases times : (resp.leaseExpiresAt.getD {}).Representable
  · rw [if_pos times, and_iff_right times]
    exact ⟨fun same => (Except.ok.inj same).symm, fun same => same ▸ rfl⟩
  · rw [if_neg times]
    exact iff_of_false (nomatch ·) fun readable => times readable.1

private theorem mapLeaseError_ok_iff {α : Type} {outcome : Except PyError α} {value : α} :
    mapLeaseError outcome = .ok value ↔ outcome = .ok value := by
  unfold mapLeaseError
  split
  · exact iff_of_false (nomatch ·) (nomatch ·)
  · exact Iff.rfl

/-- The server grants the request this expiry: an attempt that the policy leaves room for is
answered with a time the client can read. -/
def Grants (rpc : ExtendRpc F) (req : Pb.ExtendRequest) (expiry : Datetime) : Prop :=
  ∃ resp : Pb.ExtendResponse, Answers policy RETRYABLE_CODES (rpc.stub req) resp ∧
    (resp.leaseExpiresAt.getD {}).Representable ∧ expiry = (resp.leaseExpiresAt.getD {}).toUtc

private theorem extendInner_ok_iff {rpc : ExtendRpc F} {jobId : String} {attempt : ℕ}
    {extension : Timedelta} {workerId : Option String} {expiry : Datetime} :
    (extendInner pb policy rpc jobId attempt extension workerId).result = .ok expiry ↔
      Grants policy rpc
        { jobId, attempt, leaseDuration := pb.fromTimedelta extension, workerId } expiry := by
  simp only [extendInner, Except.bind_eq_ok_iff, mapLeaseError_ok_iff, withRetry_ok_iff,
    decodeExtend_ok_iff, Grants]

/-! ## Sequences of extensions -/

/-- Who extends the lease. -/
inductive Route
  | jobCtx
  | client
  | heartbeat
deriving DecidableEq, Repr

/-- One extension of a job's lease, with the RPC as it behaves during the call. -/
structure Extension (F : Type) where
  route : Route
  duration : Timedelta
  rpc : ExtendRpc F

/-- A reserved job's context, and the expiry that the server has granted it last. -/
structure Held where
  ctx : JobCtx
  granted : Datetime

namespace Held

/-- The job as `reserve` returns it. -/
def reserved (j : Pb.Job) (ctx : JobCtx) : Held := ⟨ctx, (j.leaseExpiresAt.getD {}).toUtc⟩

/-- What the call returns or raises, and the context it leaves behind. -/
def call (held : Held) (op : Extension F) : Except PyError Datetime × JobCtx :=
  match op.route with
  | .jobCtx => held.ctx.extend pb policy op.rpc op.duration
  | .client => (SeppClient.extend pb policy op.rpc held.ctx op.duration, held.ctx)
  | .heartbeat =>
    let (result, lease) := held.ctx.lease.extend pb policy op.rpc op.duration
    (result, { held.ctx with lease })

/-- The request of the call. -/
def request (held : Held) (op : Extension F) : Pb.ExtendRequest :=
  match op.route with
  | .client => ⟨held.ctx.id, held.ctx.attempt, pb.fromTimedelta op.duration,
      held.ctx.lease.workerId⟩
  | _ => ⟨held.ctx.lease.jobId, held.ctx.lease.attempt, pb.fromTimedelta op.duration,
      held.ctx.lease.workerId⟩

/-- The state after the call. -/
def after (held : Held) (op : Extension F) : Held :=
  let (result, ctx) := held.call pb policy op
  ⟨ctx, match result with
    | .ok expiry => expiry
    | .error _ => held.granted⟩

/-- One extension runs to its end before the next one starts. -/
def Extends (held : Held) (op : Extension F) (next : Held) : Prop := held.after pb policy op = next

/-- The lease knows, in milliseconds, the expiry granted last. -/
def Current (held : Held) : Prop := held.ctx.lease.knownExpiryMs = datetimeToMillis held.granted

/-- After the extension the lease knows the expiry granted last, and a failed one has changed
nothing. -/
def Tracks (held : Held) (op : Extension F) (next : Held) : Prop :=
  next.Current ∧ ∀ err, (held.call pb policy op).1 = .error err →
    next.ctx.lease.knownExpiryMs = held.ctx.lease.knownExpiryMs

/-- The extension does not go through the client with a grant that the lease would have to store. -/
def Stored (held : Held) (op : Extension F) : Prop :=
  op.route = .client → ∀ expiry, Grants policy op.rpc (held.request pb op) expiry →
    datetimeToMillis expiry = held.ctx.lease.knownExpiryMs

variable {pb} {policy} {held next : Held} {op : Extension F}

/-- Every route returns what the server grants to its request. -/
theorem call_ok_iff {expiry : Datetime} :
    (held.call pb policy op).1 = .ok expiry ↔ Grants policy op.rpc (held.request pb op) expiry := by
  obtain ⟨route, duration, rpc⟩ := op
  cases route <;>
    exact extendInner_ok_iff pb policy

/-- Through the lease, a success is stored and a failure is not. -/
theorem ctx_of_lease_call (lease : op.route ≠ .client) :
    (held.call pb policy op).2 =
      { held.ctx with lease := held.ctx.lease.extended (held.call pb policy op).1 } := by
  obtain ⟨route, duration, rpc⟩ := op
  cases route with
  | client => exact absurd rfl lease
  | jobCtx => rfl
  | heartbeat => rfl

/-- Through the client, nothing is stored. -/
theorem ctx_of_client_call (client : op.route = .client) : (held.call pb policy op).2 = held.ctx := by
  simp only [call, client]

/-- A call keeps the lease current unless the client was granted an expiry that it does not
store. -/
theorem tracks_iff (current : held.Current) (taken : held.Extends pb policy op next) :
    held.Tracks pb policy op next ↔ held.Stored pb policy op := by
  obtain rfl := taken
  by_cases client : op.route = .client
  · simp only [Tracks, Stored, Current, after, ctx_of_client_call client, implies_true, and_true, client,
      forall_const]
    cases outcome : (held.call pb policy op).1 with
    | error err =>
      refine iff_of_true current fun expiry granted => ?_
      rw [call_ok_iff.mpr granted] at outcome
      contradiction
    | ok expiry =>
      constructor
      · intro same other granted
        rw [call_ok_iff.mpr granted] at outcome
        cases outcome
        exact same.symm
      · intro same
        exact (same expiry (call_ok_iff.mp outcome)).symm
  · refine iff_of_true ⟨?_, fun err failed => ?_⟩ fun route => absurd route client
    · simp only [Current, after, ctx_of_lease_call client]
      cases (held.call pb policy op).1 with
      | ok expiry => rfl
      | error err => exact current
    · simp only [after, ctx_of_lease_call client, failed, Lease.extended]

/-- A job that `reserve` returns knows the expiry of its own message. -/
theorem current_reserved {j : Pb.Job} {workerId : Option String} {job : Job}
    (decoded : jobFromPb pb j workerId = .ok job) : (reserved j job.ctx).Current := by
  obtain ⟨_, _, _, _, _, _, rfl⟩ := jobFromPb_ok decoded
  rfl

end Held

/-- Whatever is done to the lease of a reserved job, it knows the expiry granted last after every
extension, exactly as long as no extension through the client is granted another expiry than the
one the lease knows. -/
theorem extends_tracked_iff (opts : ReserveOptions) (resp : Pb.ReserveResponse) (jobs : List Job)
    (job : Job) (returned : reserve pb opts (.ok resp) = .ok (some jobs)) (member : job ∈ jobs) :
    ∃ j ∈ resp.jobs, jobFromPb pb j opts.workerId = .ok job ∧
      (Held.reserved j job.ctx).Current ∧ ∀ ops held,
        Run (Ensuring (Held.Extends pb policy) (Held.Tracks pb policy)) (.reserved j job.ctx)
            ops held ↔
          Run (Guarded (Held.Extends pb policy) (Held.Stored pb policy)) (.reserved j job.ctx)
            ops held := by
  obtain ⟨j, found, decoded⟩ := decoded_of_reserve pb returned member
  have start := Held.current_reserved decoded
  refine ⟨j, found, decoded, start, fun ops held => ?_⟩
  apply Run.ensuring_iff Held.Current
  · intro a op b current taken
    exact Held.tracks_iff current taken
  · intro a op b current taken stored
    exact ((Held.tracks_iff current taken).mpr stored).1
  · exact start

/-- A job leased for thirty seconds from the epoch on. -/
def leasedMessage : Pb.Job :=
  { farFutureJob with
    priority := 2
    enqueuedAt := some ⟨0, 0⟩
    leaseExpiresAt := some ⟨30, 0⟩ }

/-- What `reserve` makes of it. -/
def leasedJob : Job where
  payload := none
  ctx := {
    id := "job"
    queue := "emails"
    jobType := "email"
    priority := ⟨2, by decide⟩
    attempt := 1
    maxAttempts := 3
    enqueuedAt := ⟨0, some 0⟩
    custom := .empty
    traceContext := none
    leaseExpiresAt := ⟨30000000, some 0⟩
    scheduledAt := none
    lease := ⟨"job", 1, none, 30000⟩ }

/-- The first attempt is granted a lease until `seconds`. -/
def granting (seconds : ℤ) : ExtendRpc Binary64 :=
  ⟨fun _ _ => .ok ⟨some ⟨seconds, 0⟩⟩, fun _ => .finite 0⟩

private theorem grants_granting {policy : RetryPolicy Binary64} {seconds : ℤ}
    (readable : (⟨seconds, 0⟩ : Pb.Timestamp).Representable)
    (req : Pb.ExtendRequest) {expiry : Datetime} :
    Grants policy (granting seconds) req expiry ↔ expiry = ⟨seconds * 1000000, some 0⟩ := by
  have single : (⟨seconds, 0⟩ : Pb.Timestamp).toUtc = ⟨seconds * 1000000, some 0⟩ := by
    simp [Pb.Timestamp.toUtc]
  constructor
  · rintro ⟨resp, ⟨_, _, _, answered, _⟩, _, rfl⟩
    cases answered
    exact single
  · rintro rfl
    exact ⟨⟨some ⟨seconds, 0⟩⟩, answers_const policy _ _, readable, single.symm⟩

/-- A handler that extends its job to the ninetieth second makes the lease know it. -/
theorem extends_tracked_iff_handler :
    let op : Extension Binary64 := ⟨.jobCtx, 60000000, granting 90⟩
    let held : Held :=
      ⟨{ leasedJob.ctx with lease := ⟨"job", 1, none, 90000⟩ }, ⟨90000000, some 0⟩⟩
    Run (Ensuring (Held.Extends .checked .init) (Held.Tracks .checked .init))
      (.reserved leasedMessage leasedJob.ctx) [op] held := by
  intro op held
  obtain ⟨j, found, _, _, exactly⟩ := extends_tracked_iff .checked
    (.init : RetryPolicy Binary64) emailOptions ⟨[leasedMessage]⟩ [leasedJob] leasedJob rfl (List.mem_singleton_self _)
  obtain rfl := List.mem_singleton.mp found
  have granted : ((Held.reserved leasedMessage leasedJob.ctx).call .checked .init op).1 =
      .ok ⟨90000000, some 0⟩ :=
    Held.call_ok_iff.mpr ((grants_granting (by decide) _).mpr rfl)
  have taken : Held.Extends .checked .init (.reserved leasedMessage leasedJob.ctx) op held := by
    have lease : op.route ≠ .client := nofun
    simp only [Held.Extends, Held.after, Held.ctx_of_lease_call lease, granted]
    rfl
  refine (exactly [op] held).mpr (.single ⟨taken, fun client => ?_⟩)
  contradiction

/-- The same extension through the client leaves the lease at its thirtieth second. -/
theorem client_extend_not_tracked :
    let op : Extension Binary64 := ⟨.client, 60000000, granting 90⟩
    let held : Held := ⟨leasedJob.ctx, ⟨90000000, some 0⟩⟩
    reserve .checked emailOptions (.ok ⟨[leasedMessage]⟩) = .ok (some [leasedJob]) ∧
      Run (Held.Extends .checked .init) (.reserved leasedMessage leasedJob.ctx) [op] held ∧
      ¬ Run (Ensuring (Held.Extends .checked .init) (Held.Tracks .checked .init))
        (.reserved leasedMessage leasedJob.ctx) [op] held := by
  intro op held
  have granted : ((Held.reserved leasedMessage leasedJob.ctx).call .checked .init op).1 =
      .ok ⟨90000000, some 0⟩ :=
    Held.call_ok_iff.mpr ((grants_granting (by decide) _).mpr rfl)
  refine ⟨rfl, .single ?_, fun run => ?_⟩
  · simp only [Held.Extends, Held.after, granted]
    rfl
  · obtain ⟨_, ⟨_, tracked⟩, rest⟩ := Run.cons_iff.mp run
    cases rest
    have current : (30000 : ℤ) = 90000 := tracked.1
    omega

end SeppPy
